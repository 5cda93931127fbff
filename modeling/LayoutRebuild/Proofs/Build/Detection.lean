import LayoutRebuild.Proofs.Build.Resolved
import LayoutRebuild.Proofs.Log.Saved

/-!
# What is found out from the fingerprints

With the descriptors listed and the fingerprints of the previous build at hand, the files reported as
changed are those whose content does not have the recorded hash and those that cannot be read, and the
files reported as removed are those that were recorded and are gone (`Arguments.Detects`).  Which texts
the paths have does not matter: a report stands for the name of a file in the folder.
-/

namespace LayoutRebuild

variable {fs : FileSystem} {args found : Arguments} {p folder : Path} {name : String}

namespace Changes

variable {recorded : Table String ContentHash} {current : Fingerprints}

/-- The readable files that pass a test on the recorded and the current hash. -/
theorem mem_readable (keep : Option ContentHash → ContentHash → Bool) :
    p ∈ ((current.hashes.entries.filter fun e => keep (recorded.get? e.1) e.2).map fun e =>
        folder.join e.1) ↔
      ∃ name hash, p = folder.join name ∧ current.hashes.get? name = some hash ∧
        keep (recorded.get? name) hash = true := by
  simp only [List.mem_map, List.mem_filter, Prod.exists, Table.mem_entries_iff]
  constructor
  · rintro ⟨name, hash, ⟨hcurrent, hkeep⟩, rfl⟩
    exact ⟨name, hash, rfl, hcurrent, hkeep⟩
  · rintro ⟨name, hash, rfl, hcurrent, hkeep⟩
    exact ⟨name, hash, ⟨hcurrent, hkeep⟩, rfl⟩

/-- The unreadable files that pass a test on whether they were recorded. -/
theorem mem_unreadable (keep : Bool → Bool) :
    p ∈ ((current.unreadable.toList.filter fun name => keep (recorded.contains name)).map folder.join) ↔
      ∃ name ∈ current.unreadable, p = folder.join name ∧ keep (recorded.contains name) = true := by
  simp only [List.mem_map, List.mem_filter, SortedSet.mem_toList]
  constructor
  · rintro ⟨name, ⟨hname, hkeep⟩, rfl⟩
    exact ⟨name, hname, rfl, hkeep⟩
  · rintro ⟨name, hname, rfl, hkeep⟩
    exact ⟨name, ⟨hname, hkeep⟩, rfl⟩

/-- The changed files are those with another hash than the recorded one, and those that could not be
read. -/
theorem mem_outOfDate : p ∈ (since recorded folder current).outOfDate ↔ ∃ name, p = folder.join name ∧
    (name ∈ current.unreadable ∨
      ∃ hash, current.hashes.get? name = some hash ∧ recorded.get? name ≠ some hash) := by
  simp only [outOfDate, since, mem_sortPaths, List.mem_append]
  rw [mem_readable fun before _ => before.isNone,
    mem_readable fun before now => before.any (· != now), mem_unreadable fun known => !known,
    mem_unreadable fun known => known]
  constructor
  · rintro ((⟨name, hash, rfl, hcurrent, hkeep⟩ | ⟨name, hname, rfl, -⟩) |
      ⟨name, hash, rfl, hcurrent, hkeep⟩ | ⟨name, hname, rfl, -⟩)
    · refine ⟨name, rfl, .inr ⟨hash, hcurrent, ?_⟩⟩
      rw [Option.isNone_iff_eq_none.mp hkeep]
      simp
    · exact ⟨name, rfl, .inl hname⟩
    · refine ⟨name, rfl, .inr ⟨hash, hcurrent, fun hsame => ?_⟩⟩
      simp [hsame] at hkeep
    · exact ⟨name, rfl, .inl hname⟩
  · rintro ⟨name, rfl, hname | ⟨hash, hcurrent, hdiffers⟩⟩
    · cases hknown : recorded.contains name with
      | false => exact .inl (.inr ⟨name, hname, rfl, by rw [hknown]; rfl⟩)
      | true => exact .inr (.inr ⟨name, hname, rfl, hknown⟩)
    · cases hrecorded : recorded.get? name with
      | none => exact .inl (.inl ⟨name, hash, rfl, hcurrent, by simp [hrecorded]⟩)
      | some before =>
        refine .inr (.inl ⟨name, hash, rfl, hcurrent, ?_⟩)
        rw [hrecorded] at hdiffers
        simpa [hrecorded] using hdiffers

theorem mem_removed : p ∈ (since recorded folder current).removed ↔ ∃ name, p = folder.join name ∧
    name ∈ recorded ∧ name ∉ current.hashes ∧ name ∉ current.unreadable := by
  have hcontains (name : String) : (!current.contains name) = true ↔
      name ∉ current.hashes ∧ name ∉ current.unreadable := by
    rw [Fingerprints.contains, Bool.not_or, Bool.and_eq_true, Bool.not_eq_true', Bool.not_eq_true',
      Table.contains_eq_false_iff, Table.contains_eq_false_iff]
  simp only [removed, since, List.mem_map, List.mem_filter, Table.mem_keys_iff, hcontains]
  constructor
  · rintro ⟨name, hgone, rfl⟩
    exact ⟨name, rfl, hgone⟩
  · rintro ⟨name, rfl, hgone⟩
    exact ⟨name, hgone, rfl⟩

end Changes

/-- What is reported for the descriptors of a folder: `found` lists the files whose content does not
have the recorded hash, and those that cannot be read, as changed, and the files that were recorded and
are gone as removed. -/
structure Arguments.Detects (fs : FileSystem) (args found : Arguments) : Prop where
  same : found = { args with outOfDate := found.outOfDate, removed := found.removed }
  outOfDate : ∀ p, p ∈ found.outOfDate ↔ ∃ name, p = args.descriptorFolder.join name ∧
    (name ∈ unreadDescriptors fs args.descriptorFolder ∨ ∃ bytes,
      (readableContents fs args.descriptorFolder).get? name = some bytes ∧
      (args.recordedFingerprints fs).get? name ≠ some (ContentHash.ofContent bytes))
  removed : ∀ p, p ∈ found.removed ↔ ∃ name, p = args.descriptorFolder.join name ∧
    name ∈ args.recordedFingerprints fs ∧ name ∉ descriptorContents fs args.descriptorFolder

/-- The changes that are found out are those of the contents. -/
theorem Arguments.detects (h : args.withDetectedChanges fs = .ok found) :
    Arguments.Detects fs args found := by
  unfold withDetectedChanges at h
  split at h
  · cases h
  next present hpresent =>
    cases h
    have hunread : (Fingerprints.ofPaths fs present.paths).unreadable =
        unreadDescriptors fs args.descriptorFolder := by
      rw [unreadDescriptors, hpresent]
    refine ⟨rfl, fun p => ?_, fun p => ?_⟩
    · rw [Changes.mem_outOfDate, hashes_present hpresent, hunread]
      simp only [Table.get?_map, Option.map_eq_some_iff, exists_exists_and_eq_and]
    · rw [Changes.mem_removed, hashes_present hpresent, hunread]
      refine exists_congr fun name => and_congr_right fun _ => and_congr_right fun _ => ?_
      rw [mem_descriptorContents_iff, not_or]
      refine and_congr_left fun _ => not_congr ?_
      rw [Table.mem_iff, Table.mem_iff, Table.get?_map, Option.isSome_map]

/-- The file of the given name in the folder is reported: as changed if it is there, and as removed if
it is not. -/
def Arguments.Reports (found : Arguments) (contents : Table String FileContent) (name : String) :
    Prop :=
  if name ∈ contents then found.descriptorFolder.join name ∈ found.outOfDate
  else found.descriptorFolder.join name ∈ found.removed

namespace Arguments.Detects

theorem descriptorFolder_eq (h : Detects fs args found) :
    found.descriptorFolder = args.descriptorFolder := by
  rw [h.same]

theorem logFolder_eq (h : Detects fs args found) : found.logFolder = args.logFolder := by
  rw [h.same]

theorem readableLog?_eq (h : Detects fs args found) :
    found.readableLog? fs = args.readableLog? fs := by
  rw [h.same]
  rfl

theorem upstreamClasses_eq (h : Detects fs args found) :
    upstreamClasses fs found = upstreamClasses fs args := by
  rw [h.same]
  rfl

/-- What is reported as changed is there. -/
theorem exists_of_mem_outOfDate (h : Detects fs args found) (hp : p ∈ found.outOfDate) :
    ∃ name ∈ descriptorContents fs args.descriptorFolder, p = args.descriptorFolder.join name := by
  obtain ⟨name, rfl, hunread | ⟨bytes, hread, -⟩⟩ := (h.outOfDate p).mp hp
  · exact ⟨name, mem_descriptorContents_iff.mpr (.inr hunread), rfl⟩
  · exact ⟨name, mem_descriptorContents_iff.mpr (.inl (Table.mem_of_get? hread)), rfl⟩

/-- A file name is reported as changed if the file cannot be read, or does not have the recorded
hash. -/
theorem mem_outOfDate_join (h : Detects fs args found) (hname : Path.IsName name) :
    args.descriptorFolder.join name ∈ found.outOfDate ↔
      name ∈ unreadDescriptors fs args.descriptorFolder ∨ ∃ bytes,
        (readableContents fs args.descriptorFolder).get? name = some bytes ∧
        (args.recordedFingerprints fs).get? name ≠ some (ContentHash.ofContent bytes) := by
  constructor
  · intro hp
    obtain ⟨name₁, hmem, heq₁⟩ := h.exists_of_mem_outOfDate hp
    obtain rfl := Path.join_inj hname (isName_of_mem_descriptorContents hmem) heq₁
    obtain ⟨name₂, heq₂, hchanged⟩ := (h.outOfDate _).mp hp
    have hmem₂ : name₂ ∈ descriptorContents fs args.descriptorFolder :=
      mem_descriptorContents_iff.mpr
        (hchanged.symm.imp_left fun ⟨_, hread, _⟩ => Table.mem_of_get? hread)
    rwa [Path.join_inj hname (isName_of_mem_descriptorContents hmem₂) heq₂]
  · exact fun hchanged => (h.outOfDate _).mpr ⟨name, rfl, hchanged⟩

/-- A file name is reported as removed if it was recorded and is gone, provided that file names were
recorded and nothing else. -/
theorem mem_removed_join (h : Detects fs args found)
    (hrecorded : ∀ name ∈ args.recordedFingerprints fs, Path.IsName name) (hname : Path.IsName name) :
    args.descriptorFolder.join name ∈ found.removed ↔ name ∈ args.recordedFingerprints fs ∧
      name ∉ descriptorContents fs args.descriptorFolder := by
  rw [h.removed]
  constructor
  · rintro ⟨name', heq, hknown, hgone⟩
    rw [Path.join_inj hname (hrecorded name' hknown) heq]
    exact ⟨hknown, hgone⟩
  · rintro ⟨hknown, hgone⟩
    exact ⟨name, rfl, hknown, hgone⟩

/-- A file is reported exactly if it cannot be read, or if what is recorded of it is not the hash of
what is there. -/
theorem reports_iff (h : Detects fs args found)
    (hrecorded : ∀ name ∈ args.recordedFingerprints fs, Path.IsName name) (hname : Path.IsName name) :
    found.Reports (descriptorContents fs args.descriptorFolder) name ↔
      name ∈ unreadDescriptors fs args.descriptorFolder ∨ (args.recordedFingerprints fs).get? name ≠
        ((readableContents fs args.descriptorFolder).get? name).map ContentHash.ofContent := by
  unfold Arguments.Reports
  rw [h.descriptorFolder_eq]
  split
  next hmem =>
    rw [h.mem_outOfDate_join hname]
    rcases mem_descriptorContents_iff.mp hmem with hread | hunread
    · obtain ⟨bytes, hbytes⟩ := Table.mem_iff_exists.mp hread
      simp only [hbytes, Option.some.injEq, exists_eq_left', Option.map_some]
    · exact iff_of_true (.inl hunread) (.inl hunread)
  next hgone =>
    rw [h.mem_removed_join hrecorded hname, and_iff_left hgone]
    rw [mem_descriptorContents_iff, not_or] at hgone
    rw [or_iff_right hgone.2, Table.get?_eq_none_iff.mpr hgone.1, Table.mem_iff,
      Option.isSome_iff_ne_none, Option.map_none]

/-- A build that writes its log leaves a log that can be read. -/
theorem readableLog?_finish (h : Detects fs args found) {written : FileSystem} {r : Resolution}
    {fresh next : BuildLog} (saved : r.persist fs args.logFolder fresh = (written, .ok next)) :
    args.readableLog? (r.finish fs found fresh).1 = some next := by
  rw [← h.logFolder_eq] at saved
  rw [readableLog?_eq_some, Arguments.logPath, ← h.logFolder_eq]
  exact Resolution.read_finish saved

end Arguments.Detects

/-- With a folder that can be listed, the changes can be found out. -/
theorem exists_withDetectedChanges {present : PathSet}
    (h : descriptorFiles fs args.descriptorFolder = .ok present) :
    ∃ found, args.withDetectedChanges fs = .ok found := by
  rw [Arguments.withDetectedChanges, h]
  exact ⟨_, rfl⟩

/-- A file system with one descriptor in `info`, and in `log` a log file or nothing. -/
def FileSystem.ofDescriptor (content : ByteArray) (log : Option ByteArray) : FileSystem where
  nodes := Table.ofList <|
    [(["info"], .folder), (["info", "a-layout.xml"], .file (.bytes content)), (["log"], .folder)] ++
      log.toList.map fun text => (["log", "binder_log.json"], .file (.bytes text))
  workingFolder := []

/-- What a build in that file system is given. -/
def Arguments.ofDescriptor : Arguments :=
  ⟨"com", ⟨"info"⟩, [], ⟨"log"⟩, none, true, [], []⟩

theorem isName_descriptor : Path.IsName "a-layout.xml" := by decide

section OfDescriptor

variable (content : ByteArray) (text : Option ByteArray)

theorem mem_ofDescriptor {loc : Location} {node : Node}
    (h : (FileSystem.ofDescriptor content text).nodes.get? loc = some node) :
    loc = ["info"] ∨ loc = ["info", "a-layout.xml"] ∨ loc = ["log"] ∨
      loc = ["log", "binder_log.json"] := by
  have hmem := Table.mem_of_get?_ofList h
  rw [List.mem_append, List.mem_map] at hmem
  rcases hmem with hmem | ⟨_, -, heq⟩
  · simp only [List.mem_cons, List.not_mem_nil, or_false, Prod.mk.injEq] at hmem
    rcases hmem with ⟨rfl, -⟩ | ⟨rfl, -⟩ | ⟨rfl, -⟩ <;> simp
  · cases heq
    simp

theorem wellNamed_ofDescriptor : (FileSystem.ofDescriptor content text).WellNamed := by
  have hinfo : Path.IsName "info" := by decide
  have hlog : Path.IsName "log" := by decide
  have hfile : Path.IsName "binder_log.json" := by decide
  refine ⟨fun loc node hnode => ?_, by simp [FileSystem.ofDescriptor]⟩
  rcases mem_ofDescriptor content text hnode with rfl | rfl | rfl | rfl
  · simpa using hinfo
  · simpa using ⟨hinfo, isName_descriptor⟩
  · simpa using hlog
  · simpa using ⟨hlog, hfile⟩

theorem locate_ofDescriptor :
    (FileSystem.ofDescriptor content text).locate ⟨"info"⟩ = .ok ["info"] := by
  cases text <;> rfl

theorem listed_ofDescriptor :
    ∃ present, descriptorFiles (.ofDescriptor content text) ⟨"info"⟩ = .ok present := by
  apply exists_descriptorFiles (locate_ofDescriptor content text)
  cases text <;> rfl

/-- The one descriptor is all that the folder lists. -/
theorem get?_ofDescriptor (name : String) :
    (descriptorContents (.ofDescriptor content text) ⟨"info"⟩).get? name =
      if name = "a-layout.xml" then some (.bytes content) else none := by
  have hnamed := wellNamed_ofDescriptor content text
  split
  next hname =>
    rw [hname, get?_descriptorContents hnamed (by decide) isName_descriptor (by decide)]
    cases text <;> rfl
  next hother =>
    rw [Table.get?_eq_none_iff]
    intro hmem
    obtain ⟨loc, node, hloc, hnode⟩ := node_of_mem_descriptorContents hnamed hmem
    rw [locate_ofDescriptor, Except.ok.injEq] at hloc
    subst hloc
    rcases mem_ofDescriptor content text hnode with h | h | h | h
    · simp at h
    · exact hother (by simpa using h)
    · simp at h
    · simp at h

theorem get?_readable_ofDescriptor (name : String) :
    (readableContents (.ofDescriptor content text) ⟨"info"⟩).get? name =
      if name = "a-layout.xml" then some content else none := by
  rw [get?_readableContents (wellNamed_ofDescriptor content text), get?_ofDescriptor]
  split <;> rfl

theorem unread_ofDescriptor (name : String) :
    name ∉ unreadDescriptors (.ofDescriptor content text) ⟨"info"⟩ := by
  rw [mem_unreadDescriptors_iff (wellNamed_ofDescriptor content text), get?_ofDescriptor]
  split <;> simp

/-- The build of a module with one descriptor sees the descriptor. -/
theorem resolves_ofDescriptor :
    ∃ found r diagnostics,
      Arguments.ofDescriptor.withDetectedChanges (.ofDescriptor content text) = .ok found ∧
      resolve (.ofDescriptor content text) found = .ok (r, diagnostics) ∧
      (Path.mk "info").join "a-layout.xml" ∈ r.presentFiles.paths := by
  obtain ⟨present, hpresent⟩ := listed_ofDescriptor content text
  have hdetected : ∃ found,
      Arguments.ofDescriptor.withDetectedChanges (.ofDescriptor content text) = .ok found :=
    exists_withDetectedChanges hpresent
  obtain ⟨found, hfound⟩ := hdetected
  have hlisted : descriptorFiles (.ofDescriptor content text) found.descriptorFolder =
      .ok present := by
    rw [(Arguments.detects hfound).descriptorFolder_eq]
    exact hpresent
  obtain ⟨r, diagnostics, hresolve⟩ := exists_resolve hlisted
  refine ⟨found, r, diagnostics, hfound, hresolve, ?_⟩
  obtain ⟨present', hpresent', houtcome⟩ := resolve_cases hresolve
  rw [hlisted, Except.ok.injEq] at hpresent'
  rw [houtcome.presentFiles_eq, ← hpresent',
    mem_present_iff (wellNamed_ofDescriptor content text) hpresent]
  exact ⟨_, Table.mem_of_get? (get?_ofDescriptor content text "a-layout.xml"), rfl⟩

/-- A log file next to the descriptor is read. -/
theorem readableLog?_ofDescriptor (log : BuildLog) :
    Arguments.ofDescriptor.readableLog?
      (.ofDescriptor content (some (LogFile.ofLog log).toText.toUTF8)) = some log :=
  readableLog?_eq_some.mpr (BuildLog.read_of_text rfl)

/-- The log can be written. -/
theorem persist_ofDescriptor (r : Resolution) (fresh : BuildLog) :
    (r.persist (.ofDescriptor content text) ⟨"log"⟩ fresh).2 =
      .ok (r.nextLog (.ofDescriptor content text) fresh) := by
  cases text <;> rfl

end OfDescriptor

end LayoutRebuild
