import LayoutRebuild.Proofs.Build.Detection
import LayoutRebuild.Proofs.Build.Invalidation

/-!
# Which descriptors are read again

With the changes found out from the fingerprints, a family is reported exactly if one of its files cannot
be read, has another content than the recorded one, is new or is gone.  What a build reads again are then
all files of the invalidated families that are there, and no others (`mem_families_filesToConsider`).

Whoever reports the changes, a family is read again as a whole or not at all, as long as no file is
reported as changed that is not there (`family_read_whole`).
-/

namespace LayoutRebuild

namespace Situation

variable {s : Situation} {p : Path} {layout : String}

/-- The files to consider are reported or of an invalidated family, and none of them is gone. -/
theorem holds_filesToConsider : s.filesToConsider.holds p = true ↔
    (∃ q, q.components = p.components ∧ ((q ∈ s.outOfDate ∧ q.family?.isSome) ∨
      (q ∈ s.present.paths ∧ ∃ family ∈ s.invalidated, q.family? = some family))) ∧
    ∀ gone ∈ s.removed, gone.components ≠ p.components := by
  have hgone (q : Path) : (!(PathSet.ofPaths s.removed).holds q) = true ↔
      ∀ gone ∈ s.removed, gone.components ≠ q.components := by
    rw [Bool.not_eq_true', ← Bool.not_eq_true, PathSet.holds_ofPaths]
    simp
  have hstale (q : Path) : q.family?.any s.invalidated.contains = true ↔
      ∃ family ∈ s.invalidated, q.family? = some family := by
    cases q.family? with
    | none => simp
    | some family =>
      simp only [Option.any_some, Option.some.injEq]
      exact ⟨fun h => ⟨family, h, rfl⟩, fun ⟨_, h, heq⟩ => heq ▸ h⟩
  rw [filesToConsider, PathSet.holds_ofPaths]
  simp only [List.mem_filter, List.mem_append, hgone, hstale]
  constructor
  · rintro ⟨q, ⟨hq, hkept⟩, hsame⟩
    exact ⟨⟨q, hsame, hq⟩, hsame ▸ hkept⟩
  · rintro ⟨⟨q, hsame, hq⟩, hkept⟩
    exact ⟨q, ⟨hq, hsame ▸ hkept⟩, hsame⟩

/-- Whatever is read again is of an invalidated family. -/
theorem mem_invalidated_of_considered (h : s.filesToConsider.holds p = true)
    (hfamily : p.family? = some layout) : layout ∈ s.invalidated := by
  obtain ⟨⟨q, hsame, ⟨hchanged, -⟩ | ⟨-, family, hstale, hq⟩⟩, -⟩ := holds_filesToConsider.mp h
  · exact mem_invalidated_of_reported
      ⟨q, .inl hchanged, (Path.family?_congr hsame).trans hfamily⟩
  · rw [Path.family?_congr hsame, hfamily, Option.some.injEq] at hq
    rwa [hq]

/-- Without references and without a report, no file is read again. -/
theorem holds_filesToConsider_eq_false (hrefers : ∀ a b, ¬ s.previous.references.Refers a b)
    (hreported : ∀ layout, ¬ s.Reported layout) : s.filesToConsider.holds p = false := by
  rw [← Bool.not_eq_true, holds_filesToConsider]
  rintro ⟨⟨q, -, ⟨hchanged, hfamily⟩ | ⟨-, family, hstale, -⟩⟩, -⟩
  · obtain ⟨family, hfamily⟩ := Option.isSome_iff_exists.mp hfamily
    exact hreported family ⟨q, .inl hchanged, hfamily⟩
  · exact hreported family ((mem_invalidated_iff_reported hrefers).mp hstale)

end Situation

section Detected

variable {fs : FileSystem} {args found : Arguments} {log : BuildLog} {present : PathSet}
  {family : String}

/-- What a build that detects its changes goes on from: a readable log with the fingerprints of files,
and a descriptor folder that has been listed. -/
structure Detected (fs : FileSystem) (args found : Arguments) (log : BuildLog) (present : PathSet) :
    Prop where
  detects : args.Detects fs found
  readable : args.readableLog? fs = some log
  names : ∀ name ∈ log.fingerprints, Path.IsName name
  listed : descriptorFiles fs args.descriptorFolder = .ok present

namespace Detected

/-- A family is reported if one of its files cannot be read, has another content than the recorded one,
is new or is gone. -/
theorem reported_iff (h : Detected fs args found log present) :
    (situation fs found log present).Reported family ↔
      ∃ name, DescriptorName.family? name = some family ∧
        (name ∈ unreadDescriptors fs args.descriptorFolder ∨
          ((readableContents fs args.descriptorFolder).get? name).map ContentHash.ofContent ≠
            log.fingerprints.get? name) := by
  have hrecorded := recordedFingerprints_eq h.readable
  constructor
  · rintro ⟨p, hchanged | hgone, hfamily⟩
    · obtain ⟨name, hmem, rfl⟩ := h.detects.exists_of_mem_outOfDate hchanged
      have hname := isName_of_mem_descriptorContents hmem
      rw [Path.family?_join _ hname] at hfamily
      refine ⟨name, hfamily, ((h.detects.mem_outOfDate_join hname).mp hchanged).imp_right ?_⟩
      rintro ⟨bytes, hbytes, hdiffers⟩
      rw [hbytes, ← hrecorded]
      exact Ne.symm hdiffers
    · obtain ⟨name, rfl, hknown, hgone⟩ := (h.detects.removed p).mp hgone
      rw [hrecorded] at hknown
      rw [Path.family?_join _ (h.names name hknown)] at hfamily
      rw [mem_descriptorContents_iff, not_or] at hgone
      refine ⟨name, hfamily, .inr ?_⟩
      rw [Table.get?_eq_none_iff.mpr hgone.1]
      exact (Option.ne_none_iff_isSome.mpr hknown).symm
  · rintro ⟨name, hfamily, hchanged⟩
    rw [← hrecorded] at hchanged
    have hreports : (Path.IsName name → found.Reports
        (descriptorContents fs args.descriptorFolder) name) := fun hname =>
      (h.detects.reports_iff (hrecorded ▸ h.names) hname).mpr (hchanged.imp_right Ne.symm)
    unfold Arguments.Reports at hreports
    rw [h.detects.descriptorFolder_eq] at hreports
    by_cases hmem : name ∈ descriptorContents fs args.descriptorFolder
    · have hname := isName_of_mem_descriptorContents hmem
      rw [if_pos hmem] at hreports
      exact ⟨_, .inl (hreports hname), (Path.family?_join _ hname).trans hfamily⟩
    · have hgone := hmem
      rw [mem_descriptorContents_iff, not_or] at hgone
      rw [or_iff_right hgone.2, Table.get?_eq_none_iff.mpr hgone.1] at hchanged
      have hknown : name ∈ args.recordedFingerprints fs :=
        Option.isSome_iff_ne_none.mpr hchanged.symm
      have hname := h.names name (hrecorded ▸ hknown)
      rw [if_neg hmem] at hreports
      exact ⟨_, .inr (hreports hname), (Path.family?_join _ hname).trans hfamily⟩

/-- If every descriptor can be read, and the recorded contents are those that are there, no family is
reported. -/
theorem not_reported (h : Detected fs args found log present)
    (hunread : ∀ name, name ∉ unreadDescriptors fs args.descriptorFolder)
    (hsame : ∀ name, log.fingerprints.get? name =
      ((readableContents fs args.descriptorFolder).get? name).map ContentHash.ofContent)
    (family : String) : ¬ (situation fs found log present).Reported family := by
  rw [h.reported_iff]
  rintro ⟨name, -, hname | hdiffers⟩
  · exact hunread name hname
  · exact hdiffers (hsame name).symm

/-- Every file of an invalidated family that is there is read again. -/
theorem holds_filesToConsider (h : Detected fs args found log present) {p : Path}
    (hp : p ∈ present.paths) (hfamily : p.family? = some family)
    (hstale : family ∈ (situation fs found log present).invalidated) :
    (situation fs found log present).filesToConsider.holds p = true := by
  refine Situation.holds_filesToConsider.mpr
    ⟨⟨p, rfl, .inr ⟨hp, family, hstale, hfamily⟩⟩, fun gone hgone hsame => ?_⟩
  obtain ⟨name, rfl, hknown, habsent⟩ := (h.detects.removed gone).mp hgone
  rw [recordedFingerprints_eq h.readable] at hknown
  have hname : p.fileName? = some name := by
    rw [← Path.fileName?_congr hsame, Path.fileName?_join _ (h.names name hknown)]
  exact habsent ((mem_descriptorContents h.listed).mpr ⟨p, hp, hname⟩)

/-- A file that is there and cannot be read is to be read again every time. -/
theorem holds_of_unread (h : Detected fs args found log present) {p : Path}
    (hp : p ∈ present.paths) (hunread : ∀ bytes, fs.read p ≠ .ok bytes) :
    (situation fs found log present).filesToConsider.holds p = true := by
  obtain ⟨name, _, family, hname, -, hparse, hfamily⟩ := descriptor_of_mem h.listed hp
  have hmem := (mem_unreadDescriptors h.listed).mpr ⟨p, hp, hname, hunread⟩
  have hreported := h.reported_iff.mpr ⟨name, hparse, .inl hmem⟩
  exact h.holds_filesToConsider hp hfamily (Situation.mem_invalidated_of_reported hreported)

/-- A build reads again the files of the invalidated families that are there. -/
theorem mem_families_filesToConsider (h : Detected fs args found log present) :
    family ∈ (situation fs found log present).filesToConsider.families ↔
      family ∈ (situation fs found log present).invalidated ∧ family ∈ present.families := by
  constructor
  · intro hmem
    obtain ⟨p, hp, hfamily⟩ := PathSet.mem_families.mp hmem
    have hholds := PathSet.holds_ofPaths.mpr ⟨p, PathSet.mem_of_mem_ofPaths hp, rfl⟩
    obtain ⟨⟨q, hsame, hq⟩, -⟩ := Situation.holds_filesToConsider.mp hholds
    rw [← Path.family?_congr hsame] at hfamily
    rcases hq with ⟨hchanged, -⟩ | ⟨hpresent, family', hstale, hfamily'⟩
    · refine ⟨Situation.mem_invalidated_of_reported ⟨q, .inl hchanged, hfamily⟩, ?_⟩
      obtain ⟨name, hname, rfl⟩ := h.detects.exists_of_mem_outOfDate hchanged
      rw [Path.family?_join _ (isName_of_mem_descriptorContents hname)] at hfamily
      exact (mem_present_families h.listed).mpr ⟨name, hname, hfamily⟩
    · rw [hfamily, Option.some.injEq] at hfamily'
      rw [hfamily']
      refine ⟨hstale, PathSet.mem_families.mpr ⟨q, hpresent, ?_⟩⟩
      rw [hfamily, hfamily']
  · rintro ⟨hstale, hpresent⟩
    obtain ⟨p, hp, hfamily⟩ := PathSet.mem_families.mp hpresent
    have hholds := h.holds_filesToConsider hp hfamily hstale
    obtain ⟨q, hq, hsame⟩ := PathSet.exists_mem_of_holds hholds
    exact PathSet.mem_families.mpr ⟨q, hq, (Path.family?_congr hsame).trans hfamily⟩

end Detected

end Detected

/-! ## Whole families -/

/-- A file of the family that is there and is not reported as removed. -/
structure Situation.Stays (s : Situation) (family : String) (p : Path) : Prop where
  present : p ∈ s.present.paths
  family?_eq : p.family? = some family
  not_gone : ∀ gone ∈ s.removed, gone.components ≠ p.components

namespace Situation

variable {s : Situation} {p : Path} {family : String}

/-- A file that stays is read again exactly if its family is invalidated. -/
theorem Stays.holds_iff (h : s.Stays family p) :
    s.filesToConsider.holds p = true ↔ family ∈ s.invalidated := by
  refine ⟨fun hread => mem_invalidated_of_considered hread h.family?_eq, fun hstale => ?_⟩
  exact holds_filesToConsider.mpr
    ⟨⟨p, rfl, .inr ⟨h.present, family, hstale, h.family?_eq⟩⟩, h.not_gone⟩

/-- Of a family that is not invalidated no file is reported, and its class stays. -/
theorem class_stays (hvalid : family ∉ s.invalidated) : ¬ s.Reported family ∧
    ∀ c, s.previous.classes.get? family = some c → s.keptClasses.get? family = some c := by
  constructor
  · intro hreported
    exact hvalid (mem_invalidated_of_reported hreported)
  · intro c hc
    exact get?_keptClasses_eq_some_iff.mpr ⟨hc, hvalid⟩

/-- The files to consider are there, if those that are reported as changed are. -/
theorem present_of_considered (hpresent : ∀ q ∈ s.outOfDate, s.present.holds q = true)
    (hlisted : ∀ q ∈ s.present.paths, s.present.holds q = true)
    (h : s.filesToConsider.holds p = true) : s.present.holds p = true := by
  obtain ⟨⟨q, hsame, hq⟩, -⟩ := holds_filesToConsider.mp h
  have hplace : s.present.holds p = s.present.holds q := by
    rw [PathSet.holds, PathSet.holds, hsame]
  rw [hplace]
  rcases hq with ⟨hchanged, -⟩ | ⟨hthere, -⟩
  · exact hpresent q hchanged
  · exact hlisted q hthere

end Situation

/-- Of the files of a family that stay, an incremental build reads all again or none.  It reads none
only if no file of the family is reported and its class, if it has one, stays.  If the files that are
reported as changed are there, then it reads only files that are there, and none that is reported as
removed. -/
theorem family_read_whole {fs : FileSystem} {args : Arguments} {log : BuildLog} {present : PathSet}
    (h : Resumes fs args log present) (hpresent : ∀ p ∈ args.outOfDate, present.holds p = true) :
    ∃ r diagnostics, resolve fs args = .ok (r, diagnostics) ∧
      (∀ family, (∃ p, (situation fs args log present).Stays family p) →
        ((∀ p, (situation fs args log present).Stays family p → r.filesToConsider.holds p = true) ∨
          ∀ p, (situation fs args log present).Stays family p →
            r.filesToConsider.holds p = false) ∧
        ((∀ p, (situation fs args log present).Stays family p →
            r.filesToConsider.holds p = false) →
          (∀ p, p ∈ args.outOfDate ∨ p ∈ args.removed → p.family? ≠ some family) ∧
            ∀ c, log.classes.get? family = some c →
              r.unchangedLog.classes.get? family = some c)) ∧
      ∀ p, r.filesToConsider.holds p = true →
        present.holds p = true ∧ ∀ gone ∈ args.removed, gone.components ≠ p.components := by
  obtain ⟨diagnostics, hresolve⟩ := h.resolve
  refine ⟨_, diagnostics, hresolve, ?_, ?_⟩
  · rintro family ⟨p, hp⟩
    by_cases hstale : family ∈ (situation fs args log present).invalidated
    · constructor
      · exact .inl fun q hq => hq.holds_iff.mpr hstale
      · intro hnone
        have hread := hp.holds_iff.mpr hstale
        exact absurd (hread.symm.trans (hnone p hp)) (by decide)
    · obtain ⟨hunreported, hkept⟩ := Situation.class_stays hstale
      constructor
      · right
        intro q hq
        exact eq_false_of_ne_true fun hread => hstale (hq.holds_iff.mp hread)
      · intro _
        exact ⟨fun q hq hfamily => hunreported ⟨q, hq, hfamily⟩, hkept⟩
  · intro p hread
    constructor
    · refine Situation.present_of_considered hpresent ?_ hread
      exact fun q hq => holds_of_mem_present h.listed hq
    · exact (Situation.holds_filesToConsider.mp hread).2

/-- A file system with a log and with a layout in two variants. -/
def FileSystem.ofVariants (log : BuildLog) : FileSystem :=
  (FileSystem.ofDescriptor "one".toUTF8 (some (LogFile.ofLog log).toText.toUTF8)).setNode
    ["info", "a-layout-land.xml"] (.file (.bytes "two".toUTF8))

/-- In that file system, both variants are listed. -/
theorem listed_ofVariants (log : BuildLog) : ∃ present,
    descriptorFiles (.ofVariants log) ⟨"info"⟩ = .ok present ∧
      (Path.mk "info").join "a-layout.xml" ∈ present.paths ∧
      (Path.mk "info").join "a-layout-land.xml" ∈ present.paths := by
  have hinfo : Path.IsName "info" := by decide
  have hland : Path.IsName "a-layout-land.xml" := by decide
  have hnamed : (FileSystem.ofVariants log).WellNamed :=
    (wellNamed_ofDescriptor _ _).setNode (by simpa using ⟨hinfo, hland⟩) _
  have hloc : (FileSystem.ofVariants log).locate ⟨"info"⟩ = .ok ["info"] := rfl
  obtain ⟨present, hpresent⟩ := exists_descriptorFiles hloc rfl
  have hmem {name : String} {content : ByteArray} (hname : Path.IsName name)
      (hfamily : (DescriptorName.family? name).isSome)
      (hread : (FileSystem.ofVariants log).read ((Path.mk "info").join name) = .ok content) :
      (Path.mk "info").join name ∈ present.paths :=
    (mem_present_iff hnamed hpresent).mpr
      ⟨name, mem_descriptorContents_of_read hnamed (by decide) hname hfamily hread, rfl⟩
  have hplain : (FileSystem.ofVariants log).read ((Path.mk "info").join "a-layout.xml") =
      .ok "one".toUTF8 := rfl
  have hvariant : (FileSystem.ofVariants log).read ((Path.mk "info").join "a-layout-land.xml") =
      .ok "two".toUTF8 := rfl
  exact ⟨present, hpresent, hmem isName_descriptor (by decide) hplain,
    hmem hland (by decide) hvariant⟩

/-- A change of the plain variant is reported: the other one is read again along with it. -/
theorem variant_read_along : ∃ r diagnostics,
    resolve (.ofVariants .empty)
      { Arguments.ofDescriptor with outOfDate := [(Path.mk "info").join "a-layout.xml"] } =
        .ok (r, diagnostics) ∧
    r.filesToConsider.holds ((Path.mk "info").join "a-layout-land.xml") = true := by
  obtain ⟨present, hlisted, hplain, hland⟩ := listed_ofVariants .empty
  have hresumes : Resumes (.ofVariants .empty)
      { Arguments.ofDescriptor with outOfDate := [(Path.mk "info").join "a-layout.xml"] } .empty
      present := ⟨rfl, BuildLog.read_of_text rfl, hlisted⟩
  have hthere : ∀ p ∈ [(Path.mk "info").join "a-layout.xml"], present.holds p = true := by
    intro p hp
    rw [List.mem_singleton.mp hp]
    exact holds_of_mem_present hlisted hplain
  obtain ⟨r, diagnostics, hresolve, hwhole, -⟩ := family_read_whole hresumes hthere
  have hstays : Situation.Stays (situation (.ofVariants .empty)
      { Arguments.ofDescriptor with outOfDate := [(Path.mk "info").join "a-layout.xml"] } .empty
      present) "a" ((Path.mk "info").join "a-layout-land.xml") :=
    ⟨hland, by decide, fun gone hgone => by cases hgone⟩
  obtain ⟨hall | hnone, hquiet⟩ := hwhole "a" ⟨_, hstays⟩
  · exact ⟨r, diagnostics, hresolve, hall _ hstays⟩
  · exact absurd (by decide) ((hquiet hnone).1 _ (.inl List.mem_cons_self))

end LayoutRebuild
