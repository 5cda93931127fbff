import LayoutRebuild.Proofs.Build.Considered

/-!
# Which class of a layout is offered

A class that stays is offered as it was.  Any other layout is offered the class that another module has
for it, but only if it has no descriptor (`Outcome.get?_existingClasses`).  So of a family that is read
again neither the stale class is offered nor one of another module (`local_hides_upstream`).
-/

namespace LayoutRebuild

variable {fs : FileSystem} {args : Arguments} {r : Resolution} {diagnostics : List Diagnostic}
  {present : PathSet} {layout : String} {p : Path}

theorem Situation.mem_localLayouts {s : Situation} : layout ∈ s.localLayouts ↔
    layout ∈ s.present.families ∨ layout ∈ s.keptClasses := by
  rw [localLayouts, SortedSet.mem_union, SortedSet.mem_ofList, Table.mem_keys_iff]

namespace Resolution

theorem get?_visibleClasses (own dependencyClasses : ClassTable) (localLayouts : SortedSet String)
    (layout : String) : (visibleClasses own dependencyClasses localLayouts).get? layout =
      (own.get? layout).or
        (if layout ∈ localLayouts then none else dependencyClasses.get? layout) := by
  rw [visibleClasses, Table.get?_override, Table.get?_filter]
  congr 1
  split
  next hlocal =>
    have hcontains : localLayouts.contains layout = true := hlocal
    cases dependencyClasses.get? layout <;> simp [hcontains]
  next hother =>
    have hcontains := Table.contains_eq_false_iff.mpr hother
    cases dependencyClasses.get? layout <;> simp [hcontains]

namespace Outcome

/-- Whatever kind of build it is, a class that stays is offered, and next to it those of other modules
for the layouts without a descriptor. -/
theorem get?_existingClasses (h : Outcome fs args present r) (layout : String) :
    r.existingClasses.get? layout = (r.unchangedLog.classes.get? layout).or
      (if layout ∈ present.families then none else (upstreamClasses fs args).get? layout) := by
  cases h with
  | anew reason old unused => exact get?_visibleClasses ∅ _ _ layout
  | onward log incremental readable =>
    have hvisible := get?_visibleClasses (situation fs args log present).keptClasses
      (situation fs args log present).dependencyClasses
      (situation fs args log present).localLayouts layout
    refine hvisible.trans ?_
    cases hkept : (situation fs args log present).keptClasses.get? layout with
    | some c => simp [ofSituation, Situation.unchangedLog, hkept]
    | none =>
      have hlocal : layout ∈ (situation fs args log present).localLayouts ↔
          layout ∈ present.families := by
        rw [Situation.mem_localLayouts, or_iff_left (Table.get?_eq_none_iff.mp hkept)]
        rfl
      simp only [ofSituation, Situation.unchangedLog, hkept, hlocal]
      rfl

/-- What stays is from the log that the build goes on from. -/
theorem previous_of_kept (h : Outcome fs args present r) {c : BindingClass}
    (hkept : r.unchangedLog.classes.get? layout = some c) : args.incremental = true ∧
      ∃ log, BuildLog.read fs args.logPath = .ok (some log) ∧ log.classes.get? layout = some c := by
  cases h with
  | anew => cases hkept
  | onward log incremental readable =>
    exact ⟨incremental, log, readableLog?_eq_some.mp readable, Situation.get?_previous_of_kept hkept⟩

/-- What is read again has a descriptor, and no class of it stays. -/
theorem not_kept_of_considered (h : Outcome fs args present r)
    (hlisted : descriptorFiles fs args.descriptorFolder = .ok present)
    (hthere : ∀ q ∈ args.outOfDate, present.holds q = true)
    (hread : r.filesToConsider.holds p = true) (hfamily : p.family? = some layout) :
    layout ∈ present.families ∧ layout ∉ r.unchangedLog.classes := by
  obtain ⟨paths, hpaths⟩ := present_eq_ofPaths hlisted
  cases h with
  | anew reason old unused =>
    have hholds : present.holds p = true := hread
    rw [hpaths] at hholds ⊢
    exact ⟨PathSet.mem_families_of_holds hholds hfamily, Table.not_mem_empty layout⟩
  | onward log incremental readable =>
    have hholds : present.holds p = true := Situation.present_of_considered hthere
      (fun q hq => holds_of_mem_present hlisted hq) hread
    have hpresent : layout ∈ present.families := by
      rw [hpaths] at hholds ⊢
      exact PathSet.mem_families_of_holds hholds hfamily
    refine ⟨hpresent, fun hkept => ?_⟩
    have hstale := Situation.mem_invalidated_of_considered hread hfamily
    obtain ⟨hclass, hfresh⟩ := Situation.mem_keptClasses_iff.mp hkept
    exact hfresh ((Situation.mem_invalidated_iff hclass).mp hstale)

end Outcome

end Resolution

/-- Of a layout whose class stays, the class of the previous log is offered.  Of any other layout nothing
is offered if it has a descriptor, and otherwise what other modules have for it.  If the files that are
reported as changed are there, then no class is offered for a family that is read again.  What is offered
without staying comes from another module, and its layout has no descriptor. -/
theorem local_hides_upstream (h : resolve fs args = .ok (r, diagnostics)) :
    descriptorFiles fs args.descriptorFolder = .ok r.presentFiles ∧
    (∀ layout ∈ r.unchangedLog.classes, args.incremental = true ∧ ∃ log c,
      BuildLog.read fs args.logPath = .ok (some log) ∧ log.classes.get? layout = some c ∧
        r.existingClasses.get? layout = some c) ∧
    (∀ layout, layout ∉ r.unchangedLog.classes → r.existingClasses.get? layout =
      if layout ∈ r.presentFiles.families then none else (upstreamClasses fs args).get? layout) ∧
    ((∀ p ∈ args.outOfDate, r.presentFiles.holds p = true) →
      ∀ p layout, r.filesToConsider.holds p = true → p.family? = some layout →
        layout ∉ r.existingClasses) ∧
    ∀ layout c, layout ∉ r.unchangedLog.classes → r.existingClasses.get? layout = some c →
      (upstreamClasses fs args).get? layout = some c ∧
        ∀ p ∈ r.presentFiles.paths, p.family? ≠ some layout := by
  obtain ⟨present, hlisted, houtcome⟩ := resolve_cases h
  have hunkept {layout : String} (hnot : layout ∉ r.unchangedLog.classes) :
      r.existingClasses.get? layout =
        if layout ∈ present.families then none else (upstreamClasses fs args).get? layout := by
    rw [houtcome.get?_existingClasses, Table.get?_eq_none_iff.mpr hnot, Option.none_or]
  rw [houtcome.presentFiles_eq]
  refine ⟨hlisted, fun layout hkept => ?_, fun layout hnot => hunkept hnot,
    fun hthere p layout hread hfamily => ?_, fun layout c hnot hoffered => ?_⟩
  · obtain ⟨c, hc⟩ := Table.mem_iff_exists.mp hkept
    obtain ⟨hincremental, log, hlog, hbefore⟩ := houtcome.previous_of_kept hc
    refine ⟨hincremental, log, c, hlog, hbefore, ?_⟩
    rw [houtcome.get?_existingClasses, hc, Option.some_or]
  · obtain ⟨hpresent, hnot⟩ := houtcome.not_kept_of_considered hlisted hthere hread hfamily
    rw [← Table.get?_eq_none_iff, hunkept hnot, if_pos hpresent]
  · rw [hunkept hnot] at hoffered
    split at hoffered
    · cases hoffered
    next habsent =>
      refine ⟨hoffered, fun p hp hfamily => ?_⟩
      exact habsent (PathSet.mem_families.mpr ⟨p, hp, hfamily⟩)

/-! ## A layout of the module and of another one -/

/-- A file system with a descriptor, a log and the classes of another module. -/
def FileSystem.ofUpstream (log : BuildLog) (upstream : ClassTable) : FileSystem :=
  ((FileSystem.ofDescriptor "one".toUTF8 (some (LogFile.ofLog log).toText.toUTF8)).setNode
    ["deps"] .folder).setNode ["deps", (ArtifactName.mk "x").fileName]
      (.file (.bytes (LogFile.ofClasses upstream).toText.toUTF8))

/-- What a build in that file system is given if the descriptor has changed. -/
def Arguments.ofUpstream : Arguments :=
  { Arguments.ofDescriptor with
    dependencyFolders := [⟨"deps"⟩], outOfDate := [(Path.mk "info").join "a-layout.xml"] }

section OfUpstream

variable (log : BuildLog) (upstream : ClassTable)

theorem wellNamed_ofUpstream : (FileSystem.ofUpstream log upstream).WellNamed := by
  have hdeps : Path.IsName "deps" := by decide
  have hartifact : Path.IsName (ArtifactName.mk "x").fileName := by decide
  exact ((wellNamed_ofDescriptor _ _).setNode (by simpa using hdeps) _).setNode
    (by simpa using ⟨hdeps, hartifact⟩) _

theorem listed_ofUpstream : ∃ present,
    descriptorFiles (.ofUpstream log upstream) ⟨"info"⟩ = .ok present ∧
      (Path.mk "info").join "a-layout.xml" ∈ present.paths := by
  have hnamed := wellNamed_ofUpstream log upstream
  have hloc : (FileSystem.ofUpstream log upstream).locate ⟨"info"⟩ = .ok ["info"] := rfl
  obtain ⟨present, hpresent⟩ := exists_descriptorFiles hloc rfl
  have hread : (FileSystem.ofUpstream log upstream).read
      ((Path.mk "info").join "a-layout.xml") = .ok "one".toUTF8 := rfl
  exact ⟨present, hpresent, (mem_present_iff hnamed hpresent).mpr ⟨_,
    mem_descriptorContents_of_read hnamed (by decide) isName_descriptor (by decide) hread, rfl⟩⟩

theorem eq_of_mem_families_ofUpstream {present : PathSet} {layout : String}
    (hlisted : descriptorFiles (.ofUpstream log upstream) ⟨"info"⟩ = .ok present)
    (h : layout ∈ present.families) : layout = "a" := by
  obtain ⟨name, hmem, hfamily⟩ := (mem_present_families hlisted).mp h
  obtain ⟨loc, node, hloc, hnode⟩ :=
    node_of_mem_descriptorContents (wellNamed_ofUpstream log upstream) hmem
  obtain rfl : ["info"] = loc := Except.ok.inj hloc
  simp only [FileSystem.ofUpstream, FileSystem.setNode, Table.get?_insert] at hnode
  rw [if_neg (by simp), if_neg (by simp)] at hnode
  obtain rfl : name = "a-layout.xml" := by
    rcases mem_ofDescriptor _ _ hnode with h | h | h | h
    · simp at h
    · simpa using h
    · simp at h
    · simp at h
  exact (Option.some.inj hfamily).symm

theorem get?_upstreamClasses_ofUpstream (hnamed : upstream.Named) (layout : String) :
    (upstreamClasses (.ofUpstream log upstream) .ofUpstream).get? layout = upstream.get? layout := by
  have hread : (FileSystem.ofUpstream log upstream).read (Artifact.pathIn ⟨"deps"⟩ "x") =
      .ok (LogFile.ofClasses upstream).toText.toUTF8 := rfl
  have hlist : (FileSystem.ofUpstream log upstream).list ⟨"deps"⟩ =
      .ok [((ArtifactName.mk "x").fileName,
        .file (.bytes (LogFile.ofClasses upstream).toText.toUTF8))] := rfl
  have hfiles : (FileSystem.ofUpstream log upstream).listFiles ⟨"deps"⟩ =
      .ok [Artifact.pathIn ⟨"deps"⟩ "x"] := by
    refine FileSystem.listFiles_of_sorted hlist ?_ (List.pairwise_singleton _ _)
    exact List.filter_cons_of_pos (FileSystem.isFile_of_read hread)
  have hforeign : MergedArtifacts.foreignArtifacts (.ofUpstream log upstream) "com" ⟨"deps"⟩ =
      [Artifact.pathIn ⟨"deps"⟩ "x"] := by
    rw [MergedArtifacts.foreignArtifacts_of_listFiles hfiles]
    rfl
  have hclasses : MergedArtifacts.classesIn? (.ofUpstream log upstream)
      (Artifact.pathIn ⟨"deps"⟩ "x") = some upstream :=
    MergedArtifacts.classesIn?_eq_some_iff.mpr
      ((Artifact.load_of_text rfl hread).mpr ⟨rfl, hnamed⟩)
  have hmerged : upstreamClasses (.ofUpstream log upstream) .ofUpstream =
      MergedArtifacts.overlay (.ofUpstream log upstream) ∅ [Artifact.pathIn ⟨"deps"⟩ "x"] := by
    rw [upstreamClasses, MergedArtifacts.classes_ofFolders, ← hforeign]
    exact congrArg _ (List.append_nil _)
  rw [hmerged, MergedArtifacts.overlay, List.filterMap_cons_some hclasses]
  simp [Table.get?_override]

end OfUpstream

/-- The descriptor of `a` has changed: neither the old class of `a` is offered nor that of the other
module.  The class of `b` stays, and that of `c` comes from the other module. -/
theorem changed_layout_not_offered : ∃ fs r diagnostics,
    resolve fs .ofUpstream = .ok (r, diagnostics) ∧
    r.existingClasses.get? "a" = none ∧
    r.existingClasses.get? "b" = some ⟨"B", "com", ∅, ∅⟩ ∧
    r.existingClasses.get? "c" = some ⟨"C", "com.x", ∅, ∅⟩ := by
  let log : BuildLog := ⟨Table.ofList [("a", ⟨"A", "com", ∅, ∅⟩), ("b", ⟨"B", "com", ∅, ∅⟩)], ∅, ∅, ∅⟩
  let upstream : ClassTable :=
    Table.ofList [("a", ⟨"A", "com.x", ∅, ∅⟩), ("c", ⟨"C", "com.x", ∅, ∅⟩)]
  obtain ⟨present, hlisted, hchanged⟩ := listed_ofUpstream log upstream
  have hresumes : Resumes (.ofUpstream log upstream) .ofUpstream log present :=
    ⟨rfl, BuildLog.read_of_text rfl, hlisted⟩
  obtain ⟨diagnostics, hresolve⟩ := hresumes.resolve
  obtain ⟨-, hkept, hunkept, hconsidered, -⟩ := local_hides_upstream hresolve
  have hreported (layout : String) : layout ∈ (situation (.ofUpstream log upstream) .ofUpstream
      log present).invalidated ↔ layout = "a" := by
    rw [Situation.mem_invalidated_iff_reported (fun _ _ => References.not_refers_empty),
      Situation.reported_iff_of_single rfl rfl]
    exact ⟨fun h => (Option.some.inj h).symm, fun h => congrArg some h.symm⟩
  refine ⟨_, _, diagnostics, hresolve, ?_, ?_, ?_⟩
  · rw [Table.get?_eq_none_iff]
    refine hconsidered ?_ _ "a" (Situation.holds_filesToConsider.mpr
      ⟨⟨_, rfl, .inl ⟨List.mem_singleton_self _, rfl⟩⟩, fun _ h => nomatch h⟩) rfl
    intro p hp
    rw [List.mem_singleton.mp hp]
    exact holds_of_mem_present hlisted hchanged
  · have hclass : log.classes.get? "b" = some ⟨"B", "com", ∅, ∅⟩ := rfl
    have hfresh : "b" ∉ (situation (.ofUpstream log upstream) .ofUpstream log present).invalidated :=
      fun h => absurd ((hreported "b").mp h) (by decide)
    have hstays := (Situation.class_stays hfresh).2 _ hclass
    obtain ⟨-, log', c, hlog', hc, hoffered⟩ := hkept "b" (Table.mem_of_get? hstays)
    rw [hresumes.readable, Except.ok.injEq, Option.some.injEq] at hlog'
    rw [← hlog', hclass] at hc
    rw [hoffered, hc]
  · have hnot : "c" ∉ (situation (.ofUpstream log upstream) .ofUpstream log present).keptClasses := by
      intro h
      obtain ⟨c, hc⟩ := Table.mem_iff_exists.mp h
      cases Situation.get?_previous_of_kept hc
    have habsent : "c" ∉ present.families := fun h =>
      absurd (eq_of_mem_families_ofUpstream log upstream hlisted h) (by decide)
    have hnamed : upstream.Named := ClassTable.named_ofList (by decide)
    exact (hunkept "c" hnot).trans ((if_neg habsent).trans
      (get?_upstreamClasses_ofUpstream log upstream hnamed "c"))

end LayoutRebuild
