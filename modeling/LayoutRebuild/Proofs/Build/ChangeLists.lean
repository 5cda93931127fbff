import LayoutRebuild.Proofs.Build.IdleBuild

/-!
# Reports put together

What a build invalidates is what a change is reached from, so each file that is reported as changed adds
its share whatever else is reported (`mem_invalidated_append`).  All that a build decides follows from what
it invalidates: two lists together invalidate, and read again, what either of them does, and keep what both
of them keep (`reports_distribute`).
-/

namespace LayoutRebuild

/-- Every file of the first list is in the second one, perhaps with its path in another spelling. -/
def Path.Within (files files' : List Path) : Prop :=
  ∀ p ∈ files, ∃ q ∈ files', q.components = p.components

namespace PathSet

/-- Of paths to one place the last one counts, wherever the list is cut. -/
theorem ofPaths_append (paths paths' : List Path) :
    ofPaths (paths ++ paths') = (ofPaths paths).override (ofPaths paths') := by
  apply Table.ext_get?
  intro place
  rw [Table.get?_override, ofPaths, ofPaths, ofPaths, Table.get?_ofList, Table.get?_ofList,
    Table.get?_ofList, List.map_append, List.reverse_append, List.find?_append, Option.map_or]

/-- A set has one path for each place. -/
theorem eq_of_mem_paths {paths : List Path} {p q : Path} (hp : p ∈ (ofPaths paths).paths)
    (hq : q ∈ (ofPaths paths).paths) (hsame : p.components = q.components) : p = q := by
  obtain ⟨place, hplace⟩ := mem_paths_iff.mp hp
  obtain ⟨place', hplace'⟩ := mem_paths_iff.mp hq
  have heq : place = place' := by
    rw [← (get?_ofPaths hplace).2, ← (get?_ofPaths hplace').2, hsame]
  rw [heq, hplace', Option.some.injEq] at hplace
  exact hplace.symm

end PathSet

namespace Situation

variable {s : Situation} {layout target : String} {A B : List Path} {p : Path}

/-- The situation with another list of files that are reported as changed. -/
def reporting (s : Situation) (files : List Path) : Situation := { s with outOfDate := files }

/-! ## What is invalidated -/

theorem reported_reporting : (s.reporting A).Reported layout ↔
    (∃ p ∈ A, p.family? = some layout) ∨ ∃ p ∈ s.removed, p.family? = some layout := by
  simp only [Reported, reporting, or_and_right, exists_or]

/-- A longer list invalidates nothing less. -/
theorem invalidated_reporting_subset (h : Path.Within A B)
    (hstale : layout ∈ (s.reporting A).invalidated) : layout ∈ (s.reporting B).invalidated := by
  have hreported : ∀ layout, (s.reporting A).Reported layout → (s.reporting B).Reported layout := by
    intro layout hlayout
    rw [reported_reporting] at hlayout ⊢
    refine hlayout.imp_left ?_
    rintro ⟨p, hp, hfamily⟩
    obtain ⟨q, hq, hsame⟩ := h p hp
    exact ⟨q, hq, (Path.family?_congr hsame).trans hfamily⟩
  exact invalidated_carries hreported (fun _ hchanged => hchanged) (fun _ _ huses _ => .inl huses)
    hstale

theorem within_append_left : Path.Within A (A ++ B) :=
  fun p hp => ⟨p, List.mem_append_left _ hp, rfl⟩

theorem within_append_right : Path.Within B (A ++ B) :=
  fun p hp => ⟨p, List.mem_append_right _ hp, rfl⟩

/-- Whatever is invalidated goes back to one change, which is in one of the lists or in none. -/
theorem mem_invalidated_append : layout ∈ (s.reporting (A ++ B)).invalidated ↔
    layout ∈ (s.reporting A).invalidated ∨ layout ∈ (s.reporting B).invalidated := by
  constructor
  · intro hstale
    obtain ⟨seed, hseed, hpath⟩ := DependencyGraph.mem_affectedBy_iff.mp hstale
    have hlist : seed ∈ (s.reporting A).seeds ∨ seed ∈ (s.reporting B).seeds := by
      rcases mem_seeds.mp hseed with hreported | houtside
      · rcases reported_reporting.mp hreported with ⟨p, hp, hfamily⟩ | hgone
        · rcases List.mem_append.mp hp with hA | hB
          · exact .inl (mem_seeds.mpr (.inl (reported_reporting.mpr (.inl ⟨p, hA, hfamily⟩))))
          · exact .inr (mem_seeds.mpr (.inl (reported_reporting.mpr (.inl ⟨p, hB, hfamily⟩))))
        · exact .inl (mem_seeds.mpr (.inl (reported_reporting.mpr (.inr hgone))))
      · exact .inl (mem_seeds.mpr (.inr houtside))
    refine hlist.imp ?_ ?_
    · exact fun hA => DependencyGraph.mem_affectedBy_iff.mpr ⟨seed, hA, hpath⟩
    · exact fun hB => DependencyGraph.mem_affectedBy_iff.mpr ⟨seed, hB, hpath⟩
  · rintro (hA | hB)
    · exact invalidated_reporting_subset within_append_left hA
    · exact invalidated_reporting_subset within_append_right hB

/-! ## What stays -/

theorem get?_keptClasses_append {c : BindingClass} :
    (s.reporting (A ++ B)).keptClasses.get? layout = some c ↔
      (s.reporting A).keptClasses.get? layout = some c ∧
        (s.reporting B).keptClasses.get? layout = some c := by
  simp only [get?_keptClasses_eq_some_iff, mem_invalidated_append, not_or]
  exact and_and_left

theorem mem_keptClasses_append : layout ∈ (s.reporting (A ++ B)).keptClasses ↔
    layout ∈ (s.reporting A).keptClasses ∧ layout ∈ (s.reporting B).keptClasses := by
  simp only [mem_keptClasses_iff_not_invalidated, mem_invalidated_append, not_or]
  exact and_and_left

theorem refers_keptReferences_append :
    (s.reporting (A ++ B)).keptReferences.Refers layout target ↔
      (s.reporting A).keptReferences.Refers layout target ∧
        (s.reporting B).keptReferences.Refers layout target := by
  simp only [refers_keptReferences_iff_live, mem_keptClasses_append]
  constructor
  · rintro ⟨hrefers, ⟨hA, hB⟩, hlive⟩
    exact ⟨⟨hrefers, hA, hlive⟩, hrefers, hB, hlive⟩
  · rintro ⟨⟨hrefers, hA, hlive⟩, -, hB, -⟩
    exact ⟨hrefers, ⟨hA, hB⟩, hlive⟩

theorem invalidatedClasses_append : (s.reporting (A ++ B)).invalidatedClasses =
    SortedSet.union (s.reporting A).invalidatedClasses (s.reporting B).invalidatedClasses := by
  apply SortedSet.ext_mem
  intro name
  rw [SortedSet.mem_union]
  simp only [mem_invalidatedClasses_iff_invalidated, mem_invalidated_append, or_and_right, exists_or]
  rfl

/-! ## What is read again -/

/-- The file is not reported as removed. -/
def remains (s : Situation) (p : Path) : Bool := !(PathSet.ofPaths s.removed).holds p

/-- The files that are read again because they are reported. -/
def reportedFiles (s : Situation) : List Path :=
  (s.outOfDate.filter fun p => p.family?.isSome).filter s.remains

/-- The files that are read again because their family is invalidated. -/
def staleFiles (s : Situation) : List Path :=
  (s.present.paths.filter fun p => p.family?.any s.invalidated.contains).filter s.remains

theorem filesToConsider_eq : s.filesToConsider =
    (PathSet.ofPaths s.reportedFiles).override (PathSet.ofPaths s.staleFiles) := by
  rw [← PathSet.ofPaths_append, reportedFiles, staleFiles, ← List.filter_append]
  rfl

theorem reportedFiles_append : (s.reporting (A ++ B)).reportedFiles =
    (s.reporting A).reportedFiles ++ (s.reporting B).reportedFiles := by
  simp only [reportedFiles, reporting, List.filter_append]
  rfl

theorem mem_staleFiles : p ∈ s.staleFiles ↔
    p ∈ s.present.paths ∧ s.remains p = true ∧ ∃ family ∈ s.invalidated, p.family? = some family := by
  have hstale : p.family?.any s.invalidated.contains = true ↔
      ∃ family ∈ s.invalidated, p.family? = some family := by
    rw [Option.any_eq_true]
    constructor
    · rintro ⟨family, hfamily, hmem⟩
      exact ⟨family, hmem, hfamily⟩
    · rintro ⟨family, hmem, hfamily⟩
      exact ⟨family, hfamily, hmem⟩
  rw [staleFiles, List.mem_filter, List.mem_filter, hstale, and_assoc, and_comm (b := _ = true)]

theorem mem_staleFiles_append : p ∈ (s.reporting (A ++ B)).staleFiles ↔
    p ∈ (s.reporting A).staleFiles ∨ p ∈ (s.reporting B).staleFiles := by
  simp only [mem_staleFiles, mem_invalidated_append, or_and_right, exists_or]
  rw [and_or_left, and_or_left]
  rfl

/-- A stale file is what is found at its place. -/
theorem get?_staleFiles {paths : List Path} {place : List Component}
    (hlisted : s.present = PathSet.ofPaths paths) :
    (PathSet.ofPaths s.staleFiles).get? place = some p ↔
      p ∈ s.staleFiles ∧ p.components = place := by
  refine ⟨PathSet.get?_ofPaths, ?_⟩
  rintro ⟨hp, rfl⟩
  have hholds := PathSet.holds_ofPaths.mpr ⟨p, hp, rfl⟩
  obtain ⟨q, hq⟩ := Table.mem_iff_exists.mp hholds
  obtain ⟨hmem, hsame⟩ := PathSet.get?_ofPaths hq
  have hq' := (mem_staleFiles.mp hmem).1
  have hp' := (mem_staleFiles.mp hp).1
  rw [hlisted] at hq' hp'
  rw [hq, PathSet.eq_of_mem_paths hq' hp' hsame]

/-- A listed file in the place of a reported one is stale. -/
theorem mem_staleFiles_of_reported {q : Path} (hp : p ∈ s.reportedFiles) (hq : q ∈ s.present.paths)
    (hsame : p.components = q.components) : q ∈ s.staleFiles := by
  rw [reportedFiles, List.mem_filter, List.mem_filter, Option.isSome_iff_exists] at hp
  obtain ⟨⟨hchanged, family, hfamily⟩, hremains⟩ := hp
  refine mem_staleFiles.mpr ⟨hq, ?_, family, ?_, ?_⟩
  · rwa [remains, PathSet.holds, ← hsame]
  · exact mem_invalidated_of_reported ⟨p, .inl hchanged, hfamily⟩
  · rw [← Path.family?_congr hsame, hfamily]

/-- Two lists together have the files read again that either of them does. -/
theorem filesToConsider_append {paths : List Path} (hlisted : s.present = PathSet.ofPaths paths) :
    (s.reporting (A ++ B)).filesToConsider =
      (s.reporting A).filesToConsider.override (s.reporting B).filesToConsider := by
  have hget (files : List Path) {place : List Component} {p : Path} :
      (PathSet.ofPaths (s.reporting files).staleFiles).get? place = some p ↔
        p ∈ (s.reporting files).staleFiles ∧ p.components = place :=
    get?_staleFiles hlisted
  apply Table.ext_get?
  intro place
  simp only [filesToConsider_eq, reportedFiles_append, PathSet.ofPaths_append, Table.get?_override]
  cases hstale : (PathSet.ofPaths (s.reporting (A ++ B)).staleFiles).get? place with
  | none =>
    have hnone {files : List Path} (hsub : ∀ q ∈ (s.reporting files).staleFiles,
        q ∈ (s.reporting (A ++ B)).staleFiles) :
        (PathSet.ofPaths (s.reporting files).staleFiles).get? place = none := by
      rw [Option.eq_none_iff_forall_ne_some]
      intro q hq
      obtain ⟨hmem, hplace⟩ := (hget files).mp hq
      have hfound := (hget (A ++ B)).mpr ⟨hsub q hmem, hplace⟩
      rw [hstale] at hfound
      cases hfound
    rw [hnone fun q hq => mem_staleFiles_append.mpr (.inl hq),
      hnone fun q hq => mem_staleFiles_append.mpr (.inr hq)]
    rfl
  | some q =>
    obtain ⟨hq, hplace⟩ := (hget (A ++ B)).mp hstale
    have hlist : q ∈ s.present.paths := (mem_staleFiles.mp hq).1
    by_cases hB : q ∈ (s.reporting B).staleFiles
    · rw [(hget B).mpr ⟨hB, hplace⟩]
      rfl
    · -- The second list has nothing to say about the place: what it had would make the file stale.
      have hA := (mem_staleFiles_append.mp hq).resolve_right hB
      have hstaleB : (PathSet.ofPaths (s.reporting B).staleFiles).get? place = none := by
        rw [Option.eq_none_iff_forall_ne_some]
        intro p hp
        obtain ⟨hmem, hsame⟩ := (hget B).mp hp
        have heq : p = q := by
          have hp' : p ∈ s.present.paths := (mem_staleFiles.mp hmem).1
          rw [hlisted] at hp' hlist
          exact PathSet.eq_of_mem_paths hp' hlist (hsame.trans hplace.symm)
        exact hB (heq ▸ hmem)
      have hreportedB : (PathSet.ofPaths (s.reporting B).reportedFiles).get? place = none := by
        rw [Option.eq_none_iff_forall_ne_some]
        intro p hp
        obtain ⟨hmem, hsame⟩ := PathSet.get?_ofPaths hp
        exact hB (mem_staleFiles_of_reported hmem hlist (hsame.trans hplace.symm))
      rw [hstaleB, hreportedB, (hget A).mpr ⟨hA, hplace⟩]
      rfl

/-! ## Longer lists -/

theorem invalidatedClasses_reporting_subset (h : Path.Within A B) {name : String}
    (hname : name ∈ (s.reporting A).invalidatedClasses) :
    name ∈ (s.reporting B).invalidatedClasses := by
  rw [mem_invalidatedClasses_iff_invalidated] at hname ⊢
  obtain ⟨layout, hstale, hclass⟩ := hname
  exact ⟨layout, invalidated_reporting_subset h hstale, hclass⟩

theorem filesToConsider_reporting_subset (h : Path.Within A B)
    (hread : (s.reporting A).filesToConsider.holds p = true) :
    (s.reporting B).filesToConsider.holds p = true := by
  rw [holds_filesToConsider] at hread ⊢
  refine ⟨?_, hread.2⟩
  obtain ⟨q, hsame, ⟨hchanged, hfamily⟩ | ⟨hlisted, family, hstale, hfamily⟩⟩ := hread.1
  · obtain ⟨q', hq', hsame'⟩ := h q hchanged
    refine ⟨q', hsame'.trans hsame, .inl ⟨hq', ?_⟩⟩
    rwa [Path.family?_congr hsame']
  · exact ⟨q, hsame, .inr ⟨hlisted, family, invalidated_reporting_subset h hstale, hfamily⟩⟩

theorem keptClasses_reporting_subset (h : Path.Within A B)
    (hkept : layout ∈ (s.reporting B).keptClasses) : layout ∈ (s.reporting A).keptClasses := by
  rw [mem_keptClasses_iff_not_invalidated] at hkept ⊢
  exact ⟨hkept.1, fun hstale => hkept.2 (invalidated_reporting_subset h hstale)⟩

/-- Lists of the same files invalidate the same and leave the same. -/
theorem unchangedLog_reporting_congr (h : Path.Within A B) (h' : Path.Within B A) :
    (s.reporting A).unchangedLog = (s.reporting B).unchangedLog := by
  have hinvalidated : (s.reporting A).invalidated = (s.reporting B).invalidated :=
    SortedSet.ext_mem fun layout =>
      ⟨invalidated_reporting_subset h, invalidated_reporting_subset h'⟩
  have hkept : (s.reporting A).keptClasses = (s.reporting B).keptClasses := by
    unfold keptClasses
    rw [hinvalidated]
    rfl
  have hreferences : (s.reporting A).keptReferences = (s.reporting B).keptReferences := by
    unfold keptReferences
    rw [hkept]
    rfl
  rw [unchangedLog, unchangedLog, hkept, hreferences]

end Situation

/-- Two lists of changed files that are reported together invalidate, and have read again, what either of
them does, and what stays is what stays with both of them.  A longer list hides no invalidation: with it no
less is invalidated or read again and no more stays.  So neither the order of a list nor a repetition in it
matters. -/
theorem reports_distribute {fs : FileSystem} {args : Arguments} {log : BuildLog} {present : PathSet}
    (h : Resumes fs args log present) :
    ∃ decided : List Path → Resolution,
      (∀ files, ∃ diagnostics,
        resolve fs { args with outOfDate := files } = .ok (decided files, diagnostics)) ∧
      (∀ A B,
        (decided (A ++ B)).invalidatedClasses =
          SortedSet.union (decided A).invalidatedClasses (decided B).invalidatedClasses ∧
        (decided (A ++ B)).filesToConsider =
          (decided A).filesToConsider.override (decided B).filesToConsider ∧
        (∀ layout c, (decided (A ++ B)).unchangedLog.classes.get? layout = some c ↔
          (decided A).unchangedLog.classes.get? layout = some c ∧
            (decided B).unchangedLog.classes.get? layout = some c) ∧
        ∀ layout target, (decided (A ++ B)).unchangedLog.references.Refers layout target ↔
          (decided A).unchangedLog.references.Refers layout target ∧
            (decided B).unchangedLog.references.Refers layout target) ∧
      (∀ A B, Path.Within A B →
        (∀ name ∈ (decided A).invalidatedClasses, name ∈ (decided B).invalidatedClasses) ∧
        (∀ p, (decided A).filesToConsider.holds p = true →
          (decided B).filesToConsider.holds p = true) ∧
        ∀ layout ∈ (decided B).unchangedLog.classes, layout ∈ (decided A).unchangedLog.classes) ∧
      ∀ A B, Path.Within A B → Path.Within B A →
        (decided A).invalidatedClasses = (decided B).invalidatedClasses ∧
        (∀ p, (decided A).filesToConsider.holds p = (decided B).filesToConsider.holds p) ∧
        (decided A).unchangedLog = (decided B).unchangedLog := by
  obtain ⟨paths, hpaths⟩ := present_eq_ofPaths h.listed
  refine ⟨fun files => .ofSituation ((situation fs args log present).reporting files), ?_, ?_, ?_, ?_⟩
  · intro files
    have hresumes : Resumes fs { args with outOfDate := files } log present :=
      ⟨h.incremental, h.readable, h.listed⟩
    exact hresumes.resolve
  · intro A B
    exact ⟨Situation.invalidatedClasses_append, Situation.filesToConsider_append hpaths,
      fun _ _ => Situation.get?_keptClasses_append,
      fun _ _ => Situation.refers_keptReferences_append⟩
  · intro A B hwithin
    exact ⟨fun _ => Situation.invalidatedClasses_reporting_subset hwithin,
      fun _ => Situation.filesToConsider_reporting_subset hwithin,
      fun _ => Situation.keptClasses_reporting_subset hwithin⟩
  · intro A B hwithin hwithin'
    refine ⟨SortedSet.ext_mem fun _ => ?_, fun p => Bool.eq_iff_iff.mpr ?_, ?_⟩
    · exact ⟨Situation.invalidatedClasses_reporting_subset hwithin,
        Situation.invalidatedClasses_reporting_subset hwithin'⟩
    · exact ⟨Situation.filesToConsider_reporting_subset hwithin,
        Situation.filesToConsider_reporting_subset hwithin'⟩
    · exact Situation.unchangedLog_reporting_congr hwithin hwithin'

/-! ## Three descriptors and a reference -/

/-- The log of a module with three layouts, one of which refers to another one. -/
def edgeLog : BuildLog where
  classes := Table.ofList
    [("a", ⟨"com.A", "com", ∅, ∅⟩), ("b", ⟨"com.B", "com", ∅, ∅⟩), ("c", ⟨"com.C", "com", ∅, ∅⟩)]
  references := References.addAll ∅ [("a", "b")]
  dependencyClasses := ∅
  fingerprints := ∅

/-- A file system with a log and with the descriptors of three layouts. -/
def FileSystem.ofEdge (log : BuildLog) : FileSystem :=
  ((FileSystem.ofDescriptor "one".toUTF8 (some (LogFile.ofLog log).toText.toUTF8)).setNode
    ["info", "b-layout.xml"] (.file (.bytes "two".toUTF8))).setNode
    ["info", "c-layout.xml"] (.file (.bytes "three".toUTF8))

theorem resumes_ofEdge (log : BuildLog) {present : PathSet}
    (hlisted : descriptorFiles (.ofEdge log) ⟨"info"⟩ = .ok present) (files : List Path) :
    Resumes (.ofEdge log) { Arguments.ofDescriptor with outOfDate := files } log present := by
  have hread : (FileSystem.ofEdge log).read Arguments.ofDescriptor.logPath =
      .ok (LogFile.ofLog log).toText.toUTF8 := rfl
  exact ⟨rfl, BuildLog.read_of_text hread, hlisted⟩

/-- In that file system, the descriptor of `a` is listed. -/
theorem listed_ofEdge (log : BuildLog) : ∃ present,
    descriptorFiles (.ofEdge log) ⟨"info"⟩ = .ok present ∧
    (Path.mk "info").join "a-layout.xml" ∈ present.paths := by
  have hinfo : Path.IsName "info" := by decide
  have hb : Path.IsName "b-layout.xml" := by decide
  have hc : Path.IsName "c-layout.xml" := by decide
  have hnamed : (FileSystem.ofEdge log).WellNamed :=
    ((wellNamed_ofDescriptor _ _).setNode (by simpa using ⟨hinfo, hb⟩) _).setNode
      (by simpa using ⟨hinfo, hc⟩) _
  have hloc : (FileSystem.ofEdge log).locate ⟨"info"⟩ = .ok ["info"] := rfl
  obtain ⟨present, hpresent⟩ := exists_descriptorFiles hloc rfl
  exact ⟨present, hpresent, (mem_present_iff_isFile hnamed hpresent).mpr
    ⟨by decide, "a-layout.xml", isName_descriptor, by decide, rfl, rfl⟩⟩

/-- A change of one file is reported. -/
def edgeSituation (present : PathSet) (p : Path) : Situation :=
  situation (.ofEdge edgeLog) { Arguments.ofDescriptor with outOfDate := [p] } edgeLog present

theorem stale_edgeSituation {present : PathSet} {p : Path} {layout : String} :
    (edgeSituation present p).Stale layout ↔
      p.family? = some layout ∨ (layout = "a" ∧ p.family? = some "b") := by
  have hreported (layout : String) : (edgeSituation present p).Reported layout ↔
      p.family? = some layout := Situation.reported_iff_of_single rfl rfl
  have hunchanged (layout : String) : ¬ (edgeSituation present p).ChangedOutside layout :=
    fun hchanged => hchanged.2 rfl
  have huses (a b : String) : (edgeSituation present p).Uses a b ↔ a = "a" ∧ b = "b" := by
    have hedges : edgeLog.references.edges = [("a", "b")] := by decide
    have hrefers : edgeLog.references.Refers a b ↔ a = "a" ∧ b = "b" := by
      rw [← References.mem_edges, hedges, List.mem_singleton, Prod.mk.injEq]
    exact ⟨fun h => hrefers.mp h.1, fun h => ⟨hrefers.mpr h, .inl (h.2 ▸ rfl)⟩⟩
  constructor
  · rintro ⟨origin, hpath, hchange⟩
    have horigin := (hreported origin).mp (hchange.resolve_right (hunchanged origin))
    rcases hpath.cases_head with rfl | ⟨target, huse, hrest⟩
    · exact .inl horigin
    · obtain ⟨hlayout, rfl⟩ := (huses layout target).mp huse
      rcases hrest.cases_head with rfl | ⟨target, huse, -⟩
      · exact .inr ⟨hlayout, horigin⟩
      · exact absurd ((huses "b" target).mp huse).1 (by decide)
  · rintro (hlayout | ⟨rfl, hb⟩)
    · exact ⟨layout, .refl, .inl ((hreported layout).mpr hlayout)⟩
    · exact ⟨"b", .single ((huses "a" "b").mpr ⟨rfl, rfl⟩), .inl ((hreported "b").mpr hb)⟩

theorem mem_keptClasses_edgeSituation {present : PathSet} {p : Path} {layout : String} :
    layout ∈ (edgeSituation present p).keptClasses ↔ layout ∈ edgeLog.classes ∧
      ¬ (p.family? = some layout ∨ (layout = "a" ∧ p.family? = some "b")) := by
  rw [← stale_edgeSituation]
  exact Situation.mem_keptClasses_iff

/-- If `b` has changed, the descriptor of `a` is read again. -/
theorem holds_edgeSituation {present : PathSet}
    (ha : (Path.mk "info").join "a-layout.xml" ∈ present.paths) :
    (edgeSituation present ⟨"info/b-layout.xml"⟩).filesToConsider.holds ⟨"info/a-layout.xml"⟩ =
      true := by
  have hstale : "a" ∈ (edgeSituation present ⟨"info/b-layout.xml"⟩).invalidated :=
    (Situation.mem_invalidated_iff rfl).mpr (stale_edgeSituation.mpr (.inr ⟨rfl, by decide⟩))
  exact Situation.holds_filesToConsider.mpr
    ⟨⟨_, rfl, .inr ⟨ha, "a", hstale, by decide⟩⟩, fun _ hgone => nomatch hgone⟩

/-- A change of `c` alone leaves `a`, which refers to `b`, and a change of `b` alone leaves `c`.  If both
are reported nothing stays, and the descriptor of `a` is read again, although it has not changed. -/
theorem nothing_stays_of_both : ∃ decided : List Path → Resolution,
    (∀ files, ∃ diagnostics,
      resolve (.ofEdge edgeLog) { Arguments.ofDescriptor with outOfDate := files } =
        .ok (decided files, diagnostics)) ∧
    (decided [⟨"info/c-layout.xml"⟩]).unchangedLog.references.Refers "a" "b" ∧
    "c" ∈ (decided [⟨"info/b-layout.xml"⟩]).unchangedLog.classes ∧
    (∀ layout, layout ∉
      (decided [⟨"info/c-layout.xml"⟩, ⟨"info/b-layout.xml"⟩]).unchangedLog.classes) ∧
    ¬ (decided [⟨"info/c-layout.xml"⟩, ⟨"info/b-layout.xml"⟩]).unchangedLog.references.Refers "a" "b" ∧
    (decided [⟨"info/c-layout.xml"⟩, ⟨"info/b-layout.xml"⟩]).filesToConsider.holds
      ⟨"info/a-layout.xml"⟩ = true := by
  obtain ⟨present, hlisted, ha⟩ := listed_ofEdge edgeLog
  have hresumes := resumes_ofEdge edgeLog hlisted
  obtain ⟨decided, hdecided, htogether, -⟩ := reports_distribute (hresumes [])
  have hsituation (p : Path) : decided [p] = .ofSituation (edgeSituation present p) := by
    obtain ⟨diagnostics, hresolve⟩ := hdecided [p]
    obtain ⟨_, hresolve'⟩ := (hresumes [p]).resolve
    rw [hresolve, Except.ok.injEq, Prod.mk.injEq] at hresolve'
    exact hresolve'.1
  have hkept (p : Path) (layout : String) : layout ∈ (decided [p]).unchangedLog.classes ↔
      layout ∈ edgeLog.classes ∧
        ¬ (p.family? = some layout ∨ (layout = "a" ∧ p.family? = some "b")) := by
    rw [hsituation]
    exact mem_keptClasses_edgeSituation
  have hstays : (decided [⟨"info/c-layout.xml"⟩]).unchangedLog.references.Refers "a" "b" := by
    have hkept_a := (hkept ⟨"info/c-layout.xml"⟩ "a").mpr ⟨rfl, by decide⟩
    rw [hsituation] at hkept_a ⊢
    exact Situation.refers_keptReferences_iff_live.mpr ⟨rfl, hkept_a, .inl rfl⟩
  have hread : (decided [⟨"info/b-layout.xml"⟩]).filesToConsider.holds ⟨"info/a-layout.xml"⟩ = true := by
    rw [hsituation]
    exact holds_edgeSituation ha
  obtain ⟨-, hfiles, hclasses, hreferences⟩ :=
    htogether [⟨"info/c-layout.xml"⟩] [⟨"info/b-layout.xml"⟩]
  refine ⟨decided, hdecided, hstays, (hkept _ "c").mpr ⟨rfl, by decide⟩, fun layout hboth => ?_,
    fun hboth => ?_, ?_⟩
  · obtain ⟨c, hc⟩ := Table.mem_iff_exists.mp hboth
    have hleft := (hkept _ layout).mp (Table.mem_of_get? ((hclasses layout c).mp hc).1)
    have hright := (hkept _ layout).mp (Table.mem_of_get? ((hclasses layout c).mp hc).2)
    have hmember : layout ∈ edgeLog.classes.keys := Table.mem_keys_iff.mpr hleft.1
    have hkeys : edgeLog.classes.keys = ["a", "b", "c"] := by decide
    rw [hkeys] at hmember
    simp only [List.mem_cons, List.not_mem_nil, or_false] at hmember
    rcases hmember with rfl | rfl | rfl
    · exact hright.2 (by decide)
    · exact hright.2 (by decide)
    · exact hleft.2 (by decide)
  · have hkept_a := ((hreferences "a" "b").mp hboth).2
    rw [hsituation] at hkept_a
    have hmem := (Situation.refers_keptReferences_iff_live.mp hkept_a).2.1
    exact (mem_keptClasses_edgeSituation.mp hmem).2 (.inr ⟨rfl, by decide⟩)
  · exact (congrArg (PathSet.holds · _) hfiles).trans (Table.mem_override.mpr (.inr hread))

end LayoutRebuild
