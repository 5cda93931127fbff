import LayoutRebuild.Proofs.Build.Considered
import LayoutRebuild.Proofs.Build.NextLog

/-!
# What an idle build forgets

An idle build is one to which no change is reported and which sees the classes of other modules that
its log recorded.  It keeps every class, but of the references only the live ones (`BuildLog.Live`).
A later build that goes on from its log thus decides as if the other references had never been
there: it invalidates nothing more, and it invalidates the same unless one of them was needed to
carry a change (`idle_build_forgets`).
-/

namespace LayoutRebuild

open Relation

/-- A reference from a layout with a class to one with a class, in the module or in another one. -/
def BuildLog.Live (log : BuildLog) (layout target : String) : Prop :=
  log.references.Refers layout target ∧ layout ∈ log.classes ∧
    (target ∈ log.classes ∨ target ∈ log.dependencyClasses)

namespace Situation

variable {s t : Situation} {layout target : String}

/-- What refers to the layout is invalidated. -/
def Spreads (s : Situation) (layout : String) : Prop :=
  layout ∈ s.invalidated ∨ s.ChangedOutside layout

theorem mem_invalidated_of_uses (huses : s.Uses layout target) (h : s.Spreads target) :
    layout ∈ s.invalidated := by
  rw [invalidated, DependencyGraph.mem_affectedBy_iff]
  rcases h with htarget | hchanged
  · obtain ⟨seed, hseed, hpath⟩ := DependencyGraph.mem_affectedBy_iff.mp htarget
    exact ⟨seed, hseed, hpath.tail (precedes_iff.mpr huses)⟩
  · exact ⟨layout, mem_seeds.mpr (.inr ⟨target, hchanged, huses⟩), .refl⟩

/-- An invalidation passes from one situation to another along with the changes and the references
that it spreads along. -/
theorem invalidated_carries (hreported : ∀ layout, s.Reported layout → t.Reported layout)
    (hchanged : ∀ layout, s.ChangedOutside layout → t.ChangedOutside layout)
    (huses : ∀ layout target, s.Uses layout target → s.Spreads target →
      t.Uses layout target ∨ layout ∈ t.invalidated)
    (h : layout ∈ s.invalidated) : layout ∈ t.invalidated := by
  obtain ⟨seed, hseed, hpath⟩ := DependencyGraph.mem_affectedBy_iff.mp h
  rw [path_iff] at hpath
  induction hpath using ReflTransGen.head_induction_on with
  | refl =>
    rcases mem_seeds.mp hseed with hreport | ⟨target, houtside, hseeduses⟩
    · exact mem_invalidated_of_reported (hreported seed hreport)
    · rcases huses seed target hseeduses (.inr houtside) with hkept | hanyway
      · exact mem_invalidated_of_uses hkept (.inr (hchanged target houtside))
      · exact hanyway
  | @head layout target hstep hrest ih =>
    have htarget : target ∈ s.invalidated :=
      DependencyGraph.mem_affectedBy_iff.mpr ⟨seed, hseed, path_iff.mpr hrest⟩
    rcases huses layout target hstep (.inl htarget) with hkept | hanyway
    · exact mem_invalidated_of_uses hkept (.inl (ih htarget))
    · exact hanyway

/-! ## Other references -/

/-- The situation with a log that has other references and other fingerprints. -/
def withReferences (s : Situation) (references : References)
    (fingerprints : Table String ContentHash) : Situation :=
  { s with previous := { s.previous with references := references, fingerprints := fingerprints } }

variable {references : References} {fingerprints : Table String ContentHash}

/-- With fewer references nothing more is invalidated. -/
theorem invalidated_withReferences_subset
    (hsub : ∀ a b, references.Refers a b → s.previous.references.Refers a b)
    (h : layout ∈ (s.withReferences references fingerprints).invalidated) :
    layout ∈ s.invalidated := by
  have huses : ∀ a b, (s.withReferences references fingerprints).Uses a b →
      (s.withReferences references fingerprints).Spreads b → s.Uses a b ∨ a ∈ s.invalidated :=
    fun a b huses _ => .inl ⟨hsub a b huses.1, huses.2⟩
  exact invalidated_carries (s := s.withReferences references fingerprints) (fun _ h => h)
    (fun _ h => h) huses h

/-- With fewer references the same is invalidated, if each of those that are missing starts from a
layout that is invalidated all the same or leads to one that invalidates nothing. -/
theorem invalidated_withReferences
    (hsub : ∀ a b, references.Refers a b → s.previous.references.Refers a b)
    (hmissing : ∀ a b, s.Uses a b → ¬ references.Refers a b → s.Spreads b →
      a ∈ (s.withReferences references fingerprints).invalidated) :
    (s.withReferences references fingerprints).invalidated = s.invalidated := by
  apply SortedSet.ext_mem
  intro layout
  constructor
  · exact invalidated_withReferences_subset hsub
  · refine invalidated_carries (s := s) (fun _ h => h) (fun _ h => h) ?_
    intro a b huses hspreads
    by_cases hkept : references.Refers a b
    · exact .inl ⟨hkept, huses.2⟩
    · exact .inr (hmissing a b huses hkept hspreads)

theorem keptClasses_withReferences {c : BindingClass}
    (hsub : ∀ a b, references.Refers a b → s.previous.references.Refers a b)
    (h : s.keptClasses.get? layout = some c) :
    (s.withReferences references fingerprints).keptClasses.get? layout = some c := by
  rw [get?_keptClasses_eq_some_iff] at h ⊢
  exact ⟨h.1, fun hstale => h.2 (invalidated_withReferences_subset hsub hstale)⟩

theorem invalidatedClasses_withReferences_subset {name : String}
    (hsub : ∀ a b, references.Refers a b → s.previous.references.Refers a b)
    (h : name ∈ (s.withReferences references fingerprints).invalidatedClasses) :
    name ∈ s.invalidatedClasses := by
  obtain ⟨layout, c, hc, hdropped, hname⟩ := mem_invalidatedClasses.mp h
  refine mem_invalidatedClasses.mpr ⟨layout, c, hc, fun hkept => hdropped ?_, hname⟩
  obtain ⟨c', hc'⟩ := Table.mem_iff_exists.mp hkept
  exact Table.mem_of_get? (keptClasses_withReferences hsub hc')

theorem filesToConsider_withReferences_subset {p : Path}
    (hsub : ∀ a b, references.Refers a b → s.previous.references.Refers a b)
    (h : (s.withReferences references fingerprints).filesToConsider.holds p = true) :
    s.filesToConsider.holds p = true := by
  rw [holds_filesToConsider] at h ⊢
  obtain ⟨⟨q, hsame, hq⟩, hgone⟩ := h
  refine ⟨⟨q, hsame, ?_⟩, hgone⟩
  rcases hq with hreported | ⟨hpresent, family, hstale, hfamily⟩
  · exact .inl hreported
  · exact .inr ⟨hpresent, family, invalidated_withReferences_subset hsub hstale, hfamily⟩

/-- What a build does about its files and classes depends on the references through what they
invalidate only. -/
theorem withReferences_congr
    (h : (s.withReferences references fingerprints).invalidated = s.invalidated) :
    (s.withReferences references fingerprints).invalidatedClasses = s.invalidatedClasses ∧
    (s.withReferences references fingerprints).filesToConsider = s.filesToConsider ∧
    (s.withReferences references fingerprints).keptClasses = s.keptClasses := by
  unfold invalidatedClasses filesToConsider keptClasses
  rw [h]
  exact ⟨rfl, rfl, rfl⟩

end Situation

/-! ## The log of an idle build -/

section Idle

variable {fs : FileSystem} {args : Arguments} {log : BuildLog} {r : Resolution}
  {diagnostics : List Diagnostic}

/-- A build to which no change is reported, and that sees what its log recorded of other modules. -/
structure Idle (fs : FileSystem) (args : Arguments) (log : BuildLog) : Prop where
  incremental : args.incremental = true
  outOfDate_eq : args.outOfDate = []
  removed_eq : args.removed = []
  readable : BuildLog.read fs args.logPath = .ok (some log)
  upstream_eq : upstreamClasses fs args = log.dependencyClasses

/-- An idle build invalidates nothing. -/
theorem Idle.not_mem_invalidated (h : Idle fs args log) {present : PathSet} (layout : String) :
    layout ∉ (situation fs args log present).invalidated := by
  intro hmem
  obtain ⟨seed, hseed, -⟩ := DependencyGraph.mem_affectedBy_iff.mp hmem
  rcases Situation.mem_seeds.mp hseed with ⟨p, hp, -⟩ | ⟨target, ⟨-, hchanged⟩, -⟩
  · rw [situation, h.outOfDate_eq, h.removed_eq] at hp
    rcases hp with hp | hp <;> cases hp
  · rw [situation, h.upstream_eq] at hchanged
    exact hchanged rfl

theorem Idle.keptClasses_eq (h : Idle fs args log) {present : PathSet} :
    (situation fs args log present).keptClasses = log.classes := by
  apply Table.ext_get?
  intro layout
  have hkept : (situation fs args log present).invalidated.contains layout = false :=
    eq_false_of_ne_true (h.not_mem_invalidated layout)
  rw [Situation.get?_keptClasses, hkept]
  change (log.classes.get? layout).filter _ = _
  cases log.classes.get? layout <;> rfl

/-- An idle build announces no class as stale. -/
theorem Idle.invalidatedClasses_eq (h : Idle fs args log) {present : PathSet} :
    (situation fs args log present).invalidatedClasses = ∅ := by
  apply SortedSet.ext_mem
  intro name
  rw [Situation.mem_invalidatedClasses, h.keptClasses_eq]
  constructor
  · rintro ⟨layout, c, hc, hdropped, -⟩
    exact absurd (Table.mem_of_get? hc) hdropped
  · intro hname
    exact absurd hname (Table.not_mem_empty name)

/-- An idle build reads no descriptor. -/
theorem Idle.filesToConsider_eq (h : Idle fs args log) {present : PathSet} :
    (situation fs args log present).filesToConsider = ∅ := by
  have hstale : present.paths.filter (fun p => p.family?.any
      (situation fs args log present).invalidated.contains) = [] := by
    rw [List.filter_eq_nil_iff]
    intro p _ hstale
    cases hfamily : p.family? with
    | none => simp [hfamily] at hstale
    | some family =>
      rw [hfamily] at hstale
      exact h.not_mem_invalidated family hstale
  have hreported : (situation fs args log present).outOfDate = [] := h.outOfDate_eq
  unfold Situation.filesToConsider
  simp only [hreported, List.filter_nil, List.nil_append]
  change PathSet.ofPaths ((present.paths.filter _).filter _) = ∅
  rw [hstale]
  rfl

theorem Idle.eq_ofSituation (h : Idle fs args log)
    (hresolve : resolve fs args = .ok (r, diagnostics)) :
    ∃ present, r = .ofSituation (situation fs args log present) := by
  obtain ⟨present, -, houtcome⟩ := resolve_cases hresolve
  exact ⟨present, houtcome.eq_ofSituation h.incremental (readableLog?_eq_some.mpr h.readable)⟩

/-- An idle build whose generator has nothing to say leaves a log that differs from its own in the
references, of which the live ones stay, and in the fingerprints. -/
theorem Idle.nextLog_eq (h : Idle fs args log) (fs' : FileSystem)
    (hresolve : resolve fs args = .ok (r, diagnostics)) :
    (∀ a b, (r.nextLog fs' .empty).references.Refers a b ↔ log.Live a b) ∧
    r.nextLog fs' .empty = { log with
      references := (r.nextLog fs' .empty).references
      fingerprints := (r.nextLog fs' .empty).fingerprints } := by
  obtain ⟨present, hr⟩ := h.eq_ofSituation hresolve
  have hclasses : (r.nextLog fs' .empty).classes = log.classes := by
    apply Table.ext_get?
    intro layout
    have hnone : BuildLog.empty.classes.get? layout = none := rfl
    rw [Resolution.get?_classes_nextLog, hnone, Option.none_or, ← h.keptClasses_eq, hr]
    rfl
  have hdependencies : (r.nextLog fs' .empty).dependencyClasses = log.dependencyClasses := by
    rw [Resolution.dependencyClasses_nextLog, hr, ← h.upstream_eq]
    rfl
  constructor
  · intro a b
    have hkept : (r.nextLog fs' .empty).references.Refers a b ↔
        (situation fs args log present).keptReferences.Refers a b := by
      rw [Resolution.refers_nextLog, hr]
      constructor
      · rintro (hfresh | ⟨hrefers, -⟩)
        · exact absurd hfresh References.not_refers_empty
        · exact hrefers
      · intro hrefers
        exact .inr ⟨hrefers, Table.not_mem_empty a⟩
    rw [hkept, Situation.refers_keptReferences, h.keptClasses_eq]
    constructor
    · rintro ⟨⟨hrefers, -⟩, ha, hb⟩
      refine ⟨hrefers, ha, hb.imp_right fun hb => ?_⟩
      rwa [← h.upstream_eq]
    · rintro ⟨hrefers, ha, hb⟩
      have hb' : b ∈ log.classes ∨ b ∈ upstreamClasses fs args := by rwa [h.upstream_eq]
      exact ⟨⟨hrefers, hb'.imp_right fun hb => .inr (.inl hb)⟩, ha, hb'⟩
  · rw [← hclasses, ← hdependencies]

/-- In a file system that holds nothing but a log, a build without reports is an idle one. -/
theorem idle_ofLog (log : BuildLog) (h : log.dependencyClasses = ∅) :
    Idle (.ofLog log) .ofDescriptor log ∧
      ∃ r diagnostics, resolve (.ofLog log) .ofDescriptor = .ok (r, diagnostics) := by
  have hlisted : descriptorFiles (.ofLog log) Arguments.ofDescriptor.descriptorFolder = .ok ∅ := rfl
  exact ⟨⟨rfl, rfl, rfl, BuildLog.read_ofLog log, h.symm⟩, exists_resolve hlisted⟩

end Idle

/-! ## The build after it -/

/-- What an idle build leaves out of its log, and what that does to the build after it.  The log has
the classes and the view of other modules that the log before had, and of the references exactly the
live ones.  Let two later builds see the same descriptors, the same classes of other modules and the
same reports, the first with the log before the idle build and the second with the one after it.
Then the second invalidates nothing more.  It invalidates the same, reads the same files again and
keeps the same classes, if each reference that was left out, and that leads to a layout from which
an invalidation spreads, starts from a layout that is invalidated all the same. -/
theorem idle_build_forgets {fs fs' : FileSystem} {args : Arguments} {log next : BuildLog}
    {r : Resolution} {diagnostics : List Diagnostic} (hidle : Idle fs args log)
    (hresolve : resolve fs args = .ok (r, diagnostics)) (hnext : next = r.nextLog fs' .empty) :
    next.classes = log.classes ∧ next.dependencyClasses = log.dependencyClasses ∧
    (∀ a b, next.references.Refers a b ↔ log.Live a b) ∧
    ∀ fs₁ args₁ fs₂ args₂ present, Resumes fs₁ args₁ log present → Resumes fs₂ args₂ next present →
      upstreamClasses fs₂ args₂ = upstreamClasses fs₁ args₁ → args₂.outOfDate = args₁.outOfDate →
      args₂.removed = args₁.removed →
      ∃ r₁ diagnostics₁ r₂ diagnostics₂,
        resolve fs₁ args₁ = .ok (r₁, diagnostics₁) ∧ resolve fs₂ args₂ = .ok (r₂, diagnostics₂) ∧
        (∀ layout c, r₁.unchangedLog.classes.get? layout = some c →
          r₂.unchangedLog.classes.get? layout = some c) ∧
        (∀ name ∈ r₂.invalidatedClasses, name ∈ r₁.invalidatedClasses) ∧
        (∀ p, r₂.filesToConsider.holds p = true → r₁.filesToConsider.holds p = true) ∧
        ((∀ a b, (situation fs₁ args₁ log present).Uses a b → ¬ log.Live a b →
            (situation fs₁ args₁ log present).Spreads b →
              a ∈ (situation fs₂ args₂ next present).invalidated) →
          r₂.invalidatedClasses = r₁.invalidatedClasses ∧
            r₂.filesToConsider = r₁.filesToConsider ∧
            r₂.unchangedLog.classes = r₁.unchangedLog.classes) := by
  obtain ⟨hrefers, heq⟩ := hidle.nextLog_eq fs' hresolve
  rw [← hnext] at hrefers heq
  refine ⟨by rw [heq], by rw [heq], hrefers, ?_⟩
  intro fs₁ args₁ fs₂ args₂ present h₁ h₂ hupstream houtOfDate hremoved
  obtain ⟨diagnostics₁, hresolve₁⟩ := h₁.resolve
  obtain ⟨diagnostics₂, hresolve₂⟩ := h₂.resolve
  refine ⟨_, diagnostics₁, _, diagnostics₂, hresolve₁, hresolve₂, ?_⟩
  have hsub : ∀ a b, next.references.Refers a b → log.references.Refers a b :=
    fun a b h => ((hrefers a b).mp h).1
  have hsituation : situation fs₂ args₂ next present =
      (situation fs₁ args₁ log present).withReferences next.references next.fingerprints := by
    rw [situation, situation, hupstream, houtOfDate, hremoved, heq]
    rfl
  rw [hsituation]
  refine ⟨?_, ?_, ?_, ?_⟩
  · exact fun layout c => Situation.keptClasses_withReferences hsub
  · exact fun name => Situation.invalidatedClasses_withReferences_subset hsub
  · exact fun p => Situation.filesToConsider_withReferences_subset hsub
  · intro hmissing
    apply Situation.withReferences_congr
    apply Situation.invalidated_withReferences hsub
    intro a b huses hdropped hspreads
    exact hmissing a b huses (fun hlive => hdropped ((hrefers a b).mpr hlive)) hspreads

/-- Two layouts that refer to each other: the build after an idle one decides the same. -/
theorem idle_build_forgets_no_cycle : ∃ r diagnostics r₁ diagnostics₁ r₂ diagnostics₂,
    resolve (.ofLog cyclicLog) .ofDescriptor = .ok (r, diagnostics) ∧
    resolve (.ofLog cyclicLog) cyclicArguments = .ok (r₁, diagnostics₁) ∧
    resolve (.ofLog (r.nextLog (.ofLog cyclicLog) .empty)) cyclicArguments =
      .ok (r₂, diagnostics₂) ∧
    r₂.invalidatedClasses = r₁.invalidatedClasses ∧ r₂.filesToConsider = r₁.filesToConsider ∧
    r₂.unchangedLog.classes = r₁.unchangedLog.classes := by
  obtain ⟨hidle, r, diagnostics, hresolve⟩ := idle_ofLog cyclicLog rfl
  obtain ⟨next, hnext⟩ : ∃ next, next = r.nextLog (.ofLog cyclicLog) .empty := ⟨_, rfl⟩
  obtain ⟨-, -, -, hlater⟩ := idle_build_forgets hidle hresolve hnext
  have hbefore : Resumes (.ofLog cyclicLog) cyclicArguments cyclicLog ∅ :=
    ⟨rfl, BuildLog.read_ofLog cyclicLog, rfl⟩
  have hafter : Resumes (.ofLog next) cyclicArguments next ∅ := ⟨rfl, BuildLog.read_ofLog next, rfl⟩
  have hnone (log : BuildLog) : upstreamClasses (.ofLog log) cyclicArguments = ∅ := rfl
  obtain ⟨r₁, diagnostics₁, r₂, diagnostics₂, hresolve₁, hresolve₂, -, -, -, hsame⟩ :=
    hlater _ _ _ _ ∅ hbefore hafter ((hnone next).trans (hnone cyclicLog).symm) rfl rfl
  refine ⟨r, diagnostics, r₁, diagnostics₁, r₂, diagnostics₂, hresolve, hresolve₁,
    hnext ▸ hresolve₂, hsame ?_⟩
  rintro a b ⟨hrefers, -⟩ hdropped
  -- Both references are live, so that none is left out.
  have hedge : (a, b) ∈ cyclicLog.references.edges := References.mem_edges.mpr hrefers
  have hedges : cyclicLog.references.edges = [("a", "b"), ("b", "a")] := by decide
  have ha : "a" ∈ cyclicLog.classes := rfl
  have hb : "b" ∈ cyclicLog.classes := rfl
  rw [hedges] at hedge
  simp only [List.mem_cons, Prod.mk.injEq, List.not_mem_nil, or_false] at hedge
  rcases hedge with ⟨rfl, rfl⟩ | ⟨rfl, rfl⟩
  · exact absurd ⟨hrefers, ha, .inl hb⟩ hdropped
  · exact absurd ⟨hrefers, hb, .inl ha⟩ hdropped

/-! ## A reference that is left out and needed -/

/-- The log of a module whose only class refers to a layout that nobody knows yet. -/
def forwardLog : BuildLog where
  classes := Table.ofList [("b", ⟨"com.B", "com", ∅, ∅⟩)]
  references := References.addAll ∅ [("b", "a")]
  dependencyClasses := ∅
  fingerprints := ∅

/-- A file system with a descriptor, one log in `log` and another one in `next`. -/
def FileSystem.ofLogs (log next : BuildLog) : FileSystem :=
  ((FileSystem.ofDescriptor "one".toUTF8 (some (LogFile.ofLog log).toText.toUTF8)).setNode ["next"]
    .folder).setNode ["next", "binder_log.json"] (.file (.bytes (LogFile.ofLog next).toText.toUTF8))

def newDescriptor : Arguments :=
  { Arguments.ofDescriptor with outOfDate := [⟨"info/a-layout.xml"⟩] }

theorem wellNamed_ofLogs (log next : BuildLog) : (FileSystem.ofLogs log next).WellNamed := by
  have hnext : Path.IsName "next" := by decide
  have hfolder : ∀ name ∈ ["next"], Path.IsName name := by simpa using hnext
  have hfile : ∀ name ∈ ["next", "binder_log.json"], Path.IsName name := by
    simpa using ⟨hnext, BuildLog.isName_fileName⟩
  exact ((wellNamed_ofDescriptor _ _).setNode hfolder _).setNode hfile _

/-- In that file system, the layout of the descriptor is there. -/
theorem listed_ofLogs (log next : BuildLog) : ∃ present,
    descriptorFiles (.ofLogs log next) ⟨"info"⟩ = .ok present ∧
      ∃ p ∈ present.paths, p.family? = some "a" := by
  have hloc : (FileSystem.ofLogs log next).locate ⟨"info"⟩ = .ok ["info"] := rfl
  obtain ⟨present, hpresent⟩ := exists_descriptorFiles hloc rfl
  have hread : (FileSystem.ofLogs log next).read ((Path.mk "info").join "a-layout.xml") =
      .ok "one".toUTF8 := rfl
  have hmem := mem_descriptorContents_of_read (wellNamed_ofLogs log next) (by decide)
    isName_descriptor (by decide) hread
  refine ⟨present, hpresent, (Path.mk "info").join "a-layout.xml", ?_, by decide⟩
  exact (mem_present_iff (wellNamed_ofLogs log next) hpresent).mpr ⟨_, hmem, rfl⟩

section Forward

variable (next : BuildLog) (present : PathSet)

/-- With the log of before, the change of `a` reaches `b`. -/
theorem forward_dropped (hknown : ∃ p ∈ present.paths, p.family? = some "a") :
    "b" ∉ (situation (.ofLogs forwardLog next) newDescriptor forwardLog present).keptClasses := by
  intro hkept
  have huse : (situation (.ofLogs forwardLog next) newDescriptor forwardLog present).Uses "b" "a" :=
    ⟨rfl, .inr (.inl hknown)⟩
  refine (Situation.mem_keptClasses_iff.mp hkept).2 ⟨"a", .single huse, .inl ?_⟩
  rw [Situation.reported_iff_of_single rfl rfl]
  decide

/-- Afterwards, no reference is left that could carry it. -/
theorem forward_kept (hclasses : next.classes = forwardLog.classes)
    (hrefers : ∀ a b, next.references.Refers a b ↔ forwardLog.Live a b) :
    "b" ∈ (situation (.ofLogs forwardLog next) { newDescriptor with logFolder := ⟨"next"⟩ } next
      present).keptClasses := by
  have hb : "b" ∈ next.classes := by
    rw [hclasses]
    rfl
  refine Situation.mem_keptClasses_iff.mpr ⟨hb, Situation.not_stale_of_no_use hb ?_ ?_⟩
  · rintro target ⟨huse, -⟩
    obtain ⟨hforward, -, htarget⟩ := (hrefers "b" target).mp huse
    have hedges : forwardLog.references.edges = [("b", "a")] := by decide
    have hedge := References.mem_edges.mpr hforward
    rw [hedges] at hedge
    obtain rfl : target = "a" := by simpa using hedge
    exact absurd htarget (by decide)
  · rw [Situation.reported_iff_of_single rfl rfl]
    decide

/-- The one class of the log is announced as stale exactly if it is dropped. -/
theorem mem_invalidatedClasses_forward {s : Situation}
    (hclasses : s.previous.classes = forwardLog.classes) :
    "com.B" ∈ s.invalidatedClasses ↔ "b" ∉ s.keptClasses := by
  rw [Situation.mem_invalidatedClasses, hclasses]
  constructor
  · rintro ⟨layout, c, hc, hdropped, -⟩
    obtain ⟨v, hv⟩ := Table.mem_ofList.mp (Table.mem_of_get? hc)
    obtain ⟨rfl, -⟩ := Prod.mk.inj (List.mem_singleton.mp hv)
    exact hdropped
  · intro hdropped
    exact ⟨"b", ⟨"com.B", "com", ∅, ∅⟩, rfl, hdropped, rfl⟩

end Forward

/-- An idle build leaves out a reference to a layout that nobody knows.  When the layout appears,
the build with the log before drops the class that refers to it, and the one with the log after the
idle build keeps it. -/
theorem idle_build_weakens : ∃ fs args log r diagnostics next later args₁ args₂ present r₁
    diagnostics₁ r₂ diagnostics₂, Idle fs args log ∧ resolve fs args = .ok (r, diagnostics) ∧
    next = r.nextLog fs .empty ∧
    Resumes later args₁ log present ∧ Resumes later args₂ next present ∧
    upstreamClasses later args₂ = upstreamClasses later args₁ ∧ args₂.outOfDate = args₁.outOfDate ∧
    args₂.removed = args₁.removed ∧ resolve later args₁ = .ok (r₁, diagnostics₁) ∧
    resolve later args₂ = .ok (r₂, diagnostics₂) ∧
    r₁.invalidatedClasses ≠ r₂.invalidatedClasses ∧
    "b" ∉ r₁.unchangedLog.classes ∧ "b" ∈ r₂.unchangedLog.classes := by
  obtain ⟨hidle, r, diagnostics, hresolve⟩ := idle_ofLog forwardLog rfl
  obtain ⟨next, hnext⟩ : ∃ next, next = r.nextLog (.ofLog forwardLog) .empty := ⟨_, rfl⟩
  obtain ⟨hrefers, heq⟩ := hidle.nextLog_eq (.ofLog forwardLog) hresolve
  rw [← hnext] at hrefers heq
  obtain ⟨present, hlisted, hknown⟩ := listed_ofLogs forwardLog next
  have hbefore : Resumes (.ofLogs forwardLog next) newDescriptor forwardLog present :=
    ⟨rfl, BuildLog.read_of_text rfl, hlisted⟩
  have hafter : Resumes (.ofLogs forwardLog next) { newDescriptor with logFolder := ⟨"next"⟩ } next
      present := ⟨rfl, BuildLog.read_of_text rfl, hlisted⟩
  obtain ⟨diagnostics₁, hresolve₁⟩ := hbefore.resolve
  obtain ⟨diagnostics₂, hresolve₂⟩ := hafter.resolve
  have hclasses : next.classes = forwardLog.classes := by rw [heq]
  have hdropped := forward_dropped next present hknown
  have hkept := forward_kept next present hclasses hrefers
  refine ⟨.ofLog forwardLog, .ofDescriptor, forwardLog, r, diagnostics, next,
    .ofLogs forwardLog next, newDescriptor, { newDescriptor with logFolder := ⟨"next"⟩ }, present,
    _, diagnostics₁, _, diagnostics₂, hidle, hresolve, hnext, hbefore, hafter, rfl, rfl, rfl,
    hresolve₁, hresolve₂, ?_, hdropped, hkept⟩
  intro hsame
  have hmem : "com.B" ∈
      (situation (.ofLogs forwardLog next) newDescriptor forwardLog present).invalidatedClasses :=
    (mem_invalidatedClasses_forward rfl).mpr hdropped
  have hmem' := Eq.subst (motive := fun names => "com.B" ∈ names) hsame hmem
  exact (mem_invalidatedClasses_forward hclasses).mp hmem' hkept

end LayoutRebuild
