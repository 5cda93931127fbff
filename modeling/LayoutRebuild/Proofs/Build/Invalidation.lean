import LayoutRebuild.Proofs.Build.Resolved
import LayoutRebuild.Proofs.Closure
import LayoutRebuild.Proofs.Log.Saved
import Mathlib.Tactic.ByContra

/-!
# Invalidation is complete and minimal

A class is stale if a change is reached from its layout along the references of the previous build,
over layouts that are still known (`Situation.Stale`).  Exactly the stale classes of the previous build
are dropped: none that could have seen a change stays, and none that could not is made anew
(`resolve_drops_stale`).  What is announced are the names of the dropped classes, so that a name
that two layouts share may be that of a class that stays (`stale_and_trusted_iff`).

Of the references of a class that stays, all stay but those to layouts that neither module has a class
for: a reference to a dropped class, or to a vanished one of another module, would have dropped the
class that it belongs to (`kept_references_live`).
-/

namespace LayoutRebuild

open Relation

theorem ClassTable.mem_differences {t u : ClassTable} {name : String} :
    name ∈ t.differences u ↔ t.get? name ≠ u.get? name := by
  rw [differences, SortedSet.mem_union, SortedSet.mem_ofList, SortedSet.mem_ofList,
    List.mem_filter, List.mem_filter, Table.mem_keys_iff, Table.mem_keys_iff, Table.mem_iff,
    Table.mem_iff]
  cases t.get? name <;> cases u.get? name <;> simp

theorem ClassTable.mem_classNames {t : ClassTable} {layouts : List String} {qualifiedName : String} :
    qualifiedName ∈ t.classNames layouts ↔
      ∃ layout ∈ layouts, ∃ c, t.get? layout = some c ∧ c.qualifiedName = qualifiedName := by
  rw [classNames, SortedSet.mem_ofList, List.mem_map]
  simp only [List.mem_filterMap]
  constructor
  · rintro ⟨c, ⟨layout, hlayout, hc⟩, hname⟩
    exact ⟨layout, hlayout, c, hc, hname⟩
  · rintro ⟨layout, hlayout, c, hc, hname⟩
    exact ⟨c, ⟨layout, hlayout, hc⟩, hname⟩

namespace Situation

variable {s : Situation} {layout target : String}

/-! ## Stale layouts -/

/-- A layout that is one of the module or of another one, now or before. -/
def Known (s : Situation) (layout : String) : Prop :=
  layout ∈ s.previous.classes ∨ (∃ p ∈ s.present.paths, p.family? = some layout) ∨
    layout ∈ s.dependencyClasses ∨ layout ∈ s.previous.dependencyClasses

/-- A reference of the previous build to a layout that is still known. -/
def Uses (s : Situation) (layout target : String) : Prop :=
  s.previous.references.Refers layout target ∧ s.Known target

/-- A reported file belongs to the layout. -/
def Reported (s : Situation) (layout : String) : Prop :=
  ∃ p, (p ∈ s.outOfDate ∨ p ∈ s.removed) ∧ p.family? = some layout

/-- The layout is one of another module, and its class has changed, appeared or vanished. -/
def ChangedOutside (s : Situation) (layout : String) : Prop :=
  layout ∉ s.previous.classes ∧
    s.previous.dependencyClasses.get? layout ≠ s.dependencyClasses.get? layout

/-- A change is reached from the layout. -/
def Stale (s : Situation) (layout : String) : Prop :=
  ∃ origin, ReflTransGen s.Uses layout origin ∧ (s.Reported origin ∨ s.ChangedOutside origin)

theorem known_iff : s.known s.present.families layout = true ↔ s.Known layout := by
  have hfamilies : s.present.families.contains layout = true ↔
      ∃ p ∈ s.present.paths, p.family? = some layout := PathSet.mem_families
  simp only [known, Bool.or_eq_true, hfamilies, or_assoc]
  rfl

/-- The graph holds the references, turned round. -/
theorem precedes_iff : s.graph.Precedes target layout ↔ s.Uses layout target := by
  have hdependents : s.graph.Precedes target layout ↔
      s.previous.references.Refers layout target ∧ s.known s.present.families target = true :=
    DependencyGraph.mem_dependentsOf
  rwa [known_iff] at hdependents

theorem path_iff : ReflTransGen s.graph.Precedes target layout ↔
    ReflTransGen s.Uses layout target := by
  have hswap : Function.swap s.graph.Precedes = s.Uses := by
    funext a b
    exact propext precedes_iff
  rw [← reflTransGen_swap, hswap]

theorem mem_changedDependencies : layout ∈ s.changedDependencies ↔ s.ChangedOutside layout := by
  rw [changedDependencies, List.mem_filter, SortedSet.mem_toList, ClassTable.mem_differences,
    and_comm]
  simp [ChangedOutside, Table.mem_iff, Table.contains_eq]

theorem mem_seeds : layout ∈ s.seeds ↔
    s.Reported layout ∨ ∃ target, s.ChangedOutside target ∧ s.Uses layout target := by
  simp only [seeds, List.mem_append, List.mem_filterMap, List.mem_flatMap,
    mem_changedDependencies]
  refine or_congr ?_ ?_
  · simp only [Reported, or_comm]
  · refine exists_congr fun target => and_congr_right fun _ => precedes_iff

/-- A layout with a class is invalidated exactly if a change is reached from it.  A change of another
module does not make the layout itself stale, only those that refer to it; but a layout with a class
is not one of another module. -/
theorem mem_invalidated_iff (hclass : layout ∈ s.previous.classes) :
    layout ∈ s.invalidated ↔ s.Stale layout := by
  rw [invalidated, DependencyGraph.mem_affectedBy_iff]
  constructor
  · rintro ⟨seed, hseed, hpath⟩
    rw [path_iff] at hpath
    rcases mem_seeds.mp hseed with hreported | ⟨target, hchanged, huses⟩
    · exact ⟨seed, hpath, .inl hreported⟩
    · exact ⟨target, hpath.tail huses, .inr hchanged⟩
  · rintro ⟨origin, hpath, hreported | hchanged⟩
    · exact ⟨origin, mem_seeds.mpr (.inl hreported), path_iff.mpr hpath⟩
    · rcases hpath.cases_tail with rfl | ⟨seed, hseed, huses⟩
      · exact absurd hclass hchanged.1
      · exact ⟨seed, mem_seeds.mpr (.inr ⟨origin, hchanged, huses⟩), path_iff.mpr hseed⟩

theorem reported_iff_of_single {p : Path} (houtOfDate : s.outOfDate = [p])
    (hremoved : s.removed = []) : s.Reported layout ↔ p.family? = some layout := by
  simp [Reported, houtOfDate, hremoved]

/-- A layout with a class that refers to nothing is stale only if it is reported itself. -/
theorem not_stale_of_no_use (hclass : layout ∈ s.previous.classes)
    (huses : ∀ target, ¬ s.Uses layout target) (hreported : ¬ s.Reported layout) :
    ¬ s.Stale layout := by
  rintro ⟨origin, hpath, hchange⟩
  rcases hpath.cases_head with rfl | ⟨target, huse, -⟩
  · exact hchange.elim hreported fun hchanged => hchanged.1 hclass
  · exact huses target huse

/-- From some layouts that refer to one another only, and none of which has changed, no change is
reached. -/
theorem not_stale_of_closed {P : String → Prop} (hclosed : ∀ a b, P a → s.Uses a b → P b)
    (hquiet : ∀ a, P a → ¬ s.Reported a ∧ ¬ s.ChangedOutside a) (h : P layout) :
    ¬ s.Stale layout := by
  rintro ⟨origin, hpath, hchange⟩
  have horigin : P origin := by
    clear hchange
    induction hpath with
    | refl => exact h
    | tail _ hstep ih => exact hclosed _ _ ih hstep
  exact hchange.elim (hquiet origin horigin).1 (hquiet origin horigin).2

theorem mem_invalidated_of_reported (h : s.Reported layout) : layout ∈ s.invalidated :=
  DependencyGraph.mem_affectedBy_iff.mpr ⟨layout, mem_seeds.mpr (.inl h), .refl⟩

/-- Without references nothing is invalidated but what is reported. -/
theorem mem_invalidated_iff_reported (hrefers : ∀ a b, ¬ s.previous.references.Refers a b) :
    layout ∈ s.invalidated ↔ s.Reported layout := by
  refine ⟨fun hmem => ?_, mem_invalidated_of_reported⟩
  obtain ⟨seed, hseed, hpath⟩ := DependencyGraph.mem_affectedBy_iff.mp hmem
  have hsame : layout = seed := by
    rcases (path_iff.mp hpath).cases_head with heq | ⟨target, huses, -⟩
    · exact heq
    · exact absurd huses.1 (hrefers layout target)
  rcases mem_seeds.mp hseed with hreported | ⟨target, -, huses⟩
  · rwa [hsame]
  · exact absurd huses.1 (hrefers seed target)

/-! ## What stays -/

theorem get?_keptClasses : s.keptClasses.get? layout =
    (s.previous.classes.get? layout).filter fun _ => !s.invalidated.contains layout := by
  rw [keptClasses, Table.get?_filter]

theorem get?_keptClasses_eq_some_iff {c : BindingClass} : s.keptClasses.get? layout = some c ↔
    s.previous.classes.get? layout = some c ∧ layout ∉ s.invalidated := by
  rw [get?_keptClasses, Option.filter_eq_some_iff, Bool.not_eq_true', Table.contains_eq_false_iff]

theorem mem_keptClasses_iff_not_invalidated :
    layout ∈ s.keptClasses ↔ layout ∈ s.previous.classes ∧ layout ∉ s.invalidated := by
  rw [Table.mem_iff_exists, Table.mem_iff_exists, ← exists_and_right]
  exact exists_congr fun c => get?_keptClasses_eq_some_iff

theorem mem_keptClasses_iff :
    layout ∈ s.keptClasses ↔ layout ∈ s.previous.classes ∧ ¬ s.Stale layout := by
  rw [mem_keptClasses_iff_not_invalidated]
  exact and_congr_right fun hclass => not_congr (mem_invalidated_iff hclass)

/-- A class that stays is the one that the previous build left. -/
theorem get?_previous_of_kept {c : BindingClass} (h : s.keptClasses.get? layout = some c) :
    s.previous.classes.get? layout = some c := by
  exact (get?_keptClasses_eq_some_iff.mp h).1

/-- A reference stays if it is from a class that stays, to one that stays or that is of another
module. -/
theorem refers_keptReferences : s.keptReferences.Refers layout target ↔ s.Uses layout target ∧
    layout ∈ s.keptClasses ∧ (target ∈ s.keptClasses ∨ target ∈ s.dependencyClasses) := by
  have hdangling : s.previous.references.Refers layout target →
      ((!s.graph.isDangling layout target) = true ↔ s.Known target) := by
    intro hrefers
    rw [Bool.not_eq_true', ← Bool.not_eq_true]
    have hiff : s.graph.isDangling layout target = true ↔
        s.previous.references.Refers layout target ∧
          s.known s.present.families target = false := DependencyGraph.isDangling_iff
    rw [hiff, ← known_iff]
    simp [hrefers]
  rw [keptReferences, References.refers_restrict]
  simp only [Bool.and_eq_true, Bool.or_eq_true]
  constructor
  · rintro ⟨hrefers, ⟨hkept, hknown⟩, htarget⟩
    exact ⟨⟨hrefers, (hdangling hrefers).mp hknown⟩, hkept, htarget⟩
  · rintro ⟨⟨hrefers, hknown⟩, hkept, htarget⟩
    exact ⟨hrefers, ⟨hkept, (hdangling hrefers).mpr hknown⟩, htarget⟩

/-- What a class that stays refers to has not been dropped and has not vanished. -/
theorem kept_of_refers (hkept : layout ∈ s.keptClasses)
    (hrefers : s.previous.references.Refers layout target)
    (htarget : target ∈ s.previous.classes ∨ target ∈ s.dependencyClasses ∨
      target ∈ s.previous.dependencyClasses) :
    target ∈ s.keptClasses ∨ target ∈ s.dependencyClasses := by
  have hknown : s.Known target := by
    rcases htarget with hclass | hupstream | hbefore
    · exact .inl hclass
    · exact .inr (.inr (.inl hupstream))
    · exact .inr (.inr (.inr hbefore))
  have huse : s.Uses layout target := ⟨hrefers, hknown⟩
  have hfresh := (mem_keptClasses_iff.mp hkept).2
  by_cases hclass : target ∈ s.previous.classes
  · left
    refine mem_keptClasses_iff.mpr ⟨hclass, ?_⟩
    rintro ⟨origin, hpath, hchange⟩
    exact hfresh ⟨origin, hpath.head huse, hchange⟩
  · right
    by_contra hgone
    have hbefore : target ∈ s.previous.dependencyClasses :=
      (htarget.resolve_left hclass).resolve_left hgone
    refine hfresh ⟨target, .single huse, .inr ⟨hclass, fun hsame => hgone ?_⟩⟩
    rwa [Table.mem_iff, hsame] at hbefore

/-- A reference stays if it is from a class that stays, to a layout with a class now or before. -/
theorem refers_keptReferences_iff_live : s.keptReferences.Refers layout target ↔
    s.previous.references.Refers layout target ∧ layout ∈ s.keptClasses ∧
      (target ∈ s.previous.classes ∨ target ∈ s.dependencyClasses ∨
        target ∈ s.previous.dependencyClasses) := by
  rw [refers_keptReferences]
  constructor
  · rintro ⟨⟨hrefers, -⟩, hkept, htarget⟩
    refine ⟨hrefers, hkept, ?_⟩
    rcases htarget with hclass | hupstream
    · exact .inl (mem_keptClasses_iff.mp hclass).1
    · exact .inr (.inl hupstream)
  · rintro ⟨hrefers, hkept, htarget⟩
    have hstays := kept_of_refers hkept hrefers htarget
    refine ⟨⟨hrefers, ?_⟩, hkept, hstays⟩
    rcases hstays with hclass | hupstream
    · exact .inl (mem_keptClasses_iff.mp hclass).1
    · exact .inr (.inr (.inl hupstream))

theorem mem_invalidatedClasses_iff_invalidated {qualifiedName : String} :
    qualifiedName ∈ s.invalidatedClasses ↔ ∃ layout ∈ s.invalidated, ∃ c,
      s.previous.classes.get? layout = some c ∧ c.qualifiedName = qualifiedName := by
  rw [invalidatedClasses, ClassTable.mem_classNames]
  simp only [SortedSet.mem_toList]

theorem mem_invalidatedClasses {qualifiedName : String} :
    qualifiedName ∈ s.invalidatedClasses ↔
      ∃ layout c, s.previous.classes.get? layout = some c ∧ layout ∉ s.keptClasses ∧
        c.qualifiedName = qualifiedName := by
  rw [mem_invalidatedClasses_iff_invalidated]
  constructor
  · rintro ⟨layout, hstale, c, hc, hname⟩
    exact ⟨layout, c, hc, fun hkept => (mem_keptClasses_iff_not_invalidated.mp hkept).2 hstale, hname⟩
  · rintro ⟨layout, c, hc, hdropped, hname⟩
    have hstale : layout ∈ s.invalidated := by
      by_contra hfresh
      exact hdropped (mem_keptClasses_iff_not_invalidated.mpr ⟨Table.mem_of_get? hc, hfresh⟩)
    exact ⟨layout, hstale, c, hc, hname⟩

end Situation

/-! ## Incremental builds -/

/-- An incremental build drops exactly the stale classes, keeps every other class as it was, and
announces the names of the dropped ones. -/
theorem resolve_drops_stale {fs : FileSystem} {args : Arguments} {log : BuildLog}
    {present : PathSet} (hincremental : args.incremental = true)
    (hlog : BuildLog.read fs args.logPath = .ok (some log))
    (hpresent : descriptorFiles fs args.descriptorFolder = .ok present) :
    ∃ r diagnostics, resolve fs args = .ok (r, diagnostics) ∧
      (∀ layout ∈ log.classes, layout ∉ r.unchangedLog.classes ↔
        (situation fs args log present).Stale layout) ∧
      (∀ layout ∈ log.classes, ¬ (situation fs args log present).Stale layout →
        r.unchangedLog.classes.get? layout = log.classes.get? layout) ∧
      (∀ layout ∈ r.unchangedLog.classes, layout ∈ log.classes) ∧
      ∀ qualifiedName, qualifiedName ∈ r.invalidatedClasses ↔
        ∃ layout c, log.classes.get? layout = some c ∧ layout ∉ r.unchangedLog.classes ∧
          c.qualifiedName = qualifiedName := by
  obtain ⟨diagnostics, hresolve⟩ := resolve_of_log hincremental hlog hpresent
  refine ⟨_, diagnostics, hresolve, ?_, ?_, ?_, ?_⟩
  · intro layout hclass
    have hkept : layout ∈ (situation fs args log present).keptClasses ↔
        layout ∈ log.classes ∧ ¬ (situation fs args log present).Stale layout :=
      Situation.mem_keptClasses_iff
    constructor
    · intro hdropped
      by_contra hfresh
      exact hdropped (hkept.mpr ⟨hclass, hfresh⟩)
    · intro hstale hmem
      exact (hkept.mp hmem).2 hstale
  · intro layout hclass hfresh
    have hkept : layout ∈ (situation fs args log present).keptClasses :=
      Situation.mem_keptClasses_iff.mpr ⟨hclass, hfresh⟩
    obtain ⟨c, hc⟩ := Table.mem_iff_exists.mp hkept
    exact hc.trans (Situation.get?_previous_of_kept hc).symm
  · intro layout hkept
    exact (Situation.mem_keptClasses_iff.mp hkept).1
  · intro qualifiedName
    exact Situation.mem_invalidatedClasses

/-- The log of a module with two layouts that refer to each other. -/
def cyclicLog : BuildLog where
  classes := Table.ofList [("a", ⟨"com.A", "com", ∅, ∅⟩), ("b", ⟨"com.B", "com", ∅, ∅⟩)]
  references := References.addAll ∅ [("a", "b"), ("b", "a")]
  dependencyClasses := ∅
  fingerprints := ∅

/-- A change of one layout is reported. -/
def cyclicArguments : Arguments :=
  ⟨"com", ⟨"info"⟩, [], ⟨"log"⟩, none, true, [⟨"info/b-layout.xml"⟩], []⟩

/-- A change of one of two layouts that refer to each other drops both classes. -/
theorem resolve_drops_cycle : ∃ r diagnostics,
    resolve (.ofLog cyclicLog) cyclicArguments = .ok (r, diagnostics) ∧
      "a" ∉ r.unchangedLog.classes ∧ "b" ∉ r.unchangedLog.classes := by
  have hlog : BuildLog.read (.ofLog cyclicLog) cyclicArguments.logPath = .ok (some cyclicLog) :=
    BuildLog.read_ofLog cyclicLog
  have hpresent : descriptorFiles (.ofLog cyclicLog) cyclicArguments.descriptorFolder = .ok ∅ := rfl
  obtain ⟨r, diagnostics, hresolve, hdropped, -⟩ := resolve_drops_stale rfl hlog hpresent
  have hreported : (situation (.ofLog cyclicLog) cyclicArguments cyclicLog ∅).Reported "b" :=
    ⟨⟨"info/b-layout.xml"⟩, .inl List.mem_cons_self, rfl⟩
  have huses : (situation (.ofLog cyclicLog) cyclicArguments cyclicLog ∅).Uses "a" "b" :=
    ⟨rfl, .inl rfl⟩
  refine ⟨r, diagnostics, hresolve, ?_, ?_⟩
  · exact (hdropped "a" rfl).mpr ⟨"b", .single huses, .inl hreported⟩
  · exact (hdropped "b" rfl).mpr ⟨"b", .refl, .inl hreported⟩

/-! ## Layouts that share a class name -/

/-- Two layouts of the previous build share the name of their class, and one of them is stale while
the other one is not. -/
def Situation.SplitsName (s : Situation) (name : String) : Prop :=
  ∃ stale fresh c c', s.previous.classes.get? stale = some c ∧ c.qualifiedName = name ∧
    s.previous.classes.get? fresh = some c' ∧ c'.qualifiedName = name ∧
    s.Stale stale ∧ ¬ s.Stale fresh

theorem Situation.invalidated_and_kept_iff {s : Situation} {name : String} :
    (name ∈ s.invalidatedClasses ∧ ∃ layout c, s.keptClasses.get? layout = some c ∧
      c.qualifiedName = name) ↔ s.SplitsName name := by
  rw [mem_invalidatedClasses]
  constructor
  · rintro ⟨⟨stale, c, hc, hdropped, hname⟩, fresh, c', hc', hname'⟩
    refine ⟨stale, fresh, c, c', hc, hname, get?_previous_of_kept hc', hname', ?_, ?_⟩
    · by_contra hfresh
      exact hdropped (mem_keptClasses_iff.mpr ⟨Table.mem_of_get? hc, hfresh⟩)
    · exact (mem_keptClasses_iff.mp (Table.mem_of_get? hc')).2
  · rintro ⟨stale, fresh, c, c', hc, hname, hc', hname', hstale, hfresh⟩
    have hkept : fresh ∈ s.keptClasses :=
      mem_keptClasses_iff.mpr ⟨Table.mem_of_get? hc', hfresh⟩
    obtain ⟨d, hd⟩ := Table.mem_iff_exists.mp hkept
    have hsame : c' = d := Option.some.inj (hc'.symm.trans (get?_previous_of_kept hd))
    refine ⟨⟨stale, c, hc, fun h => (mem_keptClasses_iff.mp h).2 hstale, hname⟩, fresh, d, hd, ?_⟩
    rw [← hsame, hname']

/-- The name of a class that is announced as stale is also that of a class that stays exactly if two
layouts of the log share it and only one of them is stale.  If no two layouts share the name of
their class, no class is stale and trusted at once. -/
theorem stale_and_trusted_iff {fs : FileSystem} {args : Arguments} {log : BuildLog}
    {present : PathSet} (h : Resumes fs args log present) :
    ∃ r diagnostics, resolve fs args = .ok (r, diagnostics) ∧
      (∀ name, (name ∈ r.invalidatedClasses ∧ ∃ layout c,
          r.unchangedLog.classes.get? layout = some c ∧ c.qualifiedName = name) ↔
        (situation fs args log present).SplitsName name) ∧
      ((∀ a b c c', log.classes.get? a = some c → log.classes.get? b = some c' →
          c.qualifiedName = c'.qualifiedName → a = b) →
        ∀ name ∈ r.invalidatedClasses, ∀ layout c,
          r.unchangedLog.classes.get? layout = some c → c.qualifiedName ≠ name) := by
  obtain ⟨diagnostics, hresolve⟩ := h.resolve
  refine ⟨_, diagnostics, hresolve, fun name => Situation.invalidated_and_kept_iff, ?_⟩
  intro hinjective name hinvalidated layout c hkept hname
  obtain ⟨stale, fresh, d, d', hd, hdname, hd', hdname', hstale, hfresh⟩ :=
    Situation.invalidated_and_kept_iff.mp ⟨hinvalidated, layout, c, hkept, hname⟩
  obtain rfl := hinjective stale fresh d d' hd hd' (hdname.trans hdname'.symm)
  exact hfresh hstale

/-- The log of a module with two layouts that share a class. -/
def sharedLog : BuildLog where
  classes := Table.ofList [("a", ⟨"com.X", "com", ∅, ∅⟩), ("b", ⟨"com.X", "com", ∅, ∅⟩)]
  references := ∅
  dependencyClasses := ∅
  fingerprints := ∅

/-- A change of one of two layouts that share a class: it is announced as stale, and it stays. -/
theorem shared_class_stale_and_trusted : ∃ r diagnostics,
    resolve (.ofLog sharedLog) cyclicArguments = .ok (r, diagnostics) ∧
      "com.X" ∈ r.invalidatedClasses ∧
      ∃ layout c, r.unchangedLog.classes.get? layout = some c ∧ c.qualifiedName = "com.X" := by
  have hresumes : Resumes (.ofLog sharedLog) cyclicArguments sharedLog ∅ :=
    ⟨rfl, BuildLog.read_ofLog sharedLog, rfl⟩
  obtain ⟨r, diagnostics, hresolve, hboth, -⟩ := stale_and_trusted_iff hresumes
  refine ⟨r, diagnostics, hresolve, (hboth "com.X").mpr ?_⟩
  have hstale : (situation (.ofLog sharedLog) cyclicArguments sharedLog ∅).Stale "b" :=
    ⟨"b", .refl, .inl ((Situation.reported_iff_of_single rfl rfl).mpr (by decide))⟩
  have hfresh : ¬ (situation (.ofLog sharedLog) cyclicArguments sharedLog ∅).Stale "a" := by
    refine Situation.not_stale_of_no_use rfl ?_ ?_
    · rintro target ⟨hrefers, -⟩
      exact References.not_refers_empty hrefers
    · rw [Situation.reported_iff_of_single rfl rfl]
      decide
  exact ⟨"b", "a", _, _, rfl, rfl, rfl, rfl, hstale, hfresh⟩

/-! ## References that stay -/

/-- The references that an incremental build keeps are those of the log from a class that stays to a
layout that has, or had, a class in the module or in another one.  No row is empty, and each of them
leads to a class that stays or to one of another module. -/
theorem kept_references_live {fs : FileSystem} {args : Arguments} {log : BuildLog}
    {present : PathSet} (h : Resumes fs args log present) :
    ∃ r diagnostics, resolve fs args = .ok (r, diagnostics) ∧
      (∀ layout target, r.unchangedLog.references.Refers layout target ↔
        log.references.Refers layout target ∧ layout ∈ r.unchangedLog.classes ∧
          (target ∈ log.classes ∨ target ∈ upstreamClasses fs args ∨
            target ∈ log.dependencyClasses)) ∧
      (∀ layout targets, r.unchangedLog.references.get? layout = some targets →
        ∃ target, target ∈ targets) ∧
      ∀ layout target, r.unchangedLog.references.Refers layout target →
        target ∈ r.unchangedLog.classes ∨ target ∈ upstreamClasses fs args := by
  obtain ⟨diagnostics, hresolve⟩ := h.resolve
  refine ⟨_, diagnostics, hresolve, ?_, References.noEmptyRow_restrict _, ?_⟩
  · intro layout target
    exact Situation.refers_keptReferences_iff_live
  · intro layout target hrefers
    exact (Situation.refers_keptReferences.mp hrefers).2.2

/-- The log of a module with a class that refers to another one and to a layout that nobody knows, and
with a third class that refers to the first. -/
def ghostLog : BuildLog where
  classes := Table.ofList
    [("a", ⟨"com.A", "com", ∅, ∅⟩), ("b", ⟨"com.B", "com", ∅, ∅⟩), ("c", ⟨"com.C", "com", ∅, ∅⟩)]
  references := References.addAll ∅ [("a", "b"), ("a", "ghost"), ("c", "a")]
  dependencyClasses := ∅
  fingerprints := ∅

/-- A change of the third layout is reported. -/
def ghostArguments : Arguments := { cyclicArguments with outOfDate := [⟨"info/c-layout.xml"⟩] }

/-- The class of the third layout is dropped along with what it refers to.  Of the other two references
only the one to a class stays. -/
theorem ghost_reference_dropped : ∃ r diagnostics,
    resolve (.ofLog ghostLog) ghostArguments = .ok (r, diagnostics) ∧
    r.unchangedLog.references.Refers "a" "b" ∧ ¬ r.unchangedLog.references.Refers "a" "ghost" ∧
    ¬ r.unchangedLog.references.Refers "c" "a" := by
  have hresumes : Resumes (.ofLog ghostLog) ghostArguments ghostLog ∅ :=
    ⟨rfl, BuildLog.read_ofLog ghostLog, rfl⟩
  obtain ⟨r, diagnostics, hresolve, hrefers, -, -⟩ := kept_references_live hresumes
  obtain ⟨s, hs⟩ : ∃ s, s = situation (.ofLog ghostLog) ghostArguments ghostLog ∅ := ⟨_, rfl⟩
  have hkept (layout : String) : layout ∈ r.unchangedLog.classes ↔
      layout ∈ ghostLog.classes ∧ ¬ s.Stale layout := by
    obtain ⟨_, hsituation⟩ := hresumes.resolve
    rw [hresolve, ← hs, Except.ok.injEq, Prod.mk.injEq] at hsituation
    rw [hsituation.1, hs]
    exact Situation.mem_keptClasses_iff
  have hreported (layout : String) : s.Reported layout ↔ layout = "c" := by
    have hfamily : (Path.mk "info/c-layout.xml").family? = some "c" := by decide
    rw [Situation.reported_iff_of_single (by rw [hs]; rfl) (by rw [hs]; rfl), hfamily,
      Option.some.injEq, eq_comm]
  have hghost : ¬ s.Known "ghost" := by
    rw [hs]
    rintro (hclass | ⟨p, hp, -⟩ | hupstream | hbefore)
    · exact absurd hclass (by decide)
    · cases hp
    · exact absurd hupstream (by decide)
    · exact absurd hbefore (by decide)
  have hfresh : ¬ s.Stale "a" := by
    refine Situation.not_stale_of_closed (P := fun layout => layout = "a" ∨ layout = "b")
      ?_ ?_ (.inl rfl)
    · rintro a b - ⟨hrefers, hknown⟩
      have hedges : ghostLog.references.edges = [("a", "b"), ("a", "ghost"), ("c", "a")] := by decide
      rw [hs] at hrefers
      have hedge : (a, b) ∈ ghostLog.references.edges := References.mem_edges.mpr hrefers
      rw [hedges] at hedge
      simp only [List.mem_cons, Prod.mk.injEq, List.not_mem_nil, or_false] at hedge
      rcases hedge with ⟨-, rfl⟩ | ⟨-, rfl⟩ | ⟨-, rfl⟩
      · exact .inr rfl
      · exact absurd hknown hghost
      · exact .inl rfl
    · intro a ha
      rw [hreported, hs]
      rcases ha with rfl | rfl
      · exact ⟨by decide, fun hchanged => hchanged.1 rfl⟩
      · exact ⟨by decide, fun hchanged => hchanged.1 rfl⟩
  have hupstream : upstreamClasses (.ofLog ghostLog) ghostArguments = ∅ := rfl
  refine ⟨r, diagnostics, hresolve, ?_, ?_, ?_⟩
  · exact (hrefers "a" "b").mpr ⟨rfl, (hkept "a").mpr ⟨rfl, hfresh⟩, .inl rfl⟩
  · intro hstays
    have htarget := ((hrefers "a" "ghost").mp hstays).2.2
    rw [hupstream] at htarget
    revert htarget
    decide
  · intro hstays
    exact ((hkept "c").mp ((hrefers "c" "a").mp hstays).2.1).2
      ⟨"c", .refl, .inl ((hreported "c").mpr rfl)⟩

end LayoutRebuild
