import LayoutRebuild.Proofs.Closure
import Mathlib.Data.Multiset.AddSub
import Mathlib.Data.Set.Card

/-!
# Every search ends in the least closure

What is affected by a change is found by a search: a waiting layout is taken out, and if it is met for
the first time, those that refer to it wait in turn.  Here the order in which they are taken is left open
(`Step`).  A step uses up a reference or a waiting layout, so no search goes on for ever
(`Step.weight_lt`).  What has been reached stays within the closure, and nothing that it leads to is
forgotten (`Underway`), so each search ends with the closure, which is the least set that holds the seeds
and follows the known references backwards (`affected_least`).
-/

namespace LayoutRebuild

/-! ## The number of references -/

namespace References

theorem nodup_edges (r : References) : r.edges.Nodup := by
  refine List.nodup_flatMap.mpr ⟨fun e _ => ?_, r.sorted.imp ?_⟩
  · exact (nodup_of_sorted e.2.sorted_keys).map fun _ _ heq => (Prod.mk.inj heq).2
  · intro e e' hlt edge hedge hedge'
    obtain ⟨target, -, rfl⟩ := List.mem_map.mp hedge
    obtain ⟨target', -, heq⟩ := List.mem_map.mp hedge'
    have hsource : e'.1 = e.1 := (Prod.mk.inj heq).1
    exact Table.not_lt_self e.1 (hsource ▸ hlt)

theorem length_edges (r : References) :
    r.edges.length = {e : String × String | r.Refers e.1 e.2}.ncard := by
  have hedges : {e : String × String | r.Refers e.1 e.2} = r.edges.toFinset := by
    ext ⟨source, target⟩
    rw [List.coe_toFinset]
    exact mem_edges.symm
  rw [hedges, Set.ncard_coe_finset, List.toFinset_card_of_nodup r.nodup_edges]

/-- The set has the seeds in it, and with a known layout all those that refer to it. -/
structure ClosedUnder (r : References) (known : String → Bool) (seeds : List String)
    (s : Set String) : Prop where
  seeds : ∀ seed ∈ seeds, seed ∈ s
  refers : ∀ source target, r.Refers source target → known target = true → target ∈ s → source ∈ s

end References

namespace DependencyGraph

variable {g : DependencyGraph} {r : References} {known : String → Bool} {seeds : List String}

theorem danglingCount_eq : (ofReferences r known).danglingCount =
    {e : String × String | r.Refers e.1 e.2 ∧ known e.2 = false}.ncard := by
  rw [danglingCount, References.length_edges]
  congr 1
  ext ⟨source, target⟩
  exact isDangling_iff

/-- The graph has one reference for each that leads to a known layout. -/
theorem openReferences_empty : openReferences ∅ (ofReferences r known).dependents.entries =
    {e : String × String | r.Refers e.1 e.2 ∧ known e.2 = true}.ncard := by
  have hlength : openReferences ∅ (ofReferences r known).dependents.entries =
      (References.edges (ofReferences r known).dependents).length := by
    have hall (e : String × SortedSet String) :
        (!(∅ : SortedSet String).contains e.1) = true := rfl
    simp only [openReferences, References.edges, hall, List.filter_true, List.length_flatMap,
      List.length_map]
  have hswap : {e : String × String | (ofReferences r known).dependents.Refers e.1 e.2} =
      Prod.swap '' {e : String × String | r.Refers e.1 e.2 ∧ known e.2 = true} := by
    rw [Set.image_swap_eq_preimage_swap]
    ext ⟨target, source⟩
    exact SortedSet.mem_toList.symm.trans mem_dependentsOf
  rw [hlength, References.length_edges, hswap, Set.ncard_image_of_injective _ Prod.swap_injective]

/-! ## Searches -/

/-- How far a search has come: what has been reached, and what waits, as often as it was found. -/
structure Search where
  reached : SortedSet String
  waiting : Multiset String

/-- One step of a search.  Any of the waiting layouts may be taken out.  When it is met for the first
time, those that refer to it wait; the ones that have been reached may be left out. -/
inductive Step (g : DependencyGraph) : Search → Search → Prop where
  | skip {reached : SortedSet String} {waiting : Multiset String} {name : String}
      (old : name ∈ reached) : Step g ⟨reached, name ::ₘ waiting⟩ ⟨reached, waiting⟩
  | visit {reached : SortedSet String} {waiting added : Multiset String} {name : String}
      (fresh : name ∉ reached) (dependents : added ≤ g.dependentsOf name)
      (complete : ∀ dependent ∈ g.dependentsOf name, dependent ∉ reached.add name →
        dependent ∈ added) :
      Step g ⟨reached, name ::ₘ waiting⟩ ⟨reached.add name, added + waiting⟩

/-- Where a search from the seeds can be after a number of steps. -/
inductive Searched (g : DependencyGraph) (seeds : List String) : Nat → Search → Prop where
  | start : Searched g seeds 0 ⟨∅, seeds⟩
  | step {n : Nat} {search next : Search} (before : Searched g seeds n search)
      (step : g.Step search next) : Searched g seeds (n + 1) next

/-! ### The end of a search -/

/-- The references that a search can still use up, and the layouts that wait. -/
def Search.weight (g : DependencyGraph) (search : Search) : Nat :=
  openReferences search.reached g.dependents.entries + search.waiting.card

theorem Step.weight_lt {search next : Search} (h : g.Step search next) :
    next.weight g < search.weight g := by
  cases h with
  | skip old => simp [Search.weight]
  | @visit reached waiting added name fresh dependents complete =>
    have huse := openReferences_add reached name g.dependents.entries
      (Table.contains_eq_false_iff.mpr fresh)
    have hadded : added.card ≤ (g.dependentsOf name).length := Multiset.card_le_card dependents
    have hlength : ((Table.lookup name g.dependents.entries).getD ∅).toList.length =
        (g.dependentsOf name).length := rfl
    simp only [Search.weight, Multiset.card_cons, Multiset.card_add]
    omega

theorem Searched.length_le {n : Nat} {search : Search} (h : g.Searched seeds n search) :
    n + search.weight g ≤ seeds.length + openReferences ∅ g.dependents.entries := by
  induction h with
  | start => simp [Search.weight, Nat.add_comm]
  | step before step ih =>
    have hlt := step.weight_lt
    omega

/-- A search goes on as long as something waits. -/
theorem exists_step {search : Search} (h : search.waiting ≠ 0) : ∃ next, g.Step search next := by
  obtain ⟨reached, waiting⟩ := search
  obtain ⟨name, hname⟩ := Multiset.exists_mem_of_ne_zero h
  obtain ⟨rest, rfl⟩ := Multiset.exists_cons_of_mem hname
  by_cases hreached : name ∈ reached
  · exact ⟨_, .skip hreached⟩
  · exact ⟨_, .visit hreached le_rfl fun dependent hdependent _ => hdependent⟩

/-! ### What has been reached at the end -/

theorem seed_mem_affectedBy {seed : String} (h : seed ∈ seeds) : seed ∈ g.affectedBy seeds :=
  mem_affectedBy_iff.mpr ⟨seed, h, .refl⟩

theorem dependent_mem_affectedBy {name dependent : String} (h : name ∈ g.affectedBy seeds)
    (hdependent : dependent ∈ g.dependentsOf name) : dependent ∈ g.affectedBy seeds := by
  obtain ⟨seed, hseed, hpath⟩ := mem_affectedBy_iff.mp h
  exact mem_affectedBy_iff.mpr ⟨seed, hseed, hpath.tail hdependent⟩

/-- What holds all along a search: whatever is a seed, or refers to a layout that has been reached, has
been reached or waits, and nothing else has been reached or waits but what belongs to the closure. -/
structure Underway (g : DependencyGraph) (seeds : List String) (search : Search) : Prop where
  begun : ∀ seed ∈ seeds, seed ∈ search.reached ∨ seed ∈ search.waiting
  dependents : ∀ name ∈ search.reached, ∀ dependent ∈ g.dependentsOf name,
    dependent ∈ search.reached ∨ dependent ∈ search.waiting
  reached : ∀ name ∈ search.reached, name ∈ g.affectedBy seeds
  waiting : ∀ name ∈ search.waiting, name ∈ g.affectedBy seeds

theorem Underway.step {search next : Search} (h : g.Underway seeds search)
    (hstep : g.Step search next) : g.Underway seeds next := by
  cases hstep with
  | @skip reached waiting name old =>
    -- The layout that is taken out has been reached, so it need not wait.
    have hstays {other : String} (hother : other ∈ reached ∨ other ∈ name ::ₘ waiting) :
        other ∈ reached ∨ other ∈ waiting := by
      rcases hother with hreached | hwaiting
      · exact .inl hreached
      · rcases Multiset.mem_cons.mp hwaiting with rfl | hrest
        · exact .inl old
        · exact .inr hrest
    exact ⟨fun seed hseed => hstays (h.begun seed hseed),
      fun name hname dependent hdependent => hstays (h.dependents name hname dependent hdependent),
      h.reached, fun other hother => h.waiting other (Multiset.mem_cons_of_mem hother)⟩
  | @visit reached waiting added name fresh dependents complete =>
    have hname : name ∈ g.affectedBy seeds := h.waiting name (Multiset.mem_cons_self _ _)
    have hstays {other : String} (hother : other ∈ reached ∨ other ∈ name ::ₘ waiting) :
        other ∈ reached.add name ∨ other ∈ added + waiting := by
      rcases hother with hreached | hwaiting
      · exact .inl (SortedSet.mem_add.mpr (.inr hreached))
      · rcases Multiset.mem_cons.mp hwaiting with rfl | hrest
        · exact .inl (SortedSet.mem_add.mpr (.inl rfl))
        · exact .inr (Multiset.mem_add.mpr (.inr hrest))
    refine ⟨fun seed hseed => hstays (h.begun seed hseed), fun other hother dependent hdependent => ?_,
      fun other hother => ?_, fun other hother => ?_⟩
    · rcases SortedSet.mem_add.mp hother with rfl | hreached
      · by_cases hnew : dependent ∈ reached.add other
        · exact .inl hnew
        · exact .inr (Multiset.mem_add.mpr (.inl (complete dependent hdependent hnew)))
      · exact hstays (h.dependents other hreached dependent hdependent)
    · rcases SortedSet.mem_add.mp hother with rfl | hreached
      · exact hname
      · exact h.reached other hreached
    · rcases Multiset.mem_add.mp hother with hadded | hrest
      · exact dependent_mem_affectedBy hname (Multiset.mem_of_le dependents hadded)
      · exact h.waiting other (Multiset.mem_cons_of_mem hrest)

theorem Searched.underway {n : Nat} {search : Search} (h : g.Searched seeds n search) :
    g.Underway seeds search := by
  induction h with
  | start =>
    exact ⟨fun seed hseed => .inr hseed, fun name hname => absurd hname (Table.not_mem_empty name),
      fun name hname => absurd hname (Table.not_mem_empty name),
      fun name hname => seed_mem_affectedBy hname⟩
  | step before step ih => exact ih.step step

/-- When nothing waits any more, all of the closure has been reached. -/
theorem Underway.reached_eq {search : Search} (h : g.Underway seeds search)
    (hdone : search.waiting = 0) : search.reached = g.affectedBy seeds := by
  have hnone {name : String} (hname : name ∈ search.reached ∨ name ∈ search.waiting) :
      name ∈ search.reached := by
    refine hname.resolve_right ?_
    rw [hdone]
    exact Multiset.notMem_zero name
  refine SortedSet.ext_mem fun name => ⟨h.reached name, fun hname => ?_⟩
  obtain ⟨seed, hseed, hpath⟩ := mem_affectedBy_iff.mp hname
  induction hpath with
  | refl => exact hnone (h.begun seed hseed)
  | tail hpath hstep ih =>
    exact hnone (h.dependents _ (ih (mem_affectedBy_iff.mpr ⟨seed, hseed, hpath⟩)) _ hstep)

/-- To take always the first of the waiting layouts is one way to search. -/
theorem Searched.reach {n : Nat} {reached : SortedSet String} {waiting : List String}
    (h : g.Searched seeds n ⟨reached, waiting⟩) :
    ∃ m, g.Searched seeds m ⟨g.reach reached waiting, 0⟩ := by
  induction reached, waiting using reach.induct g generalizing n with
  | case1 reached =>
    rw [DependencyGraph.reach]
    exact ⟨n, h⟩
  | case2 reached first rest hfresh ih =>
    rw [reach_cons, if_pos hfresh]
    refine ih (h.step ?_)
    rw [← Multiset.coe_add, ← Multiset.cons_coe]
    exact .visit (Table.contains_eq_false_iff.mp hfresh) le_rfl fun dependent hdependent _ => hdependent
  | case3 reached first rest hold ih =>
    rw [reach_cons, if_neg hold]
    refine ih (h.step ?_)
    rw [← Multiset.cons_coe]
    exact .skip (eq_true_of_ne_false hold)

/-! ## The least closure -/

theorem closedUnder_affectedBy :
    r.ClosedUnder known seeds {name | name ∈ (ofReferences r known).affectedBy seeds} :=
  ⟨fun _ hseed => seed_mem_affectedBy hseed, fun _ _ hrefers hknown htarget =>
    dependent_mem_affectedBy htarget (mem_dependentsOf.mpr ⟨hrefers, hknown⟩)⟩

theorem affectedBy_subset {s : Set String} (h : r.ClosedUnder known seeds s) :
    {name | name ∈ (ofReferences r known).affectedBy seeds} ⊆ s := by
  intro name hname
  obtain ⟨seed, hseed, hpath⟩ := mem_affectedBy_iff.mp hname
  induction hpath with
  | refl => exact h.seeds seed hseed
  | tail hpath hstep ih =>
    obtain ⟨hrefers, hknown⟩ := mem_dependentsOf.mp hstep
    exact h.refers _ _ hrefers hknown (ih (mem_affectedBy_iff.mpr ⟨seed, hseed, hpath⟩))

/-- What is affected by a change is the least set that has the seeds in it and, with a known layout, all
those that refer to it.  Every search for it ends, after no more steps than there are seeds and references
to known layouts, and then this set has been reached, in whatever order the waiting layouts are taken.
The references that are set aside are those to layouts that are not known. -/
theorem affected_least (log : BuildLog) (known : String → Bool) (seeds : List String) :
    let g := ofReferences log.references known
    IsLeast {s | log.references.ClosedUnder known seeds s} {name | name ∈ g.affectedBy seeds} ∧
    (∀ n search, g.Searched seeds n search →
      n ≤ seeds.length +
        {e : String × String | log.references.Refers e.1 e.2 ∧ known e.2 = true}.ncard ∧
      (search.waiting ≠ 0 → ∃ next, g.Step search next) ∧
      (search.waiting = 0 → search.reached = g.affectedBy seeds)) ∧
    (∃ n, g.Searched seeds n ⟨g.affectedBy seeds, 0⟩) ∧
    (∀ source target, g.isDangling source target = true ↔
      log.references.Refers source target ∧ known target = false) ∧
    g.danglingCount =
      {e : String × String | log.references.Refers e.1 e.2 ∧ known e.2 = false}.ncard := by
  intro g
  refine ⟨⟨closedUnder_affectedBy, fun s hs => affectedBy_subset hs⟩, fun n search hsearch => ?_,
    Searched.start.reach, fun source target => isDangling_iff, danglingCount_eq⟩
  have hlength := hsearch.length_le
  rw [openReferences_empty] at hlength
  exact ⟨by omega, exists_step, hsearch.underway.reached_eq⟩

/-- The log of a build that saw these references and nothing else. -/
def logReferring (edges : List (String × String)) : BuildLog :=
  { BuildLog.empty with references := References.addAll ∅ edges }

/-- Two layouts refer to each other, one to itself, and one to a layout that is not known.  From the first
of them, given twice, a search ends when it has reached these two. -/
theorem cycle_searched_to_end :
    let log := logReferring [("A", "B"), ("B", "A"), ("C", "C"), ("D", "Gone")]
    let g := ofReferences log.references (· ≠ "Gone")
    (∃ n, g.Searched ["A", "A"] n ⟨g.affectedBy ["A", "A"], 0⟩) ∧
    {name | name ∈ g.affectedBy ["A", "A"]} = {"A", "B"} ∧
    g.isDangling "D" "Gone" = true ∧ g.danglingCount = 1 := by
  intro log g
  obtain ⟨⟨hclosed, hleast⟩, -, hend, -, -⟩ :=
    affected_least log (fun name => decide (name ≠ "Gone")) ["A", "A"]
  have hedges : log.references.edges = [("A", "B"), ("B", "A"), ("C", "C"), ("D", "Gone")] := by decide
  have ha := hclosed.seeds "A" (by decide)
  have hb := hclosed.refers "B" "A" (References.mem_edges.mp (by simp [hedges])) (by decide) ha
  refine ⟨hend, Set.Subset.antisymm (hleast ⟨by simp, ?_⟩)
    (Set.insert_subset ha (Set.singleton_subset_iff.mpr hb)), by decide, by decide⟩
  intro source target hrefers hknown htarget
  have hedge := References.mem_edges.mpr hrefers
  rw [hedges] at hedge
  rcases htarget with rfl | rfl <;> simp_all

end DependencyGraph

end LayoutRebuild
