import LayoutRebuild.Graph
import Mathlib.Logic.Relation

/-!
# What reaches a change

References are described by the pairs they hold (`References.Refers`), each operation by what it does
to these pairs.  The closure is then exactly what reaches a seed against the direction of the
references (`mem_affectedBy_iff`): the run of the closure keeps the invariant that whatever refers to
a layout that has been reached has been reached itself or waits (`Pending`).
-/

namespace LayoutRebuild

/-! ## Empty sets -/

theorem Table.isEmpty_iff {κ α : Type} [Ord κ] {t : Table κ α} : t.isEmpty = true ↔ t = ∅ := by
  obtain ⟨entries, sorted⟩ := t
  constructor
  · intro h
    have hnil : entries = [] := List.isEmpty_iff.mp h
    subst hnil
    rfl
  · intro h
    rw [h]
    rfl

theorem SortedSet.isEmpty_eq_false_iff {κ : Type} [Ord κ] [Std.TransOrd κ] [Std.LawfulEqOrd κ]
    {s : SortedSet κ} : s.isEmpty = false ↔ ∃ k, k ∈ s := by
  constructor
  · intro h
    cases hlist : s.toList with
    | nil =>
      have hnil : s.entries = [] := List.map_eq_nil_iff.mp hlist
      simp [Table.isEmpty, hnil] at h
    | cons k rest => exact ⟨k, SortedSet.mem_toList.mp (by simp [hlist])⟩
  · rintro ⟨k, hk⟩
    rw [← Bool.not_eq_true, Table.isEmpty_iff]
    rintro rfl
    exact Table.not_mem_empty k hk

/-! ## References as pairs -/

namespace References

variable {r r' : References} {source target : String}

/-- A layout refers to another one. -/
def Refers (r : References) (source target : String) : Prop := target ∈ (r.get? source).getD ∅

theorem refers_iff : r.Refers source target ↔ ∃ targets, r.get? source = some targets ∧
    target ∈ targets := by
  unfold Refers
  cases r.get? source with
  | none => simp
  | some targets => simp

theorem not_refers_empty : ¬ Refers ∅ source target := by simp [Refers]

theorem mem_edges : (source, target) ∈ r.edges ↔ r.Refers source target := by
  rw [edges, List.mem_flatMap, refers_iff]
  constructor
  · rintro ⟨⟨k, targets⟩, hrow, htarget⟩
    obtain ⟨t, ht, heq⟩ := List.mem_map.mp htarget
    cases heq
    exact ⟨targets, Table.mem_entries_iff.mp hrow, SortedSet.mem_toList.mp ht⟩
  · rintro ⟨targets, hrow, htarget⟩
    exact ⟨(source, targets), Table.mem_entries_iff.mpr hrow,
      List.mem_map.mpr ⟨target, SortedSet.mem_toList.mpr htarget, rfl⟩⟩

theorem refers_add {s t : String} :
    (r.add s t).Refers source target ↔ (source = s ∧ target = t) ∨ r.Refers source target := by
  rw [add, Refers, Table.get?_insert]
  by_cases h : source = s
  · subst h
    simp [Refers]
  · simp [h, Refers]

theorem refers_addAll {l : List (String × String)} :
    (r.addAll l).Refers source target ↔ (source, target) ∈ l ∨ r.Refers source target := by
  induction l generalizing r with
  | nil => simp [addAll]
  | cons e l ih =>
    have hstep : r.addAll (e :: l) = (r.add e.1 e.2).addAll l := rfl
    rw [hstep, ih, refers_add, List.mem_cons, Prod.ext_iff, or_left_comm, or_assoc]

theorem refers_restrict {keep : String → String → Bool} :
    (r.restrict keep).Refers source target ↔ r.Refers source target ∧ keep source target := by
  rw [restrict, Refers, Table.get?_filter, Table.get?_map, Refers]
  cases r.get? source with
  | none => simp
  | some targets =>
    rw [Option.map_some, Option.filter_some, Option.getD_some, ← SortedSet.mem_retain]
    split
    · rfl
    next hempty =>
      have hnone : targets.retain (keep source) = ∅ := Table.isEmpty_iff.mp (by simpa using hempty)
      rw [hnone]
      rfl

theorem refers_filter (keep : String → Bool) :
    Refers (r.filter fun source _ => keep source) source target ↔
      r.Refers source target ∧ keep source := by
  rw [Refers, Table.get?_filter, Refers]
  cases r.get? source with
  | none => simp
  | some targets =>
    rw [Option.filter_some]
    cases keep source <;> simp

/-! ### Rows -/

/-- Every layout that is listed refers to something. -/
def NoEmptyRow (r : References) : Prop := ∀ source targets, r.get? source = some targets →
  ∃ target, target ∈ targets

theorem NoEmptyRow.mem_iff (h : r.NoEmptyRow) :
    source ∈ r ↔ ∃ target, r.Refers source target := by
  constructor
  · intro hmem
    obtain ⟨targets, hrow⟩ := Table.mem_iff_exists.mp hmem
    obtain ⟨target, htarget⟩ := h source targets hrow
    exact ⟨target, refers_iff.mpr ⟨targets, hrow, htarget⟩⟩
  · rintro ⟨target, hrefers⟩
    obtain ⟨targets, hrow, -⟩ := refers_iff.mp hrefers
    exact Table.mem_of_get? hrow

/-- References are told apart by the layouts that they list and by their pairs. -/
theorem ext_rows (hmem : ∀ source, source ∈ r ↔ source ∈ r')
    (h : ∀ source target, r.Refers source target ↔ r'.Refers source target) : r = r' := by
  apply Table.ext_get?
  intro source
  have hrow := h source
  cases hs : r.get? source with
  | none =>
    have hmem' : source ∉ r' := fun h => Table.get?_eq_none_iff.mp hs ((hmem source).mpr h)
    exact (Table.get?_eq_none_iff.mpr hmem').symm
  | some targets =>
    obtain ⟨targets', hs'⟩ := Table.mem_iff_exists.mp ((hmem source).mp (Table.mem_of_get? hs))
    have heq : targets = targets' := SortedSet.ext_mem fun target => by
      simpa [Refers, hs, hs'] using hrow target
    rw [hs', heq]

/-- References without empty rows are told apart by their pairs. -/
theorem ext_refers (hr : r.NoEmptyRow) (hr' : r'.NoEmptyRow)
    (h : ∀ source target, r.Refers source target ↔ r'.Refers source target) : r = r' := by
  refine ext_rows (fun source => ?_) h
  rw [hr.mem_iff, hr'.mem_iff]
  exact exists_congr (h source)

theorem NoEmptyRow.addAll (h : r.NoEmptyRow) (l : List (String × String)) :
    (r.addAll l).NoEmptyRow := by
  induction l generalizing r with
  | nil => exact h
  | cons e l ih =>
    refine ih (r := r.add e.1 e.2) fun source targets hrow => ?_
    rw [add, Table.get?_insert] at hrow
    split at hrow
    · cases hrow
      exact ⟨e.2, SortedSet.mem_add.mpr (.inl rfl)⟩
    · exact h source targets hrow

theorem NoEmptyRow.filter (h : r.NoEmptyRow) (keep : String → SortedSet String → Bool) :
    References.NoEmptyRow (r.filter keep) := by
  intro source targets hrow
  rw [Table.get?_filter, Option.filter_eq_some_iff] at hrow
  exact h source targets hrow.1

theorem noEmptyRow_restrict (keep : String → String → Bool) : (r.restrict keep).NoEmptyRow := by
  intro source targets hrow
  rw [restrict, Table.get?_filter, Option.filter_eq_some_iff] at hrow
  exact SortedSet.isEmpty_eq_false_iff.mp (by simpa using hrow.2)

end References

/-- After taking over a fresh log, a layout refers to what the fresh log says; without a class there, it
also refers to what it referred to before. -/
theorem BuildLog.refers_absorb {log fresh : BuildLog} {source target : String} :
    (log.absorb fresh).references.Refers source target ↔ fresh.references.Refers source target ∨
      (log.references.Refers source target ∧ source ∉ fresh.classes) := by
  rw [BuildLog.absorb, References.refers_addAll, References.mem_edges]
  refine or_congr_right ?_
  rw [References.refers_filter fun source => !fresh.classes.contains source,
    Bool.not_eq_true', Table.contains_eq_false_iff]

namespace DependencyGraph

variable {r : References} {known : String → Bool} {source target name : String}

theorem mem_dependentsOf :
    source ∈ (ofReferences r known).dependentsOf target ↔
      r.Refers source target ∧ known target = true := by
  have hrefers : source ∈ (ofReferences r known).dependentsOf target ↔
      (ofReferences r known).dependents.Refers target source := SortedSet.mem_toList
  rw [hrefers, ofReferences, References.refers_addAll, List.mem_map]
  constructor
  · rintro (⟨⟨s, t⟩, hedge, heq⟩ | hfalse)
    · cases heq
      rw [List.mem_filter, References.mem_edges] at hedge
      exact hedge
    · exact absurd hfalse References.not_refers_empty
  · rintro ⟨hrefers, hknown⟩
    refine .inl ⟨(source, target), ?_, rfl⟩
    rw [List.mem_filter, References.mem_edges]
    exact ⟨hrefers, hknown⟩

theorem isDangling_iff :
    (ofReferences r known).isDangling source target = true ↔
      r.Refers source target ∧ known target = false := by
  have hrefers : (ofReferences r known).isDangling source target = true ↔
      (ofReferences r known).dangling.Refers source target := Iff.rfl
  rw [hrefers, ofReferences, References.refers_addAll, List.mem_filter, References.mem_edges]
  simp [References.not_refers_empty]

variable {g : DependencyGraph} {reached : SortedSet String} {waiting : List String}

/-- One layout refers to another one, seen from the latter. -/
def Precedes (g : DependencyGraph) (name dependent : String) : Prop :=
  dependent ∈ g.dependentsOf name

theorem reach_cons (name : String) (rest : List String) :
    g.reach reached (name :: rest) =
      if reached.contains name = false then
        g.reach (reached.add name) (g.dependentsOf name ++ rest)
      else g.reach reached rest := by
  rw [reach]
  simp only [dite_eq_ite]

/-- Only what leads from a waiting layout is reached anew. -/
theorem reach_sound (h : name ∈ g.reach reached waiting) :
    name ∈ reached ∨ ∃ seed ∈ waiting, Relation.ReflTransGen g.Precedes seed name := by
  induction reached, waiting using reach.induct g with
  | case1 reached =>
    rw [reach] at h
    exact .inl h
  | case2 reached first rest hfresh ih =>
    rw [reach_cons, if_pos hfresh] at h
    rcases ih h with hreached | ⟨seed, hseed, hpath⟩
    · rcases SortedSet.mem_add.mp hreached with rfl | hreached
      · exact .inr ⟨name, by simp, .refl⟩
      · exact .inl hreached
    · rcases List.mem_append.mp hseed with hdependent | hrest
      · exact .inr ⟨first, by simp, .head hdependent hpath⟩
      · exact .inr ⟨seed, by simp [hrest], hpath⟩
  | case3 reached first rest hold ih =>
    rw [reach_cons, if_neg hold] at h
    rcases ih h with hreached | ⟨seed, hseed, hpath⟩
    · exact .inl hreached
    · exact .inr ⟨seed, by simp [hseed], hpath⟩

/-- Whatever refers to a layout that has been reached has been reached itself or waits. -/
def Pending (g : DependencyGraph) (reached : SortedSet String) (waiting : List String) : Prop :=
  ∀ name ∈ reached, ∀ dependent ∈ g.dependentsOf name, dependent ∈ reached ∨ dependent ∈ waiting

/-- Visiting a layout makes those that refer to it wait. -/
theorem Pending.visit {first : String} {rest : List String}
    (h : g.Pending reached (first :: rest)) :
    g.Pending (reached.add first) (g.dependentsOf first ++ rest) := by
  intro name hname dependent hdependent
  rcases SortedSet.mem_add.mp hname with rfl | hname
  · exact .inr (List.mem_append_left _ hdependent)
  · rcases h name hname dependent hdependent with hreached | hwaiting
    · exact .inl (SortedSet.mem_add.mpr (.inr hreached))
    · rcases List.mem_cons.mp hwaiting with rfl | hrest
      · exact .inl (SortedSet.mem_add.mpr (.inl rfl))
      · exact .inr (List.mem_append_right _ hrest)

/-- A layout that has been reached need not wait. -/
theorem Pending.skip {first : String} {rest : List String}
    (h : g.Pending reached (first :: rest)) (hfirst : first ∈ reached) :
    g.Pending reached rest := by
  intro name hname dependent hdependent
  rcases h name hname dependent hdependent with hreached | hwaiting
  · exact .inl hreached
  · rcases List.mem_cons.mp hwaiting with rfl | hrest
    · exact .inl hfirst
    · exact .inr hrest

/-- At the end of a run nothing waits. -/
theorem Pending.reach (h : g.Pending reached waiting) :
    g.Pending (g.reach reached waiting) [] := by
  induction reached, waiting using reach.induct g with
  | case1 reached => rwa [DependencyGraph.reach]
  | case2 reached first rest hfresh ih =>
    rw [reach_cons, if_pos hfresh]
    exact ih h.visit
  | case3 reached first rest hold ih =>
    rw [reach_cons, if_neg hold]
    exact ih (h.skip (eq_true_of_ne_false hold))

/-- A run reaches everything that waits. -/
theorem mem_reach (h : name ∈ reached ∨ name ∈ waiting) : name ∈ g.reach reached waiting := by
  induction reached, waiting using reach.induct g with
  | case1 reached =>
    rw [reach]
    exact h.resolve_right List.not_mem_nil
  | case2 reached first rest hfresh ih =>
    rw [reach_cons, if_pos hfresh]
    apply ih
    rw [SortedSet.mem_add, List.mem_append]
    rw [List.mem_cons] at h
    rcases h with hreached | rfl | hrest
    · exact .inl (.inr hreached)
    · exact .inl (.inl rfl)
    · exact .inr (.inr hrest)
  | case3 reached first rest hold ih =>
    rw [reach_cons, if_neg hold]
    apply ih
    rw [List.mem_cons] at h
    rcases h with hreached | rfl | hrest
    · exact .inl hreached
    · exact .inl (eq_true_of_ne_false hold)
    · exact .inr hrest

/-- What is affected by a change is exactly what reaches a seed against the references. -/
theorem mem_affectedBy_iff {seeds : List String} :
    name ∈ g.affectedBy seeds ↔ ∃ seed ∈ seeds, Relation.ReflTransGen g.Precedes seed name := by
  constructor
  · intro h
    exact (reach_sound h).resolve_left (Table.not_mem_empty name)
  · rintro ⟨seed, hseed, hpath⟩
    have hstart : g.Pending ∅ seeds := fun name h => absurd h (Table.not_mem_empty name)
    induction hpath with
    | refl => exact mem_reach (.inr hseed)
    | tail _ hstep ih => exact (hstart.reach _ ih _ hstep).resolve_right List.not_mem_nil

end DependencyGraph

end LayoutRebuild
