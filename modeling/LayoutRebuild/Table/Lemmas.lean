import LayoutRebuild.Table.Basic

/-!
# What look-ups say about tables

Each operation is described by the look-ups in its result, and tables with the same look-ups are
equal.  Proofs about tables go through these statements and never open a list of entries.
-/

namespace LayoutRebuild.Table

variable {κ α β : Type} [Ord κ]

/-! ## Entries and look-ups -/

theorem lookup_cons (k k' : κ) (v : α) (l : List (κ × α)) :
    lookup k ((k', v) :: l) = if compare k k' = .eq then some v else lookup k l := rfl

theorem not_lt_self [Std.TransOrd κ] (k : κ) : ¬ compare k k = .lt := by
  have h : compare k k = .eq := Std.ReflCmp.compare_self
  rw [h]
  decide

theorem mem_of_lookup [Std.LawfulEqOrd κ] {k : κ} {v : α} {l : List (κ × α)}
    (h : lookup k l = some v) : (k, v) ∈ l := by
  induction l with
  | nil => simp [lookup] at h
  | cons e l ih =>
    obtain ⟨k', v'⟩ := e
    rw [lookup_cons] at h
    split at h
    next heq =>
      have := Std.LawfulEqCmp.eq_of_compare heq
      simp_all
    next => exact List.mem_cons_of_mem _ (ih h)

theorem lookup_of_mem [Std.TransOrd κ] [Std.LawfulEqOrd κ] {k : κ} {v : α} {l : List (κ × α)}
    (sorted : l.Pairwise fun a b => compare a.1 b.1 = .lt) (h : (k, v) ∈ l) :
    lookup k l = some v := by
  induction l with
  | nil => simp at h
  | cons e l ih =>
    obtain ⟨k', v'⟩ := e
    rw [lookup_cons]
    rcases List.mem_cons.mp h with heq | hmem
    · cases heq
      simp
    · have hlt : compare k' k = .lt := List.rel_of_pairwise_cons sorted hmem
      have hne : compare k k' ≠ .eq := fun heq =>
        not_lt_self k' (Std.LawfulEqCmp.eq_of_compare heq ▸ hlt)
      rw [if_neg hne]
      exact ih sorted.of_cons hmem

theorem mem_entries_iff [Std.TransOrd κ] [Std.LawfulEqOrd κ] {t : Table κ α} {k : κ} {v : α} :
    (k, v) ∈ t.entries ↔ t.get? k = some v :=
  ⟨lookup_of_mem t.sorted, mem_of_lookup⟩

theorem mem_iff {t : Table κ α} {k : κ} : k ∈ t ↔ (t.get? k).isSome := Iff.rfl

theorem contains_eq {t : Table κ α} {k : κ} : t.contains k = (t.get? k).isSome := rfl

theorem mem_iff_exists {t : Table κ α} {k : κ} : k ∈ t ↔ ∃ v, t.get? k = some v := by
  rw [mem_iff, Option.isSome_iff_exists]

theorem mem_of_get? {t : Table κ α} {k : κ} {v : α} (h : t.get? k = some v) : k ∈ t :=
  mem_iff_exists.mpr ⟨v, h⟩

theorem get?_eq_none_iff {t : Table κ α} {k : κ} : t.get? k = none ↔ k ∉ t := by
  rw [mem_iff, Option.not_isSome_iff_eq_none]

theorem contains_eq_false_iff {t : Table κ α} {k : κ} : t.contains k = false ↔ k ∉ t := by
  rw [← Bool.not_eq_true]
  rfl

theorem mem_keys_iff [Std.TransOrd κ] [Std.LawfulEqOrd κ] {t : Table κ α} {k : κ} :
    k ∈ t.keys ↔ k ∈ t := by
  rw [mem_iff, Option.isSome_iff_exists, keys, List.mem_map]
  constructor
  · rintro ⟨⟨k', v⟩, h, rfl⟩
    exact ⟨v, mem_entries_iff.mp h⟩
  · rintro ⟨v, h⟩
    exact ⟨(k, v), mem_entries_iff.mpr h, rfl⟩

theorem sorted_keys (t : Table κ α) : t.keys.Pairwise fun a b => compare a b = .lt :=
  List.pairwise_map.mpr t.sorted

theorem nodup_entries [Std.TransOrd κ] (t : Table κ α) : t.entries.Nodup := by
  refine t.sorted.imp ?_
  rintro a _ hab rfl
  exact not_lt_self _ hab

/-- Tables with the same look-ups are equal. -/
theorem ext_get? [Std.TransOrd κ] [Std.LawfulEqOrd κ] {t u : Table κ α}
    (h : ∀ k, t.get? k = u.get? k) : t = u := by
  have hentries : t.entries = u.entries := by
    have hmem : ∀ e, e ∈ t.entries ↔ e ∈ u.entries := fun (k, v) => by
      rw [mem_entries_iff, mem_entries_iff, h]
    refine List.Perm.eq_of_pairwise (fun a b _ _ hab hba => ?_) t.sorted u.sorted
      ((List.perm_ext_iff_of_nodup t.nodup_entries u.nodup_entries).mpr hmem)
    exact absurd (Std.TransCmp.lt_trans hab hba) (not_lt_self a.1)
  cases t
  cases u
  simp_all

/-! ## Operations -/

@[simp] theorem get?_empty (k : κ) : (∅ : Table κ α).get? k = none := rfl

@[simp] theorem not_mem_empty (k : κ) : k ∉ (∅ : Table κ α) := by simp [mem_iff]

theorem lookup_insertEntry [Std.TransOrd κ] [Std.LawfulEqOrd κ] [DecidableEq κ] (k k' : κ) (v : α)
    (l : List (κ × α)) :
    lookup k' (insertEntry k v l) = if k' = k then some v else lookup k' l := by
  induction l with
  | nil => simp [insertEntry, lookup]
  | cons e l ih =>
    obtain ⟨k₁, v₁⟩ := e
    rw [insertEntry]
    split
    next => simp [lookup_cons]
    next heq =>
      have hk := Std.LawfulEqCmp.eq_of_compare heq
      subst hk
      by_cases h : k' = k <;> simp [lookup_cons, h]
    next hgt =>
      have hne : k ≠ k₁ := fun h =>
        not_lt_self k₁ (Std.OrientedCmp.gt_iff_lt.mp (h ▸ hgt))
      by_cases h : k' = k₁
      · subst h
        simp [lookup_cons, Ne.symm hne]
      · simp [lookup_cons, h, ih]

theorem get?_insert [Std.TransOrd κ] [Std.LawfulEqOrd κ] [DecidableEq κ] (t : Table κ α)
    (k k' : κ) (v : α) : (t.insert k v).get? k' = if k' = k then some v else t.get? k' :=
  lookup_insertEntry k k' v t.entries

@[simp] theorem get?_insert_self [Std.TransOrd κ] [Std.LawfulEqOrd κ] [DecidableEq κ]
    (t : Table κ α) (k : κ) (v : α) : (t.insert k v).get? k = some v := by
  simp [get?_insert]

theorem get?_filter [Std.TransOrd κ] [Std.LawfulEqOrd κ] (t : Table κ α) (keep : κ → α → Bool)
    (k : κ) : (t.filter keep).get? k = (t.get? k).filter (keep k) := by
  apply Option.ext
  intro v
  rw [← mem_entries_iff, Option.filter_eq_some_iff, ← mem_entries_iff]
  simp [filter]

theorem get?_erase [Std.TransOrd κ] [Std.LawfulEqOrd κ] [DecidableEq κ] (t : Table κ α) (k k' : κ) :
    (t.erase k).get? k' = if k' = k then none else t.get? k' := by
  rw [erase, get?_filter]
  by_cases h : k' = k
  · subst h
    cases t.get? k' <;> simp [Option.filter]
  · cases t.get? k' <;> simp [Option.filter, h, Ne.symm h]

theorem lookup_map_entries (f : κ → α → β) [Std.LawfulEqOrd κ] (k : κ) (l : List (κ × α)) :
    lookup k (l.map fun e => (e.1, f e.1 e.2)) = (lookup k l).map (f k) := by
  induction l with
  | nil => rfl
  | cons e l ih =>
    obtain ⟨k', v⟩ := e
    simp only [List.map_cons, lookup_cons]
    split
    next heq => rw [Std.LawfulEqCmp.eq_of_compare heq]; rfl
    next => exact ih

@[simp] theorem get?_map [Std.LawfulEqOrd κ] (t : Table κ α) (f : κ → α → β) (k : κ) :
    (t.map f).get? k = (t.get? k).map (f k) :=
  lookup_map_entries f k t.entries

/-- The last entry with a key counts, and without one the table that was there before. -/
theorem get?_insertAll [Std.TransOrd κ] [Std.LawfulEqOrd κ] [DecidableEq κ] (t : Table κ α)
    (l : List (κ × α)) (k : κ) :
    (t.insertAll l).get? k =
      ((l.reverse.find? fun e => decide (e.1 = k)).map (·.2)).or (t.get? k) := by
  induction l generalizing t with
  | nil => simp [insertAll]
  | cons e l ih =>
    have hstep : t.insertAll (e :: l) = (t.insert e.1 e.2).insertAll l := rfl
    rw [hstep, ih, List.reverse_cons, List.find?_append]
    cases hfind : l.reverse.find? fun e => decide (e.1 = k) with
    | some x => simp
    | none =>
      by_cases h : e.1 = k
      · simp [h]
      · simp [h, get?_insert, Ne.symm h]

theorem get?_ofList [Std.TransOrd κ] [Std.LawfulEqOrd κ] [DecidableEq κ] (l : List (κ × α))
    (k : κ) :
    (ofList l).get? k = (l.reverse.find? fun e => decide (e.1 = k)).map (·.2) := by
  rw [ofList, get?_insertAll]
  exact Option.or_none

/-- What a table of a list holds is in the list. -/
theorem mem_of_get?_ofList [Std.TransOrd κ] [Std.LawfulEqOrd κ] [DecidableEq κ]
    {l : List (κ × α)} {k : κ} {v : α} (h : (ofList l).get? k = some v) : (k, v) ∈ l := by
  rw [get?_ofList, Option.map_eq_some_iff] at h
  obtain ⟨⟨k', v'⟩, hfind, rfl⟩ := h
  have hmem := List.mem_reverse.mp (List.mem_of_find?_eq_some hfind)
  have hkey := List.find?_some hfind
  simp only [decide_eq_true_eq] at hkey
  rwa [← hkey]

/-- Every key of a list is one of its table. -/
theorem mem_ofList [Std.TransOrd κ] [Std.LawfulEqOrd κ] [DecidableEq κ] {l : List (κ × α)}
    {k : κ} : k ∈ ofList l ↔ ∃ v, (k, v) ∈ l := by
  constructor
  · intro h
    obtain ⟨v, hv⟩ := Option.isSome_iff_exists.mp (mem_iff.mp h)
    exact ⟨v, mem_of_get?_ofList hv⟩
  · rintro ⟨v, hv⟩
    rw [mem_iff, get?_ofList, Option.isSome_map, List.find?_isSome]
    exact ⟨(k, v), List.mem_reverse.mpr hv, decide_eq_true rfl⟩

/-- A table that is given by a function on some keys. -/
theorem get?_ofList_map [Std.TransOrd κ] [Std.LawfulEqOrd κ] [DecidableEq κ] (l : List κ)
    (f : κ → α) (k : κ) :
    (ofList (l.map fun k => (k, f k))).get? k = if k ∈ l then some (f k) else none := by
  have hvalue {v : α} (h : (ofList (l.map fun k => (k, f k))).get? k = some v) :
      k ∈ l ∧ v = f k := by
    obtain ⟨k', hk', heq⟩ := List.mem_map.mp (mem_of_get?_ofList h)
    cases heq
    exact ⟨hk', rfl⟩
  split
  next hk =>
    have hmem : k ∈ ofList (l.map fun k => (k, f k)) :=
      mem_ofList.mpr ⟨f k, List.mem_map.mpr ⟨k, hk, rfl⟩⟩
    obtain ⟨v, hv⟩ := mem_iff_exists.mp hmem
    rw [hv, (hvalue hv).2]
  next hk =>
    rw [get?_eq_none_iff]
    intro hmem
    obtain ⟨v, hv⟩ := mem_iff_exists.mp hmem
    exact hk (hvalue hv).1

/-- The values of a list can be replaced before or after it is made a table. -/
theorem map_ofList [Std.TransOrd κ] [Std.LawfulEqOrd κ] [DecidableEq κ] (l : List (κ × α))
    (f : α → β) :
    (ofList l).map (fun _ v => f v) = ofList (l.map fun e => (e.1, f e.2)) := by
  apply ext_get?
  intro k
  rw [get?_map, get?_ofList, get?_ofList, ← List.map_reverse, List.find?_map, Option.map_map,
    Option.map_map]
  rfl

theorem find?_reverse_entries [Std.TransOrd κ] [Std.LawfulEqOrd κ] [DecidableEq κ] (t : Table κ α)
    (k : κ) : (t.entries.reverse.find? fun e => decide (e.1 = k)).map (·.2) = t.get? k := by
  apply Option.ext
  intro v
  rw [← mem_entries_iff, Option.map_eq_some_iff]
  constructor
  · rintro ⟨⟨k', v'⟩, hfind, rfl⟩
    have hmem := List.mem_of_find?_eq_some hfind
    have hkey := List.find?_some hfind
    simp_all
  · intro hmem
    cases hfind : t.entries.reverse.find? fun e => decide (e.1 = k) with
    | none =>
      rw [List.find?_eq_none] at hfind
      exact absurd (decide_eq_true rfl) (hfind (k, v) (List.mem_reverse.mpr hmem))
    | some e =>
      obtain ⟨k', v'⟩ := e
      have hkey := List.find?_some hfind
      have hmem' := List.mem_of_find?_eq_some hfind
      simp only [decide_eq_true_eq] at hkey
      subst hkey
      rw [List.mem_reverse, mem_entries_iff] at hmem'
      rw [mem_entries_iff] at hmem
      exact ⟨_, rfl, by simp_all⟩

/-- The second table wins. -/
theorem get?_override [Std.TransOrd κ] [Std.LawfulEqOrd κ] [DecidableEq κ] (t u : Table κ α)
    (k : κ) : (t.override u).get? k = (u.get? k).or (t.get? k) := by
  rw [override, get?_insertAll, find?_reverse_entries]

theorem mem_override [Std.TransOrd κ] [Std.LawfulEqOrd κ] [DecidableEq κ] {t u : Table κ α}
    {k : κ} : k ∈ t.override u ↔ k ∈ t ∨ k ∈ u := by
  rw [mem_iff, get?_override, Option.isSome_or, Bool.or_eq_true, or_comm]
  rfl

end LayoutRebuild.Table

namespace LayoutRebuild

theorem nodup_of_sorted {κ : Type} [Ord κ] [Std.TransOrd κ] {keys : List κ}
    (h : keys.Pairwise fun a b => compare a b = .lt) : keys.Nodup := by
  refine h.imp ?_
  rintro a _ hlt rfl
  exact Table.not_lt_self a hlt

end LayoutRebuild

namespace LayoutRebuild.SortedSet

variable {κ : Type} [Ord κ] [Std.TransOrd κ] [Std.LawfulEqOrd κ]

/-- Sets with the same members are equal. -/
theorem ext_mem {s t : SortedSet κ} (h : ∀ k, k ∈ s ↔ k ∈ t) : s = t := by
  apply Table.ext_get?
  intro k
  have hk := h k
  rw [Table.mem_iff, Table.mem_iff] at hk
  cases hs : s.get? k <;> cases ht : t.get? k <;> simp_all

@[simp] theorem mem_toList {s : SortedSet κ} {k : κ} : k ∈ s.toList ↔ k ∈ s := Table.mem_keys_iff

@[simp] theorem mem_add [DecidableEq κ] {s : SortedSet κ} {k k' : κ} :
    k' ∈ s.add k ↔ k' = k ∨ k' ∈ s := by
  rw [Table.mem_iff, add, Table.get?_insert, Table.mem_iff]
  by_cases h : k' = k <;> simp [h]

@[simp] theorem mem_ofList [DecidableEq κ] {l : List κ} {k : κ} : k ∈ ofList l ↔ k ∈ l := by
  rw [Table.mem_iff, ofList, Table.get?_ofList]
  simp [List.find?_isSome]

@[simp] theorem mem_union [DecidableEq κ] {s t : SortedSet κ} {k : κ} :
    k ∈ s.union t ↔ k ∈ s ∨ k ∈ t := by
  rw [Table.mem_iff, union, Table.get?_override, Table.mem_iff, Table.mem_iff, Option.isSome_or]
  simp [or_comm]

@[simp] theorem mem_retain {s : SortedSet κ} {keep : κ → Bool} {k : κ} :
    k ∈ s.retain keep ↔ k ∈ s ∧ keep k = true := by
  rw [Table.mem_iff, retain, Table.get?_filter, Table.mem_iff]
  cases s.get? k <;> simp [Option.filter]

end LayoutRebuild.SortedSet
