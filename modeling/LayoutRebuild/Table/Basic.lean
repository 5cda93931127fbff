/-!
# Tables: finite maps in key order

Every map of the build state is listed by increasing key, so a table is its sorted list of entries
and nothing else.  Two tables with the same look-ups are therefore equal as data, which is what
makes "the next log is the same log" a statement about `=`.

A finite set is a table that sends its members to `()`.
-/

namespace LayoutRebuild

/-- A finite map, listed by strictly increasing key. -/
structure Table (κ : Type) (α : Type) [Ord κ] where
  entries : List (κ × α)
  sorted : entries.Pairwise fun a b => compare a.1 b.1 = .lt

namespace Table

variable {κ α β : Type} [Ord κ]

instance [DecidableEq κ] [DecidableEq α] : DecidableEq (Table κ α) := fun s t =>
  decidable_of_iff (s.entries = t.entries)
    ⟨fun h => by cases s; cases t; simp_all, fun h => h ▸ rfl⟩

/-- The table with no entry. -/
def empty : Table κ α := ⟨[], .nil⟩

instance : EmptyCollection (Table κ α) := ⟨empty⟩

instance : Inhabited (Table κ α) := ⟨empty⟩

/-- The value of the first entry whose key compares equal to `k`. -/
def lookup (k : κ) : List (κ × α) → Option α
  | [] => none
  | (k', v) :: rest => if compare k k' = .eq then some v else lookup k rest

/-- The value at `k`, if there is one. -/
def get? (t : Table κ α) (k : κ) : Option α := lookup k t.entries

/-- Whether `k` has a value. -/
def contains (t : Table κ α) (k : κ) : Bool := (t.get? k).isSome

instance : Membership κ (Table κ α) := ⟨fun t k => t.contains k = true⟩

instance (t : Table κ α) (k : κ) : Decidable (k ∈ t) :=
  inferInstanceAs (Decidable (t.contains k = true))

/-- The keys in increasing order. -/
def keys (t : Table κ α) : List κ := t.entries.map (·.1)

/-- The values in the order of their keys. -/
def values (t : Table κ α) : List α := t.entries.map (·.2)

/-- The number of entries. -/
def size (t : Table κ α) : Nat := t.entries.length

/-- Whether there is no entry. -/
def isEmpty (t : Table κ α) : Bool := t.entries.isEmpty

/-- Puts `(k, v)` in its place, replacing the entry with that key. -/
def insertEntry (k : κ) (v : α) : List (κ × α) → List (κ × α)
  | [] => [(k, v)]
  | (k', v') :: rest =>
    match compare k k' with
    | .lt => (k, v) :: (k', v') :: rest
    | .eq => (k, v) :: rest
    | .gt => (k', v') :: insertEntry k v rest

theorem mem_of_mem_insertEntry {k : κ} {v : α} {e : κ × α} {l : List (κ × α)}
    (h : e ∈ insertEntry k v l) : e = (k, v) ∨ e ∈ l := by
  induction l with
  | nil => simpa [insertEntry] using h
  | cons head rest ih =>
    obtain ⟨k', v'⟩ := head
    rw [insertEntry] at h
    split at h <;> grind

theorem pairwise_insertEntry [Std.TransOrd κ] [Std.LawfulEqOrd κ] {k : κ} {v : α}
    {l : List (κ × α)} (h : l.Pairwise fun a b => compare a.1 b.1 = .lt) :
    (insertEntry k v l).Pairwise fun a b => compare a.1 b.1 = .lt := by
  induction l with
  | nil => simp [insertEntry]
  | cons head rest ih =>
    obtain ⟨k', v'⟩ := head
    have hhead : ∀ e ∈ rest, compare k' e.1 = .lt := fun e he => List.rel_of_pairwise_cons h he
    rw [insertEntry]
    split
    next hlt =>
      refine h.cons fun e he => ?_
      rcases List.mem_cons.mp he with rfl | he
      · exact hlt
      · exact Std.TransCmp.lt_trans hlt (hhead e he)
    next heq =>
      have hk : k = k' := Std.LawfulEqCmp.eq_of_compare heq
      subst hk
      exact h.of_cons.cons fun e he => hhead e he
    next hgt =>
      refine (ih h.of_cons).cons fun e he => ?_
      rcases mem_of_mem_insertEntry he with rfl | he
      · exact Std.OrientedCmp.gt_iff_lt.mp hgt
      · exact hhead e he

/-- The table with `v` at `k`. -/
def insert [Std.TransOrd κ] [Std.LawfulEqOrd κ] (t : Table κ α) (k : κ) (v : α) : Table κ α :=
  ⟨insertEntry k v t.entries, pairwise_insertEntry t.sorted⟩

/-- The entries for which `keep` holds. -/
def filter (keep : κ → α → Bool) (t : Table κ α) : Table κ α :=
  ⟨t.entries.filter fun e => keep e.1 e.2, t.sorted.filter _⟩

/-- The table without `k`. -/
def erase (t : Table κ α) (k : κ) : Table κ α := t.filter fun k' _ => compare k k' != .eq

/-- Every value replaced by its image. -/
def map (f : κ → α → β) (t : Table κ α) : Table κ β :=
  ⟨t.entries.map fun e => (e.1, f e.1 e.2), t.sorted.map _ fun _ _ h => h⟩

/-- Adds a list of entries one after another, so that the last of equal keys stays. -/
def insertAll [Std.TransOrd κ] [Std.LawfulEqOrd κ] (t : Table κ α) (l : List (κ × α)) :
    Table κ α :=
  l.foldl (fun t e => t.insert e.1 e.2) t

/-- The table of a list of entries.  Of equal keys the last one counts. -/
def ofList [Std.TransOrd κ] [Std.LawfulEqOrd κ] (l : List (κ × α)) : Table κ α :=
  empty.insertAll l

/-- The entries of both tables.  Where both have a key, the value of `u` counts. -/
def override [Std.TransOrd κ] [Std.LawfulEqOrd κ] (t u : Table κ α) : Table κ α :=
  t.insertAll u.entries

end Table

/-- A finite set, listed in increasing order. -/
abbrev SortedSet (κ : Type) [Ord κ] : Type := Table κ Unit

namespace SortedSet

variable {κ : Type} [Ord κ]

/-- The members in increasing order. -/
def toList (s : SortedSet κ) : List κ := s.keys

/-- The set with `k` in it. -/
def add [Std.TransOrd κ] [Std.LawfulEqOrd κ] (s : SortedSet κ) (k : κ) : SortedSet κ :=
  s.insert k ()

/-- The set of the members of a list. -/
def ofList [Std.TransOrd κ] [Std.LawfulEqOrd κ] (l : List κ) : SortedSet κ :=
  Table.ofList (l.map fun k => (k, ()))

/-- The members of either set. -/
def union [Std.TransOrd κ] [Std.LawfulEqOrd κ] (s t : SortedSet κ) : SortedSet κ :=
  s.override t

/-- The members for which `keep` holds. -/
def retain (keep : κ → Bool) (s : SortedSet κ) : SortedSet κ := s.filter fun k _ => keep k

end SortedSet

end LayoutRebuild
