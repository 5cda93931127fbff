import LayoutRebuild.Log.Basic
import LayoutRebuild.Table.Lemmas

/-!
# Who is affected by a change

The references of the previous build, turned round.  A reference to a layout that nobody knows any
more leads nowhere and is set aside, so that no change travels along it.  What is affected by a
change is everything that reaches it against the direction of the references.
-/

namespace LayoutRebuild

/-- References turned round, and those that lead nowhere. -/
structure DependencyGraph where
  /-- For every layout, the layouts that refer to it. -/
  dependents : References
  /-- The references to layouts that nobody knows. -/
  dangling : References
deriving DecidableEq, Inhabited

namespace DependencyGraph

/-- The graph of some references. -/
def ofReferences (r : References) (known : String → Bool) : DependencyGraph where
  dependents := References.addAll ∅ <|
    ((References.edges r).filter fun e => known e.2).map fun e => (e.2, e.1)
  dangling := References.addAll ∅ <| (References.edges r).filter fun e => !known e.2

/-- The layouts that refer to a layout. -/
def dependentsOf (g : DependencyGraph) (name : String) : List String :=
  ((g.dependents.get? name).getD ∅).toList

/-- Whether a reference leads nowhere. -/
def isDangling (g : DependencyGraph) (source target : String) : Bool :=
  ((g.dangling.get? source).getD ∅).contains target

/-- The number of references that lead nowhere. -/
def danglingCount (g : DependencyGraph) : Nat := (References.edges g.dangling).length

/-- The number of references of some entries whose key has not been reached. -/
def openReferences (reached : SortedSet String) (entries : List (String × SortedSet String)) :
    Nat :=
  ((entries.filter fun e => !reached.contains e.1).flatMap fun e => e.2.toList).length

theorem openReferences_cons (reached : SortedSet String) (e : String × SortedSet String)
    (entries : List (String × SortedSet String)) :
    openReferences reached (e :: entries) =
      (if reached.contains e.1 then 0 else e.2.toList.length) + openReferences reached entries := by
  cases h : reached.contains e.1 <;> simp [openReferences, h]

/-- Reaching a layout uses up the references that lead to it. -/
theorem openReferences_add (reached : SortedSet String) (name : String)
    (entries : List (String × SortedSet String)) (fresh : reached.contains name = false) :
    openReferences (reached.add name) entries + ((Table.lookup name entries).getD ∅).toList.length ≤
      openReferences reached entries := by
  induction entries with
  | nil => simp [openReferences, Table.lookup, SortedSet.toList, Table.keys]; rfl
  | cons e l ih =>
    obtain ⟨k, targets⟩ := e
    have hcontains : (reached.add name).contains k = (k = name || reached.contains k) := by
      have h : k ∈ reached.add name ↔ k = name ∨ k ∈ reached := SortedSet.mem_add
      rw [Bool.eq_iff_iff]
      simpa [Table.mem_iff, Table.contains_eq] using h
    rw [openReferences_cons, openReferences_cons, hcontains]
    by_cases hk : k = name
    · subst hk
      simp only [fresh, decide_true, Bool.true_or, if_true, Bool.false_eq_true, if_false,
        Table.lookup_cons, Std.LawfulEqOrd.compare_eq_iff_eq, Option.getD_some]
      omega
    · simp only [hk, decide_false, Bool.false_or, Table.lookup_cons,
        Std.LawfulEqOrd.compare_eq_iff_eq, Ne.symm hk, if_false]
      omega

/-- What is reached from a list of layouts, given what has been reached before.  A layout that is
met for the first time puts the layouts that refer to it in front of the list. -/
def reach (g : DependencyGraph) (reached : SortedSet String) : List String → SortedSet String
  | [] => reached
  | name :: rest =>
    if _fresh : reached.contains name = false then
      g.reach (reached.add name) (g.dependentsOf name ++ rest)
    else g.reach reached rest
termination_by waiting => openReferences reached g.dependents.entries + waiting.length
decreasing_by
  · have := openReferences_add reached name g.dependents.entries ‹_›
    simp only [dependentsOf, Table.get?, List.length_append, List.length_cons]
    omega
  · simp

/-- The given layouts and everything that refers to them, directly or through others. -/
def affectedBy (g : DependencyGraph) (seeds : List String) : SortedSet String := g.reach ∅ seeds

end DependencyGraph

end LayoutRebuild
