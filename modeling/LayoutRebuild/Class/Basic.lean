import LayoutRebuild.Table.Basic

/-!
# Binding classes

For every layout family one class is generated, with one implementation per configuration.  A class
table records the classes of a module by the name of their layout.
-/

namespace LayoutRebuild

/-- The class that is generated for one configuration of a layout. -/
structure Implementation where
  tag : String
  /-- Whether the root of the layout is merged into its surroundings. -/
  merge : Bool
  qualifiedName : String
deriving DecidableEq, Inhabited

namespace Implementation

/-- Implementations are ordered by tag, then merged ones last, then by class name. -/
instance : Ord Implementation :=
  ⟨compareLex (compareOn tag) (compareLex (compareOn merge) (compareOn qualifiedName))⟩

instance : Std.TransOrd Implementation :=
  inferInstanceAs (Std.TransCmp
    (compareLex (compareOn tag) (compareLex (compareOn merge) (compareOn qualifiedName))))

instance : Std.LawfulEqOrd Implementation where
  compare_self {a} := by
    change compareLex (compareOn tag)
      (compareLex (compareOn merge) (compareOn qualifiedName)) a a = .eq
    exact Std.ReflCmp.compare_self
  eq_of_compare {a b} h := by
    have h' : compareLex (compareOn tag)
        (compareLex (compareOn merge) (compareOn qualifiedName)) a b = .eq := h
    simp only [compareLex_eq_eq, compareOn, Std.LawfulEqCmp.compare_eq_iff_eq] at h'
    cases a
    cases b
    simp_all

end Implementation

/-- The class that is generated for a layout family. -/
structure BindingClass where
  qualifiedName : String
  /-- The package of the module that the layout belongs to. -/
  modulePackage : String
  /-- The types of the declared variables, by name. -/
  variableTypes : Table String String
  implementations : SortedSet Implementation
deriving DecidableEq, Inhabited

/-- Binding classes by the name of their layout. -/
abbrev ClassTable : Type := Table String BindingClass

namespace ClassTable

/-- The layouts for which two tables do not agree, be it that only one of them has a class. -/
def differences (t u : ClassTable) : SortedSet String :=
  SortedSet.union
    (SortedSet.ofList (u.keys.filter fun name => t.get? name != u.get? name))
    (SortedSet.ofList (t.keys.filter fun name => t.get? name != u.get? name))

/-- The qualified names of the classes of some layouts.  Layouts without a class do not count. -/
def classNames (t : ClassTable) (layouts : List String) : SortedSet String :=
  SortedSet.ofList ((layouts.filterMap t.get?).map (·.qualifiedName))

/-- The layouts that use a tag, for every tag in use. -/
def tagOwners (t : ClassTable) : Table String (SortedSet String) :=
  (t.entries.flatMap fun (name, c) => c.implementations.toList.map fun i => (i.tag, name)).foldl
    (fun owners (tag, name) =>
      owners.insert tag (((owners.get? tag).getD ∅).add name))
    ∅

/-- The tags that more than one layout uses, with those layouts. -/
def sharedTags (t : ClassTable) : Table String (SortedSet String) :=
  t.tagOwners.filter fun _ names => 1 < names.size

end ClassTable

end LayoutRebuild
