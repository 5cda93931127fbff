import LayoutRebuild.Descriptor.Name

/-!
# Paths

A path is the text it was given as, and prints as that text.  Two paths are the same place, and one
comes before another, by their components: empty segments and inner dots do not count.  Text and
components are kept apart on purpose, since messages show the former and every decision is taken on
the latter.
-/

namespace LayoutRebuild

/-- A path as it was written. -/
structure Path where
  text : String
deriving DecidableEq, Inhabited

/-- One step of a path. -/
inductive Component where
  /-- The root folder, at the start of an absolute path. -/
  | root
  /-- A dot at the start of a relative path. -/
  | here
  /-- The folder above. -/
  | up
  /-- An entry of the folder reached so far. -/
  | name (text : String)
deriving DecidableEq, Inhabited

namespace Component

/-- The place of the kind of a component in the order of components. -/
def rank : Component → Nat
  | root => 0
  | here => 1
  | up => 2
  | name _ => 3

/-- The name of a component, empty for the steps that have none. -/
def label : Component → String
  | name text => text
  | _ => ""

/-- Special steps come before names, and names are in the order of their text. -/
instance : Ord Component := ⟨compareLex (compareOn rank) (compareOn label)⟩

theorem eq_of_rank_label {a b : Component} (hr : a.rank = b.rank) (hl : a.label = b.label) :
    a = b := by
  cases a <;> cases b <;> simp_all [rank, label]

instance : Std.TransOrd Component :=
  inferInstanceAs (Std.TransCmp (compareLex (compareOn rank) (compareOn label)))

instance : Std.LawfulEqOrd Component where
  compare_self {a} := by
    change compareLex (compareOn rank) (compareOn label) a a = .eq
    exact Std.ReflCmp.compare_self
  eq_of_compare {a b} h := by
    have h' : compareLex (compareOn rank) (compareOn label) a b = .eq := h
    simp only [compareLex_eq_eq, compareOn] at h'
    exact eq_of_rank_label (Std.LawfulEqCmp.eq_of_compare h'.1)
      (Std.LawfulEqCmp.eq_of_compare h'.2)

end Component

/-- The pieces of a text between separators.  A text with `n` separators has `n + 1` pieces. -/
def splitAt (separator : Char) : List Char → List (List Char)
  | [] => [[]]
  | c :: rest =>
    if c = separator then [] :: splitAt separator rest
    else
      match splitAt separator rest with
      | piece :: pieces => (c :: piece) :: pieces
      | [] => [[c]]

namespace Path

/-- The text between the slashes. -/
def segments (p : Path) : List String := (splitAt '/' p.text.toList).map String.ofList

/-- Whether the path starts at the root. -/
def isAbsolute (p : Path) : Bool := p.text.toList.head? == some '/'

/-- Whether the path has no text. -/
def isEmpty (p : Path) : Bool := p.text.isEmpty

/-- A segment that leads nowhere else. -/
def isBlank (segment : String) : Bool := segment == "" || segment == "."

/-- The component that a segment stands for. -/
def component? (segment : String) : Option Component :=
  if isBlank segment then none
  else if segment = ".." then some .up
  else some (.name segment)

/-- The components of a path.  A dot counts only at the start of a relative path. -/
def components (p : Path) : List Component :=
  if p.isAbsolute then .root :: p.segments.filterMap component?
  else
    match p.segments with
    | "." :: rest => .here :: rest.filterMap component?
    | all => all.filterMap component?

/-- Whether two paths have the same components. -/
def same (p q : Path) : Bool := p.components == q.components

/-- Paths are ordered by their components. -/
instance : Ord Path := ⟨compareOn components⟩

instance : Std.TransOrd Path := inferInstanceAs (Std.TransCmp (compareOn components))

/-- The last component, if it is a name. -/
def fileName? (p : Path) : Option String :=
  match p.components.getLast? with
  | some (.name text) => some text
  | _ => none

/-- A path below another.  An absolute path replaces what it is joined to. -/
def join (p : Path) (text : String) : Path :=
  if (Path.mk text).isAbsolute then ⟨text⟩
  else if p.text.isEmpty || p.text.toList.getLast? == some '/' then ⟨p.text ++ text⟩
  else ⟨p.text ++ "/" ++ text⟩

/-- The segments without the blank ones at the end. -/
def trimBlank (segments : List String) : List String :=
  (segments.reverse.dropWhile isBlank).reverse

/-- The path without its last component.  Neither the root nor the empty path has one. -/
def parent? (p : Path) : Option Path :=
  if p.isAbsolute then
    match trimBlank p.segments with
    | [] => none
    | body => some ⟨"/" ++ "/".intercalate (trimBlank body.dropLast).tail⟩
  else
    match p.segments with
    | "." :: rest =>
      match trimBlank rest with
      | [] => some ⟨""⟩
      | body => some ⟨"/".intercalate ("." :: trimBlank body.dropLast)⟩
    | all =>
      match trimBlank all with
      | [] => none
      | body => some ⟨"/".intercalate (trimBlank body.dropLast)⟩

/-- The name of the descriptor that the path leads to. -/
def descriptorName? (p : Path) : Option DescriptorName := p.fileName?.bind DescriptorName.parse

/-- The family of the descriptor that the path leads to. -/
def family? (p : Path) : Option String := p.descriptorName?.map (·.family)

end Path

/-- Sorted by components.  Equal paths keep their order. -/
def sortPaths (paths : List Path) : List Path :=
  paths.mergeSort fun p q => (compare p q).isLE

end LayoutRebuild
