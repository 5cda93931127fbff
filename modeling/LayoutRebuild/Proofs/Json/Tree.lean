import LayoutRebuild.Json.Reader

/-!
# Documents of any shape

A well-formed document is the tree of its values, whatever their types are (`Tree`).  It differs from a
value that is written here in that a number may be any literal, a string may name half of a surrogate
pair, and the keys of an object need not differ.  What is skipped is exactly one such tree
(`skip_tokens`).
-/

namespace LayoutRebuild.Json

/-- A well-formed document. -/
inductive Tree where
  | null
  | boolean (value : Bool)
  | number (literal : List Char)
  | text (value : Option String)
  | array (items : List Tree)
  | object (members : List (Option String × Tree))
deriving Inhabited

namespace Tree

/-! ## Tokens of a document -/

mutual

/-- The tokens of a document. -/
def tokens : Tree → List Token
  | null => [.null]
  | boolean b => [.boolean b]
  | number literal => [.number literal]
  | text s => [.text s]
  | array items => .openBracket :: arrayTokens items
  | object members => .openBrace :: objectTokens members

/-- The tokens of an array that has been opened. -/
def arrayTokens : List Tree → List Token
  | [] => [.closeBracket]
  | item :: items => item.tokens ++ itemTokens items

/-- The tokens of an array after an item. -/
def itemTokens : List Tree → List Token
  | [] => [.closeBracket]
  | item :: items => .comma :: (item.tokens ++ itemTokens items)

/-- The tokens of an object that has been opened. -/
def objectTokens : List (Option String × Tree) → List Token
  | [] => [.closeBrace]
  | (key, value) :: members => .text key :: .colon :: (value.tokens ++ memberTokens members)

/-- The tokens of an object after a member. -/
def memberTokens : List (Option String × Tree) → List Token
  | [] => [.closeBrace]
  | (key, value) :: members =>
    .comma :: .text key :: .colon :: (value.tokens ++ memberTokens members)

end

/-- No document starts with the end of an array. -/
theorem exists_tokens_eq_cons (tree : Tree) :
    ∃ t ts, tree.tokens = t :: ts ∧ t ≠ .closeBracket := by
  cases tree <;> exact ⟨_, _, rfl, by simp⟩

/-- Every further item takes a comma at least. -/
theorem length_lt_itemTokens (items : List Tree) : items.length < (itemTokens items).length := by
  induction items with
  | nil => simp [itemTokens]
  | cons item items ih =>
    simp only [itemTokens, List.length_cons, List.length_append]
    omega

theorem length_lt_memberTokens (members : List (Option String × Tree)) :
    members.length < (memberTokens members).length := by
  induction members with
  | nil => simp [memberTokens]
  | cons member members ih =>
    simp only [memberTokens, List.length_cons, List.length_append]
    omega

/-! ## Skipping -/

open Reader

/-- What is left to skip once a value is complete: the containers that are open, if there are any. -/
def skipOpen (inside : List Bool) (rest : List Token) : Except Fault (List Token) :=
  if inside.isEmpty then .ok rest else skipRest inside .separator rest

theorem skipOpen_cons (kind : Bool) (inside : List Bool) (rest : List Token) :
    skipOpen (kind :: inside) rest = skipRest (kind :: inside) .separator rest := rfl

mutual

/-- One document is skipped where a value or the first item of an array is expected. -/
theorem skipRest_tokens (inside : List Bool) {expected : Expected}
    (h : expected = .value ∨ expected = .firstItem) (rest : List Token) :
    ∀ tree : Tree, skipRest inside expected (tree.tokens ++ rest) = skipOpen inside rest
  | null | boolean _ | number _ | text _ => by rcases h with rfl | rfl <;> rfl
  | array items => by
    have hitems := skipRest_arrayTokens inside rest items
    rcases h with rfl | rfl <;> exact hitems
  | object members => by
    have hmembers := skipRest_objectTokens inside rest members
    rcases h with rfl | rfl <;> exact hmembers

theorem skipRest_arrayTokens (inside : List Bool) (rest : List Token) : ∀ items : List Tree,
    skipRest (false :: inside) .firstItem (arrayTokens items ++ rest) = skipOpen inside rest
  | [] => rfl
  | item :: items => by
    rw [arrayTokens, List.append_assoc, skipRest_tokens _ (.inr rfl), skipOpen_cons]
    exact skipRest_itemTokens inside rest items

theorem skipRest_itemTokens (inside : List Bool) (rest : List Token) : ∀ items : List Tree,
    skipRest (false :: inside) .separator (itemTokens items ++ rest) = skipOpen inside rest
  | [] => rfl
  | item :: items => by
    rw [itemTokens, List.cons_append, List.append_assoc]
    refine (skipRest_tokens (false :: inside) (.inl rfl) _ item).trans ?_
    exact skipRest_itemTokens inside rest items

theorem skipRest_objectTokens (inside : List Bool) (rest : List Token) :
    ∀ members : List (Option String × Tree),
      skipRest (true :: inside) .firstKey (objectTokens members ++ rest) = skipOpen inside rest
  | [] => rfl
  | (key, value) :: members => by
    rw [objectTokens, List.cons_append, List.cons_append, List.append_assoc]
    refine (skipRest_tokens (true :: inside) (.inl rfl) _ value).trans ?_
    exact skipRest_memberTokens inside rest members

theorem skipRest_memberTokens (inside : List Bool) (rest : List Token) :
    ∀ members : List (Option String × Tree),
      skipRest (true :: inside) .separator (memberTokens members ++ rest) = skipOpen inside rest
  | [] => rfl
  | (key, value) :: members => by
    rw [memberTokens, List.cons_append, List.cons_append, List.cons_append, List.append_assoc]
    refine (skipRest_tokens (true :: inside) (.inl rfl) _ value).trans ?_
    exact skipRest_memberTokens inside rest members

end

/-- What is skipped is one document, whatever it holds. -/
theorem skip_tokens (tree : Tree) (rest : List Token) : skip (tree.tokens ++ rest) = .ok rest :=
  skipRest_tokens [] (.inl rfl) rest tree

end Tree

end LayoutRebuild.Json
