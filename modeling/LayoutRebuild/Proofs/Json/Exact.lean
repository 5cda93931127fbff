import Mathlib.Data.List.Forall2
import LayoutRebuild.Class.Json
import LayoutRebuild.Proofs.Json.Tree

/-!
# Readers that take whole values

In front of a well-formed document a reader takes the whole document or refuses it, and what follows
has no part in that (`Exact`).  So whether a document is accepted is decided part by part: an object by
its members in order (`FoldsTo`), and a record by the fields that its members or its places stand for.
-/

namespace LayoutRebuild.Json

open Reader

variable {α β σ : Type} {r : Reader α} {tree : Tree}

/-- The reader takes the document, and nothing more, and answers `a`. -/
def Takes (r : Reader α) (tree : Tree) (a : α) : Prop :=
  ∀ rest, r (tree.tokens ++ rest) = .ok (a, rest)

/-- The document is one that the reader can read on its own. -/
def Accepts (r : Reader α) (tree : Tree) : Prop := ∃ a, r tree.tokens = .ok (a, [])

/-- The reader takes the whole document in front or refuses it, whatever follows. -/
def Exact (r : Reader α) : Prop := ∀ ⦃tree rest a rest'⦄,
  r (tree.tokens ++ rest) = .ok (a, rest') → rest' = rest ∧ Takes r tree a

theorem Takes.eq {a : α} (h : Takes r tree a) (rest : List Token) :
    r (tree.tokens ++ rest) = .ok (a, rest) := h rest

theorem Takes.accepts {a : α} (h : Takes r tree a) : Accepts r tree := by
  have hread := h []
  rw [List.append_nil] at hread
  exact ⟨a, hread⟩

theorem Exact.accepts_iff (h : Exact r) : Accepts r tree ↔ ∃ a, Takes r tree a := by
  constructor
  · rintro ⟨a, hread⟩
    rw [← List.append_nil tree.tokens] at hread
    exact ⟨a, (h hread).2⟩
  · rintro ⟨a, htakes⟩
    exact htakes.accepts

/-- To read a document and go on is to go on after it. -/
theorem Exact.andThen_eq_ok (h : Exact r) {after : List Token}
    {next : α → List Token → Except Fault β} {b : β} :
    (match r (tree.tokens ++ after) with
      | .error e => Except.error e
      | .ok (a, rest) => next a rest) = .ok b ↔ ∃ a, Takes r tree a ∧ next a after = .ok b := by
  constructor
  · intro hread
    split at hread
    · cases hread
    next a rest ha =>
      obtain ⟨rfl, htakes⟩ := h ha
      exact ⟨a, htakes, hread⟩
  · rintro ⟨a, htakes, hnext⟩
    rw [htakes.eq]
    exact hnext

theorem Takes.map {a : α} (f : α → β) (h : Takes r tree a) : Takes (r.map f) tree (f a) := by
  intro rest
  simp only [Reader.map, h rest]

theorem map_eq_ok {f : α → β} {ts rest : List Token} {b : β} :
    r.map f ts = .ok (b, rest) ↔ ∃ a, r ts = .ok (a, rest) ∧ f a = b := by
  unfold Reader.map
  split
  next a after hread =>
    rw [hread, Except.ok.injEq, Prod.mk.injEq]
    simp only [Except.ok.injEq, Prod.mk.injEq]
    constructor
    · rintro ⟨rfl, rfl⟩
      exact ⟨a, ⟨rfl, rfl⟩, rfl⟩
    · rintro ⟨_, ⟨rfl, rfl⟩, rfl⟩
      exact ⟨rfl, rfl⟩
  next fault hread => simp [hread]

theorem accepts_map {f : α → β} : Accepts (r.map f) tree ↔ Accepts r tree := by
  simp only [Accepts, map_eq_ok]
  constructor
  · rintro ⟨_, a, hread, -⟩
    exact ⟨a, hread⟩
  · rintro ⟨a, hread⟩
    exact ⟨f a, a, hread, rfl⟩

/-- Only `null` stands for no value. -/
theorem optional_tokens (h : tree ≠ .null) (rest : List Token) :
    optional r (tree.tokens ++ rest) = r.map some (tree.tokens ++ rest) := by
  cases tree with
  | null => exact absurd rfl h
  | boolean | number | text | array | object => rfl

/-- A value that is there is accepted as it would be on its own. -/
theorem accepts_optional (h : tree ≠ .null) : Accepts (optional r) tree ↔ Accepts r tree := by
  have htokens := optional_tokens (r := r) h []
  rw [List.append_nil] at htokens
  simp only [Accepts, htokens]
  constructor
  · rintro ⟨a, hread⟩
    obtain ⟨b, hb, -⟩ := map_eq_ok.mp hread
    exact ⟨b, hb⟩
  · rintro ⟨b, hread⟩
    exact ⟨some b, map_eq_ok.mpr ⟨b, hread, rfl⟩⟩

namespace Exact

theorem map (h : Exact r) (f : α → β) : Exact (r.map f) := by
  intro tree rest b rest' hmap
  obtain ⟨a, hread, rfl⟩ := map_eq_ok.mp hmap
  obtain ⟨hrest, htakes⟩ := h hread
  exact ⟨hrest, htakes.map f⟩

theorem optional (h : Exact r) : Exact (Reader.optional r) := by
  intro tree rest a rest' hread
  by_cases hnull : tree = .null
  · subst hnull
    cases hread
    exact ⟨rfl, fun _ => rfl⟩
  · rw [optional_tokens hnull] at hread
    obtain ⟨hrest, htakes⟩ := h.map some hread
    exact ⟨hrest, fun rest => (optional_tokens hnull rest).trans (htakes rest)⟩

end Exact

/-! ## Plain values -/

theorem exact_text : Exact text := by
  intro tree rest a rest' h
  cases tree with
  | text s =>
    cases s with
    | none => cases h
    | some s =>
      cases h
      exact ⟨rfl, fun _ => rfl⟩
  | null | boolean | number | array | object => cases h

theorem exact_boolean : Exact boolean := by
  intro tree rest a rest' h
  cases tree with
  | boolean b =>
    cases h
    exact ⟨rfl, fun _ => rfl⟩
  | null | text | number | array | object => cases h

theorem natural_number {limit : Nat} {literal : List Char} {n : Nat} {rest rest' : List Token} :
    natural limit ((Tree.number literal).tokens ++ rest) = .ok (n, rest') ↔
      rest' = rest ∧ literal.all isDigit = true ∧ digitsValue literal < limit ∧
        digitsValue literal = n := by
  change (if _ then _ else _) = _ ↔ _
  split
  next h => simp [h.1, h.2, and_comm, eq_comm]
  next h =>
    constructor
    · intro hread
      cases hread
    · rintro ⟨-, hdigits, hlimit, -⟩
      exact absurd ⟨hdigits, hlimit⟩ h

theorem exact_natural (limit : Nat) : Exact (natural limit) := by
  intro tree rest a rest' h
  cases tree with
  | number literal =>
    obtain ⟨hrest, hvalue⟩ := natural_number.mp h
    exact ⟨hrest, fun rest => natural_number.mpr ⟨rfl, hvalue⟩⟩
  | null | text | boolean | array | object => cases h

theorem hash_text {s : String} {h : ContentHash} {rest rest' : List Token} :
    Reader.hash ((Tree.text (some s)).tokens ++ rest) = .ok (h, rest') ↔
      rest' = rest ∧ ContentHash.parse s = .ok h := by
  have hread : Reader.text ((Tree.text (some s)).tokens ++ rest) = .ok (s, rest) := rfl
  simp only [Reader.hash, hread]
  split
  next hash hparse => simp [hparse, and_comm, eq_comm]
  next fault hparse => simp [hparse]

theorem exact_hash : Exact Reader.hash := by
  intro tree rest a rest' h
  cases tree with
  | text s =>
    cases s with
    | none => cases h
    | some s =>
      obtain ⟨hrest, hparse⟩ := hash_text.mp h
      exact ⟨hrest, fun rest => hash_text.mpr ⟨rfl, hparse⟩⟩
  | null | boolean | number | array | object => cases h

/-! ## Arrays -/

/-- What has been read after the first item of an array. -/
theorem items_eq_ok (hr : Exact r) {fuel : Nat} {item : Tree} {after rest : List Token} {l : List α}
    (h : items r fuel (item.tokens ++ after) = .ok (l, rest)) :
    ∃ a, Takes r item a ∧ ((after = .closeBracket :: rest ∧ l = [a]) ∨
      ∃ fuel more l', after = .comma :: more ∧ items r fuel more = .ok (l', rest) ∧ l = a :: l') := by
  cases fuel with
  | zero => cases h
  | succ fuel =>
    rw [items] at h
    split at h
    · cases h
    next a more hitem =>
      obtain ⟨heq, htakes⟩ := hr hitem
      obtain ⟨l', hmore, rfl⟩ := map_eq_ok.mp h
      exact ⟨a, htakes, .inr ⟨fuel, more, l', heq.symm, hmore, rfl⟩⟩
    next a more hitem =>
      obtain ⟨heq, htakes⟩ := hr hitem
      cases h
      exact ⟨a, htakes, .inl ⟨heq.symm, rfl⟩⟩
    · cases h

/-- From an item on, an array is read item by item. -/
theorem takes_of_items (hr : Exact r) {fuel : Nat} {item : Tree} {later : List Tree} {l : List α}
    {rest rest' : List Token}
    (h : items r fuel (item.tokens ++ (Tree.itemTokens later ++ rest)) = .ok (l, rest')) :
    rest' = rest ∧ List.Forall₂ (Takes r) (item :: later) l := by
  induction later generalizing fuel item l with
  | nil =>
    obtain ⟨a, htakes, ⟨hafter, rfl⟩ | ⟨fuel, more, l', hafter, -, -⟩⟩ := items_eq_ok hr h
    · cases hafter
      exact ⟨rfl, .cons htakes .nil⟩
    · cases hafter
  | cons next later ih =>
    obtain ⟨a, htakes, ⟨hafter, -⟩ | ⟨fuel, more, l', hafter, hmore, rfl⟩⟩ := items_eq_ok hr h
    · cases hafter
    · rw [Tree.itemTokens, List.cons_append, List.cons.injEq] at hafter
      rw [← hafter.2, List.append_assoc] at hmore
      obtain ⟨hrest, hlater⟩ := ih hmore
      exact ⟨hrest, .cons htakes hlater⟩

theorem items_of_takes {item : Tree} {later : List Tree} {l : List α}
    (h : List.Forall₂ (Takes r) (item :: later) l) (rest : List Token) :
    ∀ fuel, later.length < fuel →
      items r fuel (item.tokens ++ (Tree.itemTokens later ++ rest)) = .ok (l, rest) := by
  induction later generalizing item l with
  | nil =>
    intro fuel hfuel
    obtain ⟨fuel, rfl⟩ := Nat.exists_eq_add_of_lt hfuel
    obtain _ | ⟨hitem, _ | _⟩ := h
    simp only [Tree.itemTokens, List.cons_append, List.nil_append, items, hitem.eq]
  | cons next later ih =>
    intro fuel hfuel
    obtain ⟨fuel, rfl⟩ := Nat.exists_eq_add_of_lt hfuel
    obtain _ | ⟨hitem, hlater⟩ := h
    have hmore := ih hlater ((next :: later).length + fuel) (by simp; omega)
    simp only [Tree.itemTokens, List.cons_append, List.append_assoc, items, hitem.eq, Reader.map,
      hmore]

theorem array_array (hr : Exact r) {items : List Tree} {l : List α} {rest rest' : List Token} :
    array r ((Tree.array items).tokens ++ rest) = .ok (l, rest') ↔
      rest' = rest ∧ List.Forall₂ (Takes r) items l := by
  cases items with
  | nil =>
    constructor
    · intro h
      cases h
      exact ⟨rfl, .nil⟩
    · rintro ⟨rfl, _ | _⟩
      rfl
  | cons item items =>
    have hopen : array r ((Tree.array (item :: items)).tokens ++ rest) =
        Reader.items r (item.tokens ++ (Tree.itemTokens items ++ rest)).length
          (item.tokens ++ (Tree.itemTokens items ++ rest)) := by
      obtain ⟨t, ts, htokens, hne⟩ := item.exists_tokens_eq_cons
      simp only [Tree.tokens, Tree.arrayTokens, List.cons_append, List.append_assoc]
      rw [htokens, List.cons_append]
      rw [array]
      intro rest' heq
      exact hne (List.cons.inj heq).1
    rw [hopen]
    constructor
    · exact takes_of_items hr
    · rintro ⟨rfl, h⟩
      have hlength := Tree.length_lt_itemTokens items
      exact items_of_takes h _ _ (by simp only [List.length_append]; omega)

theorem Exact.array (hr : Exact r) : Exact (array r) := by
  intro tree rest l rest' h
  cases tree with
  | array items =>
    obtain ⟨hrest, htakes⟩ := (array_array hr).mp h
    exact ⟨hrest, fun rest => (array_array hr).mpr ⟨rfl, htakes⟩⟩
  | null | boolean | number | text | object => cases h

/-! ## Objects -/

/-- What a reader reads after a colon. -/
def underColon (r : Reader α) : Reader α := fun ts => r (.colon :: ts)

/-- What the members of an object fold into, member by member. -/
inductive FoldsTo (member : σ → String → Reader σ) :
    σ → List (Option String × Tree) → σ → Prop where
  | nil {acc : σ} : FoldsTo member acc [] acc
  | cons {acc next last : σ} {key : String} {value : Tree}
      {members : List (Option String × Tree)}
      (head : Takes (underColon (member acc key)) value next)
      (tail : FoldsTo member next members last) :
      FoldsTo member acc ((some key, value) :: members) last

section Members

variable {member : σ → String → Reader σ} {acc last : σ} {ms : List (Option String × Tree)}

/-- What has been read after the first member of an object. -/
theorem members_eq_ok (hmember : ∀ acc key, Exact (underColon (member acc key))) {fuel : Nat}
    {key : Option String} {value : Tree} {after rest : List Token}
    (h : members member fuel acc (.text key :: .colon :: (value.tokens ++ after)) =
      .ok (last, rest)) :
    ∃ name next, key = some name ∧ Takes (underColon (member acc name)) value next ∧
      ((after = .closeBrace :: rest ∧ last = next) ∨
        ∃ fuel more, after = .comma :: more ∧ members member fuel next more = .ok (last, rest)) := by
  cases fuel with
  | zero => cases h
  | succ fuel =>
    cases key with
    | none => cases h
    | some name =>
      rw [members] at h
      split at h
      · cases h
      next next more hvalue =>
        obtain ⟨heq, htakes⟩ := hmember acc name hvalue
        exact ⟨name, next, rfl, htakes, .inr ⟨fuel, more, heq.symm, h⟩⟩
      next next more hvalue =>
        obtain ⟨heq, htakes⟩ := hmember acc name hvalue
        cases h
        exact ⟨name, _, rfl, htakes, .inl ⟨heq.symm, rfl⟩⟩
      · cases h

/-- From a key on, an object is read member by member. -/
theorem foldsTo_of_members (hmember : ∀ acc key, Exact (underColon (member acc key)))
    {fuel : Nat} {key : Option String} {value : Tree} {rest rest' : List Token}
    (h : members member fuel acc (.text key :: .colon ::
      (value.tokens ++ (Tree.memberTokens ms ++ rest))) = .ok (last, rest')) :
    rest' = rest ∧ FoldsTo member acc ((key, value) :: ms) last := by
  induction ms generalizing fuel acc key value with
  | nil =>
    obtain ⟨name, next, rfl, htakes, ⟨hafter, rfl⟩ | ⟨fuel, more, hafter, -⟩⟩ :=
      members_eq_ok hmember h
    · cases hafter
      exact ⟨rfl, .cons htakes .nil⟩
    · cases hafter
  | cons m ms ih =>
    obtain ⟨key', value'⟩ := m
    obtain ⟨name, next, rfl, htakes, ⟨hafter, -⟩ | ⟨fuel, more, hafter, hmore⟩⟩ :=
      members_eq_ok hmember h
    · cases hafter
    · simp only [Tree.memberTokens, List.cons_append, List.append_assoc, List.cons.injEq,
        true_and] at hafter
      rw [← hafter] at hmore
      obtain ⟨hrest, hlater⟩ := ih hmore
      exact ⟨hrest, .cons htakes hlater⟩

theorem members_of_foldsTo {key : Option String} {value : Tree}
    (h : FoldsTo member acc ((key, value) :: ms) last) (rest : List Token) :
    ∀ fuel, ms.length < fuel →
      members member fuel acc (.text key :: .colon ::
        (value.tokens ++ (Tree.memberTokens ms ++ rest))) = .ok (last, rest) := by
  induction ms generalizing acc key value with
  | nil =>
    intro fuel hfuel
    obtain ⟨fuel, rfl⟩ := Nat.exists_eq_add_of_lt hfuel
    obtain _ | ⟨head, _ | _⟩ := h
    have hhead := head.eq
    simp only [underColon] at hhead
    simp only [Tree.memberTokens, List.cons_append, List.nil_append, members, hhead]
  | cons m ms ih =>
    intro fuel hfuel
    obtain ⟨fuel, rfl⟩ := Nat.exists_eq_add_of_lt hfuel
    obtain _ | ⟨head, tail⟩ := h
    have hhead := head.eq
    simp only [underColon] at hhead
    simp only [Tree.memberTokens, List.cons_append, List.append_assoc, members, hhead]
    exact ih tail _ (by simp; omega)

theorem object_object (hmember : ∀ acc key, Exact (underColon (member acc key))) {start : σ}
    {rest rest' : List Token} :
    object member start ((Tree.object ms).tokens ++ rest) = .ok (last, rest') ↔
      rest' = rest ∧ FoldsTo member start ms last := by
  cases ms with
  | nil =>
    constructor
    · intro h
      cases h
      exact ⟨rfl, .nil⟩
    · rintro ⟨rfl, _ | _⟩
      rfl
  | cons m ms =>
    obtain ⟨key, value⟩ := m
    simp only [Tree.tokens, Tree.objectTokens, List.cons_append, List.append_assoc, object]
    constructor
    · exact foldsTo_of_members hmember
    · rintro ⟨rfl, h⟩
      have hlength := Tree.length_lt_memberTokens ms
      exact members_of_foldsTo h _ _ (by simp only [List.length_cons, List.length_append]; omega)

theorem exact_object (hmember : ∀ acc key, Exact (underColon (member acc key))) (start : σ) :
    Exact (object member start) := by
  intro tree rest last rest' h
  cases tree with
  | object ms =>
    obtain ⟨hrest, hfolds⟩ := (object_object hmember).mp h
    exact ⟨hrest, fun rest => (object_object hmember).mpr ⟨rfl, hfolds⟩⟩
  | null | boolean | number | text | array => cases h

end Members

theorem Exact.pair (h : Exact r) (acc : List (String × α)) (key : String) :
    Exact (underColon ((afterColon r).map fun a => (key, a) :: acc)) :=
  h.map fun a => (key, a) :: acc

theorem Exact.pairs (h : Exact r) : Exact (pairs r) :=
  (exact_object h.pair []).map List.reverse

/-- An object is a list of pairs if every key is a string and every value is accepted. -/
theorem Exact.accepts_pairs_iff (h : Exact r) {ms : List (Option String × Tree)} :
    Accepts (Reader.pairs r) (.object ms) ↔ ∀ m ∈ ms, m.1.isSome = true ∧ Accepts r m.2 := by
  have hfolds : ∀ acc : List (String × α),
      (∃ last, FoldsTo (fun acc key => (afterColon r).map fun a => (key, a) :: acc) acc ms last) ↔
        ∀ m ∈ ms, m.1.isSome = true ∧ Accepts r m.2 := by
    induction ms with
    | nil => exact fun acc => iff_of_true ⟨acc, .nil⟩ (by simp)
    | cons m ms ih =>
      intro acc
      obtain ⟨key, value⟩ := m
      rw [List.forall_mem_cons]
      constructor
      · rintro ⟨last, _ | ⟨head, tail⟩⟩
        exact ⟨⟨rfl, accepts_map.mp head.accepts⟩, (ih _).mp ⟨last, tail⟩⟩
      · rintro ⟨⟨hkey, hvalue⟩, hlater⟩
        obtain ⟨name, rfl⟩ := Option.isSome_iff_exists.mp hkey
        obtain ⟨a, ha⟩ := h.accepts_iff.mp hvalue
        obtain ⟨last, tail⟩ := (ih ((name, a) :: acc)).mpr hlater
        exact ⟨last, .cons (ha.map fun a => (name, a) :: acc) tail⟩
  rw [Reader.pairs, accepts_map, (exact_object h.pair []).accepts_iff, ← hfolds []]
  exact exists_congr fun last =>
    ⟨fun htakes => ((object_object h.pair).mp (htakes [])).2,
      fun hfold rest => (object_object h.pair).mpr ⟨rfl, hfold⟩⟩

/-! ## Records -/

/-- Every field is read by a reader that takes whole values. -/
def ExactFields (fields : List (Reader.Field σ)) : Prop :=
  ∀ field ∈ fields, ∀ acc, Exact (field.read acc)

section Fields

variable {fields : List (Reader.Field σ)} {acc : σ} {key : String}

theorem ExactFields.nil : ExactFields ([] : List (Reader.Field σ)) := by
  intro field hfield
  cases hfield

theorem ExactFields.cons {field : Reader.Field σ} (head : ∀ acc, Exact (field.read acc))
    (tail : ExactFields fields) : ExactFields (field :: fields) :=
  List.forall_mem_cons.mpr ⟨head, tail⟩

/-- What a field makes of a value. -/
theorem fieldMember_known {field : Reader.Field σ} (hfield : fields.find? (·.name == key) = some field)
    (ts : List Token) : underColon (fieldMember fields acc key) ts =
      if field.isSet acc then .error (.duplicateField key) else field.read acc ts := by
  simp only [underColon, fieldMember, hfield, afterColon]

/-- A value of no interest is skipped. -/
theorem fieldMember_unknown (hfield : fields.find? (·.name == key) = none) (value : Tree)
    (rest : List Token) :
    underColon (fieldMember fields acc key) (value.tokens ++ rest) = .ok (acc, rest) := by
  simp only [underColon, fieldMember, hfield, Tree.skip_tokens]
  rfl

theorem ExactFields.fieldMember (h : ExactFields fields) (acc : σ) (key : String) :
    Exact (underColon (fieldMember fields acc key)) := by
  intro tree rest last rest' hread
  cases hfield : fields.find? (·.name == key) with
  | none =>
    rw [fieldMember_unknown hfield, Except.ok.injEq, Prod.mk.injEq] at hread
    obtain ⟨rfl, rfl⟩ := hread
    exact ⟨rfl, fun rest => fieldMember_unknown hfield tree rest⟩
  | some field =>
    rw [fieldMember_known hfield] at hread
    split at hread
    · cases hread
    next hset =>
      obtain ⟨hrest, htakes⟩ := h field (List.mem_of_find?_eq_some hfield) acc hread
      refine ⟨hrest, fun rest => ?_⟩
      rw [fieldMember_known hfield, if_neg hset, htakes.eq]

/-- What the items of an array make of the fields in whose places they stand. -/
inductive PlacesTo : List (Reader.Field σ) → σ → List Tree → σ → Prop where
  | nil {fields : List (Reader.Field σ)} {acc : σ} : PlacesTo fields acc [] acc
  | cons {field : Reader.Field σ} {fields : List (Reader.Field σ)} {acc next last : σ} {item : Tree}
      {items : List Tree} (head : Takes (field.read acc) item next)
      (tail : PlacesTo fields next items last) : PlacesTo (field :: fields) acc (item :: items) last

theorem placesTo_cons_iff {field : Reader.Field σ} {item : Tree} {items : List Tree} {last : σ} :
    PlacesTo (field :: fields) acc (item :: items) last ↔
      ∃ next, Takes (field.read acc) item next ∧ PlacesTo fields next items last := by
  constructor
  · rintro (_ | ⟨head, tail⟩)
    exact ⟨_, head, tail⟩
  · rintro ⟨next, head, tail⟩
    exact .cons head tail

/-- Every item is accepted by the field in whose place it stands. -/
theorem PlacesTo.accepts {items : List Tree} {last : σ} (h : PlacesTo fields acc items last) {i : Nat}
    {item : Tree} (hitem : items[i]? = some item) :
    ∃ field acc, fields[i]? = some field ∧ Accepts (field.read acc) item := by
  induction h generalizing i with
  | nil => simp at hitem
  | @cons field fields acc next last item' items head tail ih =>
    cases i with
    | zero =>
      cases hitem
      exact ⟨field, acc, rfl, head.accepts⟩
    | succ i => exact ih hitem

theorem laterPlaces_items (h : ExactFields fields) {items : List Tree} {last : σ}
    {rest rest' : List Token} :
    laterPlaces fields acc (Tree.itemTokens items ++ rest) = .ok (last, rest') ↔
      rest' = rest ∧ PlacesTo fields acc items last := by
  induction items generalizing fields acc with
  | nil =>
    constructor
    · intro hread
      cases fields <;> cases hread <;> exact ⟨rfl, .nil⟩
    · rintro ⟨rfl, _ | _⟩
      cases fields <;> rfl
  | cons item items ih =>
    cases fields with
    | nil =>
      constructor
      · intro hread
        cases hread
      · rintro ⟨-, hplaces⟩
        cases hplaces
    | cons field fields =>
      have hlater : ExactFields fields := fun f hf => h f (List.mem_cons_of_mem _ hf)
      have hexact : Exact (field.read acc) := h field List.mem_cons_self acc
      simp only [Tree.itemTokens, List.cons_append, List.append_assoc, laterPlaces]
      refine hexact.andThen_eq_ok.trans ?_
      simp only [ih hlater, placesTo_cons_iff, exists_and_left, and_left_comm]

theorem places_array (h : ExactFields fields) {items : List Tree} {last : σ}
    {rest rest' : List Token} :
    places fields acc (Tree.arrayTokens items ++ rest) = .ok (last, rest') ↔
      rest' = rest ∧ PlacesTo fields acc items last := by
  cases items with
  | nil =>
    constructor
    · intro hread
      cases fields <;> cases hread <;> exact ⟨rfl, .nil⟩
    · rintro ⟨rfl, _ | _⟩
      cases fields <;> rfl
  | cons item items =>
    obtain ⟨t, ts, htokens, hne⟩ := item.exists_tokens_eq_cons
    cases fields with
    | nil =>
      constructor
      · intro hread
        rw [Tree.arrayTokens, htokens] at hread
        cases t <;> first | exact absurd rfl hne | cases hread
      · rintro ⟨-, hplaces⟩
        cases hplaces
    | cons field fields =>
      have hlater : ExactFields fields := fun f hf => h f (List.mem_cons_of_mem _ hf)
      have hfirst : places (field :: fields) acc (Tree.arrayTokens (item :: items) ++ rest) =
          match field.read acc (item.tokens ++ (Tree.itemTokens items ++ rest)) with
          | .error e => .error e
          | .ok (acc, rest) => laterPlaces fields acc rest := by
        rw [Tree.arrayTokens, List.append_assoc, htokens, List.cons_append]
        cases t <;> first | exact absurd rfl hne | rfl
      have hexact : Exact (field.read acc) := h field List.mem_cons_self acc
      rw [hfirst]
      refine hexact.andThen_eq_ok.trans ?_
      simp only [laterPlaces_items hlater, placesTo_cons_iff, exists_and_left, and_left_comm]

/-- A record that is written as an object. -/
theorem record_object (h : ExactFields fields) {start : σ} {complete : σ → Except String α} {a : α}
    {members : List (Option String × Tree)} {rest rest' : List Token} :
    record fields start complete ((Tree.object members).tokens ++ rest) = .ok (a, rest') ↔
      rest' = rest ∧ ∃ last, FoldsTo (fieldMember fields) start members last ∧
        complete last = .ok a := by
  have hobject {last : σ} {rest' : List Token} :
      object (fieldMember fields) start ((Tree.object members).tokens ++ rest) = .ok (last, rest') ↔
        rest' = rest ∧ FoldsTo (fieldMember fields) start members last := object_object h.fieldMember
  simp only [Tree.tokens, List.cons_append, record] at hobject ⊢
  constructor
  · intro hread
    split at hread
    · cases hread
    next last after hmembers =>
      obtain ⟨rfl, hfolds⟩ := hobject.mp hmembers
      split at hread
      next a' hcomplete =>
        cases hread
        exact ⟨rfl, last, hfolds, hcomplete⟩
      · cases hread
  · rintro ⟨rfl, last, hfolds, hcomplete⟩
    rw [hobject.mpr ⟨rfl, hfolds⟩]
    simp only [hcomplete]

/-- A record that is written as an array. -/
theorem record_array (h : ExactFields fields) {start : σ} {complete : σ → Except String α} {a : α}
    {items : List Tree} {rest rest' : List Token} :
    record fields start complete ((Tree.array items).tokens ++ rest) = .ok (a, rest') ↔
      rest' = rest ∧ ∃ last, PlacesTo fields start items last ∧ complete last = .ok a := by
  simp only [Tree.tokens, List.cons_append, record]
  constructor
  · intro hread
    split at hread
    · cases hread
    next last after hitems =>
      obtain ⟨rfl, hplaces⟩ := (places_array h).mp hitems
      split at hread
      next a' hcomplete =>
        cases hread
        exact ⟨rfl, last, hplaces, hcomplete⟩
      · cases hread
  · rintro ⟨rfl, last, hplaces, hcomplete⟩
    rw [(places_array h).mpr ⟨rfl, hplaces⟩]
    simp only [hcomplete]

theorem ExactFields.record (h : ExactFields fields) (start : σ) (complete : σ → Except String α) :
    Exact (record fields start complete) := by
  intro tree rest a rest' hread
  cases tree with
  | array items =>
    obtain ⟨hrest, hplaces⟩ := (record_array h).mp hread
    exact ⟨hrest, fun rest => (record_array h).mpr ⟨rfl, hplaces⟩⟩
  | object members =>
    obtain ⟨hrest, hfolds⟩ := (record_object h).mp hread
    exact ⟨hrest, fun rest => (record_object h).mpr ⟨rfl, hfolds⟩⟩
  | null | boolean | number | text => cases hread

end Fields

/-! ## Tables and classes -/

theorem Exact.table (h : Exact r) : Exact (Table.reader r) := h.pairs.map Table.ofList

theorem Exact.set {κ : Type} [Ord κ] [Std.TransOrd κ] [Std.LawfulEqOrd κ] {r : Reader κ}
    (h : Exact r) : Exact (SortedSet.reader r) := h.array.map SortedSet.ofList

end LayoutRebuild.Json
