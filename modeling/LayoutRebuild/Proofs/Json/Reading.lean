import LayoutRebuild.Json.Reader
import LayoutRebuild.Proofs.Json.Written

/-!
# Readers that take back what was written

A reader reads a value when it takes exactly the tokens of the value from the front of whatever
tokens follow (`Reads`).  The relation is closed under the containers and under records, so that a
type is read back as soon as its fields are, and a document is then read as a whole
(`Reads.document`).
-/

namespace LayoutRebuild.Json

open Reader

variable {α β σ : Type}

/-- The reader takes the tokens of the value, and nothing more, and answers `a`. -/
def Reads (r : Reader α) (value : Value) (a : α) : Prop :=
  ∀ rest, r (value.tokens ++ rest) = .ok (a, rest)

theorem Reads.eq {r : Reader α} {value : Value} {a : α} (h : Reads r value a) (rest : List Token) :
    r (value.tokens ++ rest) = .ok (a, rest) := h rest

theorem Reads.map {r : Reader α} {value : Value} {a : α} (f : α → β) (h : Reads r value a) :
    Reads (r.map f) value (f a) := by
  intro rest
  simp only [Reader.map, h.eq]

/-! ## Plain values -/

theorem reads_text (s : String) : Reads text (.text s) s := fun _ => rfl

theorem reads_boolean (b : Bool) : Reads boolean (.boolean b) b := fun _ => rfl

theorem digitsValue_toDigits (n : Nat) : digitsValue (Nat.toDigits 10 n) = n := by
  have h : Nat.ofDigitChars 10 (Nat.toDigits 10 n) 0 = n := Nat.ofDigitChars_ten_toDigits
  rwa [Nat.ofDigitChars_eq_foldl] at h

theorem reads_natural {n limit : Nat} (h : n < limit) : Reads (natural limit) (.number n) n := by
  intro rest
  have hdigits : (Nat.toDigits 10 n).all isDigit = true := by
    rw [List.all_eq_true]
    intro c hc
    rw [isDigit_eq]
    exact Nat.isDigit_of_mem_toDigits (by decide) (by decide) hc
  simp [Value.tokens, natural, hdigits, digitsValue_toDigits, h]

/-- An object is no `null`, so it is read as a value that is there. -/
theorem Reads.optional {r : Reader α} {members : List (String × Value)} {a : α}
    (h : Reads r (.object members) a) : Reads (Reader.optional r) (.object members) (some a) := by
  intro rest
  have hread := h.map some rest
  cases members with
  | nil => exact hread
  | cons member members => exact hread

/-! ## Arrays -/

/-- No value starts with the end of an array. -/
theorem exists_tokens_eq_cons (value : Value) :
    ∃ t ts, value.tokens = t :: ts ∧ t ≠ .closeBracket := by
  cases value with
  | array items => cases items <;> exact ⟨_, _, rfl, by decide⟩
  | object members =>
    cases members with
    | nil => exact ⟨_, _, rfl, by decide⟩
    | cons member members => exact ⟨_, _, rfl, by decide⟩
  | null => exact ⟨_, _, rfl, by decide⟩
  | boolean b => exact ⟨_, _, rfl, by simp⟩
  | number n => exact ⟨_, _, rfl, by simp⟩
  | text s => exact ⟨_, _, rfl, by simp⟩

/-- Every further item takes a comma at least. -/
theorem length_le_itemTokens (items : List Value) :
    items.length ≤ (Value.itemTokens items).length := by
  induction items with
  | nil => simp
  | cons item items ih =>
    simp only [Value.itemTokens, List.length_cons, List.length_append]
    omega

theorem length_le_memberTokens (members : List (String × Value)) :
    members.length ≤ (Value.memberTokens members).length := by
  induction members with
  | nil => simp
  | cons member members ih =>
    obtain ⟨key, value⟩ := member
    simp only [Value.memberTokens, List.length_cons, List.length_append]
    omega

theorem items_tokens {r : Reader α} {f : α → Value} (h : ∀ a, Reads r (f a) a) (a : α) (l : List α)
    (rest : List Token) : ∀ fuel, l.length < fuel →
    items r fuel ((f a).tokens ++ (Value.itemTokens (l.map f) ++ .closeBracket :: rest)) =
      .ok (a :: l, rest) := by
  induction l generalizing a with
  | nil =>
    intro fuel hfuel
    obtain ⟨fuel, rfl⟩ := Nat.exists_eq_add_of_lt hfuel
    simp only [List.map_nil, Value.itemTokens, List.nil_append, items, (h a).eq]
  | cons b l ih =>
    intro fuel hfuel
    obtain ⟨fuel, rfl⟩ := Nat.exists_eq_add_of_lt hfuel
    have hrest := ih b ((b :: l).length + fuel) (by simp; omega)
    simp only [List.map_cons, Value.itemTokens, List.cons_append, List.append_assoc, items,
      (h a).eq, Reader.map, hrest]

theorem reads_array {r : Reader α} {f : α → Value} (h : ∀ a, Reads r (f a) a) (l : List α) :
    Reads (array r) (.array (l.map f)) l := by
  intro rest
  cases l with
  | nil => rfl
  | cons a l =>
    have hitems := items_tokens h a l rest
      ((f a).tokens ++ (Value.itemTokens (l.map f) ++ .closeBracket :: rest)).length
      (by have := length_le_itemTokens (l.map f); simp at this ⊢; omega)
    obtain ⟨t, ts, hts, hne⟩ := exists_tokens_eq_cons (f a)
    simp only [List.map_cons, Value.tokens, List.cons_append, List.append_assoc,
      List.nil_append] at *
    rw [hts] at hitems ⊢
    rw [List.cons_append] at hitems ⊢
    rw [array]
    · exact hitems
    · intro rest' heq
      rw [List.cons.injEq] at heq
      exact hne heq.1

/-! ## Objects -/

/-- What the members of an object fold into, member by member. -/
inductive Folds (member : σ → String → Reader σ) : σ → List (String × Value) → σ → Prop where
  | nil {acc : σ} : Folds member acc [] acc
  | cons {acc next last : σ} {key : String} {value : Value} {members : List (String × Value)}
      (head : ∀ rest, member acc key (.colon :: (value.tokens ++ rest)) = .ok (next, rest))
      (tail : Folds member next members last) : Folds member acc ((key, value) :: members) last

theorem Folds.append {member : σ → String → Reader σ} {first second : List (String × Value)}
    {acc next last : σ} (h : Folds member acc first next) (h' : Folds member next second last) :
    Folds member acc (first ++ second) last := by
  induction h with
  | nil => exact h'
  | cons head _ ih => exact .cons head (ih h')

theorem Folds.members {member : σ → String → Reader σ} {ms : List (String × Value)} {acc last : σ}
    (h : Folds member acc ms last) {key : String} {value : Value} {members : List (String × Value)}
    (hms : ms = (key, value) :: members) (rest : List Token) :
    ∀ fuel, members.length < fuel →
      Reader.members member fuel acc (.text (some key) :: .colon ::
        (value.tokens ++ (Value.memberTokens members ++ .closeBrace :: rest))) =
        .ok (last, rest) := by
  induction h generalizing key value members with
  | nil => cases hms
  | cons head tail ih =>
    cases hms
    intro fuel hfuel
    obtain ⟨fuel, rfl⟩ := Nat.exists_eq_add_of_lt hfuel
    cases tail with
    | nil => simp only [Value.memberTokens, List.nil_append, Reader.members, head]
    | cons head' tail' =>
      simp only [Value.memberTokens, List.cons_append, List.append_assoc, Reader.members, head]
      exact ih rfl _ (by simp; omega)

theorem Folds.reads {member : σ → String → Reader σ} {start last : σ}
    {members : List (String × Value)} (h : Folds member start members last) :
    Reads (object member start) (.object members) last := by
  intro rest
  cases members with
  | nil =>
    cases h
    rfl
  | cons m members =>
    obtain ⟨key, value⟩ := m
    have hlength := length_le_memberTokens members
    simp only [Value.tokens, List.cons_append, List.append_assoc, List.nil_append, object]
    exact h.members rfl rest _ (by simp; omega)

theorem reads_pairs {r : Reader α} {f : α → Value} (h : ∀ a, Reads r (f a) a)
    (l : List (String × α)) : Reads (pairs r) (.object (l.map fun e => (e.1, f e.2))) l := by
  have hfold : ∀ acc, Folds (fun acc key => (afterColon r).map fun a => (key, a) :: acc) acc
      (l.map fun e => (e.1, f e.2)) (l.reverse ++ acc) := by
    induction l with
    | nil => exact fun _ => .nil
    | cons e l ih =>
      intro acc
      have hhead : ∀ rest, (afterColon r).map (fun a => (e.1, a) :: acc)
          (.colon :: ((f e.2).tokens ++ rest)) = .ok ((e.1, e.2) :: acc, rest) := by
        intro rest
        simp only [Reader.map, afterColon, (h e.2).eq]
      have htail := ih ((e.1, e.2) :: acc)
      rw [List.map_cons, List.reverse_cons, List.append_assoc]
      exact .cons hhead htail
  have hreads := (hfold []).reads.map List.reverse
  simp only [List.append_nil, List.reverse_reverse] at hreads
  exact hreads

/-! ## Records -/

/-- A field that has not been read yet takes its value. -/
theorem fieldMember_colon {fields : List (Reader.Field σ)} {field : Reader.Field σ}
    {key : String} {value : Value} {acc next : σ}
    (hfield : fields.find? (·.name == key) = some field)
    (hset : field.isSet acc = false) (hread : Reads (field.read acc) value next)
    (rest : List Token) :
    fieldMember fields acc key (.colon :: (value.tokens ++ rest)) = .ok (next, rest) := by
  simp only [fieldMember, hfield, hset, Bool.false_eq_true, if_false, afterColon]
  exact hread rest

theorem Folds.reads_record {fields : List (Reader.Field σ)} {start last : σ}
    {complete : σ → Except String α} {a : α} {members : List (String × Value)}
    (h : Folds (fieldMember fields) start members last) (hcomplete : complete last = .ok a) :
    Reads (record fields start complete) (.object members) a := by
  intro rest
  have hobject := h.reads rest
  cases members with
  | nil =>
    simp only [Value.tokens, List.cons_append, List.nil_append] at hobject ⊢
    simp only [record, hobject, hcomplete]
  | cons m members =>
    obtain ⟨key, value⟩ := m
    simp only [Value.tokens, List.cons_append, List.append_assoc, List.nil_append] at hobject ⊢
    simp only [record, hobject, hcomplete]

/-! ## Documents -/

/-- A document with a written value is read as a whole. -/
theorem Reads.document {r : Reader α} {value : Value} {a : α} (h : Reads r value a) :
    Reader.document r value.indented = .ok a := by
  have hread := h []
  rw [List.append_nil] at hread
  simp only [Reader.document, tokens_indented, hread]

end LayoutRebuild.Json
