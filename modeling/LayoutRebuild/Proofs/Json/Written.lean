import LayoutRebuild.Json.Token
import LayoutRebuild.Json.Value

/-!
# The tokens of a written value

What is written is cut into exactly the tokens that the value consists of (`tokens_indented`): the
white space of the layout is dropped, every string comes back as it was, and a number ends where
its digits end.  The machine is in the state between two tokens before and after every value, so the
statement about a value holds in front of any text that cannot go on with a number (`scan_write`).
-/

namespace LayoutRebuild.Json

/-! ## Tokens of a value -/

mutual

/-- The tokens of a value. -/
def Value.tokens : Value → List Token
  | .null => [.null]
  | .boolean b => [.boolean b]
  | .number n => [.number (Nat.toDigits 10 n)]
  | .text s => [.text (some s)]
  | .array [] => [.openBracket, .closeBracket]
  | .array (item :: items) =>
    .openBracket :: (item.tokens ++ Value.itemTokens items ++ [.closeBracket])
  | .object [] => [.openBrace, .closeBrace]
  | .object ((key, value) :: members) =>
    .openBrace :: .text (some key) :: .colon ::
      (value.tokens ++ Value.memberTokens members ++ [.closeBrace])

/-- The tokens of the items after the first. -/
def Value.itemTokens : List Value → List Token
  | [] => []
  | item :: items => .comma :: (item.tokens ++ Value.itemTokens items)

/-- The tokens of the members after the first. -/
def Value.memberTokens : List (String × Value) → List Token
  | [] => []
  | (key, value) :: members =>
    .comma :: .text (some key) :: .colon :: (value.tokens ++ Value.memberTokens members)

end

/-! ## The machine on the pieces of a text -/

theorem scan_cons (s : Scan) (c : Char) (rest : List Char) :
    scan s (c :: rest) = (step s c).1 ++ scan (step s c).2 rest := rfl

/-- White space between two tokens is dropped. -/
theorem scan_space {gap : List Char} (h : ∀ c ∈ gap, isSpace c = true) (rest : List Char) :
    scan .between (gap ++ rest) = scan .between rest := by
  induction gap with
  | nil => rfl
  | cons c gap ih =>
    have hc : step .between c = ([], .between) := by
      simp [step, begin, h c List.mem_cons_self]
    rw [List.cons_append, scan_cons, hc]
    exact ih fun c' hc' => h c' (List.mem_cons_of_mem _ hc')

/-- A text in front of which a number is complete. -/
def EndsNumber (rest : List Char) : Prop :=
  ∀ c ∈ rest.head?, isDigit c = false ∧ c ≠ '.' ∧ c ≠ 'e' ∧ c ≠ 'E'

theorem endsNumber_nil : EndsNumber [] := by
  intro c hc
  cases hc

theorem endsNumber_cons {c : Char} (rest : List Char)
    (h : isDigit c = false ∧ c ≠ '.' ∧ c ≠ 'e' ∧ c ≠ 'E') : EndsNumber (c :: rest) := by
  intro c' hc'
  cases hc'
  exact h

theorem endsNumber_append {gap rest : List Char} (hgap : ∀ c ∈ gap, isSpace c = true)
    (h : EndsNumber rest) : EndsNumber (gap ++ rest) := by
  cases gap with
  | nil => exact h
  | cons c gap =>
    refine endsNumber_cons _ ?_
    have hc := hgap c List.mem_cons_self
    simp only [isSpace, Bool.or_eq_true, decide_eq_true_eq] at hc
    rcases hc with ((rfl | rfl) | rfl) | rfl <;> decide

/-- A number that may end does end in front of such a text. -/
theorem scan_number_end (read : List Char) {part : NumberPart} (hpart : part = .zero ∨ part = .digits)
    {rest : List Char} (h : EndsNumber rest) :
    scan (.number read part) rest = .number read.reverse :: scan .between rest := by
  cases rest with
  | nil => rcases hpart with rfl | rfl <;> rfl
  | cons c rest =>
    obtain ⟨hdigit, hpoint, he, hE⟩ := h c rfl
    have hstep : step (.number read part) c = (.number read.reverse :: (begin c).1, (begin c).2) := by
      rcases hpart with rfl | rfl <;>
        simp [step, NumberPart.next?, NumberPart.complete, hdigit, hpoint, he, hE]
    rw [scan_cons, hstep, scan_cons]
    rfl

/-- The digits of a number are read up to its end. -/
theorem scan_digits (digits : List Char) (hdigits : ∀ c ∈ digits, isDigit c = true)
    (read : List Char) {rest : List Char} (h : EndsNumber rest) :
    scan (.number read .digits) (digits ++ rest) =
      .number (read.reverse ++ digits) :: scan .between rest := by
  induction digits generalizing read with
  | nil => simpa using scan_number_end read (.inr rfl) h
  | cons c digits ih =>
    have hstep : step (.number read .digits) c = ([], .number (c :: read) .digits) := by
      simp [step, NumberPart.next?, hdigits c List.mem_cons_self]
    rw [List.cons_append, scan_cons, hstep]
    have hrest := ih (fun c' hc' => hdigits c' (List.mem_cons_of_mem _ hc')) (c :: read)
    simpa using hrest

theorem isDigit_eq (c : Char) : isDigit c = c.isDigit := by
  simp only [isDigit, Char.isDigit, Char.le_def]

/-- The digits of a positive number do not start with a zero. -/
theorem head_toDigits {n : Nat} (hn : 0 < n) :
    ∃ c digits, Nat.toDigits 10 n = c :: digits ∧ c ≠ '0' := by
  induction n using Nat.strongRecOn with
  | ind n ih =>
    rw [Nat.toDigits_eq_if (by decide)]
    split
    next hlt =>
      exact ⟨_, _, rfl, by simpa using Nat.pos_iff_ne_zero.mp hn⟩
    next hge =>
      obtain ⟨c, digits, heq, hc⟩ := ih (n / 10) (by omega) (by omega)
      exact ⟨c, digits ++ [Nat.digitChar (n % 10)], by simp [heq], hc⟩

theorem begin_digit {c : Char} (h : isDigit c = true) (h0 : c ≠ '0') :
    begin c = ([], .number [c] .digits) := by
  have hne : ∀ x, isDigit x = false → c ≠ x := by
    rintro x hx rfl
    simp [hx] at h
  have hspace : isSpace c = false := by
    simp [isSpace, hne ' ' rfl, hne '\t' rfl, hne '\n' rfl, hne '\r' rfl]
  simp [begin, hspace, hne '\x7b' rfl, hne '\x7d' rfl, hne '[' rfl, hne ']' rfl, hne ':' rfl,
    hne ',' rfl, hne '"' rfl, hne 'n' rfl, hne 't' rfl, hne 'f' rfl, hne '-' rfl, h0, h]

theorem scan_toDigits (n : Nat) {rest : List Char} (h : EndsNumber rest) :
    scan .between (Nat.toDigits 10 n ++ rest) =
      .number (Nat.toDigits 10 n) :: scan .between rest := by
  rcases Nat.eq_zero_or_pos n with rfl | hn
  · have hzero : step .between '0' = ([], .number ['0'] .zero) := rfl
    rw [Nat.toDigits_zero, List.cons_append, scan_cons, hzero]
    exact scan_number_end ['0'] (.inl rfl) h
  · obtain ⟨c, digits, heq, hc⟩ := head_toDigits hn
    have hdigit : ∀ x ∈ c :: digits, isDigit x = true := by
      intro x hx
      rw [isDigit_eq]
      exact Nat.isDigit_of_mem_toDigits (by decide) (by decide) (heq ▸ hx)
    have hbegin : step .between c = ([], .number [c] .digits) :=
      begin_digit (hdigit c List.mem_cons_self) hc
    rw [heq, List.cons_append, scan_cons, hbegin]
    exact scan_digits digits (fun x hx => hdigit x (List.mem_cons_of_mem _ hx)) [c] h

/-! ## Strings -/

theorem hexDigit?_digitChar : ∀ n < 16, hexDigit? (Nat.digitChar n) = some n := by decide

/-- One digit of an escape by code unit, with more digits to come. -/
theorem step_unit (p : Partial) {left value digit : Nat} {c : Char} (hc : hexDigit? c = some digit)
    (hleft : 1 < left) :
    step (.unit p left value) c = ([], .unit p (left - 1) (16 * value + digit)) := by
  simp only [step, hc, if_neg (Nat.not_le.mpr hleft)]

/-- The last digit of an escape by code unit. -/
theorem step_unit_last (p : Partial) {value digit : Nat} {c : Char}
    (hc : hexDigit? c = some digit) :
    step (.unit p 1 value) c = ([], .string (p.pushUnit (16 * value + digit))) := by
  simp only [step, hc, Nat.le_refl, if_true]

theorem pushUnit_control (read : List Char) {c : Char} (hc : c.toNat < 0x20) :
    (⟨read, none, false⟩ : Partial).pushUnit c.toNat = ⟨c :: read, none, false⟩ := by
  have h1 : ¬ (0xD800 ≤ c.toNat ∧ c.toNat < 0xDC00) := by omega
  have h2 : ¬ (0xDC00 ≤ c.toNat ∧ c.toNat < 0xE000) := by omega
  rw [Partial.pushUnit, if_neg h1, if_neg h2, Char.ofNat_toNat]
  rfl

/-- An escape by code unit gives back a control character. -/
theorem scan_control (read : List Char) {c : Char} (hc : c.toNat < 0x20) (rest : List Char) :
    scan (.escape ⟨read, none, false⟩)
        ('u' :: '0' :: '0' :: Nat.digitChar (c.toNat / 16) :: Nat.digitChar (c.toNat % 16) :: rest) =
      scan (.string ⟨c :: read, none, false⟩) rest := by
  have hhigh : hexDigit? (Nat.digitChar (c.toNat / 16)) = some (c.toNat / 16) :=
    hexDigit?_digitChar _ (by omega)
  have hlow : hexDigit? (Nat.digitChar (c.toNat % 16)) = some (c.toNat % 16) :=
    hexDigit?_digitChar _ (by omega)
  have hzero : hexDigit? '0' = some 0 := rfl
  have hu : step (.escape ⟨read, none, false⟩) 'u' = ([], .unit ⟨read, none, false⟩ 4 0) := rfl
  have hvalue : 16 * (16 * (16 * (16 * 0 + 0) + 0) + c.toNat / 16) + c.toNat % 16 = c.toNat := by
    omega
  rw [scan_cons, hu, scan_cons, step_unit _ hzero (by decide), scan_cons,
    step_unit _ hzero (by decide), scan_cons, step_unit _ hhigh (by decide), scan_cons,
    step_unit_last _ hlow, hvalue, pushUnit_control read hc]
  rfl

/-- A character that needs no escape is taken as it is. -/
theorem step_string (read : List Char) {c : Char} (hquote : c ≠ '"') (hslash : c ≠ '\\')
    (hcontrol : ¬ c.toNat < 0x20) :
    step (.string ⟨read, none, false⟩) c = ([], .string ⟨c :: read, none, false⟩) := by
  simp only [step, if_neg hquote, if_neg hslash, if_neg hcontrol]
  rfl

/-- A character in its written form is read as itself. -/
theorem scan_escape (read : List Char) (c : Char) (rest : List Char) :
    scan (.string ⟨read, none, false⟩) (escape c ++ rest) =
      scan (.string ⟨c :: read, none, false⟩) rest := by
  unfold escape
  split
  next h => subst h; rfl
  split
  next h => subst h; rfl
  split
  next h => subst h; rfl
  split
  next h => subst h; rfl
  split
  next h => subst h; rfl
  split
  next h => subst h; rfl
  split
  next h => subst h; rfl
  split
  next h => exact scan_control read h rest
  next hquote hslash _ _ _ _ _ hcontrol =>
    rw [List.singleton_append, scan_cons, step_string read hquote hslash hcontrol, List.nil_append]

theorem scan_quoted (s read rest : List Char) :
    scan (.string ⟨read, none, false⟩) (s.flatMap escape ++ '"' :: rest) =
      .text (some (String.ofList (read.reverse ++ s))) :: scan .between rest := by
  induction s generalizing read with
  | nil => simp [scan_cons, step, Partial.value?]
  | cons c s ih =>
    rw [List.flatMap_cons, List.append_assoc, scan_escape, ih]
    simp

theorem scan_quote (s : String) (rest : List Char) :
    scan .between (quote s ++ rest) = .text (some s) :: scan .between rest := by
  have h := scan_quoted s.toList [] rest
  simp only [List.reverse_nil, List.nil_append, String.ofList_toList] at h
  rw [quote, List.append_assoc, List.singleton_append, List.cons_append, scan_cons, ← h]
  rfl

/-! ## Values -/

/-- A layout that puts white space and nothing else around items. -/
structure Layout.Blank (layout : Layout) : Prop where
  gap : ∀ depth, ∀ c ∈ layout.gap depth, isSpace c = true
  colon : ∃ space, layout.colon = ':' :: space ∧ ∀ c ∈ space, isSpace c = true

theorem blank_indented : Layout.indented.Blank where
  gap := by
    intro depth c hc
    simp only [Layout.indented, lineBreak, List.mem_cons, List.mem_replicate] at hc
    rcases hc with rfl | ⟨-, rfl⟩ <;> rfl
  colon := ⟨[' '], rfl, by simp [isSpace]⟩

theorem scan_colon {layout : Layout} (h : layout.Blank) (rest : List Char) :
    scan .between (layout.colon ++ rest) = .colon :: scan .between rest := by
  obtain ⟨space, hcolon, hspace⟩ := h.colon
  rw [hcolon, List.cons_append, scan_cons]
  exact congrArg (Token.colon :: ·) (scan_space hspace rest)

/-! What comes after a value is a comma, a bracket or the white space before a bracket. -/

theorem endsNumber_writeItems (layout : Layout) (depth : Nat) (items : List Value)
    {rest : List Char} (h : EndsNumber rest) :
    EndsNumber (Value.writeItems layout depth items ++ rest) := by
  cases items with
  | nil => simpa [Value.writeItems] using h
  | cons item items =>
    rw [Value.writeItems]
    exact endsNumber_cons _ (by decide)

theorem endsNumber_writeMembers (layout : Layout) (depth : Nat) (members : List (String × Value))
    {rest : List Char} (h : EndsNumber rest) :
    EndsNumber (Value.writeMembers layout depth members ++ rest) := by
  cases members with
  | nil => simpa [Value.writeMembers] using h
  | cons member members =>
    obtain ⟨key, value⟩ := member
    rw [Value.writeMembers]
    exact endsNumber_cons _ (by decide)

section Write

variable {layout : Layout} (hl : layout.Blank)
include hl

theorem endsNumber_gap (depth : Nat) {c : Char} (hc : c = ']' ∨ c = '\x7d') (rest : List Char) :
    EndsNumber (layout.gap depth ++ c :: rest) := by
  refine endsNumber_append (hl.gap depth) (endsNumber_cons _ ?_)
  rcases hc with rfl | rfl <;> decide

/-- White space and the bracket that ends an array. -/
theorem scan_gap_bracket (depth : Nat) (rest : List Char) :
    scan .between (layout.gap depth ++ ']' :: rest) = .closeBracket :: scan .between rest := by
  rw [scan_space (hl.gap depth)]
  rfl

/-- White space and the brace that ends an object. -/
theorem scan_gap_brace (depth : Nat) (rest : List Char) :
    scan .between (layout.gap depth ++ '\x7d' :: rest) = .closeBrace :: scan .between rest := by
  rw [scan_space (hl.gap depth)]
  rfl

mutual

/-- The written form of a value is read as its tokens, wherever it stands. -/
theorem scan_write : ∀ (value : Value) (depth : Nat) {rest : List Char}, EndsNumber rest →
    scan .between (value.write layout depth ++ rest) = value.tokens ++ scan .between rest
  | .null, _, rest, _ => rfl
  | .boolean true, _, rest, _ => rfl
  | .boolean false, _, rest, _ => rfl
  | .number n, _, rest, h => scan_toDigits n h
  | .text s, _, rest, _ => scan_quote s rest
  | .array [], _, rest, _ => rfl
  | .array (item :: items), depth, rest, _ => by
    have hend := endsNumber_gap hl depth (.inl rfl) rest
    have hitem := scan_write item (depth + 1)
      (endsNumber_writeItems layout (depth + 1) items hend)
    have hitems := scan_writeItems items (depth + 1) hend
    have hopen : ∀ text, scan .between ('[' :: text) = .openBracket :: scan .between text :=
      fun _ => rfl
    simp only [Value.write, Value.tokens, List.append_assoc, List.cons_append, List.nil_append]
    rw [hopen, scan_space (hl.gap (depth + 1)), hitem, hitems, scan_gap_bracket hl]
  | .object [], _, rest, _ => rfl
  | .object ((key, value) :: members), depth, rest, _ => by
    have hend := endsNumber_gap hl depth (.inr rfl) rest
    have hvalue := scan_write value (depth + 1)
      (endsNumber_writeMembers layout (depth + 1) members hend)
    have hmembers := scan_writeMembers members (depth + 1) hend
    have hopen : ∀ text, scan .between ('\x7b' :: text) = .openBrace :: scan .between text :=
      fun _ => rfl
    simp only [Value.write, Value.tokens, List.append_assoc, List.cons_append, List.nil_append]
    rw [hopen, scan_space (hl.gap (depth + 1)), scan_quote, scan_colon hl, hvalue, hmembers,
      scan_gap_brace hl]

theorem scan_writeItems : ∀ (items : List Value) (depth : Nat) {rest : List Char},
    EndsNumber rest →
    scan .between (Value.writeItems layout depth items ++ rest) =
      Value.itemTokens items ++ scan .between rest
  | [], _, rest, _ => rfl
  | item :: items, depth, rest, h => by
    have hitem := scan_write item depth (endsNumber_writeItems layout depth items h)
    have hitems := scan_writeItems items depth h
    have hcomma : ∀ text, scan .between (',' :: text) = .comma :: scan .between text :=
      fun _ => rfl
    simp only [Value.writeItems, Value.itemTokens, List.append_assoc, List.cons_append]
    rw [hcomma, scan_space (hl.gap depth), hitem, hitems]

theorem scan_writeMembers : ∀ (members : List (String × Value)) (depth : Nat)
    {rest : List Char}, EndsNumber rest →
    scan .between (Value.writeMembers layout depth members ++ rest) =
      Value.memberTokens members ++ scan .between rest
  | [], _, rest, _ => rfl
  | (key, value) :: members, depth, rest, h => by
    have hvalue := scan_write value depth (endsNumber_writeMembers layout depth members h)
    have hmembers := scan_writeMembers members depth h
    have hcomma : ∀ text, scan .between (',' :: text) = .comma :: scan .between text :=
      fun _ => rfl
    simp only [Value.writeMembers, Value.memberTokens, List.append_assoc, List.cons_append]
    rw [hcomma, scan_space (hl.gap depth), scan_quote, scan_colon hl, hvalue, hmembers]

end

end Write

/-- The tokens of a document are those of the value that was written. -/
theorem tokens_indented (value : Value) : tokens value.indented = value.tokens := by
  have h := scan_write blank_indented value 0 endsNumber_nil
  simp only [List.append_nil] at h
  rw [tokens, Value.indented, String.toList_ofList, h]
  exact List.append_nil _

end LayoutRebuild.Json
