import LayoutRebuild.Proofs.Json.Reading

/-!
# Documents that have been cut

A reader closes every bracket that it opens, whatever it reads (`Balanced`).  In a written object
the first brace stays open up to the last character (`Nested`).  So what is left of an object that
has been cut, at whatever character, is refused by every reader of records (`document_of_cut`): no
reader has to be followed to the place where it stops.
-/

namespace LayoutRebuild.Json

open Reader

/-! ## Open brackets -/

/-- How many more brackets a token opens than it closes. -/
def Token.opening : Token → Int
  | .openBrace | .openBracket => 1
  | .closeBrace | .closeBracket => -1
  | _ => 0

/-- How many more brackets the tokens open than they close. -/
@[simp]
def depth : List Token → Int
  | [] => 0
  | t :: ts => t.opening + depth ts

theorem depth_append (ts us : List Token) : depth (ts ++ us) = depth ts + depth us := by
  induction ts with
  | nil => simp
  | cons t ts ih =>
    simp only [List.cons_append, depth, ih]
    omega

/-! ## What a reader takes -/

variable {α β σ : Type}

/-- The reader closes the brackets that it opens, and no others. -/
def Balanced (r : Reader α) : Prop := ∀ ⦃ts a rest⦄, r ts = .ok (a, rest) → depth ts = depth rest

theorem balanced_text : Balanced text := by
  intro ts a rest h
  fun_cases text ts <;> simp_all [text, Token.opening]

theorem balanced_boolean : Balanced boolean := by
  intro ts a rest h
  fun_cases boolean ts <;> simp_all [boolean, Token.opening]

theorem balanced_natural (limit : Nat) : Balanced (natural limit) := by
  intro ts a rest h
  fun_cases natural limit ts with
  | case1 literal rest' hvalue =>
    rw [natural, if_pos hvalue] at h
    cases h
    simp [Token.opening]
  | case2 literal rest' hvalue =>
    rw [natural, if_neg hvalue] at h
    cases h
  | case3 =>
    simp_all [natural]

theorem balanced_hash : Balanced Reader.hash := by
  intro ts a rest h
  unfold Reader.hash at h
  split at h
  · cases h
  next s after htext =>
    split at h
    · cases h
      exact balanced_text htext
    · cases h

namespace Balanced

variable {r : Reader α}

theorem map (h : Balanced r) (f : α → β) : Balanced (r.map f) := by
  intro ts b rest hmap
  unfold Reader.map at hmap
  split at hmap
  next a after hread =>
    cases hmap
    exact h hread
  · cases hmap

theorem optional (h : Balanced r) : Balanced (Reader.optional r) := by
  intro ts a rest hoptional
  unfold Reader.optional at hoptional
  split at hoptional
  · cases hoptional
    simp [Token.opening]
  · exact h.map some hoptional

theorem afterColon (h : Balanced r) : Balanced (afterColon r) := by
  intro ts a rest hcolon
  unfold Reader.afterColon at hcolon
  split at hcolon
  · simpa [Token.opening] using h hcolon
  · cases hcolon

/-! ## Containers -/

/-- From an item on, an array is read up to the bracket that closes it. -/
theorem items (hr : Balanced r) {fuel : Nat} : ∀ {ts rest : List Token} {l : List α},
    items r fuel ts = .ok (l, rest) → depth ts + 1 = depth rest := by
  induction fuel with
  | zero =>
    intro ts rest l h
    rw [Reader.items] at h
    cases h
  | succ fuel ih =>
    intro ts rest l h
    rw [Reader.items] at h
    split at h
    · cases h
    next a after hitem =>
      have hhead := hr hitem
      simp only [depth, Token.opening] at hhead
      unfold Reader.map at h
      split at h
      next l' rest' hitems =>
        cases h
        have hlater := ih hitems
        omega
      · cases h
    next a after hitem =>
      cases h
      have hhead := hr hitem
      simp only [depth, Token.opening] at hhead
      omega
    · cases h

theorem array (hr : Balanced r) : Balanced (array r) := by
  intro ts l rest h
  unfold Reader.array at h
  split at h
  · cases h
    simp only [depth, Token.opening]
    omega
  next ts' _ =>
    have hitems := hr.items h
    simp only [depth, Token.opening]
    omega
  · cases h

end Balanced

/-- From a key on, an object is read up to the brace that closes it. -/
theorem depth_members {member : σ → String → Reader σ}
    (hmember : ∀ acc key, Balanced (member acc key))
    {fuel : Nat} {acc last : σ} {ts rest : List Token}
    (h : members member fuel acc ts = .ok (last, rest)) : depth ts + 1 = depth rest := by
  fun_induction members member fuel acc ts with
  | case1 => cases h
  | case2 => cases h
  | case3 fuel acc key ts acc' after hread ih =>
    have hhead := hmember acc key hread
    have hlater := ih h
    simp only [depth, Token.opening] at hhead ⊢
    omega
  | case4 fuel acc key ts acc' after hread =>
    cases h
    have hhead := hmember acc key hread
    simp only [depth, Token.opening] at hhead ⊢
    omega
  | case5 => cases h
  | case6 => cases h

theorem balanced_object {member : σ → String → Reader σ}
    (hmember : ∀ acc key, Balanced (member acc key)) (start : σ) :
    Balanced (object member start) := by
  intro ts last rest h
  unfold object at h
  split at h
  · cases h
    simp only [depth, Token.opening]
    omega
  next ts' _ =>
    have hmembers := depth_members hmember h
    simp only [depth, Token.opening]
    omega
  · cases h

theorem Balanced.pairs {r : Reader α} (h : Balanced r) : Balanced (pairs r) := by
  have hmember : ∀ (acc : List (String × α)) (key : String),
      Balanced ((Reader.afterColon r).map fun a => (key, a) :: acc) := fun _ _ => h.afterColon.map _
  exact (balanced_object hmember []).map List.reverse

/-- Skipping ends with all containers closed.  A container that has just been opened is one of those
that are open. -/
theorem depth_skipRest {ts rest : List Token} : ∀ {inside : List Bool} {expected : Expected},
    (expected = .firstItem ∨ expected = .firstKey → inside ≠ []) →
    skipRest inside expected ts = .ok rest → depth ts + inside.length = depth rest := by
  induction ts with
  | nil =>
    intro inside expected _ h
    rw [skipRest] at h
    cases h
  | cons t ts ih =>
    intro inside expected hopen h
    have hclosed : ∀ left : List Bool,
        (if left.isEmpty then .ok ts else skipRest left .separator ts) = Except.ok rest →
          depth ts + left.length = depth rest := by
      intro left hleft
      split at hleft
      next hempty =>
        cases hleft
        simp [List.isEmpty_iff.mp hempty]
      · exact ih (by simp) hleft
    have htail : inside ≠ [] → (inside.tail.length : Int) = inside.length - 1 := by
      intro hne
      have hpos := List.length_pos_iff.mpr hne
      rw [List.length_tail]
      omega
    have hhead : ∀ b, inside.head? = some b → inside ≠ [] := by
      rintro b hb rfl
      cases hb
    unfold skipRest at h
    simp only at h
    split at h
    -- the end of a container that has just been opened
    case h_1 | h_2 =>
      have hrest := hclosed _ h
      have hlength := htail (hopen (by simp))
      simp only [depth, Token.opening]
      omega
    -- a container within
    case h_3 | h_4 | h_5 | h_6 =>
      have hrest := ih (by simp) h
      simp only [depth, Token.opening, List.length_cons] at hrest ⊢
      omega
    -- a plain value
    case h_7 | h_8 | h_9 | h_10 | h_11 | h_12 | h_13 | h_14 =>
      have hrest := hclosed _ h
      simp only [depth, Token.opening]
      omega
    -- a key, a colon
    case h_15 | h_16 | h_17 =>
      have hrest := ih (by simp) h
      simp only [depth, Token.opening]
      omega
    case h_18 =>
      have hrest := ih (by split <;> simp) h
      simp only [depth, Token.opening]
      omega
    case h_19 | h_20 =>
      split at h
      next hb =>
        have hrest := hclosed _ h
        have hlength := htail (hhead _ hb)
        simp only [depth, Token.opening]
        omega
      · cases h
    case h_21 => cases h

theorem balanced_skip {ts rest : List Token} (h : skip ts = .ok rest) : depth ts = depth rest := by
  simpa using depth_skipRest (by simp) h

/-! ## Records -/

/-- Every field is read by a reader that closes what it opens. -/
def BalancedFields (fields : List (Reader.Field σ)) : Prop :=
  ∀ field ∈ fields, ∀ acc, Balanced (field.read acc)

namespace BalancedFields

variable {fields : List (Reader.Field σ)}

theorem nil : BalancedFields ([] : List (Reader.Field σ)) := by
  intro field hfield
  cases hfield

theorem cons {field : Reader.Field σ} (head : ∀ acc, Balanced (field.read acc))
    (tail : BalancedFields fields) : BalancedFields (field :: fields) := by
  intro field' hfield acc
  rcases List.mem_cons.mp hfield with rfl | hlater
  · exact head acc
  · exact tail field' hlater acc

theorem fieldMember (h : BalancedFields fields) (acc : σ) (key : String) :
    Balanced (fieldMember fields acc key) := by
  intro ts last rest hmember
  unfold Reader.fieldMember at hmember
  split at hmember
  next field hfield =>
    split at hmember
    · cases hmember
    · exact (h field (List.mem_of_find?_eq_some hfield) acc).afterColon hmember
  · split at hmember
    next ts' =>
      cases hskip : skip ts' with
      | error e =>
        rw [hskip] at hmember
        cases hmember
      | ok after =>
        rw [hskip] at hmember
        cases hmember
        simpa [Token.opening] using balanced_skip hskip
    · cases hmember

/-- After a field, a record written as an array is read up to the bracket that closes it. -/
theorem laterPlaces (hfields : BalancedFields fields) {acc last : σ} {ts rest : List Token}
    (h : laterPlaces fields acc ts = .ok (last, rest)) : depth ts + 1 = depth rest := by
  fun_induction Reader.laterPlaces fields acc ts with
  | case1 =>
    cases h
    simp only [depth, Token.opening]
    omega
  | case2 => cases h
  | case3 field fields acc ts acc' after hread ih =>
    have hhead := hfields field List.mem_cons_self acc hread
    have hlater := ih (fun f hf => hfields f (List.mem_cons_of_mem _ hf)) h
    simp only [depth, Token.opening]
    omega
  | case4 => cases h

theorem places (h : BalancedFields fields) {acc last : σ} {ts rest : List Token}
    (hplaces : places fields acc ts = .ok (last, rest)) : depth ts + 1 = depth rest := by
  unfold Reader.places at hplaces
  split at hplaces
  · cases hplaces
    simp only [depth, Token.opening]
    omega
  next acc' ts' field later _ =>
    split at hplaces
    · cases hplaces
    next acc' after hread =>
      have hhead := h field List.mem_cons_self acc hread
      have hlater : BalancedFields later := fun f hf => h f (List.mem_cons_of_mem _ hf)
      have hrest := hlater.laterPlaces hplaces
      omega
  · cases hplaces

theorem record (h : BalancedFields fields) (start : σ) (complete : σ → Except String α) :
    Balanced (record fields start complete) := by
  intro ts a rest hrecord
  unfold Reader.record at hrecord
  split at hrecord
  · split at hrecord
    · cases hrecord
    next last after hplaces =>
      split at hrecord
      · cases hrecord
        have hrest := h.places hplaces
        simp only [depth, Token.opening]
        omega
      · cases hrecord
  · split at hrecord
    · cases hrecord
    next last after hobject =>
      split at hrecord
      · cases hrecord
        exact balanced_object h.fieldMember start hobject
      · cases hrecord

end BalancedFields

/-! ## What is written -/

/-- The brackets of the tokens match. -/
structure Nested (ts : List Token) : Prop where
  depth_eq : depth ts = 0
  depth_nonneg : ∀ us vs, ts = us ++ vs → 0 ≤ depth us

namespace Nested

variable {ts us : List Token}

theorem nil : Nested [] := ⟨rfl, by simp_all⟩

theorem cons {t : Token} (ht : t.opening = 0) (h : Nested ts) : Nested (t :: ts) := by
  refine ⟨by simp [ht, h.depth_eq], ?_⟩
  intro vs ws heq
  rcases List.cons_eq_append_iff.mp heq with ⟨rfl, -⟩ | ⟨vs', rfl, hvs⟩
  · simp
  · simpa [ht] using h.depth_nonneg vs' ws hvs

theorem append (h : Nested ts) (h' : Nested us) : Nested (ts ++ us) := by
  refine ⟨by rw [depth_append, h.depth_eq, h'.depth_eq]; rfl, ?_⟩
  intro vs ws heq
  rcases List.append_eq_append_iff.mp heq with ⟨vs', rfl, hus⟩ | ⟨ts', hts, -⟩
  · rw [depth_append, h.depth_eq, Int.zero_add]
    exact h'.depth_nonneg vs' ws hus
  · exact h.depth_nonneg vs ts' hts

/-- A bracket that has been opened stays open as long as what follows is nested. -/
theorem depth_pos (h : Nested ts) {t : Token} (ht : t.opening = 1) {vs ws : List Token}
    (heq : t :: ts = vs ++ ws) (hne : vs ≠ []) : 0 < depth vs := by
  rcases List.cons_eq_append_iff.mp heq with ⟨rfl, -⟩ | ⟨vs', rfl, hvs⟩
  · exact absurd rfl hne
  · have hrest := h.depth_nonneg vs' ws hvs
    simp only [depth, ht]
    omega

/-- Brackets around nested tokens. -/
theorem wrap (h : Nested ts) {t u : Token} (ht : t.opening = 1) (hu : u.opening = -1) :
    Nested (t :: (ts ++ [u])) := by
  refine ⟨by simp [depth_append, ht, hu, h.depth_eq], ?_⟩
  intro vs ws heq
  rcases List.cons_eq_append_iff.mp heq with ⟨rfl, -⟩ | ⟨vs', rfl, hvs⟩
  · simp
  · rcases List.append_eq_append_iff.mp hvs with ⟨vs₁, rfl, hus⟩ | ⟨ts', hts, -⟩
    · rcases List.cons_eq_append_iff.mp hus with ⟨rfl, -⟩ | ⟨vs₂, rfl, hvs₂⟩
      · simp [h.depth_eq, ht]
      · obtain ⟨rfl, -⟩ := List.append_eq_nil_iff.mp hvs₂.symm
        simp [depth_append, h.depth_eq, ht, hu]
    · have hrest := h.depth_nonneg vs' ts' hts
      simp only [depth, ht]
      omega

end Nested

mutual

theorem nested_tokens : ∀ value : Value, Nested value.tokens
  | .null | .boolean _ | .number _ | .text _ => .cons rfl .nil
  | .array [] | .object [] => Nested.nil.wrap rfl rfl
  | .array (item :: items) => ((nested_tokens item).append (nested_itemTokens items)).wrap rfl rfl
  | .object ((_, value) :: members) =>
    (((nested_tokens value).append (nested_memberTokens members)).cons rfl |>.cons rfl).wrap rfl rfl

theorem nested_itemTokens : ∀ items : List Value, Nested (Value.itemTokens items)
  | [] => .nil
  | item :: items => ((nested_tokens item).append (nested_itemTokens items)).cons rfl

theorem nested_memberTokens : ∀ members : List (String × Value), Nested (Value.memberTokens members)
  | [] => .nil
  | (_, value) :: members =>
    ((nested_tokens value).append (nested_memberTokens members)).cons rfl |>.cons rfl |>.cons rfl

end

/-! ## A text that has been cut -/

/-- The tokens that a text completes. -/
def completed : Scan → List Char → List Token
  | _, [] => []
  | s, c :: text => (step s c).1 ++ completed (step s c).2 text

/-- The state of the machine after a text. -/
def Scan.after : Scan → List Char → Scan
  | s, [] => s
  | s, c :: text => (step s c).2.after text

theorem scan_append (s : Scan) (text more : List Char) :
    scan s (text ++ more) = completed s text ++ scan (s.after text) more := by
  induction text generalizing s with
  | nil => rfl
  | cons c text ih =>
    rw [List.cons_append, scan_cons, ih, ← List.append_assoc]
    rfl

theorem scan_eq_completed (s : Scan) (text : List Char) :
    scan s text = completed s text ++ finish (s.after text) := by
  have h := scan_append s text []
  rwa [List.append_nil] at h

theorem depth_finish (s : Scan) : depth (finish s) = 0 := by
  fun_cases finish s <;> simp [Token.opening]

/-- The text of an object without its last brace opens a brace that it does not close. -/
theorem exists_write_object {layout : Layout} (hl : layout.Blank) (depth : Nat)
    (member : String × Value) (members : List (String × Value)) :
    ∃ body inner, (Value.object (member :: members)).write layout depth = body ++ ['\x7d'] ∧
      scan .between body = .openBrace :: inner ∧ Nested inner := by
  obtain ⟨key, value⟩ := member
  have hend : EndsNumber (layout.gap depth ++ []) := endsNumber_append (hl.gap depth) endsNumber_nil
  have hvalue := scan_write hl value (depth + 1)
    (endsNumber_writeMembers layout (depth + 1) members hend)
  have hmembers := scan_writeMembers hl members (depth + 1) hend
  have hopen : ∀ text, scan .between ('\x7b' :: text) = .openBrace :: scan .between text :=
    fun _ => rfl
  refine ⟨'\x7b' :: (layout.gap (depth + 1) ++ (quote key ++ (layout.colon ++
    (value.write layout (depth + 1) ++ (Value.writeMembers layout (depth + 1) members ++
      (layout.gap depth ++ [])))))), .text (some key) :: .colon ::
        (value.tokens ++ Value.memberTokens members), ?_, ?_, ?_⟩
  · simp only [Value.write, List.append_assoc, List.cons_append, List.nil_append]
  · rw [hopen, scan_space (hl.gap (depth + 1)), scan_quote, scan_colon hl, hvalue, hmembers,
      scan_space (hl.gap depth)]
    simp only [scan, finish, List.append_nil]
  · exact ((nested_tokens value).append (nested_memberTokens members)).cons rfl |>.cons rfl

/-- A record does not start with what the end of a document completes. -/
theorem record_finish (fields : List (Reader.Field σ)) (start : σ) (complete : σ → Except String α)
    (s : Scan) : ∃ fault, record fields start complete (finish s) = .error fault := by
  unfold finish
  split
  · exact ⟨_, rfl⟩
  · exact ⟨_, rfl⟩
  · split <;> exact ⟨_, rfl⟩
  · exact ⟨_, rfl⟩

/-- A written object of which the end is missing is not the document of a record. -/
theorem document_of_cut {fields : List (Reader.Field σ)} (hfields : BalancedFields fields)
    (start : σ) (complete : σ → Except String α) {member : String × Value}
    {members : List (String × Value)} {text : String} {more : List Char} (hmore : more ≠ [])
    (h : text.toList ++ more = (Value.object (member :: members)).indented.toList) :
    ∃ fault, Reader.document (record fields start complete) text = .error fault := by
  obtain ⟨body, inner, hwrite, hscan, hinner⟩ :=
    exists_write_object blank_indented 0 member members
  rw [← List.dropLast_concat_getLast hmore, Value.indented, String.toList_ofList, hwrite,
    ← List.append_assoc] at h
  obtain ⟨hbody, -⟩ := List.append_inj' h rfl
  rw [← hbody, scan_append] at hscan
  have htokens : tokens text = completed .between text.toList ++
      finish (Scan.between.after text.toList) := scan_eq_completed _ _
  by_cases hnone : completed .between text.toList = []
  -- not one token is complete
  · obtain ⟨fault, hfault⟩ := record_finish fields start complete (Scan.between.after text.toList)
    refine ⟨fault, ?_⟩
    rw [Reader.document, htokens, hnone, List.nil_append, hfault]
  -- the first brace stays open
  · have hopen : 0 < depth (tokens text) := by
      rw [htokens, depth_append, depth_finish, Int.add_zero]
      exact hinner.depth_pos rfl hscan.symm hnone
    unfold Reader.document
    split
    next fault _ => exact ⟨fault, rfl⟩
    next a hread =>
      have hclosed := hfields.record start complete hread
      rw [hclosed] at hopen
      exact absurd hopen (by decide)
    · exact ⟨_, rfl⟩

end LayoutRebuild.Json
