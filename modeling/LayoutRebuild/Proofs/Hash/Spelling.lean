import LayoutRebuild.Proofs.Log.NewerFormat

/-!
# The texts that spell a content hash

A text spells a hash if it has thirty-two characters, each of them a hexadecimal digit, but for one
tolerance: in the first place of a pair a plus sign may stand for a zero (`Spells`).  The hash is then
written with the zero and in lower case.  Every other text is refused with the text in the fault, and so
is a log that has it for a fingerprint (`hash_grammar`).
-/

namespace LayoutRebuild

namespace ContentHash

/-- One of the sixteen digits, in either case. -/
def IsHexDigit (c : Char) : Prop :=
  ('0' ≤ c ∧ c ≤ '9') ∨ ('a' ≤ c ∧ c ≤ 'f') ∨ ('A' ≤ c ∧ c ≤ 'F')

instance (c : Char) : Decidable (IsHexDigit c) :=
  inferInstanceAs (Decidable (_ ∨ _ ∨ _))

/-- The characters can be read in pairs as bytes: they are hexadecimal digits, and in an even place a
plus sign will do. -/
def Pairs (text : List Char) : Prop :=
  ∀ i c, text[i]? = some c → IsHexDigit c ∨ (c = '+' ∧ i % 2 = 0)

/-- The text spells a hash. -/
def Spells (s : String) : Prop := s.toList.length = 32 ∧ Pairs s.toList

/-- How a character that is read is written. -/
def written (c : Char) : Char := if c = '+' then '0' else c.toLower

/-! ## Digits -/

theorem isSome_hexValue? (c : Char) : (hexValue? c).isSome = true ↔ IsHexDigit c := by
  have hle (a b : Char) : a ≤ b ↔ a.toNat ≤ b.toNat := Iff.rfl
  simp only [IsHexDigit, hle, Char.reduceToNat, hexValue?]
  split
  · simp only [Option.isSome_some, true_iff]
    omega
  · split
    · simp only [Option.isSome_some, true_iff]
      omega
    · split
      · simp only [Option.isSome_some, true_iff]
        omega
      · simp only [Option.isSome_none, Bool.false_eq_true, false_iff]
        omega

theorem hexDigit_ofNat : ∀ n < 103, ∀ x ∈ hexValue? (Char.ofNat n),
    x.toNat < 16 ∧ hexDigit x.toNat = (Char.ofNat n).toLower ∧ Char.ofNat n ≠ '+' := by
  decide +kernel

/-- A digit is the lower-case digit of its value. -/
theorem hexDigit_of_hexValue? {c : Char} {x : UInt8} (h : hexValue? c = some x) :
    x.toNat < 16 ∧ hexDigit x.toNat = c.toLower ∧ c ≠ '+' := by
  have hc : c.toNat < 103 := by
    unfold hexValue? at h
    grind
  have hdigit := hexDigit_ofNat c.toNat hc x
  rw [Char.ofNat_toNat] at hdigit
  exact hdigit h

theorem written_of_hexValue? {c : Char} {x : UInt8} (h : hexValue? c = some x) :
    hexDigit x.toNat = written c := by
  obtain ⟨-, hdigit, hplus⟩ := hexDigit_of_hexValue? h
  rw [written, if_neg hplus, hdigit]

/-! ## Pairs of characters -/

theorem isSome_byte? (a b : Char) :
    (byte? a b).isSome = true ↔ (IsHexDigit a ∨ a = '+') ∧ IsHexDigit b := by
  have hplus : ¬ IsHexDigit '+' := by decide
  rw [← isSome_hexValue?, ← isSome_hexValue?]
  unfold byte?
  split
  next h => simp [h]
  next h =>
    cases hexValue? a with
    | none => simp [h]
    | some x => cases hexValue? b <;> simp

/-- A pair is written as the byte that it is read as. -/
theorem byteDigits_of_byte? {a b : Char} {x : UInt8} (h : byte? a b = some x) :
    byteDigits x = [written a, written b] := by
  unfold byte? at h
  split at h
  next ha =>
    obtain ⟨hsmall, -⟩ := hexDigit_of_hexValue? h
    have hzero : x.toNat / 16 = 0 := by omega
    have hlow : x.toNat % 16 = x.toNat := by omega
    rw [byteDigits, hzero, hlow, written_of_hexValue? h, ha]
    rfl
  · split at h
    next x y hx hy =>
      cases h
      obtain ⟨hx', -⟩ := hexDigit_of_hexValue? hx
      obtain ⟨hy', -⟩ := hexDigit_of_hexValue? hy
      have hsum : (16 * x + y).toNat = 16 * x.toNat + y.toNat := by
        simp only [UInt8.toNat_add, UInt8.toNat_mul, UInt8.reduceToNat]
        omega
      have hhigh : (16 * x + y).toNat / 16 = x.toNat := by omega
      have hlow : (16 * x + y).toNat % 16 = y.toNat := by omega
      rw [byteDigits, hhigh, hlow, written_of_hexValue? hx, written_of_hexValue? hy]
    · cases h

theorem pairs_cons_cons {a b : Char} {rest : List Char} :
    Pairs (a :: b :: rest) ↔ (IsHexDigit a ∨ a = '+') ∧ IsHexDigit b ∧ Pairs rest := by
  constructor
  · intro h
    have ha := h 0 a rfl
    have hb := h 1 b rfl
    refine ⟨by simpa using ha, by simpa using hb, fun i c hc => ?_⟩
    have hrest := h (i + 2) c (by simpa using hc)
    rwa [Nat.add_mod_right] at hrest
  · rintro ⟨ha, hb, hrest⟩ i c hc
    match i with
    | 0 =>
      cases hc
      exact ha.imp_right fun h => ⟨h, rfl⟩
    | 1 =>
      cases hc
      exact .inl hb
    | i + 2 =>
      rw [Nat.add_mod_right]
      exact hrest i c (by simpa using hc)

/-- What the bytes that are read tell of the text. -/
theorem text_of_bytes? {text : List Char} {bytes : List UInt8} (h : bytes? text = some bytes) :
    text.length = 2 * bytes.length ∧ Pairs text ∧ bytes.flatMap byteDigits = text.map written := by
  fun_induction bytes? text generalizing bytes with
  | case1 =>
    cases h
    exact ⟨rfl, fun i c hc => by simp at hc, rfl⟩
  | case2 => cases h
  | case3 a b rest x xs hrest hpair ih =>
    cases h
    obtain ⟨hlength, hpairs, hdigits⟩ := ih hrest
    obtain ⟨ha, hb⟩ := (isSome_byte? a b).mp (Option.isSome_of_eq_some hpair)
    refine ⟨by simp only [List.length_cons]; omega, pairs_cons_cons.mpr ⟨ha, hb, hpairs⟩, ?_⟩
    rw [List.flatMap_cons, byteDigits_of_byte? hpair, hdigits]
    rfl
  | case4 => cases h

theorem exists_bytes? {text : List Char} (heven : text.length % 2 = 0) (h : Pairs text) :
    ∃ bytes, bytes? text = some bytes := by
  fun_induction bytes? text with
  | case1 => exact ⟨[], rfl⟩
  | case2 => simp at heven
  | case3 a b rest x xs => exact ⟨_, rfl⟩
  | case4 a b rest hnone ih =>
    obtain ⟨ha, hb, hrest⟩ := pairs_cons_cons.mp h
    obtain ⟨x, hx⟩ := Option.isSome_iff_exists.mp ((isSome_byte? a b).mpr ⟨ha, hb⟩)
    obtain ⟨xs, hxs⟩ := ih (by simp only [List.length_cons] at heven; omega) hrest
    exact absurd hxs (hnone x xs hx)

/-! ## Hashes -/

variable {s : String} {h : ContentHash}

theorem exists_parse_iff : (∃ h, parse s = .ok h) ↔ Spells s := by
  unfold parse
  constructor
  · rintro ⟨h, hparse⟩
    split at hparse
    next bytes hbytes =>
      obtain ⟨hlength, hpairs, -⟩ := text_of_bytes? hbytes
      split at hparse
      next hsixteen => exact ⟨by omega, hpairs⟩
      · cases hparse
    · cases hparse
  · rintro ⟨hlength, hpairs⟩
    obtain ⟨bytes, hbytes⟩ := exists_bytes? (by omega) hpairs
    obtain ⟨hdouble, -⟩ := text_of_bytes? hbytes
    have hsixteen : bytes.length = 16 := by omega
    exact ⟨⟨bytes, hsixteen⟩, by simp only [hbytes, hsixteen, dif_pos]⟩

/-- The text of a hash that has been read is the text that it was read from, in the written form. -/
theorem toText_of_parse (hparse : parse s = .ok h) :
    h.toText = String.ofList (s.toList.map written) := by
  unfold parse at hparse
  split at hparse
  next bytes hbytes =>
    split at hparse
    · cases hparse
      rw [toText, (text_of_bytes? hbytes).2.2]
    · cases hparse
  · cases hparse

/-- A text that is refused is kept in the fault. -/
theorem parse_eq_error (hspells : ¬ Spells s) : parse s = .error ⟨s⟩ := by
  rw [← exists_parse_iff, not_exists] at hspells
  unfold parse at hspells ⊢
  split
  · split
    next bytes hbytes hsixteen =>
      simp only [hbytes, hsixteen, dif_pos] at hspells
      exact absurd rfl (hspells _)
    · rfl
  · rfl

theorem spells_iff_of_no_plus (hplus : '+' ∉ s.toList) :
    Spells s ↔ s.toList.length = 32 ∧ ∀ c ∈ s.toList, IsHexDigit c := by
  refine and_congr_right fun _ => ?_
  constructor
  · intro h c hc
    obtain ⟨i, hi⟩ := List.mem_iff_getElem?.mp hc
    refine (h i c hi).resolve_right ?_
    rintro ⟨rfl, -⟩
    exact hplus hc
  · intro h i c hi
    exact .inl (h c (List.mem_of_getElem? hi))

theorem map_written_of_no_plus (hplus : '+' ∉ s.toList) :
    s.toList.map written = s.toList.map Char.toLower := by
  refine List.map_congr_left fun c hc => ?_
  rw [written, if_neg]
  rintro rfl
  exact hplus hc

end ContentHash

/-! ## Fingerprints in a log -/

namespace LogFile

open Json Reader

/-- The text stands for a fingerprint in a log file, be the file an object or an array. -/
inductive Records : Tree → String → Prop where
  | object {members prints : List (Option String × Tree)} {key : Option String} {s : String}
      (field : (some "input_fingerprints", .object prints) ∈ members)
      (print : (key, .text (some s)) ∈ prints) : Records (.object members) s
  | array {items : List Tree} {prints : List (Option String × Tree)} {key : Option String}
      {s : String} (place : items[4]? = some (.object prints))
      (print : (key, .text (some s)) ∈ prints) : Records (.array items) s

/-- The fingerprints that are accepted spell hashes. -/
theorem spells_of_accepts {prints : List (Option String × Tree)} {key : Option String} {s : String}
    (h : Accepts (optional (Table.reader Reader.hash)) (.object prints))
    (hprint : (key, .text (some s)) ∈ prints) : ContentHash.Spells s := by
  rw [accepts_optional (by simp), Table.reader, accepts_map, exact_hash.accepts_pairs_iff] at h
  obtain ⟨-, hash, hread⟩ := h _ hprint
  rw [← List.append_nil (Tree.tokens _)] at hread
  exact ContentHash.exists_parse_iff.mp ⟨hash, (hash_text.mp hread).2⟩

theorem spells_of_reader {tree : Tree} {s : String} {file : LogFile} {rest : List Token}
    (h : reader tree.tokens = .ok (file, rest)) (hrecords : Records tree s) :
    ContentHash.Spells s := by
  rw [← List.append_nil tree.tokens, reader] at h
  cases hrecords with
  | object field print =>
    obtain ⟨-, last, hfolds, -⟩ := (record_object exactFields).mp h
    have hfits := apart.exists_foldsTo_iff.mp ⟨last, hfolds⟩
    have haccepted := hfits.accepted
    simp only [fields, List.forall_mem_cons, accepts_map] at haccepted
    exact spells_of_accepts (haccepted.2.2.2.2.1 _ field) print
  | array place print =>
    obtain ⟨-, last, hplaces, -⟩ := (record_array exactFields).mp h
    obtain ⟨field, acc, hfield, haccepted⟩ := hplaces.accepts place
    cases hfield
    exact spells_of_accepts (accepts_map.mp haccepted) print

end LogFile

/-- A text is read as a hash exactly if it spells one; the hash is then written as the text is, in lower
case and with a zero for every plus sign.  What is written is read as the same hash.  Every other text
is refused and named in the fault, and no log is accepted that has it for a fingerprint.  Texts without
a plus sign spell a hash exactly if they are thirty-two hexadecimal digits. -/
theorem hash_grammar (s : String) :
    ((∃ h, ContentHash.parse s = .ok h) ↔ ContentHash.Spells s) ∧
      (∀ h, ContentHash.parse s = .ok h →
        h.toText = String.ofList (s.toList.map ContentHash.written)) ∧
      (∀ h : ContentHash, ContentHash.parse h.toText = .ok h) ∧
      (¬ ContentHash.Spells s → ContentHash.parse s = .error ⟨s⟩ ∧
        ∀ (fs : FileSystem) (path : Path) (document : String) (tree : Json.Tree),
          fs.readText path = .ok document → Json.tokens document = tree.tokens →
          LogFile.Records tree s → ∃ fault, BuildLog.read fs path = .error (.malformed path fault)) ∧
      ('+' ∉ s.toList →
        (ContentHash.Spells s ↔
          s.toList.length = 32 ∧ ∀ c ∈ s.toList, ContentHash.IsHexDigit c) ∧
        s.toList.map ContentHash.written = s.toList.map Char.toLower) := by
  refine ⟨ContentHash.exists_parse_iff, fun h => ContentHash.toText_of_parse,
    ContentHash.parse_toText, fun hspells => ⟨ContentHash.parse_eq_error hspells, ?_⟩, fun hplus =>
    ⟨ContentHash.spells_iff_of_no_plus hplus, ContentHash.map_written_of_no_plus hplus⟩⟩
  intro fs path document tree hread htokens hrecords
  have hdocument : ∃ fault, Json.Reader.document LogFile.reader document = .error fault := by
    unfold Json.Reader.document
    split
    next fault _ => exact ⟨fault, rfl⟩
    next file hfile =>
      rw [htokens] at hfile
      exact absurd (LogFile.spells_of_reader hfile hrecords) hspells
    · exact ⟨_, rfl⟩
  obtain ⟨fault, hfault⟩ := hdocument
  exact ⟨fault, by simp only [BuildLog.read, LogFile.read, hread, hfault]⟩

/-- Sixteen pairs that are no hexadecimal digits are read as a hash all the same. -/
theorem plus_pairs_read :
    (∃ h, ContentHash.parse "+f+f+f+f+f+f+f+f+f+f+f+f+f+f+f+f" = .ok h ∧
      h.toText = "0f0f0f0f0f0f0f0f0f0f0f0f0f0f0f0f") ∧
    ¬ ∀ c ∈ "+f+f+f+f+f+f+f+f+f+f+f+f+f+f+f+f".toList, ContentHash.IsHexDigit c := by
  have hparse : ContentHash.parse "+f+f+f+f+f+f+f+f+f+f+f+f+f+f+f+f" =
      .ok ⟨List.replicate 16 15, rfl⟩ := by decide +kernel
  refine ⟨⟨_, hparse, ?_⟩, fun hdigits => absurd (hdigits '+' (by simp)) (by decide)⟩
  rw [(hash_grammar _).2.1 _ hparse]
  decide +kernel

end LayoutRebuild
