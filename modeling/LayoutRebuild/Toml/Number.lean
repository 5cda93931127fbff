import LayoutRebuild.Toml.Text
import LayoutRebuild.Toml.Value

/-!
# Numbers, truth values and points in time

What is not a string or a container is a word without blanks, and is judged as a whole.  Only a
point in time may hold one space, between the day and the time.
-/

namespace LayoutRebuild.Toml

/-- A character of a word. -/
def isWordChar (c : Char) : Bool := isKeyChar c || c = '+' || c = '.' || c = ':'

/-- Digits, in which single underscores may stand between two digits. -/
def grouped? (digit : Char → Bool) : List Char → Option (List Char)
  | [] => none
  | [c] => if digit c then some [c] else none
  | c :: '_' :: rest => if digit c then (grouped? digit rest).map (c :: ·) else none
  | c :: rest => if digit c then (grouped? digit rest).map (c :: ·) else none

/-- A decimal number without a zero in front. -/
def decimal? (s : List Char) : Option (List Char) :=
  match grouped? isDigit s with
  | some ['0'] => some ['0']
  | some ('0' :: _) => none
  | other => other

/-- The value of digits in a base. -/
def natOf (base : Nat) (digits : List Char) : Nat :=
  digits.foldl (fun n c => base * n + (hexDigit? c).getD 0) 0

/-- A word without its sign, and whether the sign is a minus. -/
def splitSign : List Char → Bool × List Char
  | '-' :: rest => (true, rest)
  | '+' :: rest => (false, rest)
  | s => (false, s)

/-- The largest integer. -/
def maxInteger : Nat := 0x7FFFFFFFFFFFFFFF

/-- A number in another base, with the characters that count as digits. -/
def basedInteger? (base : Nat) (digit : Char → Bool) (s : List Char) : Option Int :=
  match grouped? digit s with
  | some digits =>
    let n := natOf base digits
    if n ≤ maxInteger then some n else none
  | none => none

/-- An integer. -/
def integer? (s : List Char) : Option Int :=
  match s with
  | '0' :: 'x' :: rest => basedInteger? 16 (fun c => (hexDigit? c).isSome) rest
  | '0' :: 'o' :: rest => basedInteger? 8 (fun c => '0' ≤ c && c ≤ '7') rest
  | '0' :: 'b' :: rest => basedInteger? 2 (fun c => c = '0' || c = '1') rest
  | _ =>
    let (negative, digits) := splitSign s
    match decimal? digits with
    | none => none
    | some digits =>
      let n := natOf 10 digits
      if negative then if n ≤ maxInteger + 1 then some (-n) else none
      else if n ≤ maxInteger then some n else none

/-! ## Floats -/

/-- Whether `digits · 10^exponent` is so large that it rounds to infinity: the least such number is
half a unit above the largest float. -/
def overflows (digits : List Char) (exponent : Int) : Bool :=
  let n := natOf 10 digits
  let magnitude : Int := (Nat.toDigits 10 n).length + exponent
  if n = 0 ∨ magnitude < 300 then false
  else if 320 < magnitude then true
  else
    let bound : Nat := 1 <<< 1024 - 1 <<< 970
    if 0 ≤ exponent then bound ≤ n * Nat.pow 10 exponent.toNat
    else bound * Nat.pow 10 (-exponent).toNat ≤ n

/-- The exponent of a float, after its mark. -/
def exponent? (s : List Char) : Option Int :=
  let (negative, digits) := splitSign s
  match grouped? isDigit digits with
  | some digits => some (if negative then -(natOf 10 digits : Int) else natOf 10 digits)
  | none => none

/-- Whether a character marks an exponent. -/
def isExponentMark (c : Char) : Bool := c = 'e' || c = 'E'

/-- The digits and the exponent of what follows the integer part of a float. -/
def fractionAndExponent? : List Char → Option (List Char × Int)
  | '.' :: rest =>
    match grouped? isDigit (rest.takeWhile fun c => !isExponentMark c),
        rest.dropWhile fun c => !isExponentMark c with
    | some digits, [] => some (digits, 0)
    | some digits, _ :: mark => (exponent? mark).map fun e => (digits, e)
    | none, _ => none
  | c :: mark => if isExponentMark c then (exponent? mark).map fun e => ([], e) else none
  | [] => none

/-- Whether a word is a float.  A positive float may not round to infinity. -/
def isFloat (s : List Char) : Bool :=
  let (negative, rest) := splitSign s
  if rest = "inf".toList ∨ rest = "nan".toList then true
  else
    let whole := rest.takeWhile fun c => isDigit c || c = '_'
    match decimal? whole, fractionAndExponent? (rest.drop whole.length) with
    | some digits, some (fraction, exponent) =>
      negative || !overflows (digits ++ fraction) (exponent - fraction.length)
    | _, _ => false

/-! ## Points in time -/

/-- A number of two digits within bounds. -/
def pair? (low high : Nat) (a b : Char) : Option Nat :=
  if isDigit a ∧ isDigit b ∧ low ≤ natOf 10 [a, b] ∧ natOf 10 [a, b] ≤ high then
    some (natOf 10 [a, b])
  else none

/-- The number of days of a month. -/
def daysOfMonth (year month : Nat) : Nat :=
  if month = 2 then
    if year % 4 = 0 ∧ (year % 100 ≠ 0 ∨ year % 400 = 0) then 29 else 28
  else if month = 4 ∨ month = 6 ∨ month = 9 ∨ month = 11 then 30
  else 31

/-- The text after a day of the calendar. -/
def day? : List Char → Option (List Char)
  | y₁ :: y₂ :: y₃ :: y₄ :: '-' :: m₁ :: m₂ :: '-' :: d₁ :: d₂ :: rest =>
    if [y₁, y₂, y₃, y₄].all isDigit then
      match pair? 1 12 m₁ m₂ with
      | none => none
      | some month =>
        match pair? 1 (daysOfMonth (natOf 10 [y₁, y₂, y₃, y₄]) month) d₁ d₂ with
        | some _ => some rest
        | none => none
    else none
  | _ => none

/-- The text after a fraction of a second, if there is one. -/
def skipFraction? : List Char → Option (List Char)
  | '.' :: rest =>
    match rest with
    | c :: _ => if isDigit c then some (rest.dropWhile isDigit) else none
    | [] => none
  | s => some s

/-- The text after a time of the day.  The sixtieth second is one that may be inserted. -/
def time? : List Char → Option (List Char)
  | h₁ :: h₂ :: ':' :: m₁ :: m₂ :: ':' :: s₁ :: s₂ :: rest =>
    if (pair? 0 23 h₁ h₂).isSome ∧ (pair? 0 59 m₁ m₂).isSome ∧ (pair? 0 60 s₁ s₂).isSome then
      skipFraction? rest
    else none
  | _ => none

/-- Whether a text is an offset from universal time, or empty. -/
def isOffset : List Char → Bool
  | [] => true
  | ['Z'] | ['z'] => true
  | [sign, h₁, h₂, ':', m₁, m₂] =>
    (sign = '+' || sign = '-') && (pair? 0 23 h₁ h₂).isSome && (pair? 0 59 m₁ m₂).isSome
  | _ => false

/-- Whether a text is a time of the day with or without an offset. -/
def isTimeWithOffset (s : List Char) : Bool :=
  match time? s with
  | some rest => isOffset rest
  | none => false

/-- Whether a word is a day, a time, or a day with a time. -/
def isMoment (s : List Char) : Bool :=
  match day? s with
  | some [] => true
  | some (mark :: rest) => (mark = 'T' || mark = 't' || mark = ' ') && isTimeWithOffset rest
  | none => time? s = some []

/-! ## Words -/

/-- The value of a word. -/
def wordValue? (word : List Char) : Option Value :=
  if word = "true".toList then some (.boolean true)
  else if word = "false".toList then some (.boolean false)
  else
    match integer? word with
    | some n => some (.integer n)
    | none =>
      if isFloat word then some (.float (String.ofList word))
      else if isMoment word then some (.moment (String.ofList word))
      else none

/-- Takes a word.  A space after a day is part of it if a digit follows. -/
def takeWord (s : List Char) : List Char × List Char :=
  let word := s.takeWhile isWordChar
  match day? word, s.dropWhile isWordChar with
  | some [], ' ' :: c :: rest =>
    if isDigit c then
      (word ++ ' ' :: (c :: rest).takeWhile isWordChar, (c :: rest).dropWhile isWordChar)
    else (word, ' ' :: c :: rest)
  | _, rest => (word, rest)

/-- A value written as a word. -/
def word (s : List Char) : Option (Value × List Char) :=
  let (w, rest) := takeWord s
  (wordValue? w).map fun v => (v, rest)

end LayoutRebuild.Toml
