/-!
# Tokens of a JSON document

A document is cut into tokens by a machine that reads one character at a time.  The machine never
fails: where the text is no JSON it answers the token `invalid` and stops, so that whoever consumes
the tokens meets the fault exactly where it stands in the document.

White space between tokens is dropped here and nowhere else.
-/

namespace LayoutRebuild.Json

/-- A token. -/
inductive Token where
  | openBrace
  | closeBrace
  | openBracket
  | closeBracket
  | colon
  | comma
  | null
  | boolean (value : Bool)
  /-- A number as it is written. -/
  | number (literal : List Char)
  /-- A string.  There is no value when an escape names half of a surrogate pair. -/
  | text (value : Option String)
  /-- The text cannot be read from here on. -/
  | invalid
deriving DecidableEq, Inhabited

/-- How much of a number has been read. -/
inductive NumberPart where
  | minus
  | zero
  | digits
  | point
  | fraction
  | exponentMark
  | exponentSign
  | exponent
deriving DecidableEq, Inhabited

/-- Whether a number may end here. -/
def NumberPart.complete : NumberPart → Bool
  | zero | digits | fraction | exponent => true
  | _ => false

/-- Whether a character is one of the ten digits. -/
def isDigit (c : Char) : Bool := '0' ≤ c && c ≤ '9'

/-- The part of a number that a further character leads to. -/
def NumberPart.next? (part : NumberPart) (c : Char) : Option NumberPart :=
  match part with
  | minus => if c = '0' then some .zero else if isDigit c then some .digits else none
  | zero => if c = '.' then some .point else if c = 'e' ∨ c = 'E' then some .exponentMark else none
  | digits =>
    if isDigit c then some .digits
    else if c = '.' then some .point
    else if c = 'e' ∨ c = 'E' then some .exponentMark
    else none
  | point => if isDigit c then some .fraction else none
  | fraction =>
    if isDigit c then some .fraction
    else if c = 'e' ∨ c = 'E' then some .exponentMark
    else none
  | exponentMark =>
    if isDigit c then some .exponent
    else if c = '+' ∨ c = '-' then some .exponentSign
    else none
  | exponentSign | exponent => if isDigit c then some .exponent else none

/-- A string that is being read: its characters, the latest first, the first half of a surrogate
pair whose second half has not come yet, and whether a half has been left alone. -/
structure Partial where
  read : List Char
  pending : Option Nat
  broken : Bool
deriving DecidableEq, Inhabited

namespace Partial

/-- Nothing read. -/
def start : Partial := ⟨[], none, false⟩

/-- The string with one more character. -/
def push (p : Partial) (c : Char) : Partial := ⟨c :: p.read, none, p.broken || p.pending.isSome⟩

/-- The string with one more code unit. -/
def pushUnit (p : Partial) (unit : Nat) : Partial :=
  if 0xD800 ≤ unit ∧ unit < 0xDC00 then ⟨p.read, some unit, p.broken || p.pending.isSome⟩
  else if 0xDC00 ≤ unit ∧ unit < 0xE000 then
    match p.pending with
    | some high =>
      ⟨Char.ofNat (0x10000 + (high - 0xD800) * 0x400 + (unit - 0xDC00)) :: p.read, none, p.broken⟩
    | none => ⟨p.read, none, true⟩
  else p.push (Char.ofNat unit)

/-- The string, unless half of a pair has been left alone. -/
def value? (p : Partial) : Option String :=
  if p.broken || p.pending.isSome then none else some (String.ofList p.read.reverse)

end Partial

/-- The state of the machine. -/
inductive Scan where
  /-- Between two tokens. -/
  | between
  /-- Inside a literal, with the letters still to come. -/
  | letters (left : List Char) (token : Token)
  /-- Inside a number, with its characters so far, the latest first. -/
  | number (read : List Char) (part : NumberPart)
  /-- Inside a string. -/
  | string (p : Partial)
  /-- After a backslash in a string. -/
  | escape (p : Partial)
  /-- Inside an escape by code unit: the digits still to come and the value so far. -/
  | unit (p : Partial) (left : Nat) (value : Nat)
  /-- Past the readable part. -/
  | stopped
deriving DecidableEq, Inhabited

/-- White space. -/
def isSpace (c : Char) : Bool := c = ' ' || c = '\t' || c = '\n' || c = '\r'

/-- The value of a hexadecimal digit. -/
def hexDigit? (c : Char) : Option Nat :=
  if '0' ≤ c ∧ c ≤ '9' then some (c.toNat - 48)
  else if 'a' ≤ c ∧ c ≤ 'f' then some (c.toNat - 87)
  else if 'A' ≤ c ∧ c ≤ 'F' then some (c.toNat - 55)
  else none

/-- The character that a letter after a backslash stands for. -/
def escaped? (c : Char) : Option Char :=
  if c = '"' ∨ c = '\\' ∨ c = '/' then some c
  else if c = 'b' then some '\x08'
  else if c = 'f' then some '\x0c'
  else if c = 'n' then some '\n'
  else if c = 'r' then some '\r'
  else if c = 't' then some '\t'
  else none

/-- The machine gives up. -/
def stop : List Token × Scan := ([.invalid], .stopped)

/-- One character between two tokens. -/
def begin (c : Char) : List Token × Scan :=
  if isSpace c then ([], .between)
  else if c = '\x7b' then ([.openBrace], .between)
  else if c = '\x7d' then ([.closeBrace], .between)
  else if c = '[' then ([.openBracket], .between)
  else if c = ']' then ([.closeBracket], .between)
  else if c = ':' then ([.colon], .between)
  else if c = ',' then ([.comma], .between)
  else if c = '"' then ([], .string .start)
  else if c = 'n' then ([], .letters "ull".toList .null)
  else if c = 't' then ([], .letters "rue".toList (.boolean true))
  else if c = 'f' then ([], .letters "alse".toList (.boolean false))
  else if c = '-' then ([], .number [c] .minus)
  else if c = '0' then ([], .number [c] .zero)
  else if isDigit c then ([], .number [c] .digits)
  else stop

/-- One character: the tokens that it completes, and the state after it. -/
def step : Scan → Char → List Token × Scan
  | .between, c => begin c
  | .letters left token, c =>
    match left with
    | [last] => if c = last then ([token], .between) else stop
    | next :: left => if c = next then ([], .letters left token) else stop
    | [] => stop
  | .number read part, c =>
    match part.next? c with
    | some part => ([], .number (c :: read) part)
    | none =>
      if part.complete ∧ !isDigit c then
        let (tokens, state) := begin c
        (.number read.reverse :: tokens, state)
      else stop
  | .string p, c =>
    if c = '"' then ([.text p.value?], .between)
    else if c = '\\' then ([], .escape p)
    else if c.toNat < 0x20 then stop
    else ([], .string (p.push c))
  | .escape p, c =>
    if c = 'u' then ([], .unit p 4 0)
    else
      match escaped? c with
      | some c => ([], .string (p.push c))
      | none => stop
  | .unit p left value, c =>
    match hexDigit? c with
    | none => stop
    | some digit =>
      let value := 16 * value + digit
      if left ≤ 1 then ([], .string (p.pushUnit value)) else ([], .unit p (left - 1) value)
  | .stopped, _ => ([], .stopped)

/-- The tokens that the end of the document completes. -/
def finish : Scan → List Token
  | .between | .stopped => []
  | .number read part => if part.complete then [.number read.reverse] else [.invalid]
  | _ => [.invalid]

/-- The tokens from a state of the machine on. -/
def scan : Scan → List Char → List Token
  | state, [] => finish state
  | state, c :: rest =>
    let (tokens, state) := step state c
    tokens ++ scan state rest

/-- The tokens of a document. -/
def tokens (document : String) : List Token := scan .between document.toList

end LayoutRebuild.Json
