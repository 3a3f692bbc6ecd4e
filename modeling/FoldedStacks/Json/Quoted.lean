-- SUMMARY: The reader of quoted strings, one character at a time.
import FoldedStacks.Json.Reader

/-!
# Quoted strings

A string is read one character at a time. An escape of the form `\uXXXX` gives a UTF-16 unit; two
units that are a surrogate pair give one character, and a unit of a pair may not stand alone.
-/

namespace FoldedStacks

/-! ## UTF-16 units -/

/-- The first unit of a surrogate pair. -/
def Json.isHighSurrogate (unit : Nat) : Bool :=
  0xD800 ≤ unit && unit ≤ 0xDBFF

/-- The second unit of a surrogate pair. -/
def Json.isLowSurrogate (unit : Nat) : Bool :=
  0xDC00 ≤ unit && unit ≤ 0xDFFF

/-- The character of a surrogate pair. -/
def Json.pairChar (high low : Nat) : Char :=
  Char.ofNat (0x10000 + (high - 0xD800) * 0x400 + (low - 0xDC00))

/-- The value of a hexadecimal digit. -/
def Json.hexDigit? (c : Char) : Option Nat :=
  if '0' ≤ c ∧ c ≤ '9' then some (c.toNat - '0'.toNat)
  else if 'a' ≤ c ∧ c ≤ 'f' then some (c.toNat - 'a'.toNat + 10)
  else if 'A' ≤ c ∧ c ≤ 'F' then some (c.toNat - 'A'.toNat + 10)
  else none

/-! ## Reading -/

/-- Where a reader stands between two characters of a string. -/
inductive Json.StringState where
  | plain
  /-- Behind a backslash. -/
  | escape
  /-- Inside `\uXXXX`, with `left` digits still to come; `high` is an unpaired first unit. -/
  | hex (left unit : Nat) (high : Option Nat)
  /-- Behind a first unit, where a second escape must follow. -/
  | pair (high : Nat)
  /-- Behind the backslash of that second escape. -/
  | pairEscape (high : Nat)

/-- The character of a two-character escape. -/
def Json.unescape? (c : Char) : Option Char :=
  if c = '\"' ∨ c = '\\' ∨ c = '/' then some c
  else if c = 'b' then some '\x08'
  else if c = 'f' then some '\x0c'
  else if c = 'n' then some '\n'
  else if c = 'r' then some '\r'
  else if c = 't' then some '\t'
  else none

/-- Whether four bytes are left for the digits of `\uXXXX`. -/
def Json.roomForUnit (cs : List Char) : Bool :=
  4 ≤ (cs.take 4).foldl (fun bytes c => bytes + c.utf8Size) 0

/-- What a finished unit leads to: the characters that are complete, and the next state. A
    skipping reader does not pair the units. -/
def Json.unitRead (skipping : Bool) (unit : Nat) (high : Option Nat) :
    Except Json.ReadError (List Char × Json.StringState) :=
  if skipping then .ok ([], .plain)
  else
    match high with
    | some h =>
      if Json.isLowSurrogate unit then .ok ([Json.pairChar h unit], .plain) else .error .malformed
    | none =>
      if Json.isLowSurrogate unit then .error .malformed
      else if Json.isHighSurrogate unit then .ok ([], .pair unit)
      else .ok ([Char.ofNat unit], .plain)

/-- One character of a string, other than the closing quote: the characters that are complete
    with it, and the next state. `rest` is the text behind it. -/
def Json.stringStep (skipping : Bool) (c : Char) (rest : List Char) :
    Json.StringState → Except Json.ReadError (List Char × Json.StringState)
  | .plain =>
    if c = '\\' then .ok ([], .escape)
    else if c.toNat < 0x20 then .error .malformed
    else .ok ([c], .plain)
  | .escape =>
    if c = 'u' then
      if Json.roomForUnit rest then .ok ([], .hex 3 0 none) else .error .truncated
    else
      match Json.unescape? c with
      | some d => .ok ([d], .plain)
      | none => .error .malformed
  | .hex left unit high =>
    match Json.hexDigit? c with
    | none => .error .malformed
    | some d =>
      match left with
      | 0 => Json.unitRead skipping (16 * unit + d) high
      | left + 1 => .ok ([], .hex left (16 * unit + d) high)
  | .pair high => if c = '\\' then .ok ([], .pairEscape high) else .error .malformed
  | .pairEscape high =>
    if c = 'u' then
      if Json.roomForUnit rest then .ok ([], .hex 3 0 (some high)) else .error .truncated
    else .error .malformed

/-- The characters of a string up to its closing quote. -/
def Json.readStringFrom (skipping : Bool) : Json.StringState → Json.Reader (List Char)
  | _, [] => .error .truncated
  | state, c :: rest =>
    match state, c with
    | .plain, '\"' => .ok ([], rest)
    | state, c =>
      match Json.stringStep skipping c rest state with
      | .error e => .error e
      | .ok (done, state) =>
        match Json.readStringFrom skipping state rest with
        | .error e => .error e
        | .ok (later, rest) => .ok (done ++ later, rest)

/-- A string whose opening quote is next. -/
def Json.readString : Json.Reader String := do
  Json.advance
  return String.ofList (← Json.readStringFrom false .plain)

/-- Skips a string whose opening quote is next. Units need not make characters. -/
def Json.skipString : Json.Reader Unit := do
  Json.advance
  let _ ← Json.readStringFrom true .plain

end FoldedStacks
