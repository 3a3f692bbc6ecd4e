-- SUMMARY: The reader of number literals.
import FoldedStacks.Binary64.PowerOfTen
import FoldedStacks.Json.Reader

/-!
# Number literals

A literal without point and exponent that fits 64 bits, signed or unsigned, is an integer. Every
other one is a double: its digits, less those that do not fit 64 bits, times a power of ten. Both
the digits and the product are rounded, so the double is near the literal but need not be the
nearest one. It is refused when it is infinite.
-/

namespace FoldedStacks

/-- A number as it is written, `± significand · 10^exponent`. -/
structure Json.Literal where
  negative : Bool
  /-- What the digits make up, less those that do not fit 64 bits. -/
  significand : Nat
  exponent : Int
  /-- Neither a point nor an exponent is written. -/
  integral : Bool
  deriving DecidableEq, Repr

/-! ## The grammar -/

/-- One or more digits. What is missing at the end of the text is reported as `atEnd`. -/
def Json.readDigits (atEnd : Json.ReadError) : Json.Reader (List Char) := fun cs =>
  match cs with
  | [] => .error atEnd
  | _ =>
    let digits := cs.takeWhile Char.isDigit
    if digits.isEmpty then .error .malformed else .ok (digits, cs.dropWhile Char.isDigit)

/-- The part before the point: zero, or digits that do not begin with zero. -/
def Json.readWhole (atEnd : Json.ReadError) : Json.Reader (List Char) := do
  let digits ← Json.readDigits atEnd
  if digits.head? = some '0' ∧ digits.length ≠ 1 then throw .malformed else return digits

/-- The digits after the point, if there is one. -/
def Json.readFraction (atEnd : Json.ReadError) : Json.Reader (Option (List Char)) := do
  match (← get) with
  | '.' :: rest =>
    set rest
    return some (← Json.readDigits atEnd)
  | _ => return none

/-- The exponent of ten, if one is written. -/
def Json.readExponent (atEnd : Json.ReadError) : Json.Reader (Option Int) := do
  match (← get) with
  | c :: rest =>
    if c = 'e' ∨ c = 'E' then
      let (negative, rest) := match rest with
        | '-' :: rest => (true, rest)
        | '+' :: rest => (false, rest)
        | rest => (false, rest)
      set rest
      let n := Nat.ofDigitChars 10 (← Json.readDigits atEnd) 0
      return some (if negative then -(n : Int) else (n : Int))
    else return none
  | [] => return none

/-- Puts digits behind a number while it fits 64 bits: the number, and how many digits are left. -/
def Json.appendDigits (n : Nat) : List Char → Nat × Nat
  | [] => (n, 0)
  | c :: cs =>
    let next := 10 * n + (c.toNat - '0'.toNat)
    if next < 2 ^ 64 then Json.appendDigits next cs else (n, cs.length + 1)

/-- A number literal. -/
def Json.readLiteral (atEnd : Json.ReadError) : Json.Reader Json.Literal := do
  let negative := (← get).head? == some '-'
  if negative then Json.advance
  let whole ← Json.readWhole atEnd
  let fraction ← Json.readFraction atEnd
  let exponent ← Json.readExponent atEnd
  let fractionDigits := fraction.getD []
  let (wholeNumber, wholeLeft) := Json.appendDigits 0 whole
  let (significand, fractionLeft) := Json.appendDigits wholeNumber fractionDigits
  return {
    negative
    significand
    exponent := exponent.getD 0 + wholeLeft + fractionLeft - fractionDigits.length
    integral := fraction.isNone && exponent.isNone }

/-! ## Its value -/

/-- The double that a literal means. -/
def Json.Literal.toBinary64 (l : Json.Literal) : Binary64 :=
  Binary64.shiftTen (.nearest l.negative l.significand 1) l.exponent

/-- The number that a literal means, unless it is too large. Minus zero is a double, because no
    integer has its sign. -/
def Json.Literal.toNumber? (l : Json.Literal) : Option Json.Number :=
  let i : Int := if l.negative then -(l.significand : Int) else l.significand
  if h : (l.integral = true ∧ l.exponent = 0 ∧ ¬ (l.negative = true ∧ l.significand = 0)) ∧
      -2 ^ 63 ≤ i ∧ i < 2 ^ 64 then
    some (.int i h.2)
  else
    match l.toBinary64 with
    | .finite x => some (.float x)
    | _ => none

/-- Reads a number. -/
def Json.readNumber : Json.Reader Json.Number := do
  match (← Json.readLiteral .truncated).toNumber? with
  | some n => return n
  | none => throw .malformed

/-- The double nearest to a number. -/
def Json.Number.toBinary64 : Json.Number → Binary64
  | .int i _ => .nearest (decide (i < 0)) i.natAbs 1
  | .float x => .finite x

/-- The count that an integer is. -/
def Json.Number.natural? : Json.Number → Option Nat
  | .int i _ => if 0 ≤ i then some i.toNat else none
  | .float _ => none

end FoldedStacks
