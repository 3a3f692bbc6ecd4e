-- SUMMARY: Doubles from decimals, and the shortest decimal of a double.
import FoldedStacks.Binary64.Rounding
import FoldedStacks.Text.Numeral

/-!
# Decimal text of doubles

A double read from a decimal is the one nearest to it. A double is written with the fewest decimal
digits that read back as it; of two such decimals the nearer one is written, and the one with the
even last digit when both are equally near.
-/

namespace FoldedStacks

/-! ## Reading -/

/-- How many decimal digits a number has; zero has one. -/
def Binary64.digitCount (n : Nat) : Nat :=
  (Text.numeral n).length

/-- The double nearest to `± d · 10^k`. Decimals beyond the range of all doubles are told by their
    size alone, so that no huge power of ten is computed. -/
def Binary64.ofDecimal (negative : Bool) (d : Nat) (k : Int) : Binary64 :=
  if d = 0 then .finite (.zero negative)
  else
    let top := k + Binary64.digitCount d
    if 400 < top then .infinite negative
    else if top < -400 then .finite (.zero negative)
    else .nearest negative (d * 10 ^ k.toNat) (10 ^ (-k).toNat)

/-! ## The fewest digits -/

/-- A decimal `digits · 10^exponent`. -/
structure Decimal where
  digits : Nat
  exponent : Int
  deriving DecidableEq, Repr

/-- The decimal has the magnitude of `x` as its nearest double. -/
def Binary64.Finite.readsBack (x : Binary64.Finite) (d : Decimal) : Bool :=
  Binary64.ofDecimal false d.digits d.exponent = .finite { x with negative := false }

/-- How far a decimal is from `n / d`, in units of `10^exponent / d`. -/
def Decimal.distance (c : Decimal) (n d : Nat) : Nat :=
  let scaledDecimal := c.digits * 10 ^ c.exponent.toNat * d
  let scaledValue := n * 10 ^ (-c.exponent).toNat
  (scaledDecimal - scaledValue) + (scaledValue - scaledDecimal)

/-- Of two decimals with one exponent, the one nearer to `n / d`; the even one of two equally
    near. -/
def Decimal.nearer (lo hi : Decimal) (n d : Nat) : Decimal :=
  if lo.distance n d < hi.distance n d then lo
  else if hi.distance n d < lo.distance n d then hi
  else if lo.digits % 2 = 0 then lo
  else hi

/-- The better of the two multiples of `10^k` around `x` that reads back as `x`. -/
def Binary64.Finite.neighbour? (x : Binary64.Finite) (k : Int) : Option Decimal :=
  let q := x.magnitude
  let n := q.num.natAbs
  let d := q.den
  let below := n * 10 ^ (-k).toNat / (d * 10 ^ k.toNat)
  let lo : Decimal := ⟨below, k⟩
  let hi : Decimal := ⟨below + 1, k⟩
  match x.readsBack lo, x.readsBack hi with
  | true, true => some (lo.nearer hi n d)
  | true, false => some lo
  | false, true => some hi
  | false, false => none

/-- Tries finer and finer decimal grids. -/
def Binary64.Finite.searchDecimal (x : Binary64.Finite) : Nat → Int → Option Decimal
  | 0, _ => none
  | tries + 1, k =>
    match x.neighbour? k with
    | some d => some d
    | none => x.searchDecimal tries (k - 1)

/-- All digits of `x`: every double is a decimal. -/
def Binary64.Finite.exactDecimal (x : Binary64.Finite) : Decimal :=
  if 0 ≤ x.exponent then ⟨x.significand * 2 ^ x.exponent.toNat, 0⟩
  else ⟨x.significand * 5 ^ (-x.exponent).toNat, x.exponent⟩

/-- The greatest `k` with `10^k ≤ n / d`, for positive `n` and `d`. -/
def Binary64.floorLog10 (n d : Nat) : Int :=
  if d ≤ n then (Binary64.digitCount (n / d) : Int) - 1
  else -(Binary64.digitCount ((d - 1) / n) : Int)

/-- The fewest digits that read back as the magnitude of `x`. The grids that matter are those from
    the leading digit of `x` on; seventeen digits always tell two doubles apart. -/
def Binary64.Finite.shortest (x : Binary64.Finite) : Decimal :=
  if x.significand = 0 then ⟨0, 0⟩
  else
    let q := x.magnitude
    (x.searchDecimal 17 (Binary64.floorLog10 q.num.natAbs q.den)).getD x.exactDecimal

/-! ## The written form -/

/-- The decimal without zeros at the end of its digits. -/
def Decimal.stripZeros (fuel : Nat) (d : Decimal) : Decimal :=
  match fuel with
  | 0 => d
  | fuel + 1 =>
    if d.digits ≠ 0 ∧ d.digits % 10 = 0 then
      Decimal.stripZeros fuel ⟨d.digits / 10, d.exponent + 1⟩
    else d

/-- Writes a decimal. From `10^-5` up to `10^16` the point stands in its place, with at least one
    digit on either side of it; outside, the leading digit is followed by an exponent of ten. -/
def Decimal.render (d : Decimal) : List Char :=
  let ds := Text.numeral d.digits
  let point : Int := ds.length + d.exponent
  if d.digits = 0 then ['0', '.', '0']
  else if 0 ≤ d.exponent ∧ point ≤ 16 then
    ds ++ List.replicate d.exponent.toNat '0' ++ ['.', '0']
  else if 0 < point ∧ point ≤ 16 then
    ds.take point.toNat ++ '.' :: ds.drop point.toNat
  else if -5 < point ∧ point ≤ 0 then
    ['0', '.'] ++ List.replicate (-point).toNat '0' ++ ds
  else
    let e := point - 1
    ds.take 1 ++ (if ds.length = 1 then [] else '.' :: ds.drop 1) ++
      'e' :: (if e < 0 then ['-'] else ['+']) ++ Text.numeral e.natAbs

/-- The text of a finite number. -/
def Binary64.Finite.render (x : Binary64.Finite) : List Char :=
  let text := (x.shortest.stripZeros 400).render
  if x.negative then '-' :: text else text

end FoldedStacks
