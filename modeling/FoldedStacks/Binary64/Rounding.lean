-- SUMMARY: Rounding to the nearest double, and arithmetic with one rounding.
import FoldedStacks.Binary64.Basic

/-!
# Rounding and arithmetic

Every operation on doubles is the exact operation on rational numbers, rounded to the nearest
double; of two nearest ones the one with the even significand is taken, and what lies past the
largest double becomes infinite.
-/

namespace FoldedStacks

/-! ## Rounding to the nearest double -/

/-- The integer nearest to `n / d`; halfway between two, the even one. -/
def Binary64.nearestEven (n d : Nat) : Nat :=
  let q := n / d
  let r := n % d
  if 2 * r < d then q
  else if d < 2 * r then q + 1
  else if q % 2 = 0 then q
  else q + 1

/-- The greatest `k` with `2^k ≤ n / d`, for positive `n` and `d`. -/
def Binary64.floorLog2 (n d : Nat) : Int :=
  let k : Int := (n.log2 : Int) - d.log2
  if d * 2 ^ k.toNat ≤ n * 2 ^ (-k).toNat then k else k - 1

/-- The exponent on whose grid `n / d` has 53 significant bits, or the least exponent. -/
def Binary64.gridExponent (n d : Nat) : Int :=
  max (Binary64.floorLog2 n d - 52) (-1074)

/-- The number `± m · 2^e`, infinite when it is no finite double. -/
def Binary64.ofParts (negative : Bool) (m : Nat) (e : Int) : Binary64 :=
  if h : Binary64.Canonical m e then .finite ⟨negative, m, e, h⟩ else .infinite negative

/-- The double nearest to `± n / d`, where `d` is positive. -/
def Binary64.nearest (negative : Bool) (n d : Nat) : Binary64 :=
  if n = 0 then .finite (.zero negative)
  else
    let e := Binary64.gridExponent n d
    let m := Binary64.nearestEven (n * 2 ^ (-e).toNat) (d * 2 ^ e.toNat)
    if m = 2 ^ 53 then .ofParts negative (2 ^ 52) (e + 1) else .ofParts negative m e

/-- The double nearest to the magnitude of `q`, with a given sign. -/
def Binary64.nearestRat (negative : Bool) (q : Rat) : Binary64 :=
  .nearest negative q.num.natAbs q.den

/-- The double nearest to a natural number. -/
def Binary64.ofNat (n : Nat) : Binary64 :=
  .nearest false n 1

/-! ## Arithmetic -/

def Binary64.isNegative : Binary64 → Bool
  | .nan => false
  | .infinite negative => negative
  | .finite x => x.negative

/-- Whether a number is one of the two zeros. -/
def Binary64.isZero : Binary64 → Bool
  | .finite x => x.significand == 0
  | _ => false

def Binary64.add : Binary64 → Binary64 → Binary64
  | .nan, _ => .nan
  | _, .nan => .nan
  | .infinite s, .infinite t => if s = t then .infinite s else .nan
  | .infinite s, .finite _ => .infinite s
  | .finite _, .infinite t => .infinite t
  | .finite x, .finite y =>
    let q := x.toRat + y.toRat
    .nearestRat (if q.num = 0 then x.negative && y.negative else decide (q.num < 0)) q

def Binary64.mul : Binary64 → Binary64 → Binary64
  | .nan, _ => .nan
  | _, .nan => .nan
  | .finite x, .finite y => .nearestRat (x.negative != y.negative) (x.toRat * y.toRat)
  | x, y => if x.isZero || y.isZero then .nan else .infinite (x.isNegative != y.isNegative)

def Binary64.div : Binary64 → Binary64 → Binary64
  | .nan, _ => .nan
  | _, .nan => .nan
  | .infinite _, .infinite _ => .nan
  | .infinite s, .finite y => .infinite (s != y.negative)
  | .finite x, .infinite t => .finite (.zero (x.negative != t))
  | .finite x, .finite y =>
    let negative := x.negative != y.negative
    if y.significand = 0 then
      if x.significand = 0 then .nan else .infinite negative
    else .nearestRat negative (x.toRat / y.toRat)

instance : Add Binary64 := ⟨Binary64.add⟩

instance : Mul Binary64 := ⟨Binary64.mul⟩

instance : Div Binary64 := ⟨Binary64.div⟩

/-- The integer part of a rational number: its digits after the point are cut off. -/
def Binary64.truncated (q : Rat) : Int :=
  q.num.tdiv q.den

/-- The remainder of a division whose quotient is cut to an integer; it has the sign of `x`. -/
def Binary64.remainder : Binary64 → Binary64 → Binary64
  | .nan, _ => .nan
  | _, .nan => .nan
  | .infinite _, _ => .nan
  | .finite x, .infinite _ => .finite x
  | .finite x, .finite y =>
    if y.significand = 0 then .nan
    else
      .nearestRat x.negative (x.toRat - Binary64.truncated (x.toRat / y.toRat) * y.toRat)

/-- The integer part as a natural number of at most `limit`: nothing below zero, `limit` above it,
    and zero for NaN. -/
def Binary64.toNatUpTo (limit : Nat) : Binary64 → Nat
  | .nan => 0
  | .infinite negative => if negative then 0 else limit
  | .finite x => min (Binary64.truncated x.toRat).toNat limit

/-- The natural number nearest to a number, up to `limit`; a half goes up. -/
def Binary64.roundUpTo (limit : Nat) : Binary64 → Nat
  | .nan => 0
  | .infinite negative => if negative then 0 else limit
  | .finite x => min (x.toRat + mkRat 1 2).floor.toNat limit

end FoldedStacks
