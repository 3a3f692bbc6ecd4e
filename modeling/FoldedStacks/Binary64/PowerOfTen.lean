-- SUMMARY: Doubles times powers of ten, in rounded steps.
import FoldedStacks.Binary64.Rounding

/-!
# Powers of ten

A double times a power of ten, in steps that are rounded one by one.
-/

namespace FoldedStacks

/-- The double nearest to `10^k`. -/
def Binary64.powerOfTen (k : Nat) : Binary64 :=
  .ofNat (10 ^ k)

/-- The exponent of the greatest power of ten that is a finite double. -/
def Binary64.maxPowerOfTen : Nat := 308

/-- The number divided a number of times by the greatest power of ten, or until it is zero. -/
def Binary64.overMaxPower : Nat → Binary64 → Binary64
  | 0, x => x
  | times + 1, x =>
    if x.isZero then x
    else Binary64.overMaxPower times (x / .powerOfTen Binary64.maxPowerOfTen)

/-- The number divided by `10^k`: first by the greatest power as often as it goes into it. -/
def Binary64.overPower (x : Binary64) (k : Nat) : Binary64 :=
  Binary64.overMaxPower (k / Binary64.maxPowerOfTen) x / .powerOfTen (k % Binary64.maxPowerOfTen)

/-- The number times `10^k`. Past the greatest power it is infinite, unless it is zero. -/
def Binary64.timesPower (x : Binary64) (k : Nat) : Binary64 :=
  if k ≤ Binary64.maxPowerOfTen then x * .powerOfTen k
  else if x.isZero then x
  else .infinite x.isNegative

/-- The number times `10^e`, where `e` may be negative. -/
def Binary64.shiftTen (x : Binary64) (e : Int) : Binary64 :=
  if 0 ≤ e then x.timesPower e.toNat else x.overPower (-e).toNat

end FoldedStacks
