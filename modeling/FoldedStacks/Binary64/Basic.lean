-- SUMMARY: Double-precision numbers in canonical form, their values and their bit patterns.
import FoldedStacks.Powers

/-!
# Double-precision numbers

The numbers of the IEEE 754 format binary64. A finite one is a signed `m · 2^e` in its only
canonical form, so equality of values is equality of bit patterns; all payloads of NaN are one
value.
-/

namespace FoldedStacks

/-- `m` has at most 53 bits, and all of them unless `e` is the least exponent. -/
def Binary64.Canonical (m : Nat) (e : Int) : Prop :=
  m < 2 ^ 53 ∧ -1074 ≤ e ∧ e ≤ 971 ∧ (2 ^ 52 ≤ m ∨ e = -1074)

instance (m : Nat) (e : Int) : Decidable (Binary64.Canonical m e) :=
  inferInstanceAs (Decidable (_ ∧ _))

/-- A finite number `± significand · 2^exponent`. There are two zeros. -/
@[ext] structure Binary64.Finite where
  negative : Bool
  significand : Nat
  exponent : Int
  canonical : Binary64.Canonical significand exponent
  deriving DecidableEq

inductive Binary64 where
  | nan
  | infinite (negative : Bool)
  | finite (x : Binary64.Finite)
  deriving DecidableEq

/-- The rational number `m · 2^e`. -/
def Binary64.scaled (m : Nat) (e : Int) : Rat :=
  mkRat (m * 2 ^ e.toNat) (2 ^ (-e).toNat)

/-- The magnitude of a finite number. -/
def Binary64.Finite.magnitude (x : Binary64.Finite) : Rat :=
  Binary64.scaled x.significand x.exponent

/-- The value of a finite number. -/
def Binary64.Finite.toRat (x : Binary64.Finite) : Rat :=
  if x.negative then -x.magnitude else x.magnitude

/-- Zero of a given sign. -/
def Binary64.Finite.zero (negative : Bool) : Binary64.Finite :=
  ⟨negative, 0, -1074, by decide⟩

/-- The number 1. -/
def Binary64.one : Binary64 :=
  .finite ⟨false, 2 ^ 52, -52, by decide⟩

instance : Inhabited Binary64.Finite := ⟨Binary64.Finite.zero false⟩

instance : Inhabited Binary64 := ⟨.finite default⟩

/-- The number with given fields: the sign, the biased exponent and the bits after the point. -/
def Binary64.ofFields (negative : Bool) (field : Fin (2 ^ 11)) (fraction : Fin (2 ^ 52)) :
    Binary64 :=
  if _ : field.val = 2047 then
    if fraction.val = 0 then .infinite negative else .nan
  else if _ : field.val = 0 then
    .finite ⟨negative, fraction.val, -1074, by unfold Binary64.Canonical; omega⟩
  else
    .finite ⟨negative, 2 ^ 52 + fraction.val, (field.val : Int) - 1075,
      by unfold Binary64.Canonical; omega⟩

/-- The number with a given bit pattern: one sign bit, eleven exponent bits, 52 fraction bits. -/
def Binary64.ofBits (bits : UInt64) : Binary64 :=
  let n := bits.toNat
  .ofFields (decide (2 ^ 63 ≤ n)) (Fin.ofNat (2 ^ 11) (n / 2 ^ 52)) (Fin.ofNat (2 ^ 52) n)

/-- The bit pattern of a number, as a natural number. -/
def Binary64.bitPattern : Binary64 → Nat
  | .nan => 2047 * 2 ^ 52 + 2 ^ 51
  | .infinite negative => negative.toNat * 2 ^ 63 + 2047 * 2 ^ 52
  | .finite x =>
    let field := if x.significand < 2 ^ 52 then 0 else (x.exponent + 1075).toNat
    x.negative.toNat * 2 ^ 63 + field * 2 ^ 52 + x.significand % 2 ^ 52

def Binary64.toBits (x : Binary64) : UInt64 :=
  x.bitPattern.toUInt64

end FoldedStacks
