-- SUMMARY: The integer parts and the fractional part of a double, computed by operations on doubles, are exact.
import Mathlib
import FoldedStacks.Proofs.RoundingOrder

/-!
# Integer parts

Cutting a double to an integer and taking the difference are operations on doubles with a rounding
of their own. Neither of them ever rounds: an integer next to a double has at most 53 bits or is
that double, and the difference lies on the grid of the double below it.
-/

namespace FoldedStacks

/-! ## Numbers that rounding keeps -/

/-- A magnitude with at most 53 bits on a grid of the finite doubles. -/
def Binary64.Representable (q : ℚ) : Prop :=
  ∃ (m : Nat) (e : Int), m < 2 ^ 53 ∧ -1074 ≤ e ∧ e ≤ 971 ∧ q = (m : ℚ) * (2 : ℚ) ^ e

theorem Binary64.Representable.lt {q : ℚ} (h : Binary64.Representable q) :
    q < (2 : ℚ) ^ (1024 : ℤ) := by
  obtain ⟨m, e, hm, -, he, rfl⟩ := h
  exact lt_of_lt_of_le (Binary64.steps_lt hm e) (zpow_le_zpow_right₀ (by norm_num) (by omega))

section Kept

variable {n d m : Nat} {e : Int}

/-- The grid of a number is no coarser than a grid on which it has at most 53 bits. -/
theorem Binary64.gridExponent_le_of_steps (hn : 0 < n) (hd : 0 < d) (hm : m < 2 ^ 53)
    (he : -1074 ≤ e) (hv : (n : ℚ) / d = (m : ℚ) * (2 : ℚ) ^ e) :
    Binary64.gridExponent n d ≤ e := by
  by_cases hmin : Binary64.gridExponent n d = -1074
  · omega
  · have hupper : (n : ℚ) / d < (2 : ℚ) ^ (53 + e) := by
      rw [hv]
      exact Binary64.steps_lt hm e
    have hpow := lt_of_le_of_lt (Binary64.two_zpow_gridExponent_le hn hd hmin) hupper
    have hexponents := (zpow_lt_zpow_iff_right₀ (by norm_num : (1 : ℚ) < 2)).1 hpow
    omega

theorem Binary64.roundedValue_of_steps (hd : 0 < d) (hm : m < 2 ^ 53) (he : -1074 ≤ e)
    (hv : (n : ℚ) / d = (m : ℚ) * (2 : ℚ) ^ e) : Binary64.roundedValue n d = (n : ℚ) / d := by
  rcases Nat.eq_zero_or_pos n with rfl | hn
  · rw [Binary64.roundedValue_zero hd, Nat.cast_zero, zero_div]
  have hgrid := Binary64.gridExponent_le_of_steps hn hd hm he hv
  -- on its own, finer grid the number has a whole number of steps too
  have hsteps : (n : ℚ) / d = ((m * 2 ^ (e - Binary64.gridExponent n d).toNat : ℕ) : ℚ) *
      (2 : ℚ) ^ Binary64.gridExponent n d := by
    have hsplit : e = Binary64.gridExponent n d + ((e - Binary64.gridExponent n d).toNat : ℤ) := by
      omega
    rw [hv]
    conv_lhs => rw [hsplit, zpow_add_natCast two_ne_zero]
    push_cast
    ring
  have hrounded := Binary64.roundedOn_gridSignificand (n := n) hd
  refine le_antisymm ?_ ?_
  · rw [hsteps]
    exact hrounded.ge_of_ge _ hsteps.le
  · rw [hsteps]
    exact hrounded.le_of_le _ hsteps.ge

end Kept

/-- The sign with which a number is rounded is its own. -/
def Binary64.SignOf (negative : Bool) (q : ℚ) : Prop :=
  if negative then q ≤ 0 else 0 ≤ q

/-- A number with at most 53 bits is kept. -/
theorem Binary64.exists_nearestRat_eq {negative : Bool} {q : ℚ}
    (hsign : Binary64.SignOf negative q) (h : Binary64.Representable |q|) :
    ∃ y, Binary64.nearestRat negative q = .finite y ∧ y.toRat = q := by
  have hlt := h.lt
  obtain ⟨m, e, hm, he, -, hv⟩ := h
  have hkept : Binary64.roundedValue q.num.natAbs q.den = |q| := by
    rw [← natAbs_num_div_den] at hv ⊢
    exact Binary64.roundedValue_of_steps q.den_pos hm he hv
  obtain ⟨y, hy⟩ := Binary64.exists_nearest_of_roundedValue_lt negative
    (by rw [hkept]; exact hlt) q.den_pos
  have hmagnitude := (Binary64.magnitude_of_nearest q.den_pos hy).trans hkept
  refine ⟨y, hy, ?_⟩
  rw [Binary64.Finite.toRat, Binary64.negative_of_nearest hy, hmagnitude]
  cases negative with
  | false => exact abs_of_nonneg hsign
  | true =>
    rw [if_pos rfl, abs_of_nonpos hsign, neg_neg]

/-! ## Values on a grid -/

section Grid

variable (x : Binary64.Finite)

theorem Binary64.Finite.signOf : Binary64.SignOf x.negative x.toRat := by
  have hm := x.magnitude_nonneg
  cases hneg : x.negative with
  | false =>
    show 0 ≤ x.toRat
    rw [Binary64.Finite.toRat_of_not_negative hneg]
    exact hm
  | true =>
    show x.toRat ≤ 0
    simp only [Binary64.Finite.toRat, hneg, if_true]
    linarith

theorem Binary64.Finite.representable : Binary64.Representable |x.toRat| := by
  obtain ⟨hm, hmin, hmax, -⟩ := x.canonical
  rw [x.abs_toRat]
  exact ⟨x.significand, x.exponent, hm, hmin, hmax, Binary64.scaled_eq _ _⟩

/-- A finite double is an integer number of steps of its grid. -/
theorem Binary64.Finite.exists_steps :
    ∃ z : ℤ, z.natAbs < 2 ^ 53 ∧ x.toRat = (z : ℚ) * (2 : ℚ) ^ x.exponent := by
  have hlt := x.canonical.1
  have hvalue : x.magnitude = (x.significand : ℚ) * (2 : ℚ) ^ x.exponent := Binary64.scaled_eq _ _
  cases hneg : x.negative with
  | false =>
    refine ⟨x.significand, by rwa [Int.natAbs_natCast], ?_⟩
    rw [Binary64.Finite.toRat_of_not_negative hneg, hvalue]
    push_cast
    rfl
  | true =>
    refine ⟨-(x.significand : ℤ), by rwa [Int.natAbs_neg, Int.natAbs_natCast], ?_⟩
    simp only [Binary64.Finite.toRat, hneg, if_true, hvalue]
    push_cast
    ring

/-- Without digits after the point a double is an integer. -/
theorem Binary64.Finite.exists_intCast {x : Binary64.Finite} (he : 0 ≤ x.exponent) :
    ∃ z : ℤ, x.toRat = z := by
  obtain ⟨z, -, hz⟩ := x.exists_steps
  refine ⟨z * 2 ^ x.exponent.toNat, ?_⟩
  have hexponent : x.exponent = (x.exponent.toNat : ℤ) := by omega
  rw [hz, hexponent, zpow_natCast, Int.toNat_natCast]
  push_cast
  rfl

/-- With digits after the point a double is below `2^52`. -/
theorem Binary64.Finite.abs_toRat_lt {x : Binary64.Finite} (he : x.exponent < 0) :
    |x.toRat| < ((2 ^ 52 : ℕ) : ℚ) := by
  rw [x.abs_toRat, Binary64.Finite.magnitude, Binary64.scaled_eq]
  calc (x.significand : ℚ) * (2 : ℚ) ^ x.exponent
      < (2 : ℚ) ^ (53 + x.exponent) := Binary64.steps_lt x.canonical.1 _
    _ ≤ (2 : ℚ) ^ (52 : ℤ) := zpow_le_zpow_right₀ (by norm_num) (by omega)
    _ = ((2 ^ 52 : ℕ) : ℚ) := by norm_num

end Grid

/-! ## Integer parts -/

/-- The integer that `f` picks for a value, as a double of the same sign. -/
def Binary64.toInteger (f : ℚ → ℤ) : Binary64 → Binary64
  | .finite x => .nearestRat x.negative (f x.toRat)
  | x => x

/-- The greatest integer that is not above a double. -/
def Binary64.floor (x : Binary64) : Binary64 :=
  x.toInteger fun q => ⌊q⌋

/-- The least integer that is not below a double. -/
def Binary64.ceil (x : Binary64) : Binary64 :=
  x.toInteger fun q => ⌈q⌉

/-- The integer part of a double. -/
def Binary64.trunc (x : Binary64) : Binary64 :=
  x.toInteger Binary64.truncated

theorem Binary64.truncated_of_nonneg {q : ℚ} (hq : 0 ≤ q) : Binary64.truncated q = ⌊q⌋ := by
  rw [Binary64.truncated, Int.tdiv_eq_ediv_of_nonneg (Rat.num_nonneg.2 hq), Rat.floor_def']

theorem Binary64.truncated_of_nonpos {q : ℚ} (hq : q ≤ 0) : Binary64.truncated q = ⌈q⌉ := by
  have hneg : 0 ≤ -q := neg_nonneg.2 hq
  have hfloor := Binary64.truncated_of_nonneg hneg
  rw [Binary64.truncated, Rat.num_neg_eq_neg_num, Rat.den_neg_eq_den, Int.neg_tdiv,
    Int.floor_neg] at hfloor
  exact neg_injective hfloor

theorem Binary64.truncated_eq_or (q : ℚ) :
    Binary64.truncated q = ⌊q⌋ ∨ Binary64.truncated q = ⌈q⌉ :=
  (le_total 0 q).imp Binary64.truncated_of_nonneg Binary64.truncated_of_nonpos

section IntegerParts

variable {f : ℚ → ℤ} {x : Binary64.Finite}

/-- An integer next to a double is a double. -/
theorem Binary64.Finite.representable_neighbour {k : ℤ} (hk : k = ⌊x.toRat⌋ ∨ k = ⌈x.toRat⌉) :
    Binary64.Representable |(k : ℚ)| := by
  rcases le_or_gt 0 x.exponent with he | he
  case inl =>
    -- the double is an integer itself
    obtain ⟨z, hz⟩ := Binary64.Finite.exists_intCast he
    have hkz : k = z := by
      rw [hz, Int.floor_intCast, Int.ceil_intCast, or_self] at hk
      exact hk
    rw [hkz, ← hz]
    exact x.representable
  case inr =>
    have hlt := abs_lt.1 (Binary64.Finite.abs_toRat_lt he)
    have hfloor : -(2 ^ 52 : ℤ) ≤ ⌊x.toRat⌋ := Int.le_floor.2 (by exact_mod_cast hlt.1.le)
    have hceil : ⌈x.toRat⌉ ≤ (2 ^ 52 : ℤ) := Int.ceil_le.2 (by exact_mod_cast hlt.2.le)
    have hle := Int.floor_le_ceil x.toRat
    have hnat : k.natAbs ≤ 2 ^ 52 := by omega
    have habs : |(k : ℚ)| = (k.natAbs : ℚ) := by rw [Nat.cast_natAbs, Int.cast_abs]
    exact ⟨k.natAbs, 0, by omega, by norm_num, by norm_num, by rw [habs, zpow_zero, mul_one]⟩

/-- Picking an integer next to a double is exact. -/
theorem Binary64.exists_toInteger (x : Binary64.Finite)
    (hf : f x.toRat = ⌊x.toRat⌋ ∨ f x.toRat = ⌈x.toRat⌉) :
    ∃ y, Binary64.toInteger f (.finite x) = .finite y ∧ y.toRat = f x.toRat := by
  refine Binary64.exists_nearestRat_eq ?_ (Binary64.Finite.representable_neighbour hf)
  have hfloor := Int.floor_le_ceil x.toRat
  have hsign := x.signOf
  cases hneg : x.negative with
  | false =>
    rw [hneg] at hsign
    have : (0 : ℤ) ≤ ⌊x.toRat⌋ := Int.floor_nonneg.2 hsign
    show (0 : ℚ) ≤ f x.toRat
    exact_mod_cast (by omega : (0 : ℤ) ≤ f x.toRat)
  | true =>
    rw [hneg] at hsign
    have : ⌈x.toRat⌉ ≤ (0 : ℤ) := Int.ceil_le.2 (by exact_mod_cast hsign)
    show (f x.toRat : ℚ) ≤ 0
    exact_mod_cast (by omega : f x.toRat ≤ (0 : ℤ))

end IntegerParts

/-! ## The fractional part -/

def Binary64.neg : Binary64 → Binary64
  | .nan => .nan
  | .infinite negative => .infinite !negative
  | .finite x => .finite { x with negative := !x.negative }

instance : Neg Binary64 := ⟨Binary64.neg⟩

/-- What is left of a double without its integer part. -/
def Binary64.fract (x : Binary64) : Binary64 :=
  x + -x.trunc

theorem Binary64.Finite.toRat_neg (x : Binary64.Finite) :
    Binary64.Finite.toRat { x with negative := !x.negative } = -x.toRat := by
  simp only [Binary64.Finite.toRat, Binary64.Finite.magnitude]
  cases x.negative <;> simp

/-- A number without its integer part is no larger than before. -/
theorem Binary64.abs_sub_truncated_le (q : ℚ) : |q - Binary64.truncated q| ≤ |q| := by
  rcases le_total 0 q with hq | hq
  · have hfloor : (0 : ℚ) ≤ ⌊q⌋ := by exact_mod_cast Int.floor_nonneg.2 hq
    have hle := Int.floor_le q
    rw [Binary64.truncated_of_nonneg hq, abs_of_nonneg (by linarith), abs_of_nonneg hq]
    linarith
  · have hceil : (⌈q⌉ : ℚ) ≤ 0 := by exact_mod_cast Int.ceil_le.2 (by exact_mod_cast hq)
    have hle := Int.le_ceil q
    rw [Binary64.truncated_of_nonpos hq, abs_of_nonpos (by linarith), abs_of_nonpos hq]
    linarith

/-- The fractional part of a double lies on its grid, below it. -/
theorem Binary64.Finite.representable_fract (x : Binary64.Finite) :
    Binary64.Representable |x.toRat - Binary64.truncated x.toRat| := by
  rcases le_or_gt 0 x.exponent with he | he
  case inl =>
    obtain ⟨z, hz⟩ := Binary64.Finite.exists_intCast he
    refine ⟨0, 0, by norm_num, by norm_num, by norm_num, ?_⟩
    have hcut : Binary64.truncated x.toRat = z := by
      rcases Binary64.truncated_eq_or x.toRat with h | h
      · rw [h, hz, Int.floor_intCast]
      · rw [h, hz, Int.ceil_intCast]
    rw [hcut, hz]
    simp
  case inr =>
    obtain ⟨z, hzlt, hz⟩ := x.exists_steps
    -- the integer part is a whole number of steps as well
    have hsteps : x.toRat - Binary64.truncated x.toRat =
        ((z - Binary64.truncated x.toRat * 2 ^ (-x.exponent).toNat : ℤ) : ℚ) *
          (2 : ℚ) ^ x.exponent := by
      have hone : ((2 : ℚ) ^ (-x.exponent).toNat) * (2 : ℚ) ^ x.exponent = 1 := by
        have hexponent : x.exponent = -((-x.exponent).toNat : ℤ) := by omega
        conv_lhs => rw [hexponent, neg_neg, Int.toNat_natCast, zpow_neg, zpow_natCast]
        exact mul_inv_cancel₀ (by positivity)
      push_cast
      rw [sub_mul, ← hz, mul_assoc, hone, mul_one]
    have hstep : (0 : ℚ) < (2 : ℚ) ^ x.exponent := zpow_pos two_pos _
    have hvalue := congrArg abs hsteps
    rw [abs_mul, abs_of_pos hstep, ← Int.cast_abs, ← Nat.cast_natAbs] at hvalue
    refine ⟨_, x.exponent, ?_, x.canonical.2.1, x.canonical.2.2.1, hvalue⟩
    have hbound : ((z - Binary64.truncated x.toRat * 2 ^ (-x.exponent).toNat).natAbs : ℚ) *
        (2 : ℚ) ^ x.exponent ≤ (z.natAbs : ℚ) * (2 : ℚ) ^ x.exponent := by
      rw [← hvalue]
      refine (Binary64.abs_sub_truncated_le x.toRat).trans (le_of_eq ?_)
      rw [hz, abs_mul, abs_of_pos hstep, ← Int.cast_abs, ← Nat.cast_natAbs]
    have hsignificands := le_of_mul_le_mul_right hbound hstep
    have hnat : (z - Binary64.truncated x.toRat * 2 ^ (-x.exponent).toNat).natAbs ≤ z.natAbs := by
      exact_mod_cast hsignificands
    exact lt_of_le_of_lt hnat hzlt

/-- The fractional part is exact. -/
theorem Binary64.exists_fract (x : Binary64.Finite) :
    ∃ y, Binary64.fract (.finite x) = .finite y ∧
      y.toRat = x.toRat - Binary64.truncated x.toRat := by
  obtain ⟨t, ht, htval⟩ := Binary64.exists_toInteger x (Binary64.truncated_eq_or x.toRat)
  have hsum : Binary64.fract (.finite x) =
      Binary64.add (.finite x) (.finite { t with negative := !t.negative }) := by
    show Binary64.add (.finite x) (Binary64.neg (Binary64.trunc (.finite x))) = _
    rw [Binary64.trunc, ht]
    rfl
  rw [hsum, Binary64.add, Binary64.Finite.toRat_neg, htval, ← sub_eq_add_neg]
  refine Binary64.exists_nearestRat_eq ?_ x.representable_fract
  generalize x.toRat - Binary64.truncated x.toRat = q
  -- the sign of a difference is that of its value, and any sign goes with zero
  unfold Binary64.SignOf
  by_cases hzero : q.num = 0
  · rw [Rat.num_eq_zero.1 hzero]
    simp
  · rw [if_neg hzero]
    by_cases hneg : q.num < 0
    · simp only [hneg, decide_true, if_true]
      exact (Rat.num_neg.1 hneg).le
    · simp only [hneg, decide_false]
      exact Rat.num_nonneg.1 (not_lt.1 hneg)

end FoldedStacks
