-- SUMMARY: Rounding to the nearest double: the grid of a number, the error of half a grid step, and the numbers on the grid that rounding does not pass.
import Mathlib
import FoldedStacks.Binary64.Rounding

/-!
# Rounding

A positive rational number is rounded on the grid of the multiples of `2^e`, where `e` is its grid
exponent. The result is at most half a step away and never passes a number of the grid. Integers up
to `2^53` are on the grid of all smaller numbers, so rounding does not pass them either.
-/

namespace FoldedStacks

/-! ## Powers -/

/-- A power with an integer exponent is a power or the inverse of one. -/
theorem zpow_eq_div_pow {b : ℚ} (hb : b ≠ 0) (e : Int) : b ^ e = b ^ e.toNat / b ^ (-e).toNat := by
  have he : e = (e.toNat : ℤ) - ((-e).toNat : ℤ) := by omega
  calc b ^ e = b ^ ((e.toNat : ℤ) - ((-e).toNat : ℤ)) := congrArg (b ^ ·) he
    _ = b ^ e.toNat / b ^ (-e).toNat := by rw [zpow_sub₀ hb, zpow_natCast, zpow_natCast]

theorem zpow_add_natCast {b : ℚ} (hb : b ≠ 0) (e : Int) (k : Nat) : b ^ (e + k) = b ^ k * b ^ e := by
  rw [zpow_add₀ hb, zpow_natCast, mul_comm]

theorem Binary64.two_zpow_eq_div (e : Int) :
    (2 : ℚ) ^ e = ((2 ^ e.toNat : ℕ) : ℚ) / ((2 ^ (-e).toNat : ℕ) : ℚ) := by
  push_cast
  exact zpow_eq_div_pow two_ne_zero e

theorem Binary64.scaled_eq (m : Nat) (e : Int) : Binary64.scaled m e = (m : ℚ) * (2 : ℚ) ^ e := by
  rw [Binary64.scaled, Rat.mkRat_eq_div, Binary64.two_zpow_eq_div]
  push_cast
  ring

/-- Less than `2^53` steps of `2^e` are less than `2^(53 + e)`. -/
theorem Binary64.steps_lt {m : Nat} (hm : m < 2 ^ 53) (e : Int) :
    (m : ℚ) * (2 : ℚ) ^ e < (2 : ℚ) ^ (53 + e) := by
  have hcast : (m : ℚ) < (2 : ℚ) ^ (53 : ℤ) := by exact_mod_cast hm
  rw [zpow_add₀ two_ne_zero]
  exact mul_lt_mul_of_pos_right hcast (zpow_pos two_pos e)

/-- Dividing by a power of two, with natural numbers above and below. -/
theorem Binary64.div_two_zpow (n d : Nat) (e : Int) :
    (n : ℚ) / d / (2 : ℚ) ^ e = ((n * 2 ^ (-e).toNat : ℕ) : ℚ) / ((d * 2 ^ e.toNat : ℕ) : ℚ) := by
  rw [Binary64.two_zpow_eq_div]
  push_cast
  field_simp

/-! ## The nearest integer -/

section NearestEven

variable {n d : Nat}

private theorem Binary64.nearestEven_cases (n d : Nat) :
    (Binary64.nearestEven n d = n / d ∧ 2 * (n % d) ≤ d) ∨
      (Binary64.nearestEven n d = n / d + 1 ∧ d ≤ 2 * (n % d)) := by
  unfold Binary64.nearestEven
  dsimp only
  split_ifs <;> omega

theorem Binary64.le_nearestEven {k : Nat} (hd : 0 < d) (h : k * d ≤ n) :
    k ≤ Binary64.nearestEven n d := by
  have hk : k ≤ n / d := (Nat.le_div_iff_mul_le hd).2 h
  rcases Binary64.nearestEven_cases n d with ⟨hm, -⟩ | ⟨hm, -⟩ <;> omega

theorem Binary64.nearestEven_le {k : Nat} (hd : 0 < d) (h : n ≤ k * d) :
    Binary64.nearestEven n d ≤ k := by
  have hdiv := Nat.div_add_mod n d
  rcases Binary64.nearestEven_cases n d with ⟨hm, -⟩ | ⟨hm, hr⟩
  · rw [hm]
    exact Nat.div_le_of_le_mul (by rwa [Nat.mul_comm])
  · -- rounding up, so `n` is no multiple of `d` and lies strictly below `k * d` if it is above
    -- `(n / d) * d`
    rw [hm]
    by_contra hlt
    have hk : k ≤ n / d := by omega
    have hmul : k * d ≤ d * (n / d) := by
      rw [Nat.mul_comm d]
      exact Nat.mul_le_mul_right d hk
    omega

theorem Binary64.nearestEven_error (hd : 0 < d) :
    |(Binary64.nearestEven n d : ℚ) - (n : ℚ) / d| ≤ 1 / 2 := by
  have hd' : (0 : ℚ) < d := by exact_mod_cast hd
  have hdiv : (n : ℚ) = d * (n / d : ℕ) + (n % d : ℕ) := by exact_mod_cast (Nat.div_add_mod n d).symm
  have hq : (n : ℚ) / d = (n / d : ℕ) + (n % d : ℕ) / (d : ℚ) := by
    rw [hdiv]
    field_simp
  have hlt : ((n % d : ℕ) : ℚ) / d ≤ 1 := by
    rw [div_le_one hd']
    exact_mod_cast (Nat.mod_lt n hd).le
  have hnonneg : (0 : ℚ) ≤ ((n % d : ℕ) : ℚ) / d := by positivity
  rcases Binary64.nearestEven_cases n d with ⟨hm, hr⟩ | ⟨hm, hr⟩
  · have hhalf : ((n % d : ℕ) : ℚ) / d ≤ 1 / 2 := by
      rw [div_le_div_iff₀ hd' (by norm_num)]
      have : ((2 * (n % d) : ℕ) : ℚ) ≤ d := by exact_mod_cast hr
      push_cast at this
      linarith
    rw [hm, hq, abs_le]
    constructor <;> linarith
  · have hhalf : 1 / 2 ≤ ((n % d : ℕ) : ℚ) / d := by
      rw [div_le_div_iff₀ (by norm_num) hd']
      have : (d : ℚ) ≤ ((2 * (n % d) : ℕ) : ℚ) := by exact_mod_cast hr
      push_cast at this
      linarith
    rw [hm, hq, abs_le]
    push_cast
    constructor <;> linarith

end NearestEven

/-! ## The grid of a number -/

section Grid

variable {n d : Nat}

private theorem Binary64.two_zpow_le_div_iff (hd : 0 < d) (k : Int) :
    (2 : ℚ) ^ k ≤ (n : ℚ) / d ↔ d * 2 ^ k.toNat ≤ n * 2 ^ (-k).toNat := by
  have hd' : (0 : ℚ) < d := by exact_mod_cast hd
  have hpow : (0 : ℚ) < ((2 ^ (-k).toNat : ℕ) : ℚ) := by positivity
  rw [Binary64.two_zpow_eq_div, div_le_div_iff₀ hpow hd', Nat.mul_comm d]
  exact_mod_cast Iff.rfl

private theorem Binary64.two_zpow_log2_le (hn : 0 < n) : (2 : ℚ) ^ (n.log2 : ℤ) ≤ n := by
  rw [zpow_natCast]
  exact_mod_cast Nat.log2_self_le hn.ne'

private theorem Binary64.lt_two_zpow_log2 (n : Nat) : (n : ℚ) < (2 : ℚ) ^ ((n.log2 : ℤ) + 1) := by
  have hlt := Nat.lt_log2_self (n := n)
  rw [← Nat.cast_succ, zpow_natCast]
  exact_mod_cast hlt

theorem Binary64.floorLog2_spec (hn : 0 < n) (hd : 0 < d) :
    (2 : ℚ) ^ Binary64.floorLog2 n d ≤ (n : ℚ) / d ∧
      (n : ℚ) / d < (2 : ℚ) ^ (Binary64.floorLog2 n d + 1) := by
  have hd' : (0 : ℚ) < d := by exact_mod_cast hd
  have two_ne : (2 : ℚ) ≠ 0 := by norm_num
  -- the exponents of `n` and `d` differ from the exact logarithms by less than one each
  have hupper : (n : ℚ) / d < (2 : ℚ) ^ ((n.log2 : ℤ) - d.log2 + 1) := by
    have hsplit : (2 : ℚ) ^ ((n.log2 : ℤ) + 1) =
        (2 : ℚ) ^ ((n.log2 : ℤ) - d.log2 + 1) * (2 : ℚ) ^ (d.log2 : ℤ) := by
      rw [← zpow_add₀ two_ne]; congr 1; ring
    rw [div_lt_iff₀ hd']
    calc (n : ℚ) < (2 : ℚ) ^ ((n.log2 : ℤ) - d.log2 + 1) * (2 : ℚ) ^ (d.log2 : ℤ) := by
          rw [← hsplit]; exact Binary64.lt_two_zpow_log2 n
      _ ≤ (2 : ℚ) ^ ((n.log2 : ℤ) - d.log2 + 1) * d :=
          mul_le_mul_of_nonneg_left (Binary64.two_zpow_log2_le hd) (zpow_pos two_pos _).le
  have hlower : (2 : ℚ) ^ ((n.log2 : ℤ) - d.log2 - 1) ≤ (n : ℚ) / d := by
    have hsplit : (2 : ℚ) ^ (n.log2 : ℤ) =
        (2 : ℚ) ^ ((n.log2 : ℤ) - d.log2 - 1) * (2 : ℚ) ^ ((d.log2 : ℤ) + 1) := by
      rw [← zpow_add₀ two_ne]; congr 1; ring
    rw [le_div_iff₀ hd']
    calc (2 : ℚ) ^ ((n.log2 : ℤ) - d.log2 - 1) * d
        ≤ (2 : ℚ) ^ ((n.log2 : ℤ) - d.log2 - 1) * (2 : ℚ) ^ ((d.log2 : ℤ) + 1) :=
          mul_le_mul_of_nonneg_left (Binary64.lt_two_zpow_log2 d).le (zpow_pos two_pos _).le
      _ ≤ n := by rw [← hsplit]; exact Binary64.two_zpow_log2_le hn
  unfold Binary64.floorLog2
  dsimp only
  split
  next hle => exact ⟨(Binary64.two_zpow_le_div_iff hd _).2 hle, hupper⟩
  next hnot =>
    refine ⟨hlower, ?_⟩
    rw [sub_add_cancel]
    exact lt_of_not_ge fun hge => hnot ((Binary64.two_zpow_le_div_iff hd _).1 hge)

theorem Binary64.neg_le_gridExponent (n d : Nat) : -1074 ≤ Binary64.gridExponent n d :=
  le_max_right _ _

/-- A number is less than `2^53` steps of its grid. -/
theorem Binary64.lt_two_zpow_gridExponent (hn : 0 < n) (hd : 0 < d) :
    (n : ℚ) / d < (2 : ℚ) ^ (Binary64.gridExponent n d + 53) := by
  refine lt_of_lt_of_le (Binary64.floorLog2_spec hn hd).2 (zpow_le_zpow_right₀ (by norm_num) ?_)
  have : Binary64.floorLog2 n d - 52 ≤ Binary64.gridExponent n d := le_max_left _ _
  omega

/-- Unless the grid is the finest one, a number is at least `2^52` steps of its grid. -/
theorem Binary64.two_zpow_gridExponent_le (hn : 0 < n) (hd : 0 < d)
    (h : Binary64.gridExponent n d ≠ -1074) :
    (2 : ℚ) ^ (Binary64.gridExponent n d + 52) ≤ (n : ℚ) / d := by
  have he : Binary64.gridExponent n d = Binary64.floorLog2 n d - 52 := by
    unfold Binary64.gridExponent at h ⊢
    omega
  rw [he, sub_add_cancel]
  exact (Binary64.floorLog2_spec hn hd).1

end Grid

/-! ## The nearest double -/

/-- `x` is `v` rounded on the grid of the multiples of `2^e`. -/
structure Binary64.RoundedOn (e : Int) (v x : ℚ) : Prop where
  error : |x - v| ≤ (2 : ℚ) ^ e / 2
  le_of_le : ∀ k : ℕ, (k : ℚ) * (2 : ℚ) ^ e ≤ v → (k : ℚ) * (2 : ℚ) ^ e ≤ x
  ge_of_ge : ∀ k : ℕ, v ≤ (k : ℚ) * (2 : ℚ) ^ e → x ≤ (k : ℚ) * (2 : ℚ) ^ e

/-- The significand that `nearest` rounds to, before it is made canonical. -/
def Binary64.gridSignificand (n d : Nat) : Nat :=
  Binary64.nearestEven (n * 2 ^ (-Binary64.gridExponent n d).toNat)
    (d * 2 ^ (Binary64.gridExponent n d).toNat)

section Nearest

variable {n d : Nat}

theorem Binary64.le_gridSignificand_iff_mul (hd : 0 < d) (k : Nat) :
    k * (d * 2 ^ (Binary64.gridExponent n d).toNat) ≤ n * 2 ^ (-Binary64.gridExponent n d).toNat ↔
      (k : ℚ) * (2 : ℚ) ^ Binary64.gridExponent n d ≤ (n : ℚ) / d := by
  have hD : 0 < d * 2 ^ (Binary64.gridExponent n d).toNat := by positivity
  have hD' : (0 : ℚ) < ((d * 2 ^ (Binary64.gridExponent n d).toNat : ℕ) : ℚ) := by exact_mod_cast hD
  rw [← le_div_iff₀ (zpow_pos two_pos _), Binary64.div_two_zpow, le_div_iff₀ hD']
  exact_mod_cast Iff.rfl

theorem Binary64.gridSignificand_le_iff_mul (hd : 0 < d) (k : Nat) :
    n * 2 ^ (-Binary64.gridExponent n d).toNat ≤ k * (d * 2 ^ (Binary64.gridExponent n d).toNat) ↔
      (n : ℚ) / d ≤ (k : ℚ) * (2 : ℚ) ^ Binary64.gridExponent n d := by
  have hD : 0 < d * 2 ^ (Binary64.gridExponent n d).toNat := by positivity
  have hD' : (0 : ℚ) < ((d * 2 ^ (Binary64.gridExponent n d).toNat : ℕ) : ℚ) := by exact_mod_cast hD
  rw [← div_le_iff₀ (zpow_pos two_pos _), Binary64.div_two_zpow, div_le_iff₀ hD']
  exact_mod_cast Iff.rfl

theorem Binary64.le_gridSignificand {k : Nat} (hd : 0 < d)
    (h : (k : ℚ) * (2 : ℚ) ^ Binary64.gridExponent n d ≤ (n : ℚ) / d) :
    k ≤ Binary64.gridSignificand n d :=
  Binary64.le_nearestEven (by positivity) ((Binary64.le_gridSignificand_iff_mul hd k).2 h)

theorem Binary64.gridSignificand_le {k : Nat} (hd : 0 < d)
    (h : (n : ℚ) / d ≤ (k : ℚ) * (2 : ℚ) ^ Binary64.gridExponent n d) :
    Binary64.gridSignificand n d ≤ k :=
  Binary64.nearestEven_le (by positivity) ((Binary64.gridSignificand_le_iff_mul hd k).2 h)

theorem Binary64.roundedOn_gridSignificand (hd : 0 < d) :
    Binary64.RoundedOn (Binary64.gridExponent n d) ((n : ℚ) / d)
      ((Binary64.gridSignificand n d : ℚ) * (2 : ℚ) ^ Binary64.gridExponent n d) := by
  have hstep : (0 : ℚ) < (2 : ℚ) ^ Binary64.gridExponent n d := zpow_pos two_pos _
  constructor
  case error =>
    have herror := Binary64.nearestEven_error (n := n * 2 ^ (-Binary64.gridExponent n d).toNat)
      (d := d * 2 ^ (Binary64.gridExponent n d).toNat) (by positivity)
    rw [← Binary64.div_two_zpow] at herror
    have hscaled : (Binary64.gridSignificand n d : ℚ) * (2 : ℚ) ^ Binary64.gridExponent n d -
        (n : ℚ) / d = ((Binary64.gridSignificand n d : ℚ) -
          (n : ℚ) / d / (2 : ℚ) ^ Binary64.gridExponent n d) *
            (2 : ℚ) ^ Binary64.gridExponent n d := by
      rw [sub_mul, div_mul_cancel₀ _ hstep.ne']
    rw [hscaled, abs_mul, abs_of_pos hstep]
    calc _ ≤ 1 / 2 * (2 : ℚ) ^ Binary64.gridExponent n d :=
          mul_le_mul_of_nonneg_right herror hstep.le
      _ = _ := by ring
  case le_of_le =>
    intro k hk
    have hle : (k : ℚ) ≤ Binary64.gridSignificand n d := by
      exact_mod_cast Binary64.le_gridSignificand hd hk
    exact mul_le_mul_of_nonneg_right hle hstep.le
  case ge_of_ge =>
    intro k hk
    have hle : (Binary64.gridSignificand n d : ℚ) ≤ k := by
      exact_mod_cast Binary64.gridSignificand_le hd hk
    exact mul_le_mul_of_nonneg_right hle hstep.le

theorem Binary64.gridSignificand_le_two_pow (hn : 0 < n) (hd : 0 < d) :
    Binary64.gridSignificand n d ≤ 2 ^ 53 := by
  refine Binary64.gridSignificand_le hd ?_
  have hlt := Binary64.lt_two_zpow_gridExponent hn hd
  rw [zpow_add₀ (by norm_num : (2 : ℚ) ≠ 0)] at hlt
  push_cast
  rw [mul_comm]
  exact_mod_cast hlt.le

theorem Binary64.two_pow_le_gridSignificand (hn : 0 < n) (hd : 0 < d)
    (h : Binary64.gridExponent n d ≠ -1074) : 2 ^ 52 ≤ Binary64.gridSignificand n d := by
  refine Binary64.le_gridSignificand hd ?_
  have hle := Binary64.two_zpow_gridExponent_le hn hd h
  rw [zpow_add₀ (by norm_num : (2 : ℚ) ≠ 0)] at hle
  push_cast
  rw [mul_comm]
  exact_mod_cast hle

theorem Binary64.ofParts_of_canonical {m : Nat} {e : Int} (negative : Bool)
    (h : Binary64.Canonical m e) : Binary64.ofParts negative m e = .finite ⟨negative, m, e, h⟩ := by
  rw [Binary64.ofParts, dif_pos h]

theorem Binary64.gridExponent_le (hn : 0 < n) (hd : 0 < d)
    (hlt : (n : ℚ) / d < (2 : ℚ) ^ (1023 : ℤ)) : Binary64.gridExponent n d ≤ 970 := by
  by_cases he : Binary64.gridExponent n d = -1074
  · omega
  · have hpow := lt_of_le_of_lt (Binary64.two_zpow_gridExponent_le hn hd he) hlt
    have hexponents := (zpow_lt_zpow_iff_right₀ (by norm_num : (1 : ℚ) < 2)).1 hpow
    omega

theorem Binary64.nearest_eq (negative : Bool) (hn : 0 < n) : Binary64.nearest negative n d =
    if Binary64.gridSignificand n d = 2 ^ 53 then
      Binary64.ofParts negative (2 ^ 52) (Binary64.gridExponent n d + 1)
    else Binary64.ofParts negative (Binary64.gridSignificand n d) (Binary64.gridExponent n d) := by
  rw [Binary64.nearest, if_neg hn.ne']
  rfl

/-- Below `2^1023` the nearest double is finite: the number rounded on its grid. -/
theorem Binary64.exists_nearest (negative : Bool) (hn : 0 < n) (hd : 0 < d)
    (hlt : (n : ℚ) / d < (2 : ℚ) ^ (1023 : ℤ)) :
    ∃ x, Binary64.nearest negative n d = .finite x ∧ x.negative = negative ∧
      Binary64.RoundedOn (Binary64.gridExponent n d) ((n : ℚ) / d) x.magnitude := by
  have hmin := Binary64.neg_le_gridExponent n d
  have hmax := Binary64.gridExponent_le hn hd hlt
  have hm := Binary64.gridSignificand_le_two_pow hn hd
  have hrounded := Binary64.roundedOn_gridSignificand (n := n) hd
  rw [Binary64.nearest_eq negative hn]
  by_cases hcarry : Binary64.gridSignificand n d = 2 ^ 53
  case pos =>
    -- rounding up has reached the next power of two, which has a coarser grid
    have hcanonical : Binary64.Canonical (2 ^ 52) (Binary64.gridExponent n d + 1) :=
      ⟨by norm_num, by omega, by omega, .inl le_rfl⟩
    refine ⟨_, by rw [if_pos hcarry, Binary64.ofParts_of_canonical negative hcanonical],
      rfl, ?_⟩
    rw [hcarry] at hrounded
    have hvalue : Binary64.scaled (2 ^ 52) (Binary64.gridExponent n d + 1) =
        ((2 ^ 53 : ℕ) : ℚ) * (2 : ℚ) ^ Binary64.gridExponent n d := by
      rw [Binary64.scaled_eq, zpow_add₀ (by norm_num : (2 : ℚ) ≠ 0)]
      push_cast
      ring
    rw [← hvalue] at hrounded
    exact hrounded
  case neg =>
    have hcanonical : Binary64.Canonical (Binary64.gridSignificand n d)
        (Binary64.gridExponent n d) := by
      refine ⟨by omega, hmin, by omega, ?_⟩
      by_cases he : Binary64.gridExponent n d = -1074
      · exact .inr he
      · exact .inl (Binary64.two_pow_le_gridSignificand hn hd he)
    refine ⟨_, by rw [if_neg hcarry, Binary64.ofParts_of_canonical negative hcanonical],
      rfl, ?_⟩
    rw [← Binary64.scaled_eq] at hrounded
    exact hrounded

end Nearest

end FoldedStacks
