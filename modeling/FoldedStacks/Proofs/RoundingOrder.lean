-- SUMMARY: Rounding keeps the order of numbers: what is at most as large as a number with a finite nearest double has one too, and so have products and quotients.
import Mathlib
import FoldedStacks.Binary64.PowerOfTen
import FoldedStacks.Proofs.DoubleArithmetic
import FoldedStacks.Proofs.ExactRounding

/-!
# Order of rounded values

Of two numbers the smaller one is rounded to the smaller double. So a computation on doubles does not
leave the finite ones as long as a computation on larger numbers does not.
-/

namespace FoldedStacks

/-! ## The nearest integer -/

section NearestEven

variable {n d n' d' : Nat}

private theorem Binary64.nearestEven_le_nearestEven_of_le (d : Nat) (h : n ≤ n') :
    Binary64.nearestEven n d ≤ Binary64.nearestEven n' d := by
  have hquotient : n / d ≤ n' / d := Nat.div_le_div_right h
  have hn := Nat.div_add_mod n d
  have hn' := Nat.div_add_mod n' d
  rcases hquotient.lt_or_eq with hlt | heq
  · -- one is rounded up to the next integer at most, the other one down at most
    have hup : Binary64.nearestEven n d ≤ n / d + 1 := by
      unfold Binary64.nearestEven
      dsimp only
      split_ifs <;> omega
    have hdown : n' / d ≤ Binary64.nearestEven n' d := by
      unfold Binary64.nearestEven
      dsimp only
      split_ifs <;> omega
    omega
  · rw [heq] at hn
    have hremainder : n % d ≤ n' % d := by omega
    unfold Binary64.nearestEven
    rw [heq]
    dsimp only
    split_ifs <;> omega

theorem Binary64.nearestEven_le_nearestEven (hd : 0 < d) (hd' : 0 < d') (h : n * d' ≤ n' * d) :
    Binary64.nearestEven n d ≤ Binary64.nearestEven n' d' := by
  rw [← Binary64.nearestEven_mul_right n d hd', ← Binary64.nearestEven_mul_right n' d' hd,
    Nat.mul_comm d' d]
  exact Binary64.nearestEven_le_nearestEven_of_le _ h

end NearestEven

/-! ## The rounded value -/

/-- What `n / d` is rounded to, also past the largest double. -/
def Binary64.roundedValue (n d : Nat) : ℚ :=
  (Binary64.gridSignificand n d : ℚ) * (2 : ℚ) ^ Binary64.gridExponent n d

section RoundedValue

variable {n d n' d' : Nat}

theorem Binary64.roundedValue_nonneg (n d : Nat) : 0 ≤ Binary64.roundedValue n d :=
  mul_nonneg (Nat.cast_nonneg _) (zpow_pos two_pos _).le

theorem Binary64.roundedValue_zero (hd : 0 < d) : Binary64.roundedValue 0 d = 0 := by
  have hzero : Binary64.gridSignificand 0 d = 0 :=
    Nat.le_zero.1 (Binary64.gridSignificand_le hd (by simp))
  rw [Binary64.roundedValue, hzero, Nat.cast_zero, zero_mul]

theorem Binary64.gridExponent_mono (hn : 0 < n) (hd : 0 < d) (hd' : 0 < d')
    (h : (n : ℚ) / d ≤ (n' : ℚ) / d') :
    0 < n' ∧ Binary64.gridExponent n d ≤ Binary64.gridExponent n' d' := by
  have hpos : (0 : ℚ) < (n : ℚ) / d := div_pos (by exact_mod_cast hn) (by exact_mod_cast hd)
  have hn' : 0 < n' := by
    refine Nat.pos_of_ne_zero ?_
    rintro rfl
    rw [Nat.cast_zero, zero_div] at h
    exact absurd h (not_le.2 hpos)
  have hlog := Int.log_mono_right (b := 2) hpos h
  rw [Binary64.gridExponent, Binary64.gridExponent, Binary64.floorLog2_eq_log hn hd,
    Binary64.floorLog2_eq_log hn' hd']
  exact ⟨hn', max_le_max_right _ (Int.sub_le_sub_right hlog 52)⟩

/-- On the finer grid at most `2^53` steps are made, on the coarser one at least `2^52`. -/
theorem Binary64.roundedValue_le_of_grid_lt (hn : 0 < n) (hd : 0 < d) (hn' : 0 < n') (hd' : 0 < d')
    (hlt : Binary64.gridExponent n d < Binary64.gridExponent n' d') :
    Binary64.roundedValue n d ≤ Binary64.roundedValue n' d' := by
  have hmin := Binary64.neg_le_gridExponent n d
  have hupper : (Binary64.gridSignificand n d : ℚ) ≤ 2 ^ 53 := by
    exact_mod_cast Binary64.gridSignificand_le_two_pow hn hd
  have hlower : (2 : ℚ) ^ 52 ≤ Binary64.gridSignificand n' d' := by
    exact_mod_cast Binary64.two_pow_le_gridSignificand hn' hd' (hmin.trans_lt hlt).ne'
  have hsteps : (2 : ℚ) * (2 : ℚ) ^ Binary64.gridExponent n d ≤
      (2 : ℚ) ^ Binary64.gridExponent n' d' := by
    rw [mul_comm, ← zpow_add_one₀ two_ne_zero]
    exact zpow_le_zpow_right₀ (by norm_num) hlt
  calc (Binary64.gridSignificand n d : ℚ) * (2 : ℚ) ^ Binary64.gridExponent n d
      ≤ 2 ^ 53 * (2 : ℚ) ^ Binary64.gridExponent n d :=
        mul_le_mul_of_nonneg_right hupper (zpow_pos two_pos _).le
    _ = 2 ^ 52 * (2 * (2 : ℚ) ^ Binary64.gridExponent n d) := by ring
    _ ≤ 2 ^ 52 * (2 : ℚ) ^ Binary64.gridExponent n' d' :=
        mul_le_mul_of_nonneg_left hsteps (by norm_num)
    _ ≤ _ := mul_le_mul_of_nonneg_right hlower (zpow_pos two_pos _).le

/-- On one grid the smaller number makes fewer steps. -/
theorem Binary64.roundedValue_le_of_grid_eq (hd : 0 < d) (hd' : 0 < d')
    (h : (n : ℚ) / d ≤ (n' : ℚ) / d')
    (heq : Binary64.gridExponent n d = Binary64.gridExponent n' d') :
    Binary64.roundedValue n d ≤ Binary64.roundedValue n' d' := by
  have hcross : n * d' ≤ n' * d := by
    rw [div_le_div_iff₀ (by exact_mod_cast hd) (by exact_mod_cast hd')] at h
    exact_mod_cast h
  have hsignificand : Binary64.gridSignificand n d ≤ Binary64.gridSignificand n' d' := by
    unfold Binary64.gridSignificand
    rw [heq]
    apply Binary64.nearestEven_le_nearestEven (by positivity) (by positivity)
    rw [Nat.mul_mul_mul_comm, Nat.mul_mul_mul_comm n']
    exact Nat.mul_le_mul_right _ hcross
  unfold Binary64.roundedValue
  rw [heq]
  exact mul_le_mul_of_nonneg_right (by exact_mod_cast hsignificand) (zpow_pos two_pos _).le

/-- Of two numbers the smaller one is rounded to the smaller value. -/
theorem Binary64.roundedValue_mono (hd : 0 < d) (hd' : 0 < d') (h : (n : ℚ) / d ≤ (n' : ℚ) / d') :
    Binary64.roundedValue n d ≤ Binary64.roundedValue n' d' := by
  rcases Nat.eq_zero_or_pos n with rfl | hn
  · rw [Binary64.roundedValue_zero hd]
    exact Binary64.roundedValue_nonneg n' d'
  · obtain ⟨hn', hgrid⟩ := Binary64.gridExponent_mono hn hd hd' h
    rcases hgrid.lt_or_eq with hlt | heq
    · exact Binary64.roundedValue_le_of_grid_lt hn hd hn' hd' hlt
    · exact Binary64.roundedValue_le_of_grid_eq hd hd' h heq

/-- Finite doubles are below `2^1024`. -/
theorem Binary64.Finite.magnitude_lt (x : Binary64.Finite) : x.magnitude < (2 : ℚ) ^ (1024 : ℤ) := by
  obtain ⟨hlt, -, hmax, -⟩ := x.canonical
  rw [Binary64.Finite.magnitude, Binary64.scaled_eq]
  exact lt_of_lt_of_le (Binary64.steps_lt hlt _) (zpow_le_zpow_right₀ (by norm_num) (by omega))

theorem Binary64.ofParts_eq_finite_iff {negative : Bool} {m : Nat} {e : Int} {x : Binary64.Finite} :
    Binary64.ofParts negative m e = .finite x ↔
      ∃ h : Binary64.Canonical m e, x = ⟨negative, m, e, h⟩ := by
  unfold Binary64.ofParts
  split
  next h =>
    rw [Binary64.finite.injEq]
    exact ⟨fun heq => ⟨h, heq.symm⟩, fun ⟨_, heq⟩ => heq.symm⟩
  next h => exact iff_of_false (by simp) (fun ⟨h', _⟩ => h h')

/-- The carry into the next power of two keeps the value. -/
private theorem Binary64.carry_value (e : Int) :
    ((2 ^ 53 : ℕ) : ℚ) * (2 : ℚ) ^ e = ((2 ^ 52 : ℕ) : ℚ) * (2 : ℚ) ^ (e + 1) := by
  rw [zpow_add_one₀ two_ne_zero]
  push_cast
  ring

/-- A finite nearest double is the rounded value. -/
theorem Binary64.magnitude_of_nearest {negative : Bool} {x : Binary64.Finite} (hd : 0 < d)
    (h : Binary64.nearest negative n d = .finite x) :
    x.magnitude = Binary64.roundedValue n d := by
  rcases Nat.eq_zero_or_pos n with rfl | hn
  · rw [Binary64.nearest, if_pos rfl, Binary64.finite.injEq] at h
    rw [← h, Binary64.roundedValue_zero hd]
    exact Binary64.Finite.magnitude_eq_zero_iff.2 rfl
  rw [Binary64.nearest_eq negative hn] at h
  split at h
  next hcarry =>
    obtain ⟨_, rfl⟩ := Binary64.ofParts_eq_finite_iff.1 h
    rw [Binary64.roundedValue, hcarry, Binary64.carry_value]
    exact Binary64.scaled_eq _ _
  next =>
    obtain ⟨_, rfl⟩ := Binary64.ofParts_eq_finite_iff.1 h
    exact Binary64.scaled_eq _ _

theorem Binary64.negative_of_nearest {negative : Bool} {x : Binary64.Finite}
    (h : Binary64.nearest negative n d = .finite x) : x.negative = negative := by
  rcases Nat.eq_zero_or_pos n with rfl | hn
  · rw [Binary64.nearest, if_pos rfl, Binary64.finite.injEq] at h
    rw [← h]
    rfl
  rw [Binary64.nearest_eq negative hn] at h
  split at h
  · obtain ⟨_, rfl⟩ := Binary64.ofParts_eq_finite_iff.1 h
    rfl
  · obtain ⟨_, rfl⟩ := Binary64.ofParts_eq_finite_iff.1 h
    rfl

/-- Steps of which at least `2^52` stay below `2^1024` are at most `2^971`. -/
private theorem exponent_le_of_steps_lt {m : ℕ} {e : Int} (hm : 2 ^ 52 ≤ m)
    (h : (m : ℚ) * (2 : ℚ) ^ e < (2 : ℚ) ^ (1024 : ℤ)) : e ≤ 971 := by
  have hfull : ((2 ^ 52 : ℕ) : ℚ) ≤ m := by exact_mod_cast hm
  have hpow : (2 : ℚ) ^ (52 + e) < (2 : ℚ) ^ (1024 : ℤ) := by
    refine lt_of_le_of_lt ?_ h
    rw [zpow_add₀ two_ne_zero]
    refine mul_le_mul_of_nonneg_right ?_ (zpow_pos two_pos _).le
    exact_mod_cast hfull
  have hlt := (zpow_lt_zpow_iff_right₀ (by norm_num : (1 : ℚ) < 2)).1 hpow
  omega

/-- The nearest double is finite when the rounded value is below `2^1024`. -/
theorem Binary64.exists_nearest_of_roundedValue_lt (negative : Bool)
    (h : Binary64.roundedValue n d < (2 : ℚ) ^ (1024 : ℤ)) (hd : 0 < d) :
    ∃ x, Binary64.nearest negative n d = .finite x := by
  rcases Nat.eq_zero_or_pos n with rfl | hn
  · exact ⟨.zero negative, rfl⟩
  have hmin := Binary64.neg_le_gridExponent n d
  have hm := Binary64.gridSignificand_le_two_pow hn hd
  unfold Binary64.roundedValue at h
  rw [Binary64.nearest_eq negative hn]
  by_cases hcarry : Binary64.gridSignificand n d = 2 ^ 53
  case pos =>
    rw [hcarry, Binary64.carry_value] at h
    have hmax := exponent_le_of_steps_lt le_rfl h
    have hcanonical : Binary64.Canonical (2 ^ 52) (Binary64.gridExponent n d + 1) :=
      ⟨by norm_num, by omega, hmax, .inl le_rfl⟩
    exact ⟨_, by rw [if_pos hcarry, Binary64.ofParts_of_canonical negative hcanonical]⟩
  case neg =>
    have hcanonical : Binary64.Canonical (Binary64.gridSignificand n d)
        (Binary64.gridExponent n d) := by
      by_cases he : Binary64.gridExponent n d = -1074
      · exact ⟨by omega, hmin, by omega, .inr he⟩
      · have hfull := Binary64.two_pow_le_gridSignificand hn hd he
        exact ⟨by omega, hmin, exponent_le_of_steps_lt hfull h, .inl hfull⟩
    exact ⟨_, by rw [if_neg hcarry, Binary64.ofParts_of_canonical negative hcanonical]⟩

end RoundedValue

/-! ## Doubles of at most a magnitude -/

/-- A finite double whose magnitude is at most that of `y`. -/
def Binary64.AtMost (x : Binary64) (y : Binary64.Finite) : Prop :=
  ∃ x', x = .finite x' ∧ x'.magnitude ≤ y.magnitude

theorem Binary64.nearest_atMost {n d n' d' : Nat} (negative : Bool) {negative' : Bool}
    {y : Binary64.Finite} (hd : 0 < d) (hd' : 0 < d') (h : (n : ℚ) / d ≤ (n' : ℚ) / d')
    (hy : Binary64.nearest negative' n' d' = .finite y) :
    (Binary64.nearest negative n d).AtMost y := by
  have hle := Binary64.roundedValue_mono hd hd' h
  rw [← Binary64.magnitude_of_nearest hd' hy] at hle
  obtain ⟨x, hx⟩ := Binary64.exists_nearest_of_roundedValue_lt negative
    (lt_of_le_of_lt hle y.magnitude_lt) hd
  refine ⟨x, hx, ?_⟩
  rw [Binary64.magnitude_of_nearest hd hx]
  exact hle

theorem natAbs_num_div_den (q : ℚ) : ((q.num.natAbs : ℕ) : ℚ) / (q.den : ℚ) = |q| := by
  conv_rhs => rw [← Rat.num_div_den q, abs_div, Nat.abs_cast]
  rw [Nat.cast_natAbs, Int.cast_abs]

theorem Binary64.nearestRat_atMost {q q' : ℚ} {negative negative' : Bool} {y : Binary64.Finite}
    (h : |q| ≤ |q'|) (hy : Binary64.nearestRat negative' q' = .finite y) :
    (Binary64.nearestRat negative q).AtMost y := by
  rw [← natAbs_num_div_den, ← natAbs_num_div_den] at h
  exact Binary64.nearest_atMost _ q.den_pos q'.den_pos h hy

theorem Binary64.Finite.abs_toRat (x : Binary64.Finite) : |x.toRat| = x.magnitude := by
  rw [Binary64.Finite.toRat]
  split
  · rw [abs_neg, abs_of_nonneg x.magnitude_nonneg]
  · exact abs_of_nonneg x.magnitude_nonneg

/-- The magnitude of a double is its own nearest double. -/
theorem Binary64.Finite.nearestRat_magnitude (x : Binary64.Finite) :
    Binary64.nearestRat false x.magnitude = .finite { x with negative := false } := by
  rcases Nat.eq_zero_or_pos x.significand with hzero | hpos
  · have hexponent : x.exponent = -1074 := by
      have hcanonical := x.canonical
      rw [Binary64.Canonical, hzero] at hcanonical
      omega
    have hmagnitude := Binary64.Finite.magnitude_eq_zero_iff.2 hzero
    have hnearest : Binary64.nearestRat false 0 = .finite (.zero false) := rfl
    rw [hmagnitude, hnearest, Binary64.finite.injEq]
    exact Binary64.Finite.ext rfl hzero.symm hexponent.symm
  · refine Binary64.nearest_of_canonical false x.magnitude.den_pos x.canonical hpos ?_
    rw [natAbs_num_div_den, abs_of_nonneg x.magnitude_nonneg]
    exact Binary64.scaled_eq _ _

/-- One times a double is that double. -/
theorem Binary64.mul_one_of_not_negative {x : Binary64.Finite} (h : x.negative = false) :
    Binary64.finite x * .one = .finite x := by
  have hone : Binary64.Finite.toRat ⟨false, 2 ^ 52, -52, by decide⟩ = 1 :=
    Binary64.Finite.toRat_of_one rfl
  have hproduct : Binary64.finite x * .one = Binary64.nearestRat (x.negative != false)
      (x.toRat * Binary64.Finite.toRat ⟨false, 2 ^ 52, -52, by decide⟩) := rfl
  rw [hproduct, hone, mul_one, h, Binary64.Finite.toRat_of_not_negative h]
  refine x.nearestRat_magnitude.trans (congrArg Binary64.finite ?_)
  exact Binary64.Finite.ext h.symm rfl rfl

/-- A product of numbers that are not below zero is not below zero. -/
theorem Binary64.toRat_mul_nonneg {x y z : Binary64.Finite} (hx : 0 ≤ x.toRat) (hy : 0 ≤ y.toRat)
    (h : Binary64.finite x * Binary64.finite y = .finite z) : 0 ≤ z.toRat := by
  have hproduct : Binary64.nearestRat (x.negative != y.negative) (x.toRat * y.toRat) =
      .finite z := h
  cases hsign : x.negative != y.negative with
  | false =>
    rw [Binary64.Finite.toRat_of_not_negative ((Binary64.negative_of_nearest hproduct).trans hsign)]
    exact z.magnitude_nonneg
  | true =>
    -- with different signs one factor is zero
    rw [mul_eq_zero.2 (Binary64.Finite.eq_zero_of_signs hx hy hsign)] at hproduct
    have hzero := Binary64.finite.inj hproduct
    rw [← hzero, Binary64.Finite.toRat_zero]

section AtMost

variable {a b : Binary64} {x y z : Binary64.Finite}

theorem Binary64.AtMost.mul (ha : a.AtMost x) (hb : b.AtMost y)
    (hz : Binary64.finite x * Binary64.finite y = .finite z) : (a * b).AtMost z := by
  obtain ⟨x', rfl, hx⟩ := ha
  obtain ⟨y', rfl, hy⟩ := hb
  refine Binary64.nearestRat_atMost ?_ hz
  rw [abs_mul, abs_mul, Binary64.Finite.abs_toRat, Binary64.Finite.abs_toRat,
    Binary64.Finite.abs_toRat, Binary64.Finite.abs_toRat]
  exact mul_le_mul hx hy y'.magnitude_nonneg x.magnitude_nonneg

/-- Dividing by one or more makes nothing larger. -/
theorem Binary64.AtMost.div (ha : a.AtMost x) (hy : 1 ≤ y.magnitude) :
    (a / .finite y).AtMost x := by
  obtain ⟨x', rfl, hx⟩ := ha
  have hsignificand : y.significand ≠ 0 := by
    intro hzero
    rw [Binary64.Finite.magnitude_eq_zero_iff.2 hzero] at hy
    exact absurd hy (by norm_num)
  have hdiv : Binary64.finite x' / Binary64.finite y =
      Binary64.nearestRat (x'.negative != y.negative) (x'.toRat / y.toRat) := by
    show Binary64.div (.finite x') (.finite y) = _
    simp only [Binary64.div, if_neg hsignificand]
  rw [hdiv]
  show Binary64.AtMost _ { x with negative := false }
  refine Binary64.nearestRat_atMost ?_ x.nearestRat_magnitude
  rw [abs_div, Binary64.Finite.abs_toRat, Binary64.Finite.abs_toRat,
    abs_of_nonneg x.magnitude_nonneg]
  exact (div_le_self x'.magnitude_nonneg hy).trans hx

end AtMost

/-! ## Powers of ten -/

/-- The finite double that a number is. -/
def Binary64.finite? : Binary64 → Option Binary64.Finite
  | .finite x => some x
  | _ => none

theorem Binary64.finite?_eq_some_iff {a : Binary64} {x : Binary64.Finite} :
    a.finite? = some x ↔ a = .finite x := by
  cases a <;> simp [Binary64.finite?]

theorem Binary64.ofNat_atMost {m n : Nat} {y : Binary64.Finite} (negative : Bool) (h : m ≤ n)
    (hy : Binary64.ofNat n = .finite y) : (Binary64.nearest negative m 1).AtMost y := by
  refine Binary64.nearest_atMost _ one_pos one_pos ?_ hy
  rw [Nat.cast_one, div_one, div_one]
  exact Nat.cast_le.2 h

theorem Binary64.one_le_magnitude {n : Nat} {y : Binary64.Finite} (hn : 1 ≤ n)
    (hy : Binary64.ofNat n = .finite y) : 1 ≤ y.magnitude := by
  have hone : Binary64.nearest false 1 1 = .one := by decide
  obtain ⟨x, hx, hxy⟩ := Binary64.ofNat_atMost false hn hy
  rw [hone, Binary64.one, Binary64.finite.injEq] at hx
  refine le_trans (le_of_eq ?_) hxy
  rw [← hx, Binary64.Finite.magnitude, Binary64.scaled_eq]
  norm_num

theorem Binary64.powerOfTen_atMost {j k : Nat} {y : Binary64.Finite} (h : j ≤ k)
    (hy : Binary64.powerOfTen k = .finite y) : (Binary64.powerOfTen j).AtMost y :=
  Binary64.ofNat_atMost false (Nat.pow_le_pow_right (by norm_num) h) hy

/-- The powers of ten up to the greatest one are finite. -/
theorem Binary64.exists_powerOfTen {k : Nat} (hk : k ≤ Binary64.maxPowerOfTen) :
    ∃ p, Binary64.powerOfTen k = .finite p ∧ 1 ≤ p.magnitude := by
  have hgreatest : (Binary64.powerOfTen Binary64.maxPowerOfTen).finite?.isSome = true := by
    decide +kernel
  obtain ⟨top, htop⟩ := Option.isSome_iff_exists.1 hgreatest
  obtain ⟨p, hp, -⟩ := Binary64.powerOfTen_atMost hk (Binary64.finite?_eq_some_iff.1 htop)
  exact ⟨p, hp, Binary64.one_le_magnitude (Nat.one_le_pow _ _ (by norm_num)) hp⟩

theorem Binary64.AtMost.overMaxPower {a : Binary64} {x : Binary64.Finite} (ha : a.AtMost x)
    (times : Nat) : (Binary64.overMaxPower times a).AtMost x := by
  obtain ⟨p, hp, hone⟩ := Binary64.exists_powerOfTen (le_refl Binary64.maxPowerOfTen)
  induction times generalizing a with
  | zero => exact ha
  | succ times ih =>
    rw [Binary64.overMaxPower]
    split
    · exact ha
    · rw [hp]
      exact ih (ha.div hone)

theorem Binary64.AtMost.overPower {a : Binary64} {x : Binary64.Finite} (ha : a.AtMost x) (k : Nat) :
    (a.overPower k).AtMost x := by
  have hrest : k % Binary64.maxPowerOfTen ≤ Binary64.maxPowerOfTen :=
    (Nat.mod_lt k (by decide)).le
  obtain ⟨p, hp, hone⟩ := Binary64.exists_powerOfTen hrest
  rw [Binary64.overPower, hp]
  exact (ha.overMaxPower _).div hone

/-! ## Digits of 64 bits times a power of ten -/

/-- A number between the last two doubles, and near enough to the last one to be rounded to it. -/
def Binary64.belowLargest : Nat :=
  (2 ^ 54 - 3) * 2 ^ 970 + 2 ^ 900

/-- The most that the digits in front of `10^k` make up when all is at most `belowLargest`. -/
def Binary64.mostDigits (k : Nat) : Nat :=
  min (2 ^ 64 - 1) (Binary64.belowLargest / 10 ^ k)

/-- The greatest power that leaves room for all digits of 64 bits. -/
def Binary64.roomyPower : Nat := 288

/-- However the digits and the power are rounded, the product stays finite. -/
theorem Binary64.isSome_mostDigits_mul : ∀ i < Binary64.maxPowerOfTen - Binary64.roomyPower + 1,
    (Binary64.ofNat (Binary64.mostDigits (Binary64.roomyPower + i))).finite?.isSome = true ∧
      (Binary64.ofNat (Binary64.mostDigits (Binary64.roomyPower + i)) *
        .powerOfTen (Binary64.roomyPower + i)).finite?.isSome = true := by
  decide +kernel

theorem Binary64.le_mostDigits {s k : Nat} (hs : s < 2 ^ 64)
    (h : s * 10 ^ k ≤ Binary64.belowLargest) : s ≤ Binary64.mostDigits k :=
  le_min (Nat.le_sub_one_of_lt hs) ((Nat.le_div_iff_mul_le (by positivity)).2 h)

/-- The digits are at most those for a power that is no smaller and one of the last ones. -/
theorem Binary64.exists_le_mostDigits {s k : Nat} (hs : s < 2 ^ 64) (hk : k ≤ Binary64.maxPowerOfTen)
    (h : s * 10 ^ k ≤ Binary64.belowLargest) :
    ∃ i < Binary64.maxPowerOfTen - Binary64.roomyPower + 1, k ≤ Binary64.roomyPower + i ∧
      s ≤ Binary64.mostDigits (Binary64.roomyPower + i) := by
  rcases Nat.le_total k Binary64.roomyPower with hle | hge
  · have hall : Binary64.mostDigits Binary64.roomyPower = 2 ^ 64 - 1 := by decide +kernel
    exact ⟨0, by decide, hle, (Nat.le_sub_one_of_lt hs).trans_eq hall.symm⟩
  · refine ⟨k - Binary64.roomyPower, Nat.lt_succ_of_le (Nat.sub_le_sub_right hk _), ?_, ?_⟩
    · rw [Nat.add_sub_cancel' hge]
    · rw [Nat.add_sub_cancel' hge]
      exact Binary64.le_mostDigits hs h

/-- A power past the greatest one leaves room for no digit. -/
theorem Binary64.eq_zero_of_maxPowerOfTen_lt {s k : Nat} (hk : Binary64.maxPowerOfTen < k)
    (h : s * 10 ^ k ≤ Binary64.belowLargest) : s = 0 := by
  have hbound : Binary64.belowLargest < 10 ^ (Binary64.maxPowerOfTen + 1) := by decide +kernel
  have hpow : (10 : ℕ) ^ (Binary64.maxPowerOfTen + 1) ≤ 10 ^ k :=
    Nat.pow_le_pow_right (n := 10) (by norm_num) hk
  by_contra hs
  have hmul : 10 ^ k ≤ s * 10 ^ k := Nat.le_mul_of_pos_left _ (Nat.pos_of_ne_zero hs)
  exact absurd h (not_le.2 (hbound.trans_le (hpow.trans hmul)))

/-- Digits of 64 bits times a power of ten, each rounded, are finite when the exact product is at most
    `belowLargest`. -/
theorem Binary64.exists_shiftTen (negative : Bool) {s : Nat} {e : Int} (hs : s < 2 ^ 64)
    (h : ∀ k : Nat, e = k → s * 10 ^ k ≤ Binary64.belowLargest) :
    ∃ x, (Binary64.nearest negative s 1).shiftTen e = .finite x := by
  unfold Binary64.shiftTen
  split
  next he =>
    have hprod := h e.toNat (by omega)
    unfold Binary64.timesPower
    split
    next hk =>
      obtain ⟨i, hi, hpower, hmost⟩ := Binary64.exists_le_mostDigits hs hk hprod
      obtain ⟨hdigits, hproduct⟩ := Binary64.isSome_mostDigits_mul i hi
      obtain ⟨y, hy⟩ := Option.isSome_iff_exists.1 hdigits
      obtain ⟨z, hz⟩ := Option.isSome_iff_exists.1 hproduct
      rw [Binary64.finite?_eq_some_iff] at hy hz
      have htop : Binary64.roomyPower + i ≤ Binary64.maxPowerOfTen :=
        Nat.add_le_of_le_sub' (by decide) (Nat.le_of_lt_succ hi)
      obtain ⟨p, hp, -⟩ := Binary64.exists_powerOfTen htop
      rw [hy, hp] at hz
      have hs' := Binary64.ofNat_atMost negative hmost hy
      obtain ⟨x, hx, -⟩ := hs'.mul (Binary64.powerOfTen_atMost hpower hp) hz
      exact ⟨x, hx⟩
    next hk =>
      obtain rfl := Binary64.eq_zero_of_maxPowerOfTen_lt (not_le.1 hk) hprod
      exact ⟨.zero negative, rfl⟩
  next =>
    have hdigits : (Binary64.ofNat (2 ^ 64)).finite?.isSome = true := by decide +kernel
    obtain ⟨y, hy⟩ := Option.isSome_iff_exists.1 hdigits
    have hs' := Binary64.ofNat_atMost negative hs.le (Binary64.finite?_eq_some_iff.1 hy)
    obtain ⟨x, hx, -⟩ := hs'.overPower _
    exact ⟨x, hx⟩

end FoldedStacks
