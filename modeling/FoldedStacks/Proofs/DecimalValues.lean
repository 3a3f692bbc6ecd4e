-- SUMMARY: A decimal is read by its value alone, and the shortest decimal of a double is read back as that double.
import Mathlib
import FoldedStacks.Binary64.Decimal
import FoldedStacks.Proofs.ExactRounding
import FoldedStacks.Proofs.Numerals

/-!
# Values of decimals

Two decimals of one value are read as one double, however many zeros they end in. The search for a
short decimal only returns decimals that read back, and where it finds none all digits are written.
-/

namespace FoldedStacks

/-- The rational number that a decimal stands for. -/
def Decimal.value (d : Decimal) : ℚ :=
  (d.digits : ℚ) * (10 : ℚ) ^ d.exponent

theorem ten_zpow_eq_div (e : Int) :
    (10 : ℚ) ^ e = ((10 ^ e.toNat : ℕ) : ℚ) / ((10 ^ (-e).toNat : ℕ) : ℚ) := by
  push_cast
  exact zpow_eq_div_pow (by norm_num) e

theorem Decimal.value_eq_div (d : Decimal) :
    d.value = ((d.digits * 10 ^ d.exponent.toNat : ℕ) : ℚ) /
      ((10 ^ (-d.exponent).toNat : ℕ) : ℚ) := by
  rw [Decimal.value, ten_zpow_eq_div]
  push_cast
  ring

/-! ## Reading -/

theorem Binary64.digitCount_spec {d : Nat} (hd : 0 < d) :
    10 ^ (Binary64.digitCount d - 1) ≤ d ∧ d < 10 ^ Binary64.digitCount d := by
  have hpos : 0 < Binary64.digitCount d := Nat.length_toDigits_pos
  have hiff : ∀ k, 0 < k → (Binary64.digitCount d ≤ k ↔ d < 10 ^ k) := fun k hk =>
    Nat.length_toDigits_le_iff (by decide) hk
  refine ⟨?_, (hiff _ hpos).1 (Nat.le_refl _)⟩
  rcases Nat.lt_or_ge 1 (Binary64.digitCount d) with hmore | hone
  · have hnot := (hiff (Binary64.digitCount d - 1) (by omega)).not.1 (by omega)
    exact Nat.not_lt.1 hnot
  · rw [Nat.sub_eq_zero_of_le hone]
    exact hd

/-- The place of the leading digit is told by the value. -/
theorem Decimal.log_value {d : Decimal} (hd : 0 < d.digits) :
    Int.log 10 d.value = d.exponent + Binary64.digitCount d.digits - 1 := by
  obtain ⟨hle, hlt⟩ := Binary64.digitCount_spec hd
  have hcount : 0 < Binary64.digitCount d.digits := Nat.length_toDigits_pos
  have hstep : (0 : ℚ) < (10 : ℚ) ^ d.exponent := by positivity
  have hpos : 0 < d.value := mul_pos (by exact_mod_cast hd) hstep
  have hpow : ∀ k : Nat, (10 : ℚ) ^ (d.exponent + k) = ((10 ^ k : ℕ) : ℚ) * (10 : ℚ) ^ d.exponent := by
    intro k
    push_cast
    exact zpow_add_natCast (by norm_num) d.exponent k
  have hlower : d.exponent + (Binary64.digitCount d.digits - 1 : ℕ) ≤ Int.log 10 d.value := by
    refine (Int.zpow_le_iff_le_log (by decide) hpos).1 ?_
    have hcast : ((10 ^ (Binary64.digitCount d.digits - 1) : ℕ) : ℚ) ≤ d.digits := by
      exact_mod_cast hle
    exact le_of_eq_of_le (hpow _) (mul_le_mul_of_nonneg_right hcast hstep.le)
  have hupper : Int.log 10 d.value < d.exponent + Binary64.digitCount d.digits := by
    refine (Int.lt_zpow_iff_log_lt (by decide) hpos).1 ?_
    have hcast : (d.digits : ℚ) < ((10 ^ Binary64.digitCount d.digits : ℕ) : ℚ) := by
      exact_mod_cast hlt
    exact lt_of_lt_of_eq (mul_lt_mul_of_pos_right hcast hstep) (hpow _).symm
  omega

theorem Decimal.value_eq_zero_iff {d : Decimal} : d.value = 0 ↔ d.digits = 0 := by
  have hstep : (10 : ℚ) ^ d.exponent ≠ 0 := by positivity
  rw [Decimal.value, mul_eq_zero, or_iff_left hstep, Nat.cast_eq_zero]

/-- Decimals of one value are read as one double. -/
theorem Binary64.ofDecimal_congr (negative : Bool) {c d : Decimal} (h : c.value = d.value) :
    Binary64.ofDecimal negative c.digits c.exponent =
      Binary64.ofDecimal negative d.digits d.exponent := by
  rcases Nat.eq_zero_or_pos c.digits with hc | hc
  · have hd : d.digits = 0 := by
      rw [← Decimal.value_eq_zero_iff, ← h, Decimal.value_eq_zero_iff]
      exact hc
    simp only [Binary64.ofDecimal, hc, hd, if_true]
  · have hd : 0 < d.digits := by
      refine Nat.pos_of_ne_zero fun hzero => hc.ne' ?_
      rw [← Decimal.value_eq_zero_iff, h, Decimal.value_eq_zero_iff]
      exact hzero
    have htop : c.exponent + Binary64.digitCount c.digits =
        d.exponent + Binary64.digitCount d.digits := by
      have hlogs := Decimal.log_value hc
      rw [h, Decimal.log_value hd] at hlogs
      omega
    have hfractions : ((c.digits * 10 ^ c.exponent.toNat : ℕ) : ℚ) /
        ((10 ^ (-c.exponent).toNat : ℕ) : ℚ) = ((d.digits * 10 ^ d.exponent.toNat : ℕ) : ℚ) /
          ((10 ^ (-d.exponent).toNat : ℕ) : ℚ) := by
      rw [← Decimal.value_eq_div, ← Decimal.value_eq_div, h]
    have hnearest := Binary64.nearest_congr negative (by positivity) (by positivity) hfractions
    simp only [Binary64.ofDecimal, if_neg hc.ne', if_neg hd.ne', htop, hnearest]

/-! ## The shortest decimal -/

theorem Binary64.Finite.readsBack_congr {x : Binary64.Finite} {c d : Decimal}
    (h : c.value = d.value) : x.readsBack c = x.readsBack d := by
  rw [Binary64.Finite.readsBack, Binary64.Finite.readsBack, Binary64.ofDecimal_congr false h]

theorem Binary64.Finite.value_exactDecimal (x : Binary64.Finite) :
    x.exactDecimal.value = (x.significand : ℚ) * (2 : ℚ) ^ x.exponent := by
  rw [Binary64.Finite.exactDecimal]
  split
  next h =>
    obtain ⟨k, hk⟩ := Int.eq_ofNat_of_zero_le h
    simp [Decimal.value, hk]
  next h =>
    -- `5^k · 10^-k` is `2^-k`
    obtain ⟨k, hk⟩ : ∃ k : Nat, x.exponent = -(k : Int) := ⟨(-x.exponent).toNat, by omega⟩
    have hten : (10 : ℚ) = 2 * 5 := by norm_num
    simp only [Decimal.value, hk, neg_neg, Int.toNat_natCast, zpow_neg, zpow_natCast]
    push_cast
    rw [hten, mul_pow]
    field_simp

private theorem two_zpow_le_ten_zpow (k : ℕ) : (2 : ℚ) ^ (3 * k : ℤ) ≤ (10 : ℚ) ^ (k : ℤ) := by
  rw [zpow_mul, zpow_natCast, zpow_natCast]
  exact pow_le_pow_left₀ (by norm_num) (by norm_num) k

/-- The range of the doubles is far inside the range in which decimals are computed. -/
theorem Binary64.Finite.log_value_exactDecimal {x : Binary64.Finite} (hx : 0 < x.significand) :
    -401 ≤ Int.log 10 x.exactDecimal.value ∧ Int.log 10 x.exactDecimal.value < 400 := by
  obtain ⟨hlt, hmin, hmax, -⟩ := x.canonical
  have hpos : (0 : ℚ) < (x.significand : ℚ) * (2 : ℚ) ^ x.exponent :=
    mul_pos (by exact_mod_cast hx) (zpow_pos two_pos _)
  rw [x.value_exactDecimal]
  constructor
  · -- the least double is `2^-1074`
    refine (Int.zpow_le_iff_le_log (by decide) hpos).1 ?_
    have hsmall : ((10 : ℕ) : ℚ) ^ (-401 : ℤ) ≤ (2 : ℚ) ^ (-1074 : ℤ) := by
      have hten : (10 : ℚ) ^ (-401 : ℤ) ≤ (10 : ℚ) ^ (-358 : ℤ) :=
        zpow_le_zpow_right₀ (by norm_num) (by norm_num)
      refine hten.trans ?_
      rw [zpow_neg, zpow_neg]
      exact inv_anti₀ (by positivity) (two_zpow_le_ten_zpow 358)
    have hexp : (2 : ℚ) ^ (-1074 : ℤ) ≤ (2 : ℚ) ^ x.exponent :=
      zpow_le_zpow_right₀ (by norm_num) hmin
    have hone : (1 : ℚ) ≤ x.significand := by exact_mod_cast hx
    exact hsmall.trans (hexp.trans (le_mul_of_one_le_left (zpow_pos two_pos _).le hone))
  · -- the greatest one is below `2^53 · 2^971`
    refine (Int.lt_zpow_iff_log_lt (by decide) hpos).1 ?_
    have hbig : (2 : ℚ) ^ (53 : ℤ) * (2 : ℚ) ^ (971 : ℤ) ≤ ((10 : ℕ) : ℚ) ^ (400 : ℤ) := by
      have htwo : (2 : ℚ) ^ ((53 : ℤ) + 971) ≤ (2 : ℚ) ^ (3 * (342 : ℕ) : ℤ) :=
        zpow_le_zpow_right₀ (by norm_num) (by norm_num)
      have hten : (10 : ℚ) ^ ((342 : ℕ) : ℤ) ≤ (10 : ℚ) ^ (400 : ℤ) :=
        zpow_le_zpow_right₀ (by norm_num) (by norm_num)
      rw [← zpow_add₀ (by norm_num : (2 : ℚ) ≠ 0)]
      exact htwo.trans ((two_zpow_le_ten_zpow 342).trans hten)
    have hexp : (2 : ℚ) ^ x.exponent ≤ (2 : ℚ) ^ (971 : ℤ) :=
      zpow_le_zpow_right₀ (by norm_num) hmax
    have hsig : (x.significand : ℚ) < (2 : ℚ) ^ (53 : ℤ) := by exact_mod_cast hlt
    refine lt_of_lt_of_le ?_ hbig
    exact mul_lt_mul hsig hexp (zpow_pos two_pos _) (by positivity)

theorem Binary64.Finite.readsBack_exactDecimal {x : Binary64.Finite} (hx : 0 < x.significand) :
    x.readsBack x.exactDecimal = true := by
  have hdigits : 0 < x.exactDecimal.digits := by
    apply Nat.pos_of_ne_zero
    intro hzero
    have hvalue := x.value_exactDecimal
    rw [Decimal.value_eq_zero_iff.2 hzero] at hvalue
    exact absurd hvalue.symm (mul_ne_zero (by exact_mod_cast hx.ne') (zpow_pos two_pos _).ne')
  obtain ⟨hlow, hhigh⟩ := Binary64.Finite.log_value_exactDecimal hx
  rw [Decimal.log_value hdigits] at hlow hhigh
  have hnearest := Binary64.nearest_of_canonical false
    (n := x.exactDecimal.digits * 10 ^ x.exactDecimal.exponent.toNat)
    (d := 10 ^ (-x.exactDecimal.exponent).toNat) (by positivity) x.canonical hx
    (by rw [← Decimal.value_eq_div, x.value_exactDecimal])
  simp only [Binary64.Finite.readsBack, Binary64.ofDecimal, if_neg hdigits.ne', hnearest]
  rw [if_neg (by omega), if_neg (by omega)]
  simp

/-- The search only returns decimals that read back. -/
theorem Binary64.Finite.readsBack_neighbour? {x : Binary64.Finite} {k : Int} {d : Decimal}
    (h : x.neighbour? k = some d) : x.readsBack d = true := by
  simp only [Binary64.Finite.neighbour?] at h
  split at h
  case h_1 hlo hhi =>
    -- whichever of the two is nearer, it is one of the two
    cases h
    unfold Decimal.nearer
    repeat' split
    all_goals first | exact hlo | exact hhi
  case h_2 hlo _ => cases h; exact hlo
  case h_3 _ hhi => cases h; exact hhi
  case h_4 => cases h

theorem Binary64.Finite.readsBack_searchDecimal {x : Binary64.Finite} {tries : Nat} {k : Int}
    {d : Decimal} (h : x.searchDecimal tries k = some d) : x.readsBack d = true := by
  induction tries generalizing k with
  | zero => cases h
  | succ tries ih =>
    rw [Binary64.Finite.searchDecimal] at h
    split at h
    next d' hd' => cases h; exact Binary64.Finite.readsBack_neighbour? hd'
    next => exact ih h

/-- The shortest decimal of a double is read back as that double. -/
theorem Binary64.Finite.readsBack_shortest (x : Binary64.Finite) :
    x.readsBack x.shortest = true := by
  rw [Binary64.Finite.shortest]
  split
  next hzero =>
    have hexp : x.exponent = -1074 := by
      have hcanonical := x.canonical
      rw [Binary64.Canonical, hzero] at hcanonical
      omega
    simp only [Binary64.Finite.readsBack, Binary64.ofDecimal, if_true, decide_eq_true_eq,
      Binary64.finite.injEq]
    exact Binary64.Finite.ext rfl hzero.symm hexp.symm
  next hne =>
    simp only
    cases hsearch : x.searchDecimal 17 _ with
    | none => exact Binary64.Finite.readsBack_exactDecimal (Nat.pos_of_ne_zero hne)
    | some d => exact Binary64.Finite.readsBack_searchDecimal hsearch

theorem Decimal.value_stripZeros (fuel : Nat) (d : Decimal) :
    (d.stripZeros fuel).value = d.value := by
  induction fuel generalizing d with
  | zero => rfl
  | succ fuel ih =>
    rw [Decimal.stripZeros]
    split
    next h =>
      have hdigits : (d.digits : ℚ) = (d.digits / 10 : ℕ) * 10 := by
        exact_mod_cast (Nat.div_mul_cancel (Nat.dvd_of_mod_eq_zero h.2)).symm
      rw [ih, Decimal.value, Decimal.value, hdigits, zpow_add_one₀ (by norm_num : (10 : ℚ) ≠ 0)]
      ring
    next => rfl

/-- Doubles of one sign whose written decimals have one value are equal. -/
theorem Binary64.Finite.eq_of_value_eq {x y : Binary64.Finite} (hsign : x.negative = y.negative)
    (h : (x.shortest.stripZeros 400).value = (y.shortest.stripZeros 400).value) : x = y := by
  rw [Decimal.value_stripZeros, Decimal.value_stripZeros] at h
  have hx := x.readsBack_shortest
  have hy := y.readsBack_shortest
  rw [Binary64.Finite.readsBack_congr h] at hx
  simp only [Binary64.Finite.readsBack, decide_eq_true_eq] at hx hy
  rw [hx, Binary64.finite.injEq] at hy
  have hfields := Binary64.Finite.ext_iff.1 hy
  exact Binary64.Finite.ext hsign hfields.2.1 hfields.2.2

end FoldedStacks
