-- SUMMARY: Rounded operations on doubles that are not negative: integers up to `2^53` are kept and never passed, and the relative error is at most `2^-53`.
import Mathlib
import FoldedStacks.Proofs.Rounding

/-!
# Arithmetic with rounding

Conversion, product and quotient of doubles as exact operations that are rounded once. What later
proofs need of a rounded result is that it passes no integer up to `2^53` and that it is within a
relative error of `2^-53`.
-/

namespace FoldedStacks

/-! ## Rounded values -/

/-- `x` is a rounded value of `q`, which is not negative. -/
structure Binary64.Near (q x : ℚ) : Prop where
  le_of_le : ∀ k : ℕ, k ≤ 2 ^ 53 → (k : ℚ) ≤ q → (k : ℚ) ≤ x
  ge_of_ge : ∀ k : ℕ, k ≤ 2 ^ 53 → q ≤ k → x ≤ k
  error : (2 : ℚ) ^ (-1022 : ℤ) ≤ q → |x - q| ≤ q * (2 : ℚ) ^ (-53 : ℤ)

theorem Binary64.near_zero : Binary64.Near 0 0 where
  le_of_le := fun _ _ h => h
  ge_of_ge := fun k _ _ => by positivity
  error := fun _ => by simp

/-- An integer up to `2^53` is kept. -/
theorem Binary64.Near.eq_of_natCast {k : Nat} {x : ℚ} (h : Binary64.Near k x) (hk : k ≤ 2 ^ 53) :
    x = k :=
  le_antisymm (h.ge_of_ge k hk le_rfl) (h.le_of_le k hk le_rfl)

/-- An integer is a multiple of every grid step below one. -/
private theorem natCast_eq_mul_two_zpow (k : Nat) {e : Int} (he : e ≤ 0) :
    (k : ℚ) = ((k * 2 ^ (-e).toNat : ℕ) : ℚ) * (2 : ℚ) ^ e := by
  have hzero : e.toNat = 0 := by omega
  rw [Binary64.two_zpow_eq_div, hzero]
  push_cast
  field_simp

/-- On a grid with a step above one, `2^52` steps reach `2^53`. -/
private theorem two_pow_le_steps {e : Int} (he : 0 < e) :
    ((2 ^ 53 : ℕ) : ℚ) ≤ ((2 ^ 52 : ℕ) : ℚ) * (2 : ℚ) ^ e := by
  have hpow : (2 : ℚ) ^ (1 : ℤ) ≤ (2 : ℚ) ^ e := zpow_le_zpow_right₀ (by norm_num) (by omega)
  rw [zpow_one] at hpow
  push_cast
  linarith

theorem Binary64.RoundedOn.near {e : Int} {v x : ℚ} (h : Binary64.RoundedOn e v x)
    (hgrid : e ≠ -1074 → (2 : ℚ) ^ (e + 52) ≤ v) : Binary64.Near v x := by
  -- above the integers, `v` has at least `2^52` steps, and so has what it is rounded to
  have hsteps : 0 < e → ((2 ^ 52 : ℕ) : ℚ) * (2 : ℚ) ^ e ≤ v := by
    intro he
    have hle := hgrid (by omega)
    rw [zpow_add₀ (by norm_num : (2 : ℚ) ≠ 0), mul_comm] at hle
    exact_mod_cast hle
  constructor
  case le_of_le =>
    intro k hk hkv
    have hk' : (k : ℚ) ≤ ((2 ^ 53 : ℕ) : ℚ) := by exact_mod_cast hk
    rcases le_or_gt e 0 with he | he
    · rw [natCast_eq_mul_two_zpow k he] at hkv ⊢
      exact h.le_of_le _ hkv
    · calc (k : ℚ) ≤ ((2 ^ 53 : ℕ) : ℚ) := hk'
        _ ≤ ((2 ^ 52 : ℕ) : ℚ) * (2 : ℚ) ^ e := two_pow_le_steps he
        _ ≤ x := h.le_of_le _ (hsteps he)
  case ge_of_ge =>
    intro k hk hvk
    have hk' : (k : ℚ) ≤ ((2 ^ 53 : ℕ) : ℚ) := by exact_mod_cast hk
    rcases le_or_gt e 0 with he | he
    · rw [natCast_eq_mul_two_zpow k he] at hvk ⊢
      exact h.ge_of_ge _ hvk
    · have htop := (hvk.trans hk').trans (two_pow_le_steps he)
      exact (h.ge_of_ge _ htop).trans ((hsteps he).trans hvk)
  case error =>
    intro hv
    refine h.error.trans ?_
    have hstep : (2 : ℚ) ^ (e + 52) ≤ v := by
      by_cases he : e = -1074
      · rw [he]; exact hv
      · exact hgrid he
    calc (2 : ℚ) ^ e / 2 = (2 : ℚ) ^ (e + 52) * (2 : ℚ) ^ (-53 : ℤ) := by
          rw [div_eq_mul_inv, ← zpow_neg_one, ← zpow_add₀ (by norm_num : (2 : ℚ) ≠ 0),
            ← zpow_add₀ (by norm_num : (2 : ℚ) ≠ 0)]
          congr 1
          ring
      _ ≤ v * (2 : ℚ) ^ (-53 : ℤ) :=
          mul_le_mul_of_nonneg_right hstep (zpow_pos two_pos _).le

/-! ## Values of finite doubles -/

theorem Binary64.Finite.magnitude_nonneg (x : Binary64.Finite) : 0 ≤ x.magnitude := by
  rw [Binary64.Finite.magnitude, Binary64.scaled_eq]
  positivity

theorem Binary64.Finite.magnitude_eq_zero_iff {x : Binary64.Finite} :
    x.magnitude = 0 ↔ x.significand = 0 := by
  rw [Binary64.Finite.magnitude, Binary64.scaled_eq, mul_eq_zero]
  have : (2 : ℚ) ^ x.exponent ≠ 0 := (zpow_pos two_pos x.exponent).ne'
  simp [this]

theorem Binary64.Finite.toRat_of_not_negative {x : Binary64.Finite} (h : x.negative = false) :
    x.toRat = x.magnitude := by
  simp [Binary64.Finite.toRat, h]

/-- A negative double that is not below zero is zero. -/
theorem Binary64.Finite.toRat_eq_zero_of_negative {x : Binary64.Finite} (h : x.negative = true)
    (hx : 0 ≤ x.toRat) : x.toRat = 0 := by
  have hm := x.magnitude_nonneg
  simp only [Binary64.Finite.toRat, h, if_true] at hx ⊢
  linarith

theorem Binary64.Finite.toRat_zero (negative : Bool) :
    (Binary64.Finite.zero negative).toRat = 0 := by
  have hm : (Binary64.Finite.zero negative).magnitude = 0 :=
    Binary64.Finite.magnitude_eq_zero_iff.2 rfl
  simp only [Binary64.Finite.toRat, hm, neg_zero, ite_self]

theorem Binary64.Finite.toRat_of_one {x : Binary64.Finite} (h : Binary64.finite x = .one) :
    x.toRat = 1 := by
  rw [Binary64.one, Binary64.finite.injEq] at h
  rw [h]
  decide

/-! ## Operations -/

/-- Rounding a rational number of a given sign; only zero may be taken as negative here. -/
theorem Binary64.exists_nearestRat (negative : Bool) {q : ℚ} (hq : 0 ≤ q)
    (hsign : negative = true → q = 0) (hlt : q < (2 : ℚ) ^ (1023 : ℤ)) :
    ∃ x, Binary64.nearestRat negative q = .finite x ∧ x.negative = negative ∧
      Binary64.Near q x.toRat := by
  rcases hq.eq_or_lt with rfl | hpos
  case inl =>
    refine ⟨.zero negative, by simp [Binary64.nearestRat, Binary64.nearest], rfl, ?_⟩
    rw [Binary64.Finite.toRat_zero]
    exact Binary64.near_zero
  case inr =>
    have hnum : 0 < q.num := Rat.num_pos.2 hpos
    have hcast : ((q.num.natAbs : ℕ) : ℚ) = (q.num : ℚ) := by
      rw [← Int.cast_natCast, Int.natAbs_of_nonneg hnum.le]
    have hvalue : ((q.num.natAbs : ℕ) : ℚ) / (q.den : ℚ) = q := by
      rw [hcast, Rat.num_div_den]
    have hn : 0 < q.num.natAbs := by omega
    obtain ⟨x, hx, hneg, hrounded⟩ := Binary64.exists_nearest negative hn q.den_pos
      (by rw [hvalue]; exact hlt)
    have hgrid := Binary64.two_zpow_gridExponent_le hn q.den_pos
    rw [hvalue] at hrounded hgrid
    have hfalse : negative = false := by
      cases negative with
      | false => rfl
      | true => exact absurd (hsign rfl) hpos.ne'
    refine ⟨x, hx, hneg, ?_⟩
    rw [Binary64.Finite.toRat_of_not_negative (hneg.trans hfalse)]
    exact hrounded.near hgrid

/-- Integers up to `2^53` are far inside the range of the finite doubles. -/
theorem Binary64.two_pow_lt_range : ((2 ^ 53 : ℕ) : ℚ) < (2 : ℚ) ^ (1023 : ℤ) := by
  have hpow : (2 : ℚ) ^ (53 : ℤ) < (2 : ℚ) ^ (1023 : ℤ) :=
    zpow_lt_zpow_right₀ (by norm_num) (by norm_num)
  calc ((2 ^ 53 : ℕ) : ℚ) = (2 : ℚ) ^ (53 : ℤ) := by norm_num
    _ < _ := hpow

/-- Integers up to `2^53` are doubles. -/
theorem Binary64.exists_ofNat {n : Nat} (hn : n ≤ 2 ^ 53) :
    ∃ x, Binary64.ofNat n = .finite x ∧ x.negative = false ∧ x.toRat = n := by
  have hlt : (n : ℚ) < (2 : ℚ) ^ (1023 : ℤ) := by
    have hcast : (n : ℚ) ≤ ((2 ^ 53 : ℕ) : ℚ) := by exact_mod_cast hn
    exact lt_of_le_of_lt hcast Binary64.two_pow_lt_range
  have hnonneg : (0 : ℚ) ≤ n := Nat.cast_nonneg n
  obtain ⟨x, hx, hneg, hnear⟩ := Binary64.exists_nearestRat false hnonneg (by simp) hlt
  refine ⟨x, ?_, hneg, hnear.eq_of_natCast hn⟩
  rw [← hx, Binary64.nearestRat, Binary64.ofNat]
  simp

/-- Values that are not negative with different sign bits have the product zero. -/
theorem Binary64.Finite.eq_zero_of_signs {x y : Binary64.Finite} (hx : 0 ≤ x.toRat) (hy : 0 ≤ y.toRat)
    (h : (x.negative != y.negative) = true) : x.toRat = 0 ∨ y.toRat = 0 := by
  cases hxn : x.negative with
  | true => exact .inl (Binary64.Finite.toRat_eq_zero_of_negative hxn hx)
  | false =>
    have hyn : y.negative = true := by simpa [hxn] using h
    exact .inr (Binary64.Finite.toRat_eq_zero_of_negative hyn hy)

theorem Binary64.exists_mul {x y : Binary64.Finite} (hx : 0 ≤ x.toRat) (hy : 0 ≤ y.toRat)
    (hlt : x.toRat * y.toRat < (2 : ℚ) ^ (1023 : ℤ)) :
    ∃ z, (Binary64.finite x * Binary64.finite y) = .finite z ∧
      Binary64.Near (x.toRat * y.toRat) z.toRat := by
  have hsign : (x.negative != y.negative) = true → x.toRat * y.toRat = 0 := fun h =>
    mul_eq_zero.2 (Binary64.Finite.eq_zero_of_signs hx hy h)
  obtain ⟨z, hz, -, hnear⟩ := Binary64.exists_nearestRat _ (mul_nonneg hx hy) hsign hlt
  exact ⟨z, hz, hnear⟩

theorem Binary64.exists_div {x y : Binary64.Finite} (hx : 0 ≤ x.toRat) (hy : 0 < y.toRat)
    (hlt : x.toRat / y.toRat < (2 : ℚ) ^ (1023 : ℤ)) :
    ∃ z, (Binary64.finite x / Binary64.finite y) = .finite z ∧
      Binary64.Near (x.toRat / y.toRat) z.toRat := by
  have hsign : (x.negative != y.negative) = true → x.toRat / y.toRat = 0 := fun h =>
    div_eq_zero_iff.2 (Binary64.Finite.eq_zero_of_signs hx hy.le h)
  have hsignificand : y.significand ≠ 0 := by
    intro h0
    have hm := Binary64.Finite.magnitude_eq_zero_iff.2 h0
    simp only [Binary64.Finite.toRat, hm, neg_zero, ite_self] at hy
    exact lt_irrefl _ hy
  obtain ⟨z, hz, -, hnear⟩ := Binary64.exists_nearestRat _ (div_nonneg hx hy.le) hsign hlt
  refine ⟨z, ?_, hnear⟩
  show Binary64.div (.finite x) (.finite y) = _
  simp only [Binary64.div, if_neg hsignificand]
  exact hz

end FoldedStacks
