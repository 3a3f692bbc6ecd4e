-- SUMMARY: The nearest double depends on a fraction only through its value, and a fraction that is a double is rounded to itself.
import Mathlib
import FoldedStacks.Proofs.Rounding

/-!
# Rounding of values

`Binary64.nearest` computes with a numerator and a denominator. Its result is the same for all
fractions of one value, and the value of a finite double is its own nearest double.
-/

namespace FoldedStacks

section Fractions

variable {n d n' d' : Nat}

theorem Binary64.fraction_eq_iff (hd : 0 < d) (hd' : 0 < d') :
    (n : ℚ) / d = (n' : ℚ) / d' ↔ n * d' = n' * d := by
  have hdq : (d : ℚ) ≠ 0 := by exact_mod_cast hd.ne'
  have hdq' : (d' : ℚ) ≠ 0 := by exact_mod_cast hd'.ne'
  rw [div_eq_div_iff hdq hdq']
  exact_mod_cast Iff.rfl

/-! ## The nearest integer -/

theorem Binary64.nearestEven_mul_right (n d : Nat) {c : Nat} (hc : 0 < c) :
    Binary64.nearestEven (n * c) (d * c) = Binary64.nearestEven n d := by
  have hlt : ∀ a b : Nat, 2 * (a * c) < b * c ↔ 2 * a < b := by
    intro a b
    rw [← Nat.mul_assoc]
    exact Nat.mul_lt_mul_right hc
  have hgt : ∀ a b : Nat, b * c < 2 * (a * c) ↔ b < 2 * a := by
    intro a b
    rw [← Nat.mul_assoc]
    exact Nat.mul_lt_mul_right hc
  simp only [Binary64.nearestEven, Nat.mul_div_mul_right n d hc, Nat.mul_mod_mul_right, hlt, hgt]

theorem Binary64.nearestEven_congr (hd : 0 < d) (hd' : 0 < d') (h : n * d' = n' * d) :
    Binary64.nearestEven n d = Binary64.nearestEven n' d' := by
  rw [← Binary64.nearestEven_mul_right n d hd', ← Binary64.nearestEven_mul_right n' d' hd, h,
    Nat.mul_comm d]

/-! ## The grid -/

theorem Binary64.floorLog2_eq_log (hn : 0 < n) (hd : 0 < d) :
    Binary64.floorLog2 n d = Int.log 2 ((n : ℚ) / d) := by
  have hpos : (0 : ℚ) < (n : ℚ) / d := by positivity
  obtain ⟨hle, hlt⟩ := Binary64.floorLog2_spec hn hd
  have hbelow : Binary64.floorLog2 n d ≤ Int.log 2 ((n : ℚ) / d) :=
    (Int.zpow_le_iff_le_log (by decide) hpos).1 (by exact_mod_cast hle)
  have habove : Int.log 2 ((n : ℚ) / d) < Binary64.floorLog2 n d + 1 :=
    (Int.lt_zpow_iff_log_lt (by decide) hpos).1 (by exact_mod_cast hlt)
  omega

/-- The nearest double of a fraction is determined by its value. -/
theorem Binary64.nearest_congr (negative : Bool) (hd : 0 < d) (hd' : 0 < d')
    (h : (n : ℚ) / d = (n' : ℚ) / d') :
    Binary64.nearest negative n d = Binary64.nearest negative n' d' := by
  have hcross := (Binary64.fraction_eq_iff hd hd').1 h
  rcases Nat.eq_zero_or_pos n with rfl | hn
  · have hn' : n' = 0 := by
      rw [Nat.zero_mul] at hcross
      exact (Nat.mul_eq_zero.1 hcross.symm).resolve_right hd.ne'
    rw [hn']
    rfl
  have hn' : 0 < n' := by
    refine Nat.pos_of_ne_zero ?_
    rintro rfl
    rw [Nat.zero_mul] at hcross
    exact absurd (Nat.mul_eq_zero.1 hcross) (by omega)
  have hgrid : Binary64.gridExponent n d = Binary64.gridExponent n' d' := by
    rw [Binary64.gridExponent, Binary64.gridExponent, Binary64.floorLog2_eq_log hn hd,
      Binary64.floorLog2_eq_log hn' hd', h]
  have hsignificand : ∀ a b : Nat, 0 < b →
      Binary64.nearestEven (n * a) (d * b) = Binary64.nearestEven (n' * a) (d' * b) := by
    intro a b hb
    refine Binary64.nearestEven_congr (Nat.mul_pos hd hb) (Nat.mul_pos hd' hb) ?_
    rw [Nat.mul_mul_mul_comm, hcross, Nat.mul_mul_mul_comm]
  simp only [Binary64.nearest, hgrid, if_neg hn.ne', if_neg hn'.ne']
  rw [hsignificand _ _ (by positivity)]

/-! ## Values of doubles -/

theorem Binary64.gridExponent_of_canonical {m : Nat} {e : Int} (hn : 0 < n) (hd : 0 < d)
    (h : Binary64.Canonical m e) (hv : (n : ℚ) / d = (m : ℚ) * (2 : ℚ) ^ e) :
    Binary64.gridExponent n d = e := by
  obtain ⟨hlt, hmin, hmax, hfull⟩ := h
  have hpos : (0 : ℚ) < (n : ℚ) / d := by positivity
  have hstep : (0 : ℚ) < (2 : ℚ) ^ e := zpow_pos two_pos e
  have hpow : ∀ k : Nat, (2 : ℚ) ^ (e + k) = ((2 ^ k : ℕ) : ℚ) * (2 : ℚ) ^ e := by
    intro k
    push_cast
    exact zpow_add_natCast two_ne_zero e k
  have hupper : Int.log 2 ((n : ℚ) / d) < e + 53 := by
    refine (Int.lt_zpow_iff_log_lt (by decide) hpos).1 ?_
    have hcast : (m : ℚ) < ((2 ^ 53 : ℕ) : ℚ) := by exact_mod_cast hlt
    rw [hv]
    exact lt_of_lt_of_eq (mul_lt_mul_of_pos_right hcast hstep) (hpow 53).symm
  rw [Binary64.gridExponent, Binary64.floorLog2_eq_log hn hd]
  rcases hfull with hfull | rfl
  · have hlower : e + 52 ≤ Int.log 2 ((n : ℚ) / d) := by
      refine (Int.zpow_le_iff_le_log (by decide) hpos).1 ?_
      have hcast : ((2 ^ 52 : ℕ) : ℚ) ≤ m := by exact_mod_cast hfull
      rw [hv]
      exact le_of_eq_of_le (hpow 52) (mul_le_mul_of_nonneg_right hcast hstep.le)
    omega
  · omega

/-- A fraction that is a double is its own nearest double. -/
theorem Binary64.nearest_of_canonical {m : Nat} {e : Int} (negative : Bool) (hd : 0 < d)
    (h : Binary64.Canonical m e) (hm : 0 < m) (hv : (n : ℚ) / d = (m : ℚ) * (2 : ℚ) ^ e) :
    Binary64.nearest negative n d = .finite ⟨negative, m, e, h⟩ := by
  have hn : 0 < n := by
    refine Nat.pos_of_ne_zero ?_
    rintro rfl
    have hpos : (0 : ℚ) < (m : ℚ) * (2 : ℚ) ^ e :=
      mul_pos (by exact_mod_cast hm) (zpow_pos two_pos e)
    rw [← hv] at hpos
    simp at hpos
  have hgrid := Binary64.gridExponent_of_canonical hn hd h hv
  have hsignificand : Binary64.gridSignificand n d = m :=
    Nat.le_antisymm (Binary64.gridSignificand_le hd (by rw [hgrid, hv]))
      (Binary64.le_gridSignificand hd (by rw [hgrid, hv]))
  rw [Binary64.nearest_eq negative hn, if_neg (by rw [hsignificand]; exact h.1.ne), hsignificand,
    hgrid]
  exact Binary64.ofParts_of_canonical negative h

end Fractions

end FoldedStacks
