-- SUMMARY: Scaling by a ratio: every count becomes one of the integers around its exact product, and the total is bounded by sums over the counts.
import Mathlib
import FoldedStacks.Proofs.DoubleArithmetic
import FoldedStacks.Proofs.Totals
import FoldedStacks.Stack.Scaling

/-!
# Scaled counts

The product of a count and a ratio is rounded to a double and then to an integer by a draw. In the
range of exact integers neither step leaves the two integers around the exact product.
-/

namespace FoldedStacks

/-! ## One count -/

theorem Draws.fraction_nonneg (word : UInt64) : 0 ≤ Draws.fraction word := by
  rw [Draws.fraction, Rat.mkRat_eq_div]
  positivity

theorem Count.roundBy_eq (u q : ℚ) :
    Count.roundBy u q = if u < q - (⌊q⌋ : ℚ) then ⌊q⌋ + 1 else ⌊q⌋ := rfl

theorem Count.floor_le_roundBy (u q : ℚ) : ⌊q⌋ ≤ Count.roundBy u q := by
  rw [Count.roundBy_eq]
  split <;> omega

theorem Count.roundBy_le_ceil {u q : ℚ} (hu : 0 ≤ u) : Count.roundBy u q ≤ ⌈q⌉ := by
  rw [Count.roundBy_eq]
  split
  next hlt =>
    -- rounding up means that there is a fractional part
    have hfloor : (⌊q⌋ : ℚ) < q := by linarith
    exact Int.add_one_le_iff.2 (Int.lt_ceil.2 hfloor)
  next => exact Int.floor_le_ceil q

/-- A scaled count is one of the two integers around the exact product. -/
theorem Count.scale_between {n : Count} {r : Binary64.Finite} (word : UInt64) (hr : 0 ≤ r.toRat)
    (hn : n.val ≤ 2 ^ 53) (hprod : (n.val : ℚ) * r.toRat ≤ ((2 ^ 53 : ℕ) : ℚ)) :
    ⌊(n.val : ℚ) * r.toRat⌋₊ ≤ (n.scale (.finite r) word).val ∧
      (n.scale (.finite r) word).val ≤ ⌈(n.val : ℚ) * r.toRat⌉₊ := by
  obtain ⟨x, hx, -, hxval⟩ := Binary64.exists_ofNat hn
  have hxnonneg : 0 ≤ x.toRat := by rw [hxval]; exact Nat.cast_nonneg _
  obtain ⟨z, hz, hnear⟩ := Binary64.exists_mul hxnonneg hr
    (by rw [hxval]; exact lt_of_le_of_lt hprod Binary64.two_pow_lt_range)
  rw [hxval] at hnear
  have hq : 0 ≤ (n.val : ℚ) * r.toRat := mul_nonneg (Nat.cast_nonneg _) hr
  -- both neighbours are integers that the rounded product does not pass
  have hceil : ⌈(n.val : ℚ) * r.toRat⌉₊ ≤ 2 ^ 53 := Nat.ceil_le.2 hprod
  have hfloor : ⌊(n.val : ℚ) * r.toRat⌋₊ ≤ 2 ^ 53 := (Nat.floor_le_ceil _).trans hceil
  have hlo := hnear.le_of_le _ hfloor (Nat.floor_le hq)
  have hhi := hnear.ge_of_ge _ hceil (Nat.le_ceil _)
  have hscale : n.scale (.finite r) word =
      .ofNat (Count.roundBy (Draws.fraction word) z.toRat).toNat := by
    simp only [Count.scale, hx, hz]
  have hround_lo : (⌊(n.val : ℚ) * r.toRat⌋₊ : ℤ) ≤
      Count.roundBy (Draws.fraction word) z.toRat :=
    (Int.le_floor.2 (by exact_mod_cast hlo)).trans (Count.floor_le_roundBy _ _)
  have hround_hi : Count.roundBy (Draws.fraction word) z.toRat ≤
      (⌈(n.val : ℚ) * r.toRat⌉₊ : ℤ) :=
    (Count.roundBy_le_ceil (Draws.fraction_nonneg word)).trans
      (Int.ceil_le.2 (by exact_mod_cast hhi))
  have hlimit : 2 ^ 53 ≤ Count.limit := by decide
  rw [hscale]
  simp only [Count.ofNat]
  omega

/-- A scaled count is within one sample of the exact product. -/
theorem Count.scale_within_one {n : Count} {r : Binary64.Finite} (word : UInt64) (hr : 0 ≤ r.toRat)
    (hn : n.val ≤ 2 ^ 53) (hprod : (n.val : ℚ) * r.toRat ≤ ((2 ^ 53 : ℕ) : ℚ)) :
    (n.val : ℚ) * r.toRat + -1 ≤ ((n.scale (.finite r) word).val : ℚ) ∧
      ((n.scale (.finite r) word).val : ℚ) ≤ (n.val : ℚ) * r.toRat + 1 := by
  obtain ⟨hlo, hhi⟩ := Count.scale_between word hr hn hprod
  have hq : 0 ≤ (n.val : ℚ) * r.toRat := mul_nonneg (Nat.cast_nonneg _) hr
  have hlo' : ((⌊(n.val : ℚ) * r.toRat⌋₊ : ℕ) : ℚ) ≤ (n.scale (.finite r) word).val := by
    exact_mod_cast hlo
  have hhi' : ((n.scale (.finite r) word).val : ℚ) ≤ (⌈(n.val : ℚ) * r.toRat⌉₊ : ℕ) := by
    exact_mod_cast hhi
  have hfloor := Nat.lt_floor_add_one ((n.val : ℚ) * r.toRat)
  have hceil := Nat.ceil_lt_add_one hq
  constructor <;> linarith

/-! ## A table -/

/-- A count and its exact product lie in the range of exact integers. -/
def Count.InRange (c : Count) (r : ℚ) : Prop :=
  c.val ≤ 2 ^ 53 ∧ (c.val : ℚ) * r ≤ ((2 ^ 53 : ℕ) : ℚ)

/-- Bounds on every scaled count are bounds on their sum; entries that are dropped count nothing. -/
private theorem Entries.sum_scaleEntry {ratio : Binary64} {ds : Draws} {lo hi : Count → ℚ}
    {l : List (String × Count)} (i : Nat)
    (h : ∀ e ∈ l, ∀ word, lo e.2 ≤ ((e.2.scale ratio word).val : ℚ) ∧
      ((e.2.scale ratio word).val : ℚ) ≤ hi e.2) :
    (l.map fun e => lo e.2).sum ≤
        ((((Entries.filterMapFrom (StackCounts.scaleEntry ratio ds) i l).map
          fun e => e.2.val).sum : ℕ) : ℚ) ∧
      ((((Entries.filterMapFrom (StackCounts.scaleEntry ratio ds) i l).map
        fun e => e.2.val).sum : ℕ) : ℚ) ≤ (l.map fun e => hi e.2).sum := by
  induction l generalizing i with
  | nil => simp [Entries.filterMapFrom]
  | cons e es ih =>
    obtain ⟨hlo, hhi⟩ := h e (by simp) (ds i)
    obtain ⟨ihlo, ihhi⟩ := ih (i + 1) fun e' he' => h e' (by simp [he'])
    have hstep : (((Entries.filterMapFrom (StackCounts.scaleEntry ratio ds) i (e :: es)).map
          fun e => e.2.val).sum : ℕ) = (e.2.scale ratio (ds i)).val +
        ((Entries.filterMapFrom (StackCounts.scaleEntry ratio ds) (i + 1) es).map
          fun e => e.2.val).sum := by
      -- an entry scaled to zero is dropped, which leaves the sum as it is
      rw [Entries.filterMapFrom, StackCounts.scaleEntry]
      by_cases hzero : e.2.scale ratio (ds i) = Count.zero
      · simp [hzero, Count.zero]
      · simp [hzero]
    rw [hstep, Nat.cast_add]
    simp only [List.map_cons, List.sum_cons]
    constructor <;> linarith

theorem StackCounts.exactTotal_scale_between {s : StackCounts} {ratio : Binary64} (ds : Draws)
    (lo hi : Count → ℚ) (hratio : ratio ≠ .one)
    (h : ∀ e ∈ s.entries, ∀ word, lo e.2 ≤ ((e.2.scale ratio word).val : ℚ) ∧
      ((e.2.scale ratio word).val : ℚ) ≤ hi e.2) :
    (s.entries.map fun e => lo e.2).sum ≤ ((s.scale ratio ds).exactTotal : ℚ) ∧
      ((s.scale ratio ds).exactTotal : ℚ) ≤ (s.entries.map fun e => hi e.2).sum := by
  rw [StackCounts.scale, if_neg hratio, StackCounts.exactTotal_eq_sum]
  exact Entries.sum_scaleEntry 0 h

/-- The sum of a linear function of the counts. -/
theorem StackCounts.sum_linear (s : StackCounts) (a b : ℚ) :
    (s.entries.map fun e => (e.2.val : ℚ) * a + b).sum =
      (s.exactTotal : ℚ) * a + (s.entries.length : ℚ) * b := by
  rw [StackCounts.exactTotal_eq_sum]
  induction s.entries with
  | nil => simp
  | cons e es ih =>
    simp only [List.map_cons, List.sum_cons, List.length_cons, ih]
    push_cast
    ring

/-- The errors of all stacks together are at most one sample for each. -/
theorem StackCounts.exactTotal_scale {s : StackCounts} {r : Binary64.Finite} (hr : 0 ≤ r.toRat)
    (ds : Draws) (hrange : ∀ e ∈ s.entries, e.2.InRange r.toRat) :
    |((s.scale (.finite r) ds).exactTotal : ℚ) - r.toRat * s.exactTotal| ≤ s.size := by
  by_cases hone : Binary64.finite r = .one
  case pos =>
    rw [StackCounts.scale, if_pos hone, Binary64.Finite.toRat_of_one hone, one_mul, sub_self,
      abs_zero]
    exact Nat.cast_nonneg _
  case neg =>
    obtain ⟨hlo, hhi⟩ := StackCounts.exactTotal_scale_between ds
      (fun n => (n.val : ℚ) * r.toRat + -1) (fun n => (n.val : ℚ) * r.toRat + 1) hone
      fun e he word => Count.scale_within_one word hr (hrange e he).1 (hrange e he).2
    rw [StackCounts.sum_linear] at hlo hhi
    have hsize : (s.size : ℚ) = s.entries.length := rfl
    rw [abs_le]
    constructor <;> linarith

end FoldedStacks
