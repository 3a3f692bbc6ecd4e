-- SUMMARY: Rounding by a draw is fair: of the equally likely draws for a stack, just the share of the fractional part of the product rounds up, so the average over all draws is the product.
import Mathlib
import FoldedStacks.Proofs.ScaledCounts

/-!
# Fair rounding

A stack is rounded by the upper 53 bits of its word. The `2^53` values that they take are equally
likely, and those below the fractional part of the product round up. From one half on a double has
no digits behind the 53rd place, so the share of these values is the fractional part itself, and the
average is the product; below one half the share is at most one value too large.
-/

namespace FoldedStacks

/-! ## Equally likely values -/

/-- The draws with given upper bits are `2^11` words. -/
theorem Draws.ncard_upper {u : Nat} (hu : u < 2 ^ 53) :
    {word : UInt64 | Draws.upper word = u}.ncard = 2 ^ 11 := by
  -- the lower bits count these words
  refine Set.ncard_eq_of_bijective (fun i _ => UInt64.ofNat (2 ^ 11 * u + i)) ?_ ?_ ?_
  · intro word hword
    rw [Set.mem_ofPred_eq, Draws.upper_eq] at hword
    refine ⟨word.toNat % 2 ^ 11, Nat.mod_lt _ (by norm_num), ?_⟩
    rw [← hword, Nat.div_add_mod, UInt64.ofNat_toNat]
  · intro i hi
    rw [Set.mem_ofPred_eq, Draws.upper_eq, UInt64.toNat_ofNat_of_lt' (by unfold UInt64.size; omega)]
    omega
  · intro i j hi hj heq
    have hnat := congrArg UInt64.toNat heq
    rw [UInt64.toNat_ofNat_of_lt' (by unfold UInt64.size; omega),
      UInt64.toNat_ofNat_of_lt' (by unfold UInt64.size; omega)] at hnat
    omega

/-! ## The share of the values that round up -/

/-- The integer that `x` is rounded to when the upper bits of the word are `u`. -/
def Draws.rounded (x : ℚ) (u : Nat) : Nat :=
  if (u : ℚ) / ((2 ^ 53 : ℕ) : ℚ) < Int.fract x then ⌊x⌋₊ + 1 else ⌊x⌋₊

/-- How many values round `x` up. -/
def Draws.roundingUp (x : ℚ) : Nat :=
  ⌈Int.fract x * ((2 ^ 53 : ℕ) : ℚ)⌉₊

/-- A value is below a part of all values if it is among the first ones. -/
private theorem div_lt_iff_lt_ceil {N : Nat} {f : ℚ} (hN : 0 < N) (u : Nat) :
    (u : ℚ) / N < f ↔ u < ⌈f * N⌉₊ := by
  have hN' : (0 : ℚ) < N := by exact_mod_cast hN
  rw [Nat.lt_ceil, div_lt_iff₀ hN']

theorem Draws.rounded_eq (x : ℚ) (u : Nat) :
    Draws.rounded x u = if u < Draws.roundingUp x then ⌊x⌋₊ + 1 else ⌊x⌋₊ :=
  if_congr (div_lt_iff_lt_ceil (by positivity) u) rfl rfl

theorem Draws.roundingUp_le (x : ℚ) : Draws.roundingUp x ≤ 2 ^ 53 :=
  Nat.ceil_le.2 (mul_le_of_le_one_left (Nat.cast_nonneg _) (Int.fract_lt_one x).le)

section Share

variable {N k : Nat}

private theorem filter_range_lt (hk : k ≤ N) :
    (Finset.range N).filter (· < k) = Finset.range k := by
  ext u
  rw [Finset.mem_filter, Finset.mem_range, Finset.mem_range]
  omega

private theorem sum_range_lt (hk : k ≤ N) (a : Nat) :
    ∑ u ∈ Finset.range N, (((if u < k then a + 1 else a : ℕ)) : ℚ) = (N : ℚ) * a + k := by
  have hsplit : ∀ u, (((if u < k then a + 1 else a : ℕ)) : ℚ) = a + if u < k then 1 else 0 := by
    intro u
    split
    · push_cast; rfl
    · rw [add_zero]
  rw [Finset.sum_congr rfl fun u _ => hsplit u, Finset.sum_add_distrib, Finset.sum_const,
    Finset.card_range, nsmul_eq_mul, Finset.sum_boole, filter_range_lt hk, Finset.card_range]

end Share

theorem Draws.card_rounded (x : ℚ) :
    ((Finset.range (2 ^ 53)).filter fun u => Draws.rounded x u = ⌊x⌋₊ + 1).card =
      Draws.roundingUp x := by
  have hup : ∀ u, Draws.rounded x u = ⌊x⌋₊ + 1 ↔ u < Draws.roundingUp x := by
    intro u
    rw [Draws.rounded_eq]
    split <;> omega
  rw [Finset.filter_congr fun u _ => hup u, filter_range_lt (Draws.roundingUp_le x),
    Finset.card_range]

/-- The average over all values. -/
def Draws.average (x : ℚ) : ℚ :=
  (∑ u ∈ Finset.range (2 ^ 53), (Draws.rounded x u : ℚ)) / ((2 ^ 53 : ℕ) : ℚ)

theorem Draws.average_eq (x : ℚ) :
    Draws.average x = ⌊x⌋₊ + (Draws.roundingUp x : ℚ) / ((2 ^ 53 : ℕ) : ℚ) := by
  have hpos : ((2 ^ 53 : ℕ) : ℚ) ≠ 0 := by positivity
  rw [Draws.average, Finset.sum_congr rfl fun u _ => congrArg Nat.cast (Draws.rounded_eq x u),
    sum_range_lt (Draws.roundingUp_le x), add_div, mul_div_cancel_left₀ _ hpos]

theorem floor_add_fract_of_nonneg {x : ℚ} (hx : 0 ≤ x) : (⌊x⌋₊ : ℚ) + Int.fract x = x := by
  rw [natCast_floor_eq_intCast_floor hx, Int.floor_add_fract]

/-- The average is too large by less than one value. -/
theorem Draws.average_between {x : ℚ} (hx : 0 ≤ x) :
    x ≤ Draws.average x ∧ Draws.average x < x + 1 / ((2 ^ 53 : ℕ) : ℚ) := by
  have hpos : (0 : ℚ) < ((2 ^ 53 : ℕ) : ℚ) := by positivity
  have hsplit := floor_add_fract_of_nonneg hx
  have hlo : Int.fract x ≤ (Draws.roundingUp x : ℚ) / ((2 ^ 53 : ℕ) : ℚ) :=
    (le_div_iff₀ hpos).2 (Nat.le_ceil _)
  have hhi : (Draws.roundingUp x : ℚ) / ((2 ^ 53 : ℕ) : ℚ) <
      Int.fract x + 1 / ((2 ^ 53 : ℕ) : ℚ) := by
    rw [div_lt_iff₀ hpos, add_mul, one_div_mul_cancel hpos.ne']
    exact Nat.ceil_lt_add_one (mul_nonneg (Int.fract_nonneg x) hpos.le)
  rw [Draws.average_eq]
  constructor <;> linarith

/-- Nothing is lost if all digits of `x` stand in the first 53 places behind the point. -/
theorem Draws.average_of_steps {x : ℚ} (hx : 0 ≤ x) {z : ℤ}
    (hz : x * ((2 ^ 53 : ℕ) : ℚ) = z) : Draws.average x = x := by
  have hpos : ((2 ^ 53 : ℕ) : ℚ) ≠ 0 := by positivity
  have hsteps : Int.fract x * ((2 ^ 53 : ℕ) : ℚ) = ((z - ⌊x⌋ * (2 ^ 53 : ℕ) : ℤ) : ℚ) := by
    rw [Int.fract, sub_mul, hz]
    push_cast
    rfl
  have hnonneg : 0 ≤ z - ⌊x⌋ * (2 ^ 53 : ℕ) := by
    have hfract := mul_nonneg (Int.fract_nonneg x) (Nat.cast_nonneg (2 ^ 53))
    rw [hsteps] at hfract
    exact_mod_cast hfract
  obtain ⟨k, hk⟩ := Int.eq_ofNat_of_zero_le hnonneg
  have hexact : (Draws.roundingUp x : ℚ) = Int.fract x * ((2 ^ 53 : ℕ) : ℚ) := by
    rw [Draws.roundingUp, hsteps, hk, Int.cast_natCast, Nat.ceil_natCast]
  rw [Draws.average_eq, hexact, mul_div_cancel_right₀ _ hpos, floor_add_fract_of_nonneg hx]

/-! ## Scaled counts -/

/-- From one half on, all digits of a double stand in the first 53 places behind the point. -/
theorem Binary64.Finite.exists_steps_of_half_le {x : Binary64.Finite} (h : 1 / 2 ≤ x.toRat) :
    ∃ z : ℤ, x.toRat * ((2 ^ 53 : ℕ) : ℚ) = z := by
  obtain ⟨z, -, hz⟩ := x.exists_steps
  have hexponent : -53 ≤ x.exponent := by
    have hlt : (2 : ℚ) ^ (-1 : ℤ) < (2 : ℚ) ^ (53 + x.exponent) := by
      calc (2 : ℚ) ^ (-1 : ℤ) = 1 / 2 := by norm_num
        _ ≤ x.magnitude := by
          rw [← x.abs_toRat]
          exact h.trans (le_abs_self _)
        _ = (x.significand : ℚ) * (2 : ℚ) ^ x.exponent := Binary64.scaled_eq _ _
        _ < (2 : ℚ) ^ (53 + x.exponent) := Binary64.steps_lt x.canonical.1 _
    have := (zpow_lt_zpow_iff_right₀ (by norm_num : (1 : ℚ) < 2)).1 hlt
    omega
  refine ⟨z * 2 ^ (x.exponent + 53).toNat, ?_⟩
  have hplaces : (2 : ℚ) ^ x.exponent * ((2 ^ 53 : ℕ) : ℚ) = (2 : ℚ) ^ (x.exponent + 53).toNat := by
    have hcast : ((2 ^ 53 : ℕ) : ℚ) = (2 : ℚ) ^ (53 : ℤ) := by norm_num
    rw [hcast, ← zpow_add₀ two_ne_zero, ← zpow_natCast]
    congr 1
    omega
  rw [hz, mul_assoc, hplaces]
  push_cast
  rfl

/-- A product below `2^53` is rounded by the upper bits of the word. -/
theorem Count.val_scale {c : Count} {ratio : Binary64} {x : Binary64.Finite}
    (hx : Binary64.ofNat c.val * ratio = .finite x) (hnonneg : 0 ≤ x.toRat)
    (hlt : x.toRat < ((2 ^ 53 : ℕ) : ℚ)) (word : UInt64) :
    (c.scale ratio word).val = Draws.rounded x.toRat (Draws.upper word) := by
  have hfloor : (⌊x.toRat⌋).toNat = ⌊x.toRat⌋₊ := rfl
  have hfloor_nonneg : 0 ≤ ⌊x.toRat⌋ := Int.floor_nonneg.2 hnonneg
  have hfloor_lt : ⌊x.toRat⌋₊ < 2 ^ 53 := (Nat.floor_lt hnonneg).2 hlt
  have hround : (Count.roundBy (Draws.fraction word) x.toRat).toNat =
      Draws.rounded x.toRat (Draws.upper word) := by
    rw [Count.roundBy_eq, Draws.rounded, Draws.fraction_eq, Int.fract]
    split <;> omega
  have hle : Draws.rounded x.toRat (Draws.upper word) ≤ ⌊x.toRat⌋₊ + 1 := by
    rw [Draws.rounded]
    split <;> omega
  have hlimit : 2 ^ 53 ≤ Count.limit := by decide
  have hscale : c.scale ratio word = .ofNat (Draws.rounded x.toRat (Draws.upper word)) := by
    rw [← hround, Count.scale, hx]
  rw [hscale]
  simp only [Count.ofNat]
  omega

/-- A count that is scaled by one is its own product, if that is below `2^53`. -/
theorem Count.toRat_mul_one {c : Count} {x : Binary64.Finite}
    (hx : Binary64.ofNat c.val * .one = .finite x) (hlt : x.toRat < ((2 ^ 53 : ℕ) : ℚ)) :
    x.toRat = c.val := by
  obtain ⟨y, hy, hnear⟩ := c.exists_mul_one
  obtain rfl : y = x := Binary64.finite.inj (hy.symm.trans hx)
  rcases Nat.lt_or_ge c.val (2 ^ 53) with hc | hc
  · exact hnear.eq_of_natCast hc.le
  · exact absurd (hnear.le_of_le _ le_rfl (by exact_mod_cast hc)) (not_le.2 hlt)

/-- The upper bits of the word at its place decide what a stack is rounded to, also when scaling by
    one does not look at them. -/
theorem StackCounts.val_held_scale {s : StackCounts} {ratio : Binary64} {i : Nat} {stack : String}
    {c : Count} (hc : s.entries[i]? = some (stack, c)) {x : Binary64.Finite}
    (hx : Binary64.ofNat c.val * ratio = .finite x) (hnonneg : 0 ≤ x.toRat)
    (hlt : x.toRat < ((2 ^ 53 : ℕ) : ℚ)) (ds : Draws) :
    ((s.scale ratio ds).held stack).val = Draws.rounded x.toRat (Draws.upper (ds i)) := by
  by_cases hone : ratio = .one
  case pos =>
    subst hone
    have hvalue := Count.toRat_mul_one hx hlt
    rw [StackCounts.scale, if_pos rfl, StackCounts.held_of_place hc, Draws.rounded, hvalue,
      Int.fract_natCast, if_neg (not_lt.2 (by positivity)), Nat.floor_natCast]
  case neg =>
    rw [StackCounts.held_scale hone hc]
    exact Count.val_scale hx hnonneg hlt _

/-- Take a stack whose count times a ratio that is not negative has a double `x` below `2^53` as its
    product. What the stack is scaled to depends only on the upper 53 bits of the word at its place,
    whose `2^53` values come from equally many words each. As many of these values as the fractional
    part says, rounded up, give the integer above `x`, and all others the integer below. The average
    over all values is `x` itself from one half on, and otherwise above `x` by less than one value. -/
theorem StackCounts.scale_fair (s : StackCounts) {r : Binary64.Finite} (hr : 0 ≤ r.toRat) {i : Nat}
    {stack : String} {c : Count} (hc : s.entries[i]? = some (stack, c)) {x : Binary64.Finite}
    (hx : Binary64.ofNat c.val * .finite r = .finite x) (hlt : x.toRat < ((2 ^ 53 : ℕ) : ℚ)) :
    (∀ u < 2 ^ 53, {word : UInt64 | Draws.upper word = u}.ncard = 2 ^ 11) ∧
      ∃ rounded : ℕ → ℕ,
        (∀ ds : Draws, Draws.upper (ds i) < 2 ^ 53 ∧
          ((s.scale (.finite r) ds).held stack).val = rounded (Draws.upper (ds i)) ∧
          (((s.scaling (.finite r)).run ds).1.held stack).val = rounded (Draws.upper (ds i))) ∧
        (∀ u, rounded u = ⌊x.toRat⌋₊ ∨ rounded u = ⌊x.toRat⌋₊ + 1) ∧
        ((Finset.range (2 ^ 53)).filter fun u => rounded u = ⌊x.toRat⌋₊ + 1).card =
          ⌈Int.fract x.toRat * ((2 ^ 53 : ℕ) : ℚ)⌉₊ ∧
        let average := (∑ u ∈ Finset.range (2 ^ 53), (rounded u : ℚ)) / ((2 ^ 53 : ℕ) : ℚ)
        (1 / 2 ≤ x.toRat → average = x.toRat) ∧
          (x.toRat < 1 / 2 → x.toRat ≤ average ∧ average < x.toRat + 1 / ((2 ^ 53 : ℕ) : ℚ)) := by
  have hnonneg : 0 ≤ x.toRat := by
    obtain ⟨a, ha, hsign, -⟩ := c.exists_ofNat
    rw [ha] at hx
    refine Binary64.toRat_mul_nonneg ?_ hr hx
    rw [Binary64.Finite.toRat_of_not_negative hsign]
    exact a.magnitude_nonneg
  have hheld := StackCounts.val_held_scale hc hx hnonneg hlt
  refine ⟨fun u hu => Draws.ncard_upper hu, Draws.rounded x.toRat,
    fun ds => ⟨Draws.upper_lt _, hheld ds, ?_⟩, ?_, Draws.card_rounded _, ?_, ?_⟩
  · rw [StackCounts.scaling_run]
    exact hheld ds
  · intro u
    rw [Draws.rounded]
    split
    · exact .inr rfl
    · exact .inl rfl
  · intro hhalf
    obtain ⟨z, hz⟩ := Binary64.Finite.exists_steps_of_half_le hhalf
    exact Draws.average_of_steps hnonneg hz
  · intro _
    exact Draws.average_between hnonneg

/-- Half of three samples: half of the values round up, and the average is the product. -/
theorem StackCounts.scale_fair_by_half :
    let half : Binary64.Finite := ⟨false, 2 ^ 52, -53, by decide⟩
    let table : StackCounts := .ofList [("a", .ofNat 3), ("b;c", .ofNat 4)]
    ∃ rounded : ℕ → ℕ,
      (∀ ds : Draws, ((table.scale (.finite half) ds).held "a").val =
        rounded (Draws.upper (ds 0))) ∧
      ((Finset.range (2 ^ 53)).filter fun u => rounded u = 2).card = 2 ^ 52 ∧
      (∑ u ∈ Finset.range (2 ^ 53), (rounded u : ℚ)) / ((2 ^ 53 : ℕ) : ℚ) = 3 / 2 := by
  intro half table
  let x : Binary64.Finite := ⟨false, 3 * 2 ^ 51, -52, by decide⟩
  have hhalf : half.toRat = 1 / 2 := by decide +kernel
  have hx : x.toRat = 3 / 2 := by decide +kernel
  have hproduct : Binary64.ofNat (Count.ofNat 3).val * .finite half = .finite x := by
    decide +kernel
  have hplace : table.entries[0]? = some ("a", .ofNat 3) := rfl
  obtain ⟨-, rounded, hheld, -, hcard, haverage, -⟩ := StackCounts.scale_fair table (r := half)
    (by rw [hhalf]; norm_num) hplace hproduct (by rw [hx]; norm_num)
  have hfloor : ⌊(3 / 2 : ℚ)⌋₊ = 1 := by norm_num
  have hfract : Int.fract (3 / 2 : ℚ) = 1 / 2 := by norm_num [Int.fract]
  have hup : ⌈(1 / 2 : ℚ) * ((2 ^ 53 : ℕ) : ℚ)⌉₊ = 2 ^ 52 := by
    have hcast : (1 / 2 : ℚ) * ((2 ^ 53 : ℕ) : ℚ) = ((2 ^ 52 : ℕ) : ℚ) := by norm_num
    rw [hcast, Nat.ceil_natCast]
  rw [hx] at hcard haverage
  rw [hfloor, hfract, hup] at hcard
  exact ⟨rounded, fun ds => (hheld ds).2.1, hcard, haverage (by norm_num)⟩

end FoldedStacks
