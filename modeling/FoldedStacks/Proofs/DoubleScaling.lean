-- SUMMARY: Scaling as a loop that draws a word for each stack and computes in doubles only: its table and the stream it leaves are the ones that scaling is defined by.
import Mathlib
import FoldedStacks.Proofs.IntegerParts
import FoldedStacks.Proofs.Scaling

/-!
# Scaling in doubles

The counts of a table are scaled one after the other. For each a word is taken from the stream, made
into a double, and compared with the fractional part of the product, which is a double as well. All
of these operations but the product itself are exact, so the loop computes the counts that
`Count.scale` states over the rational numbers.
-/

namespace FoldedStacks

/-! ## The double of a word -/

/-- The upper 53 bits of a word. -/
def Draws.upper (word : UInt64) : Nat :=
  (word >>> 11).toNat

theorem Draws.upper_eq (word : UInt64) : Draws.upper word = word.toNat / 2 ^ 11 := by
  rw [Draws.upper, UInt64.toNat_shiftRight, Nat.shiftRight_eq_div_pow]
  rfl

theorem Draws.upper_lt (word : UInt64) : Draws.upper word < 2 ^ 53 := by
  have hword := word.toNat_lt
  rw [Draws.upper_eq]
  omega

theorem Draws.fraction_eq (word : UInt64) :
    Draws.fraction word = (Draws.upper word : ℚ) / ((2 ^ 53 : ℕ) : ℚ) := by
  rw [Draws.fraction, Rat.mkRat_eq_div]
  rfl

/-- The double in `[0, 1)` that a word stands for: its upper 53 bits times the double `1 / 2^53`. -/
def Draws.unit (word : UInt64) : Binary64 :=
  .ofNat (Draws.upper word) * (.one / .ofNat (2 ^ 53))

theorem Draws.exists_unit (word : UInt64) :
    ∃ y, Draws.unit word = .finite y ∧ y.toRat = Draws.fraction word := by
  have hupper := Draws.upper_lt word
  obtain ⟨a, ha, hfactor, hvalue⟩ := Binary64.exists_ofNat hupper.le
  have hstep : Binary64.one / Binary64.ofNat (2 ^ 53) =
      .finite ⟨false, 2 ^ 52, -105, by decide⟩ := by decide +kernel
  have hstepValue : Binary64.Finite.toRat ⟨false, 2 ^ 52, -105, by decide⟩ =
      (2 : ℚ) ^ (-53 : ℤ) := by
    rw [Binary64.Finite.toRat_of_not_negative rfl, Binary64.Finite.magnitude, Binary64.scaled_eq]
    norm_num
  have hproduct : Draws.unit word =
      Binary64.nearestRat false ((Draws.upper word : ℚ) * (2 : ℚ) ^ (-53 : ℤ)) := by
    rw [Draws.unit, ha, hstep, ← hstepValue, ← hvalue]
    show Binary64.nearestRat (a.negative != false) _ = _
    rw [hfactor]
    rfl
  have hnonneg : (0 : ℚ) ≤ (Draws.upper word : ℚ) * (2 : ℚ) ^ (-53 : ℤ) := by positivity
  have hsign : Binary64.SignOf false ((Draws.upper word : ℚ) * (2 : ℚ) ^ (-53 : ℤ)) := hnonneg
  -- 53 bits behind the point are a double
  obtain ⟨y, hy, hyvalue⟩ := Binary64.exists_nearestRat_eq hsign
    ⟨Draws.upper word, -53, hupper, by norm_num, by norm_num, abs_of_nonneg hnonneg⟩
  refine ⟨y, hproduct.trans hy, ?_⟩
  rw [hyvalue, Draws.fraction_eq, zpow_neg, div_eq_mul_inv]
  norm_num

/-! ## One count -/

/-- Whether one double is below another one. NaN is below nothing, and nothing is below it. -/
def Binary64.below : Binary64 → Binary64 → Bool
  | .finite x, .finite y => decide (x.toRat < y.toRat)
  | .infinite s, .infinite t => s && !t
  | .infinite s, .finite _ => s
  | .finite _, .infinite t => !t
  | _, _ => false

/-- A count scaled by a ratio, every step of it computed in doubles. -/
def Count.scaleInDoubles (n : Count) (ratio : Binary64) (word : UInt64) : Count :=
  let product := Binary64.ofNat n.val * ratio
  let whole :=
    if (Draws.unit word).below product.fract then product.ceil else product.floor
  .ofNat (whole.toNatUpTo Count.limit)

theorem Binary64.truncated_intCast (z : ℤ) : Binary64.truncated (z : ℚ) = z := by
  rcases Binary64.truncated_eq_or (z : ℚ) with h | h
  · rw [h, Int.floor_intCast]
  · rw [h, Int.ceil_intCast]

theorem Count.ofNat_min_limit (n : Nat) : Count.ofNat (min n Count.limit) = .ofNat n := by
  ext
  simp only [Count.ofNat]
  omega

/-- A double that is an integer, as a count. -/
private theorem Count.ofNat_toNatUpTo {y : Binary64.Finite} {z : ℤ} (h : y.toRat = z) :
    Count.ofNat (Binary64.toNatUpTo Count.limit (.finite y)) = .ofNat z.toNat := by
  rw [Binary64.toNatUpTo, h, Binary64.truncated_intCast, Count.ofNat_min_limit]

/-- Rounding by a comparison with the fractional part; what is not above zero becomes zero. -/
private theorem Count.toNat_roundBy {u q : ℚ} (hu : 0 ≤ u) :
    (Count.roundBy u q).toNat = (if u < q - Binary64.truncated q then ⌈q⌉ else ⌊q⌋).toNat := by
  rcases le_or_gt 0 q with hq | hq
  case inl =>
    rw [Count.roundBy_eq, Binary64.truncated_of_nonneg hq]
    split
    next hlt =>
      have hfloor : (⌊q⌋ : ℚ) < q := by linarith
      have hceil : ⌊q⌋ + 1 = ⌈q⌉ :=
        le_antisymm (Int.add_one_le_iff.2 (Int.lt_ceil.2 hfloor)) (Int.ceil_le_floor_add_one q)
      rw [hceil]
    next => rfl
  case inr =>
    -- below zero the fractional part is not positive, and both neighbours are not either
    have hceil : ⌈q⌉ ≤ 0 := Int.ceil_le.2 (by exact_mod_cast hq.le)
    have hle := Int.le_ceil q
    have hnot : ¬ u < q - Binary64.truncated q := by
      rw [Binary64.truncated_of_nonpos hq.le]
      linarith
    have hfloor := Int.floor_le_ceil q
    have hup := Count.roundBy_le_ceil (q := q) hu
    rw [if_neg hnot, Int.toNat_of_nonpos (hup.trans hceil), Int.toNat_of_nonpos (hfloor.trans hceil)]

/-- The doubles give the count that the exact comparison gives. -/
theorem Count.scaleInDoubles_eq (n : Count) (ratio : Binary64) (word : UInt64) :
    n.scaleInDoubles ratio word = n.scale ratio word := by
  obtain ⟨u, hu, huval⟩ := Draws.exists_unit word
  rw [Count.scaleInDoubles, Count.scale, hu]
  cases hproduct : Binary64.ofNat n.val * ratio with
  | nan => rfl
  | infinite negative =>
    cases negative <;> rfl
  | finite x =>
    obtain ⟨f, hf, hfval⟩ := Binary64.exists_fract x
    obtain ⟨c, hc, hcval⟩ := Binary64.exists_toInteger (f := fun q => ⌈q⌉) x (.inr rfl)
    obtain ⟨l, hl, hlval⟩ := Binary64.exists_toInteger (f := fun q => ⌊q⌋) x (.inl rfl)
    have hbelow : Binary64.below (.finite u) (.finite f) =
        decide (Draws.fraction word < x.toRat - Binary64.truncated x.toRat) := by
      rw [Binary64.below, huval, hfval]
    simp only [Binary64.ceil, Binary64.floor, hf, hc, hl, hbelow, decide_eq_true_eq]
    rw [Count.toNat_roundBy (Draws.fraction_nonneg word)]
    split
    · exact Count.ofNat_toNatUpTo hcval
    · exact Count.ofNat_toNatUpTo hlval

/-- Every count has a finite double, which is not negative and passes no integer up to `2^53`. -/
theorem Count.exists_ofNat (n : Count) :
    ∃ x, Binary64.ofNat n.val = .finite x ∧ x.negative = false ∧ Binary64.Near n.val x.toRat := by
  have hrange : (n.val : ℚ) < (2 : ℚ) ^ (1023 : ℤ) := by
    have hlimit : (n.val : ℚ) ≤ (2 : ℚ) ^ (64 : ℤ) := by
      exact_mod_cast n.val_le.trans (Nat.sub_le _ _)
    exact lt_of_le_of_lt hlimit (zpow_lt_zpow_right₀ (by norm_num) (by norm_num))
  obtain ⟨x, hx, hsign, hnear⟩ :=
    Binary64.exists_nearestRat false (Nat.cast_nonneg n.val) (by simp) hrange
  refine ⟨x, ?_, hsign, hnear⟩
  rw [← hx, Binary64.nearestRat, Binary64.ofNat, Rat.num_natCast, Rat.den_natCast,
    Int.natAbs_natCast]

/-- So has one times the count. -/
theorem Count.exists_mul_one (n : Count) :
    ∃ x, Binary64.ofNat n.val * .one = .finite x ∧ Binary64.Near n.val x.toRat := by
  obtain ⟨x, hx, hsign, hnear⟩ := n.exists_ofNat
  exact ⟨x, by rw [hx, Binary64.mul_one_of_not_negative hsign], hnear⟩

/-! ## The loop over the stacks -/

theorem Draws.after_zero (ds : Draws) : ds.after 0 = ds := by
  funext i
  rw [Draws.after, Nat.zero_add]

theorem Draws.after_after (ds : Draws) (m n : Nat) : (ds.after m).after n = ds.after (m + n) := by
  funext i
  simp only [Draws.after, Nat.add_assoc]

/-- Takes the next word of the stream. -/
def Draws.next : StateM Draws UInt64 := do
  let ds ← get
  set (ds.after 1)
  return ds 0

/-- Scales the count of one stack by the next word, and enters the stack unless nothing is left. -/
def StackCounts.scaleStep (ratio : Binary64) (scaled : StackCounts) (e : String × Count) :
    StateM Draws StackCounts := do
  let word ← Draws.next
  let n := e.2.scaleInDoubles ratio word
  return if n = .zero then scaled else scaled.add e.1 n

/-- Scales the stacks of a table one after the other, whatever the ratio. -/
def StackCounts.scaleLoop (s : StackCounts) (ratio : Binary64) : StateM Draws StackCounts :=
  s.entries.foldlM (StackCounts.scaleStep ratio) SortedMap.empty

/-- Scales a table; by one, it is not looked at. -/
def StackCounts.scaling (s : StackCounts) (ratio : Binary64) : StateM Draws StackCounts :=
  if ratio = .one then return s else s.scaleLoop ratio

theorem StackCounts.entries_add_of_lt {s : StackCounts} {stack : String}
    (h : ∀ e ∈ s.entries, compare e.1 stack = .lt) (n : Count) :
    (s.add stack n).entries = s.entries ++ [(stack, n)] := by
  have hzero : Count.zero + n = n := by rw [Count.add_comm, Count.add_zero]
  have happend := Entries.upsert_of_above h fun held => held.getD Count.zero + n
  rw [Option.getD_none, hzero] at happend
  exact happend

/-- One step appends what is left of the stack at its place in the stream. -/
theorem StackCounts.scaleStep_run {scaled : StackCounts} {e : String × Count}
    (h : ∀ d ∈ scaled.entries, compare d.1 e.1 = .lt) (ratio : Binary64) (ds : Draws) (i : Nat) :
    let out := (StackCounts.scaleStep ratio scaled e).run (ds.after i)
    out.1.entries = scaled.entries ++
        Entries.filterMapFrom (StackCounts.scaleEntry ratio ds) i [e] ∧
      out.2 = ds.after (i + 1) := by
  intro out
  refine ⟨?_, Draws.after_after ds i 1⟩
  have hout : out.1 = if e.2.scale ratio (ds i) = .zero then scaled
      else scaled.add e.1 (e.2.scale ratio (ds i)) := by
    rw [← Count.scaleInDoubles_eq]
    rfl
  rw [hout, Entries.filterMapFrom, StackCounts.scaleEntry]
  by_cases hzero : e.2.scale ratio (ds i) = .zero
  · simp [hzero, Entries.filterMapFrom]
  · simp [hzero, Entries.filterMapFrom, StackCounts.entries_add_of_lt h]

theorem StackCounts.foldlM_scaleStep_run (ratio : Binary64) (ds : Draws)
    {l : List (String × Count)} (hl : Entries.Ascending l) {scaled : StackCounts}
    (h : ∀ d ∈ scaled.entries, ∀ e ∈ l, compare d.1 e.1 = .lt) (i : Nat) :
    let out := (l.foldlM (StackCounts.scaleStep ratio) scaled).run (ds.after i)
    out.1.entries = scaled.entries ++
        Entries.filterMapFrom (StackCounts.scaleEntry ratio ds) i l ∧
      out.2 = ds.after (i + l.length) := by
  -- the stacks entered so far stand below all that are to come
  induction l generalizing scaled i with
  | nil => exact ⟨(List.append_nil _).symm, rfl⟩
  | cons e es ih =>
    obtain ⟨he, hes⟩ := Entries.ascending_cons.1 hl
    obtain ⟨hentries, hdraws⟩ := StackCounts.scaleStep_run (fun d hd => h d hd e (by simp)) ratio ds i
    generalize hout : (StackCounts.scaleStep ratio scaled e).run (ds.after i) = out
      at hentries hdraws
    have hbelow : ∀ d ∈ out.1.entries, ∀ e' ∈ es, compare d.1 e'.1 = .lt := by
      intro d hd e' he'
      rw [hentries] at hd
      rcases List.mem_append.1 hd with hd | hd
      · exact h d hd e' (by simp [he'])
      · obtain ⟨_, hmem, hkey⟩ := Entries.mem_filterMapFrom hd
        rw [List.mem_singleton.1 hmem] at hkey
        rw [← hkey]
        exact he e' he'
    have hrun : ((e :: es).foldlM (StackCounts.scaleStep ratio) scaled).run (ds.after i) =
        (es.foldlM (StackCounts.scaleStep ratio) out.1).run out.2 := by
      rw [List.foldlM_cons, StateT.run_bind, hout]
      rfl
    obtain ⟨ihentries, ihdraws⟩ := ih hes hbelow (i + 1)
    intro final
    have hfinal : final = (es.foldlM (StackCounts.scaleStep ratio) out.1).run (ds.after (i + 1)) :=
      hrun.trans (by rw [hdraws])
    rw [hfinal, ihentries, ihdraws, hentries, List.append_assoc, List.length_cons,
      Entries.filterMapFrom_cons]
    exact ⟨rfl, congrArg ds.after (by omega)⟩

/-- The loop computes the table in which every stack is scaled by the word at its place, and takes a
    word for each. -/
theorem StackCounts.scaleLoop_run (s : StackCounts) (ratio : Binary64) (ds : Draws) :
    (s.scaleLoop ratio).run ds =
      (s.filterMapIdx (StackCounts.scaleEntry ratio ds), ds.after s.size) := by
  have hnothing : ∀ d ∈ (SortedMap.empty : StackCounts).entries, ∀ e ∈ s.entries,
      compare d.1 e.1 = .lt := fun d hd => absurd hd List.not_mem_nil
  obtain ⟨hentries, hdraws⟩ :=
    StackCounts.foldlM_scaleStep_run ratio ds s.ascending hnothing 0
  rw [Draws.after_zero] at hentries hdraws
  rw [Nat.zero_add] at hdraws
  exact Prod.ext (SortedMap.ext hentries) hdraws

theorem StackCounts.fst_scaleLoop_run (s : StackCounts) (ratio : Binary64) (ds : Draws) :
    ((s.scaleLoop ratio).run ds).1 = s.filterMapIdx (StackCounts.scaleEntry ratio ds) :=
  congrArg Prod.fst (s.scaleLoop_run ratio ds)

/-- Scaling leaves the stream behind the words taken. -/
theorem StackCounts.scaling_run (s : StackCounts) (ratio : Binary64) (ds : Draws) :
    (s.scaling ratio).run ds = (s.scale ratio ds, ds.after (s.drawsTaken ratio)) := by
  rw [StackCounts.scaling, StackCounts.scale, StackCounts.drawsTaken]
  split
  · rw [Draws.after_zero]
    rfl
  · exact s.scaleLoop_run ratio ds

end FoldedStacks
