-- SUMMARY: Merging keeps the sample volume of the system-wide profile: the total of a merged process is its system-wide total, up to one sample for each scaled stack.
import Mathlib
import FoldedStacks.Proofs.AttachedSamples
import FoldedStacks.Proofs.Merging
import FoldedStacks.Proofs.Scaling

/-!
# Sample volume

Scaled runtime samples add up to the samples of the system-wide profile. The ratio is rounded, its
products are rounded, and every stack is rounded to an integer by a draw. The error of the ratio is
less than one sample over all stacks together, and each stack is off by at most one more.
-/

namespace FoldedStacks

/-- The samples of the system-wide profile, as an exact sum. -/
def Merge.referenceTotal (system : Option Profile) : Nat :=
  (system.map fun p => p.counts.exactTotal).getD 0

/-! ## The ratio -/

private theorem StackCounts.total_of_lt {s : StackCounts} (h : s.exactTotal < 2 ^ 53) :
    s.total.val = s.exactTotal := by
  have hlimit : 2 ^ 53 ≤ Count.limit := by decide
  rw [StackCounts.val_total]
  omega

theorem Merge.systemTotal_of_lt {system : Option Profile}
    (h : Merge.referenceTotal system < 2 ^ 53) :
    (Merge.systemTotal system).val = Merge.referenceTotal system := by
  cases system with
  | none => rfl
  | some p => exact StackCounts.total_of_lt h

theorem Merge.exists_ratio {system : Option Profile} {r : StackCounts}
    (hsystem : Merge.referenceTotal system < 2 ^ 53) (hr : r.exactTotal < 2 ^ 53)
    (hpos : 0 < r.exactTotal) :
    ∃ x, Merge.ratio system r = .finite x ∧
      Binary64.Near ((Merge.referenceTotal system : ℚ) / r.exactTotal) x.toRat := by
  obtain ⟨t, ht, -, htval⟩ := Binary64.exists_ofNat hsystem.le
  obtain ⟨q, hq, -, hqval⟩ := Binary64.exists_ofNat hr.le
  have hone : (1 : ℚ) ≤ r.exactTotal := by exact_mod_cast hpos
  have hcast : (Merge.referenceTotal system : ℚ) ≤ ((2 ^ 53 : ℕ) : ℚ) := by
    exact_mod_cast hsystem.le
  have hle : (Merge.referenceTotal system : ℚ) / r.exactTotal ≤ ((2 ^ 53 : ℕ) : ℚ) :=
    (div_le_self (Nat.cast_nonneg _) hone).trans hcast
  obtain ⟨x, hx, hnear⟩ := Binary64.exists_div (x := t) (y := q)
    (by rw [htval]; exact Nat.cast_nonneg _) (by rw [hqval]; linarith)
    (by rw [htval, hqval]; exact lt_of_le_of_lt hle Binary64.two_pow_lt_range)
  rw [htval, hqval] at hnear
  refine ⟨x, ?_, hnear⟩
  rw [Merge.ratio, Merge.systemTotal_of_lt hsystem, StackCounts.total_of_lt hr, ht, hq, hx]

/-- The error of the ratio stays below one sample over all runtime samples together. -/
theorem Binary64.Near.ratio_error {t q : Nat} {x : ℚ} (h : Binary64.Near ((t : ℚ) / q) x)
    (ht : t < 2 ^ 53) (hq : q < 2 ^ 53) (hpos : 0 < q) : |(q : ℚ) * x - t| < 1 := by
  have hq' : (0 : ℚ) < q := by exact_mod_cast hpos
  rcases Nat.eq_zero_or_pos t with rfl | htpos
  case inl =>
    rw [Nat.cast_zero, zero_div] at h
    have hzero : x = 0 := h.eq_of_natCast (k := 0) (by norm_num)
    rw [hzero]
    simp
  case inr =>
    have hsmall : (2 : ℚ) ^ (-1022 : ℤ) ≤ (t : ℚ) / q := by
      have hone : (1 : ℚ) ≤ t := by exact_mod_cast htpos
      have hbound : (q : ℚ) ≤ (2 : ℚ) ^ (53 : ℤ) := by
        have : (q : ℚ) ≤ ((2 ^ 53 : ℕ) : ℚ) := by exact_mod_cast hq.le
        norm_num at this ⊢
        linarith
      calc (2 : ℚ) ^ (-1022 : ℤ) ≤ (2 : ℚ) ^ (-53 : ℤ) :=
            zpow_le_zpow_right₀ (by norm_num) (by norm_num)
        _ = 1 / (2 : ℚ) ^ (53 : ℤ) := by rw [zpow_neg, one_div]
        _ ≤ 1 / q := one_div_le_one_div_of_le hq' hbound
        _ ≤ (t : ℚ) / q := div_le_div_of_nonneg_right hone hq'.le
    have ht' : (t : ℚ) < (2 : ℚ) ^ (53 : ℤ) := by
      have : (t : ℚ) < ((2 ^ 53 : ℕ) : ℚ) := by exact_mod_cast ht
      norm_num at this ⊢
      linarith
    have hsplit : (q : ℚ) * x - t = q * (x - (t : ℚ) / q) := by
      rw [mul_sub, mul_div_cancel₀ _ hq'.ne']
    calc |(q : ℚ) * x - t| = q * |x - (t : ℚ) / q| := by rw [hsplit, abs_mul, abs_of_pos hq']
      _ ≤ q * ((t : ℚ) / q * (2 : ℚ) ^ (-53 : ℤ)) := mul_le_mul_of_nonneg_left (h.error hsmall) hq'.le
      _ = t * (2 : ℚ) ^ (-53 : ℤ) := by rw [← mul_assoc, mul_div_cancel₀ _ hq'.ne']
      _ < (2 : ℚ) ^ (53 : ℤ) * (2 : ℚ) ^ (-53 : ℤ) :=
          mul_lt_mul_of_pos_right ht' (zpow_pos two_pos _)
      _ = 1 := by rw [← zpow_add₀ (by norm_num : (2 : ℚ) ≠ 0)]; norm_num

/-! ## The scaled total -/

section Scaled

variable {s : StackCounts} {x : Binary64.Finite} {t : Nat}

theorem Binary64.Near.nonneg {q y : ℚ} (h : Binary64.Near q y) (hq : 0 ≤ q) : 0 ≤ y := by
  have := h.le_of_le 0 (by norm_num) (by simpa using hq)
  simpa using this

/-- A scaled count is not more than the product with a ratio that is larger by one. -/
private theorem Count.scale_le_mul {n : Count} (word : UInt64) (hx : 0 ≤ x.toRat)
    (hrange : n.InRange x.toRat) :
    ((n.scale (.finite x) word).val : ℚ) ≤ (n.val : ℚ) * (x.toRat + 1) + 0 := by
  rcases Nat.eq_zero_or_pos n.val with hzero | hpos
  · -- without samples the product is zero, whatever the ratio
    have hnone := (Count.scale_between word hx hrange.1 hrange.2).2
    rw [hzero, Nat.cast_zero, zero_mul, Nat.ceil_zero, Nat.le_zero] at hnone
    rw [hzero, hnone]
    norm_num
  · have hone : (1 : ℚ) ≤ n.val := by exact_mod_cast hpos
    have hwithin := (Count.scale_within_one word hx hrange.1 hrange.2).2
    linarith

/-- Every count of a table is scaled in the range of exact integers. -/
private theorem StackCounts.scaled_range (ht : t < 2 ^ 53) (hs : s.exactTotal < 2 ^ 53)
    (hpos : 0 < s.exactTotal) (hnear : Binary64.Near ((t : ℚ) / s.exactTotal) x.toRat)
    {e : String × Count} (he : e ∈ s.entries) : e.2.InRange x.toRat := by
  have hx : 0 ≤ x.toRat := hnear.nonneg (by positivity)
  have hval := StackCounts.val_le_exactTotal he
  have hval' : (e.2.val : ℚ) ≤ s.exactTotal := by exact_mod_cast hval
  have ht' : (t : ℚ) + 1 ≤ ((2 ^ 53 : ℕ) : ℚ) := by exact_mod_cast ht
  have herror := abs_lt.1 (hnear.ratio_error ht hs hpos)
  have hprod := mul_le_mul_of_nonneg_right hval' hx
  exact ⟨by omega, by linarith⟩

theorem StackCounts.scale_total (ds : Draws) (ht : t < 2 ^ 53) (hs : s.exactTotal < 2 ^ 53)
    (hpos : 0 < s.exactTotal) (hnear : Binary64.Near ((t : ℚ) / s.exactTotal) x.toRat)
    (hratio : Binary64.finite x ≠ .one) :
    |((s.scale (.finite x) ds).exactTotal : ℤ) - t| ≤ s.entries.length ∧
      (s.scale (.finite x) ds).exactTotal < 2 ^ 54 := by
  have hx : 0 ≤ x.toRat := hnear.nonneg (by positivity)
  have herror := abs_lt.1 (hnear.ratio_error ht hs hpos)
  have hrange := fun (e : String × Count) (he : e ∈ s.entries) =>
    StackCounts.scaled_range ht hs hpos hnear he
  have htotal := abs_le.1 (StackCounts.exactTotal_scale hx ds hrange)
  have hsize : (s.size : ℚ) = s.entries.length := rfl
  constructor
  · -- an integer that differs from `t` by less than `n + 1` differs by at most `n`
    have hupper : ((s.scale (.finite x) ds).exactTotal : ℚ) < (t : ℚ) + s.entries.length + 1 := by
      linarith
    have hlower : (t : ℚ) < ((s.scale (.finite x) ds).exactTotal : ℚ) + s.entries.length + 1 := by
      linarith
    have hupper' : (s.scale (.finite x) ds).exactTotal < t + s.entries.length + 1 := by
      exact_mod_cast hupper
    have hlower' : t < (s.scale (.finite x) ds).exactTotal + s.entries.length + 1 := by
      exact_mod_cast hlower
    rw [abs_le]
    omega
  · have ht' : (t : ℚ) + 1 ≤ ((2 ^ 53 : ℕ) : ℚ) := by exact_mod_cast ht
    have hs' : (s.exactTotal : ℚ) ≤ ((2 ^ 53 : ℕ) : ℚ) := by exact_mod_cast hs.le
    obtain ⟨-, hcap⟩ := StackCounts.exactTotal_scale_between ds (fun _ => 0)
      (fun n => (n.val : ℚ) * (x.toRat + 1) + 0) hratio
      fun e he word => ⟨Nat.cast_nonneg _, Count.scale_le_mul word hx (hrange e he)⟩
    rw [StackCounts.sum_linear] at hcap
    have hlt : ((s.scale (.finite x) ds).exactTotal : ℚ) < ((2 ^ 54 : ℕ) : ℚ) := by
      push_cast at ht' hs' ⊢
      linarith
    exact_mod_cast hlt

/-- Scaled by zero, no sample is left. -/
theorem StackCounts.scale_total_zero (ds : Draws) (hs : s.exactTotal < 2 ^ 53)
    (hpos : 0 < s.exactTotal)
    (hnear : Binary64.Near (((0 : ℕ) : ℚ) / s.exactTotal) x.toRat)
    (hratio : Binary64.finite x ≠ .one) : (s.scale (.finite x) ds).exactTotal = 0 := by
  have hrange := fun (e : String × Count) (he : e ∈ s.entries) =>
    StackCounts.scaled_range (by norm_num) hs hpos hnear he
  have hx : x.toRat = 0 := by
    rw [Nat.cast_zero, zero_div] at hnear
    exact hnear.eq_of_natCast (k := 0) (by norm_num)
  have hdropped : ∀ e ∈ s.entries, ∀ word,
      (0 : ℚ) ≤ ((e.2.scale (.finite x) word).val : ℚ) ∧
        ((e.2.scale (.finite x) word).val : ℚ) ≤ (e.2.val : ℚ) * 0 + 0 := by
    intro e he word
    have hle := (Count.scale_between word hx.ge (hrange e he).1 (hrange e he).2).2
    rw [hx, mul_zero, Nat.ceil_zero] at hle
    have hval : (e.2.scale (.finite x) word).val = 0 := by omega
    rw [hval]
    simp
  have hnone := (StackCounts.exactTotal_scale_between ds (fun _ => 0)
    (fun n => (n.val : ℚ) * 0 + 0) hratio hdropped).2
  rw [StackCounts.sum_linear] at hnone
  have hle : ((s.scale (.finite x) ds).exactTotal : ℚ) ≤ 0 := by linarith
  exact_mod_cast le_antisymm hle (Nat.cast_nonneg _)

end Scaled

/-! ## The total of a merged process -/

/-- A marker keeps the samples that are hung below it. -/
theorem ErrorMarker.total_attach {p r : StackCounts} (h : r.isErrorMarker = true) :
    (ErrorMarker.attach p r).total = p.total := by
  have hsize : r.size = 1 := by
    unfold StackCounts.isErrorMarker at h
    split at h
    next marker hkeys => rw [SortedMap.size, ← List.length_map, ← SortedMap.keys, hkeys]; rfl
    next => simp at h
  apply Count.ext
  rw [ErrorMarker.val_total_attach, hsize, mul_one, min_eq_left p.total.val_le_limit]

/-- A rounded ratio that is one means equal totals. -/
private theorem Binary64.Near.eq_of_one {t q : Nat} {x : ℚ}
    (h : Binary64.Near ((t : ℚ) / q) x) (hx : x = 1) (ht : t < 2 ^ 53) (hq : q < 2 ^ 53)
    (hpos : 0 < q) : q = t := by
  have herror := abs_lt.1 (h.ratio_error ht hq hpos)
  rw [hx, mul_one] at herror
  have hlower : (t : ℚ) < q + 1 := by linarith
  have hupper : (q : ℚ) < t + 1 := by linarith
  have hlower' : t < q + 1 := by exact_mod_cast hlower
  have hupper' : q < t + 1 := by exact_mod_cast hupper
  omega

/-- The total of scaled runtime samples. -/
theorem Merge.scale_total {system : Option Profile} {r : StackCounts} (ds : Draws)
    (hsystem : Merge.referenceTotal system < 2 ^ 53) (hr : r.exactTotal < 2 ^ 53)
    (hpos : 0 < r.exactTotal) :
    |((r.scale (Merge.ratio system r) ds).exactTotal : ℤ) - Merge.referenceTotal system| ≤
        r.entries.length ∧
      (r.scale (Merge.ratio system r) ds).exactTotal < 2 ^ 54 ∧
      (Merge.referenceTotal system = 0 →
        (r.scale (Merge.ratio system r) ds).exactTotal = 0) := by
  obtain ⟨x, hx, hnear⟩ := Merge.exists_ratio hsystem hr hpos
  rw [hx]
  by_cases hone : Binary64.finite x = .one
  case pos =>
    have heq := hnear.eq_of_one (Binary64.Finite.toRat_of_one hone) hsystem hr hpos
    rw [StackCounts.scale, if_pos hone, heq, sub_self, abs_zero]
    exact ⟨by positivity, by omega, id⟩
  case neg =>
    obtain ⟨hdiff, hcap⟩ := StackCounts.scale_total ds hsystem hr hpos hnear hone
    refine ⟨hdiff, hcap, ?_⟩
    intro hzero
    rw [hzero] at hnear
    exact StackCounts.scale_total_zero ds hr hpos hnear hone

/-- The total of samples hung below a marker. -/
theorem Merge.attach_total {p : Profile} {r : StackCounts} (hmarker : r.isErrorMarker = true)
    (hT : Merge.referenceTotal (some p) < 2 ^ 53) :
    (ErrorMarker.attach p.counts r).total.val = Merge.referenceTotal (some p) ∧
      (ErrorMarker.attach p.counts r).exactTotal = Merge.referenceTotal (some p) := by
  have htotal : (ErrorMarker.attach p.counts r).total.val = Merge.referenceTotal (some p) := by
    rw [ErrorMarker.total_attach hmarker]
    exact Merge.systemTotal_of_lt hT
  have hlimit : 2 ^ 53 < Count.limit := by decide
  refine ⟨htotal, ?_⟩
  rw [← htotal]
  exact StackCounts.exactTotal_of_total_lt (by omega)

/-- Where a marker is not attached though there are samples to hang below it, it is none. -/
theorem Merge.not_isErrorMarker {system : Option Profile} {r : StackCounts}
    (hT : Merge.referenceTotal system < 2 ^ 53) (hpos : 0 < Merge.referenceTotal system)
    (h : ¬ Merge.attaches system r = true) : r.isErrorMarker = false := by
  have hsystem := Merge.systemTotal_of_lt hT
  cases system with
  | none => cases hpos
  | some p =>
    rw [← hsystem] at hpos
    rw [Merge.attaches_iff] at h
    exact Bool.eq_false_iff.2 fun hmarker => h ⟨p, rfl, hpos, hmarker⟩

/-- After a merge, a process with runtime stacks has no sample if the system-wide profile has none
    of it, the samples of the system-wide profile if they hang below a marker, and otherwise as
    many up to one for each runtime stack. -/
theorem Profiles.mergeAll_keeps_volume (system runtime : Profiles) (ds : Draws)
    (hsamples : ∀ pid r, runtime.get? pid = some r → ¬ r.Sampleless) {pid : Pid} {r : Profile}
    (hr : runtime.get? pid = some r) (hne : r.counts.entries ≠ [])
    (hT : Merge.referenceTotal (system.get? pid) < 2 ^ 53) (hQ : r.counts.exactTotal < 2 ^ 53) :
    ∃ m p, system.mergeAll runtime ds = .ok m ∧ m.profiles.get? pid = some p ∧
      0 < r.counts.exactTotal ∧ p.counts.total.val = p.counts.exactTotal ∧
      (Merge.referenceTotal (system.get? pid) = 0 → p.counts.total.val = 0) ∧
      (0 < Merge.referenceTotal (system.get? pid) → r.counts.isErrorMarker = true →
        p.counts.total.val = Merge.referenceTotal (system.get? pid)) ∧
      (0 < Merge.referenceTotal (system.get? pid) → r.counts.isErrorMarker = false →
        |(p.counts.total.val : ℤ) - Merge.referenceTotal (system.get? pid)| ≤
          r.counts.entries.length) := by
  obtain ⟨m, hm, hreached⟩ := Profiles.mergeAll_of_samples system ds
    (Profiles.not_sampleless_of_mem hsamples)
  have hpos : 0 < r.counts.exactTotal := by
    refine Nat.pos_of_ne_zero fun hzero => hsamples pid r hr ⟨hne, ?_⟩
    exact StackCounts.exactTotal_eq_zero_iff.1 hzero
  refine ⟨m, _, hm, hreached.get?_eq hr hne, hpos, ?_⟩
  by_cases hattaches : Merge.attaches (system.get? pid) r.counts = true
  case pos =>
    obtain ⟨p, hp, -, hmarker⟩ := Merge.attaches_iff.1 hattaches
    rw [hp] at hattaches hT ⊢
    obtain ⟨htotal, hexact⟩ := Merge.attach_total hmarker hT
    rw [Merge.counts_of_attaches hattaches, htotal, hexact]
    refine ⟨rfl, id, fun _ _ => rfl, ?_⟩
    intro _ hno
    rw [hmarker] at hno
    cases hno
  case neg =>
    obtain ⟨hdiff, hcap, hzero⟩ := Merge.scale_total
      (ds.after (Merge.drawnBefore system runtime pid)) hT hQ hpos
    have htotal := StackCounts.val_total (r.counts.scale (Merge.ratio (system.get? pid) r.counts)
      (ds.after (Merge.drawnBefore system runtime pid)))
    have hlimit : 2 ^ 54 < Count.limit := by decide
    rw [min_eq_left (by omega)] at htotal
    rw [Merge.counts_of_not_attaches hattaches, htotal]
    refine ⟨rfl, hzero, ?_, fun _ _ => hdiff⟩
    intro hTpos hmarker
    rw [Merge.not_isErrorMarker hT hTpos hattaches] at hmarker
    cases hmarker

/-- One stack of ten samples in the system-wide profile, two stacks of three samples at runtime. -/
theorem Profiles.mergeAll_keeps_volume_of_ten :
    ∃ m p, Profiles.mergeAll
        (.ofList [(1, .ofCounts (.ofList [("a;b", .ofNat 10)]))])
        (.ofList [(1, .ofCounts (.ofList [("x", .ofNat 2), ("y", .ofNat 1)]))])
        (fun _ => 0) = .ok m ∧
      m.profiles.get? 1 = some p ∧ |(p.counts.total.val : ℤ) - 10| ≤ 2 := by
  have hr : (SortedMap.ofList [((1 : Pid), Profile.ofCounts
      (.ofList [("x", .ofNat 2), ("y", .ofNat 1)]))]).get? 1 =
        some (.ofCounts (.ofList [("x", .ofNat 2), ("y", .ofNat 1)])) := rfl
  have hsamples : ∀ pid r, (SortedMap.ofList [((1 : Pid), Profile.ofCounts
      (.ofList [("x", .ofNat 2), ("y", .ofNat 1)]))]).get? pid = some r → ¬ r.Sampleless := by
    intro pid r hget hbad
    have hmem := SortedMap.get?_eq_some_iff.1 hget
    rcases List.mem_singleton.1 hmem with ⟨rfl, rfl⟩
    have hx := hbad.2 ("x", .ofNat 2) (List.mem_cons_self ..)
    exact absurd hx (by decide)
  obtain ⟨m, p, hm, hp, -, -, -, -, hdiff⟩ := Profiles.mergeAll_keeps_volume
    (.ofList [(1, .ofCounts (.ofList [("a;b", .ofNat 10)]))]) _ (fun _ => 0) hsamples hr
    (by decide) (by decide) (by decide)
  exact ⟨m, p, hm, hp, hdiff (by decide) (by decide)⟩

end FoldedStacks
