-- SUMMARY: Which stacks without samples scaling leaves: none, unless the ratio is one, when the table is not looked at and keeps those it had; and the lines that they have in a merged artifact.
import Mathlib
import FoldedStacks.Proofs.Enrichments
import FoldedStacks.Proofs.Merging
import FoldedStacks.Proofs.Numerals
import FoldedStacks.Proofs.ScaledCounts

/-!
# Stacks without samples

The loop over the stacks drops every stack that is left without samples, so whatever it is run with
there is none in its table. Scaling by one does not run it: stacks that were counted zero times
stay, and where there are any the shortcut and the loop keep different stacks.
-/

namespace FoldedStacks

/-! ## One count -/

theorem Count.ofNat_eq_zero_iff {n : Nat} : Count.ofNat n = .zero ↔ n = 0 := by
  have hlimit : 0 < Count.limit := by decide
  have hval : (Count.ofNat n).val = min n Count.limit := rfl
  have hzero : Count.zero.val = 0 := rfl
  rw [Count.ext_iff, hval, hzero]
  omega

/-- Scaled by one, a count that is not zero does not become zero, though a large one is rounded. -/
theorem Count.scale_one_eq_zero_iff {n : Count} {word : UInt64} :
    n.scale .one word = .zero ↔ n = .zero := by
  obtain ⟨x, hx, hnear⟩ := n.exists_mul_one
  have hscale : n.scale .one word =
      .ofNat (Count.roundBy (Draws.fraction word) x.toRat).toNat := by
    simp only [Count.scale, hx]
  have hfloor := Count.floor_le_roundBy (Draws.fraction word) x.toRat
  have hceil := Count.roundBy_le_ceil (q := x.toRat) (Draws.fraction_nonneg word)
  rw [hscale, Count.ofNat_eq_zero_iff]
  constructor
  · intro hzero
    by_contra hne
    have hpos : 1 ≤ n.val := Nat.one_le_iff_ne_zero.2 fun h => hne (Count.ext h)
    have hone : ((1 : ℕ) : ℚ) ≤ x.toRat := hnear.le_of_le 1 (by norm_num) (by exact_mod_cast hpos)
    have hone' : (1 : ℤ) ≤ ⌊x.toRat⌋ := Int.le_floor.2 (by exact_mod_cast hone)
    omega
  · rintro rfl
    have hnone : x.toRat ≤ ((0 : ℕ) : ℚ) := hnear.ge_of_ge 0 (by norm_num) le_rfl
    have hnone' : ⌈x.toRat⌉ ≤ (0 : ℤ) := Int.ceil_le.2 (by exact_mod_cast hnone)
    omega

/-! ## A table -/

section Table

variable {s : StackCounts} {ratio : Binary64} {ds : Draws} {stack : String}

theorem StackCounts.scaleEntry_ne_zero (ratio : Binary64) (ds : Draws) (i : Nat)
    (e : String × Count) : StackCounts.scaleEntry ratio ds i e ≠ some .zero := by
  unfold StackCounts.scaleEntry
  dsimp only
  split
  next => exact (Option.some_ne_none _).symm
  next hne => exact fun heq => hne (Option.some.inj heq)

/-- Behind the loop a stack has what the word at its place has made of its count. -/
theorem StackCounts.get?_scaleLoop_run {j : Nat} {c : Count}
    (h : s.entries[j]? = some (stack, c)) :
    ((s.scaleLoop ratio).run ds).1.get? stack = StackCounts.scaleEntry ratio ds j (stack, c) := by
  rw [StackCounts.fst_scaleLoop_run]
  exact SortedMap.get?_filterMapIdx _ h

theorem StackCounts.exists_place_of_scaleLoop (h : stack ∈ ((s.scaleLoop ratio).run ds).1.keys) :
    ∃ (j : Nat) (c : Count), s.entries[j]? = some (stack, c) := by
  rw [StackCounts.fst_scaleLoop_run] at h
  obtain ⟨c, hc⟩ := SortedMap.mem_keys_iff.1 (SortedMap.mem_keys_of_filterMapIdx h)
  obtain ⟨j, hj⟩ := SortedMap.exists_place hc
  exact ⟨j, c, hj⟩

/-- The loop leaves no stack without samples. -/
theorem StackCounts.scaleLoop_ne_zero :
    ((s.scaleLoop ratio).run ds).1.get? stack ≠ some .zero := by
  intro hzero
  obtain ⟨j, c, hj⟩ :=
    StackCounts.exists_place_of_scaleLoop (SortedMap.mem_keys_iff.2 ⟨_, hzero⟩)
  rw [StackCounts.get?_scaleLoop_run hj] at hzero
  exact StackCounts.scaleEntry_ne_zero ratio ds j _ hzero

/-- Scaling does what the loop does, but for the ratio one. -/
theorem StackCounts.scale_eq_scaleLoop (h : ratio ≠ .one) :
    s.scale ratio ds = ((s.scaleLoop ratio).run ds).1 := by
  rw [StackCounts.fst_scaleLoop_run, StackCounts.scale, if_neg h]

theorem StackCounts.get?_scale_eq_zero_iff :
    (s.scale ratio ds).get? stack = some .zero ↔
      ratio = .one ∧ s.get? stack = some .zero := by
  by_cases hone : ratio = .one
  case pos =>
    rw [StackCounts.scale, if_pos hone]
    exact ⟨fun h => ⟨hone, h⟩, fun h => h.2⟩
  case neg =>
    rw [StackCounts.scale_eq_scaleLoop hone]
    exact ⟨fun h => absurd h StackCounts.scaleLoop_ne_zero, fun h => absurd h.1 hone⟩

/-- Run with the ratio one, the loop would keep the stacks that have samples. -/
theorem StackCounts.mem_keys_scaleLoop_one_iff :
    stack ∈ ((s.scaleLoop .one).run ds).1.keys ↔
      ∃ c, s.get? stack = some c ∧ c ≠ .zero := by
  constructor
  · intro hkey
    obtain ⟨j, c, hj⟩ := StackCounts.exists_place_of_scaleLoop hkey
    refine ⟨c, SortedMap.get?_of_place hj, fun hzero => ?_⟩
    obtain ⟨n, hn⟩ := SortedMap.mem_keys_iff.1 hkey
    rw [StackCounts.get?_scaleLoop_run hj, StackCounts.scaleEntry] at hn
    simp only [Count.scale_one_eq_zero_iff.2 hzero, if_true] at hn
    cases hn
  · rintro ⟨c, hc, hne⟩
    obtain ⟨j, hj⟩ := SortedMap.exists_place hc
    refine SortedMap.mem_keys_iff.2 ⟨c.scale .one (ds j), ?_⟩
    rw [StackCounts.get?_scaleLoop_run hj, StackCounts.scaleEntry]
    exact if_neg fun hzero => hne (Count.scale_one_eq_zero_iff.1 hzero)

/-- The shortcut keeps the stacks that the loop keeps if there is no stack without samples, and only
    then. -/
theorem StackCounts.scale_one_keys_iff :
    (∀ stack, stack ∈ (s.scale .one ds).keys ↔ stack ∈ ((s.scaleLoop .one).run ds).1.keys) ↔
      ∀ stack, s.get? stack ≠ some .zero := by
  have hshortcut : s.scale .one ds = s := by rw [StackCounts.scale, if_pos rfl]
  rw [hshortcut]
  constructor
  · intro hsame stack hzero
    obtain ⟨c, hc, hne⟩ := StackCounts.mem_keys_scaleLoop_one_iff.1
      ((hsame stack).1 (SortedMap.mem_keys_iff.2 ⟨_, hzero⟩))
    exact hne (Option.some.inj (hc.symm.trans hzero))
  · intro hnone stack
    rw [StackCounts.mem_keys_scaleLoop_one_iff, SortedMap.mem_keys_iff]
    refine exists_congr fun c => ⟨fun hc => ⟨hc, ?_⟩, And.left⟩
    rintro rfl
    exact hnone stack hc

end Table

/-! ## Lines of merged processes -/

/-- A line ends in a zero of its own when its count is zero. -/
theorem Enrichment.zero_isSuffix_line_iff {e : Enrichment} {o : Options} {stack : String}
    {n : Count} : [' ', '0'] <:+ (e.line o stack n).toList ↔ n = .zero := by
  have hline : (e.line o stack n).toList =
      (e.stackText o stack).toList ++ ' ' :: Text.numeral n.val := by
    simp [Enrichment.line]
  constructor
  · rintro ⟨text, htext⟩
    -- the last space of a line stands before its count
    have hzero := Text.splitLast_eq_some_iff.2 ⟨htext.symm, by decide⟩
    have hcount := Text.splitLast_eq_some_iff.2
      ⟨hline, Text.not_mem_numeral (n := n.val) (c := ' ') rfl⟩
    have hnumeral : Text.numeral n.val = Text.numeral 0 :=
      (Prod.ext_iff.1 (Option.some.inj (hcount.symm.trans hzero))).2
    exact Count.ext (Text.numeral_injective hnumeral)
  · rintro rfl
    exact ⟨(e.stackText o stack).toList, hline.symm⟩

theorem Profile.zero_isSuffix_lines_iff {p : Profile} {o : Options} {e : Enrichment} :
    (∃ line ∈ p.lines o e, [' ', '0'] <:+ line.toList) ↔
      ∃ stack, p.counts.get? stack = some .zero := by
  constructor
  · rintro ⟨line, hline, hsuffix⟩
    obtain ⟨sample, hsample, rfl⟩ := List.mem_map.1 hline
    have hzero := Enrichment.zero_isSuffix_line_iff.1 hsuffix
    exact ⟨sample.1, SortedMap.get?_eq_some_iff.2 (by rw [← hzero]; exact hsample)⟩
  · rintro ⟨stack, hstack⟩
    exact ⟨_, List.mem_map.2 ⟨_, SortedMap.get?_eq_some_iff.1 hstack, rfl⟩,
      Enrichment.zero_isSuffix_line_iff.2 rfl⟩

section Merged

variable {σ : Type} [ContainerClient σ]

/-- The lines of a process whose runtime samples are scaled in a merge. -/
theorem Profiles.merged_zero_lines_iff (system : Profiles) {runtime : Profiles} (ds : Draws)
    (o : Options) (client : Option σ) (metadata : Metadata) (metrics : Metrics)
    (hsamples : ∀ pid r, runtime.get? pid = some r → ¬ r.Sampleless) {pid : Pid} {r : Profile}
    (hr : runtime.get? pid = some r) (hne : r.counts.entries ≠ [])
    (hscaled : ¬ Merge.attaches (system.get? pid) r.counts = true) :
    ∃ m p, system.mergeAll runtime ds = .ok m ∧ m.profiles.get? pid = some p ∧
      (∀ line ∈ p.lines o (m.profiles.enrichment o client pid p),
        line ∈ (m.profiles.concatenate o client metadata metrics).artifact.lines) ∧
      ((∃ line ∈ p.lines o (m.profiles.enrichment o client pid p), [' ', '0'] <:+ line.toList) ↔
        Merge.ratio (system.get? pid) r.counts = .one ∧
          ∃ stack, r.counts.get? stack = some .zero) := by
  obtain ⟨m, hm, hreached⟩ :=
    Profiles.mergeAll_of_samples system ds (Profiles.not_sampleless_of_mem hsamples)
  have hget := hreached.get?_eq hr hne
  refine ⟨m, _, hm, hget, fun line hline => ?_, ?_⟩
  · rw [Profiles.lines_concatenate]
    exact List.mem_flatMap.2 ⟨_, SortedMap.get?_eq_some_iff.1 hget, hline⟩
  · rw [Profile.zero_isSuffix_lines_iff, Merge.counts_of_not_attaches hscaled]
    simp only [StackCounts.get?_scale_eq_zero_iff, exists_and_left]

/-- Scaling leaves a stack without samples if and only if the ratio is one and the stack had none
    before. The loop leaves none, so scaling by one keeps the stacks that the loop keeps if and only
    if the table has no stack without samples. In a merge, a process whose runtime samples are
    scaled has a line that ends in a count of zero if and only if its ratio is one and its runtime
    profile has a stack without samples. -/
theorem StackCounts.scale_zero_counts :
    (∀ (s : StackCounts) (ratio : Binary64) (ds : Draws) (stack : String),
      ((s.scale ratio ds).get? stack = some .zero ↔
        ratio = .one ∧ s.get? stack = some .zero) ∧
      ((s.scaleLoop ratio).run ds).1.get? stack ≠ some .zero) ∧
    (∀ (s : StackCounts) (ds : Draws),
      (∀ stack, stack ∈ (s.scale .one ds).keys ↔ stack ∈ ((s.scaleLoop .one).run ds).1.keys) ↔
        ∀ stack, s.get? stack ≠ some .zero) ∧
    ∀ (system runtime : Profiles) (ds : Draws) (o : Options) (client : Option σ)
      (metadata : Metadata) (metrics : Metrics),
      (∀ pid r, runtime.get? pid = some r → ¬ r.Sampleless) →
      ∀ pid r, runtime.get? pid = some r → r.counts.entries ≠ [] →
        ¬ Merge.attaches (system.get? pid) r.counts = true →
        ∃ m p, system.mergeAll runtime ds = .ok m ∧ m.profiles.get? pid = some p ∧
          (∀ line ∈ p.lines o (m.profiles.enrichment o client pid p),
            line ∈ (m.profiles.concatenate o client metadata metrics).artifact.lines) ∧
          ((∃ line ∈ p.lines o (m.profiles.enrichment o client pid p),
              [' ', '0'] <:+ line.toList) ↔
            Merge.ratio (system.get? pid) r.counts = .one ∧
              ∃ stack, r.counts.get? stack = some .zero) := by
  refine ⟨fun s ratio ds stack => ⟨StackCounts.get?_scale_eq_zero_iff,
    StackCounts.scaleLoop_ne_zero⟩, fun s ds => StackCounts.scale_one_keys_iff, ?_⟩
  intro system runtime ds o client metadata metrics hsamples pid r hr hne hscaled
  exact Profiles.merged_zero_lines_iff system ds o client metadata metrics hsamples hr hne hscaled

end Merged

/-- A stack that was counted zero times, scaled by one: the shortcut keeps it, the loop does not. -/
theorem StackCounts.scale_keeps_zero_count :
    let table : StackCounts := .ofList [("a", .ofNat 0), ("b", .ofNat 3)]
    let ds : Draws := fun _ => 0
    (table.scale .one ds).get? "a" = some .zero ∧
      ((table.scaleLoop .one).run ds).1.keys = ["b"] := by
  decide +kernel

/-- As many samples in both profiles, and a runtime stack without samples: it gets a line. -/
theorem StackCounts.scale_zero_counts_merged :
    let system : Profiles := .ofList [(1, .ofCounts (.ofList [("q", .ofNat 3)]))]
    let runtime : Profiles :=
      .ofList [(1, .ofCounts (.ofList [("a", .ofNat 0), ("b", .ofNat 3)]))]
    ∃ m line, system.mergeAll runtime (fun _ => 0) = .ok m ∧
      line ∈ (m.profiles.concatenate .all (none : Option Containers) .empty .none).artifact.lines ∧
      [' ', '0'] <:+ line.toList := by
  intro system runtime
  have hr : runtime.get? 1 =
      some (.ofCounts (.ofList [("a", .ofNat 0), ("b", .ofNat 3)])) := rfl
  have hsamples : ∀ pid r, runtime.get? pid = some r → ¬ r.Sampleless := by
    intro pid r hget hbad
    obtain ⟨rfl, rfl⟩ := List.mem_singleton.1 (SortedMap.get?_eq_some_iff.1 hget)
    exact absurd (hbad.2 ("b", .ofNat 3) (by decide)) (by decide)
  obtain ⟨m, p, hm, -, hlines, hzero⟩ := StackCounts.scale_zero_counts.2.2 system runtime
    (fun _ => 0) .all (none : Option Containers) .empty .none hsamples 1 _ hr (by decide) (by decide)
  obtain ⟨line, hline, hsuffix⟩ := hzero.2 ⟨by decide +kernel, "a", rfl⟩
  exact ⟨m, line, hm, hlines line hline, hsuffix⟩

end FoldedStacks
