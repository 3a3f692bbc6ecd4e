-- SUMMARY: The total of a table of stacks is the sum of its counts, capped at the largest count.
import Mathlib
import FoldedStacks.Proofs.Entries
import FoldedStacks.Stack.Counts

/-!
# Totals

Adding counts stops at the largest count, so the total of a table is the exact sum of its counts
as long as that sum is a count, and the largest count otherwise.
-/

namespace FoldedStacks

/-- The sum of the counts of a table, as a natural number without bound. -/
def StackCounts.exactTotal (s : StackCounts) : Nat :=
  (s.values.map Count.val).sum

private theorem Count.val_foldl_add (cs : List Count) (a : Count) :
    (cs.foldl (· + ·) a).val = min (a.val + (cs.map Count.val).sum) Count.limit := by
  induction cs generalizing a with
  | nil =>
    have := a.val_le_limit
    simp only [List.foldl_nil, List.map_nil, List.sum_nil]
    omega
  | cons c cs ih =>
    rw [List.foldl_cons, ih, Count.val_add, List.map_cons, List.sum_cons]
    omega

theorem Count.val_sum (cs : List Count) :
    (Count.sum cs).val = min (cs.map Count.val).sum Count.limit := by
  rw [Count.sum, Count.val_foldl_add]
  simp [Count.zero]

theorem Count.sum_val_eq_zero_iff {cs : List Count} :
    (cs.map Count.val).sum = 0 ↔ ∀ c ∈ cs, c = .zero := by
  have hzero : ∀ c : Count, c.val = 0 ↔ c = .zero := fun c => (Count.ext_iff (y := .zero)).symm
  simp only [List.sum_eq_zero_iff, List.forall_mem_map, hzero]

theorem Count.sum_eq_zero_iff {cs : List Count} :
    Count.sum cs = .zero ↔ ∀ c ∈ cs, c = .zero := by
  have hval : Count.zero.val = 0 := rfl
  have hlimit : 0 < Count.limit := by decide
  rw [← Count.sum_val_eq_zero_iff, Count.ext_iff, Count.val_sum]
  omega

theorem StackCounts.val_total (s : StackCounts) :
    s.total.val = min s.exactTotal Count.limit :=
  Count.val_sum s.values

theorem StackCounts.exactTotal_eq_zero_iff {s : StackCounts} :
    s.exactTotal = 0 ↔ ∀ e ∈ s.entries, e.2 = Count.zero := by
  rw [StackCounts.exactTotal, Count.sum_val_eq_zero_iff, SortedMap.values, List.forall_mem_map]

theorem StackCounts.total_eq_zero_iff {s : StackCounts} :
    s.total = Count.zero ↔ ∀ e ∈ s.entries, e.2 = Count.zero := by
  rw [StackCounts.total, Count.sum_eq_zero_iff, SortedMap.values, List.forall_mem_map]

theorem StackCounts.isEmpty_iff {s : StackCounts} : s.isEmpty = true ↔ s.entries = [] :=
  List.isEmpty_iff

/-! ## Adding samples -/

/-- Updating one key changes the sum of the counts by the change of its count. -/
private theorem Entries.sum_upsert {k : String} {f : Option Count → Count}
    {l : List (String × Count)} (h : Entries.Ascending l) :
    ((Entries.upsert k f l).map fun e => e.2.val).sum + ((Entries.get? k l).getD Count.zero).val =
      (l.map fun e => e.2.val).sum + (f (Entries.get? k l)).val := by
  -- the key stands before the first entry, is its key, or belongs to the rest
  induction l with
  | nil => simp [Entries.upsert, Entries.get?, Count.zero]
  | cons d ds ih =>
    obtain ⟨hd, hds⟩ := Entries.ascending_cons.1 h
    rw [Entries.upsert]
    split
    next hlt =>
      have hnone : Entries.get? k (d :: ds) = none :=
        Entries.get?_eq_none_of_lt fun e he => by
          rcases List.mem_cons.1 he with rfl | he
          · exact hlt
          · exact Std.TransCmp.lt_trans hlt (hd e he)
      rw [hnone]
      simp only [List.map_cons, List.sum_cons, Option.getD_none, Count.zero]
      omega
    next heq =>
      have hsome : Entries.get? k (d :: ds) = some d.2 := by simp [Entries.get?, heq]
      rw [hsome]
      simp only [List.map_cons, List.sum_cons, Option.getD_some]
      omega
    next hgt =>
      have hrest : Entries.get? k (d :: ds) = Entries.get? k ds := by simp [Entries.get?, hgt]
      have := ih hds
      rw [hrest]
      simp only [List.map_cons, List.sum_cons]
      omega

theorem StackCounts.exactTotal_eq_sum (s : StackCounts) :
    s.exactTotal = (s.entries.map fun e => e.2.val).sum := by
  simp [StackCounts.exactTotal, SortedMap.values, Function.comp_def]

theorem StackCounts.val_le_exactTotal {s : StackCounts} {e : String × Count}
    (he : e ∈ s.entries) : e.2.val ≤ s.exactTotal := by
  rw [StackCounts.exactTotal_eq_sum]
  exact List.single_le_sum (by simp) _ (List.mem_map.2 ⟨e, he, rfl⟩)

private theorem StackCounts.val_get?_le (s : StackCounts) (stack : String) :
    ((s.get? stack).getD Count.zero).val ≤ s.exactTotal := by
  cases hget : s.get? stack with
  | none => exact Nat.zero_le _
  | some n => exact StackCounts.val_le_exactTotal (SortedMap.get?_eq_some_iff.1 hget)

/-- More samples for a stack are that many more samples in all. -/
theorem StackCounts.total_add (s : StackCounts) (stack : String) (n : Count) :
    (s.add stack n).total = s.total + n := by
  have hsum := Entries.sum_upsert (k := stack) (f := fun held => held.getD Count.zero + n)
    s.ascending
  have hadd : (s.add stack n).exactTotal =
      ((Entries.upsert stack (fun held => held.getD Count.zero + n) s.entries).map
        fun e => e.2.val).sum := StackCounts.exactTotal_eq_sum _
  rw [← hadd, ← StackCounts.exactTotal_eq_sum, Count.val_add] at hsum
  have hheld := s.val_get?_le stack
  rw [SortedMap.get?] at hheld
  ext
  rw [Count.val_add, StackCounts.val_total, StackCounts.val_total]
  omega

theorem StackCounts.total_ofList (samples : List (String × Count)) :
    (StackCounts.ofList samples).total = Count.sum (samples.map (·.2)) := by
  suffices h : ∀ s : StackCounts, (samples.foldl (fun s e => s.add e.1 e.2) s).total =
      (samples.map (·.2)).foldl (· + ·) s.total from h SortedMap.empty
  intro s
  induction samples generalizing s with
  | nil => rfl
  | cons e es ih => rw [List.foldl_cons, ih, StackCounts.total_add, List.map_cons, List.foldl_cons]

/-- The exact number of samples that a list holds for a stack. -/
def StackCounts.samplesOf (samples : List (String × Count)) (stack : String) : Nat :=
  ((samples.filter fun s => s.1 = stack).map (·.2.val)).sum

theorem StackCounts.samplesOf_concat (samples : List (String × Count)) (s : String × Count)
    (stack : String) : StackCounts.samplesOf (samples ++ [s]) stack =
      StackCounts.samplesOf samples stack + if s.1 = stack then s.2.val else 0 := by
  unfold StackCounts.samplesOf
  by_cases h : s.1 = stack
  · simp [h]
  · simp [h]

theorem StackCounts.samplesOf_eq_zero {samples : List (String × Count)} {stack : String}
    (h : stack ∉ samples.map (·.1)) : StackCounts.samplesOf samples stack = 0 := by
  have hnone : (samples.filter fun s => s.1 = stack) = [] := by
    refine List.filter_eq_nil_iff.2 ?_
    intro s hs
    rw [decide_eq_true_eq]
    exact fun heq => h (List.mem_map.2 ⟨s, hs, heq⟩)
  rw [StackCounts.samplesOf, hnone]
  rfl

/-- Added up, every stack of a list has its samples, up to the largest count, and no other stack
    has any. -/
theorem StackCounts.get?_ofList (samples : List (String × Count)) (stack : String) :
    (StackCounts.ofList samples).get? stack =
      if stack ∈ samples.map (·.1) then some (.ofNat (StackCounts.samplesOf samples stack))
      else none := by
  -- the last sample of the list is the last one that is added
  induction samples using List.reverseRecOn with
  | nil => rfl
  | append_singleton samples s ih =>
    have hadd : StackCounts.ofList (samples ++ [s]) = (StackCounts.ofList samples).add s.1 s.2 := by
      simp only [StackCounts.ofList, List.foldl_append, List.foldl_cons, List.foldl_nil]
    rw [hadd, StackCounts.get?_add, StackCounts.samplesOf_concat]
    by_cases heq : stack = s.1
    case pos =>
      have hheld : (((StackCounts.ofList samples).get? stack).getD Count.zero).val =
          min (StackCounts.samplesOf samples stack) Count.limit := by
        rw [ih]
        split
        next => rfl
        next hnot =>
          rw [StackCounts.samplesOf_eq_zero hnot]
          rfl
      have hval : (Count.ofNat (StackCounts.samplesOf samples stack + s.2.val)).val =
          min (StackCounts.samplesOf samples stack + s.2.val) Count.limit := rfl
      rw [if_pos heq, if_pos (by simp [heq]), if_pos heq.symm, ← heq, Option.some.injEq,
        Count.ext_iff, Count.val_add, hheld, hval]
      omega
    case neg =>
      have hmem : stack ∈ (samples ++ [s]).map (·.1) ↔ stack ∈ samples.map (·.1) := by
        simp [List.map_append, heq]
      rw [if_neg heq, if_neg (Ne.symm heq), Nat.add_zero, ih]
      exact if_congr hmem.symm rfl rfl

theorem StackCounts.ofList_eq_nil_iff {samples : List (String × Count)} :
    (StackCounts.ofList samples).entries = [] ↔ samples = [] := by
  constructor
  · intro h
    cases samples with
    | nil => rfl
    | cons s samples =>
      have hget := StackCounts.get?_ofList (s :: samples) s.1
      rw [if_pos (by simp), SortedMap.get?, h] at hget
      cases hget
  · rintro rfl
    rfl

/-- As long as the total is not capped, it is the exact sum. -/
theorem StackCounts.exactTotal_of_total_lt {s : StackCounts} (h : s.total.val < Count.limit) :
    s.exactTotal = s.total.val := by
  rw [StackCounts.val_total] at h ⊢
  omega

end FoldedStacks
