-- SUMMARY: A table of stacks is told by the samples that were gathered in it: in whatever order and by way of whatever other tables they were added, it holds each stack once, with the sum of its counts up to the largest count.
import Mathlib
import FoldedStacks.Proofs.Accumulation
import FoldedStacks.Proofs.ByteOrder
import FoldedStacks.Proofs.ListingAccounts

/-!
# Gathered samples

Samples are added to a table one by one, collected into one, or gathered in other tables first whose
entries are added then. Each of these steps stops at the largest count. That loses nothing but what
is past it in the end, so the table is the same as if all the samples had been added in any order.
-/

namespace FoldedStacks

/-! ## Samples of one stack -/

/-- Of ascending entries at most one has a given key. -/
theorem Entries.map_filter_key {κ α : Type} [Ord κ] [Std.TransOrd κ] [Std.LawfulEqOrd κ]
    [DecidableEq κ] {l : List (κ × α)} (h : Entries.Ascending l) (k : κ) :
    (l.filter fun e => e.1 = k).map (·.2) = (Entries.get? k l).toList := by
  induction l with
  | nil => rfl
  | cons e l ih =>
    obtain ⟨he, hl⟩ := Entries.ascending_cons.1 h
    rw [Entries.get?]
    simp only [Std.LawfulEqCmp.compare_eq_iff_eq]
    by_cases hk : e.1 = k
    · subst hk
      rw [List.filter_cons_of_pos (by simp), List.map_cons, ih hl, Entries.get?_eq_none_of_lt he,
        if_pos rfl]
      rfl
    · rw [List.filter_cons_of_neg (by simpa using hk), ih hl, if_neg (Ne.symm hk)]

theorem Count.sum?_singleton (n : Count) : Count.sum? [n] = some n := by
  have hle := n.val_le_limit
  have hval : ∀ m, (Count.ofNat m).val = min m Count.limit := fun _ => rfl
  simp only [Count.sum?, reduceCtorEq, if_false, List.map_cons, List.map_nil, List.sum_singleton,
    Option.some.injEq, Count.ext_iff, hval]
  omega

/-- A table is what its own entries add up to. -/
theorem StackCounts.ofList_entries (s : StackCounts) : StackCounts.ofList s.entries = s := by
  refine SortedMap.ext_get? fun stack => ?_
  rw [StackCounts.get?_ofList_eq_sum?, Entries.map_filter_key s.ascending, SortedMap.get?]
  cases Entries.get? stack s.entries with
  | none => rfl
  | some n => exact Count.sum?_singleton n

/-! ## Parts of a list of samples -/

theorem StackCounts.ofList_append_congr {l l' m m' : List (String × Count)}
    (hl : StackCounts.ofList l = StackCounts.ofList l')
    (hm : StackCounts.ofList m = StackCounts.ofList m') :
    StackCounts.ofList (l ++ m) = StackCounts.ofList (l' ++ m') := by
  refine SortedMap.ext_get? fun stack => ?_
  -- the counts of a stack in both parts add up, and those in one part are told by its table
  have hget := fun l => StackCounts.get?_ofList_eq_sum? l stack
  rw [hget, hget, List.filter_append, List.filter_append, List.map_append, List.map_append,
    Count.sum?_append, Count.sum?_append, ← hget, ← hget, ← hget, ← hget, hl, hm]

theorem StackCounts.ofList_flatMap_congr {α : Type} {parts : List α}
    {f g : α → List (String × Count)}
    (h : ∀ a ∈ parts, StackCounts.ofList (f a) = StackCounts.ofList (g a)) :
    StackCounts.ofList (parts.flatMap f) = StackCounts.ofList (parts.flatMap g) := by
  induction parts with
  | nil => rfl
  | cons a parts ih =>
    rw [List.flatMap_cons, List.flatMap_cons]
    exact StackCounts.ofList_append_congr (h a List.mem_cons_self)
      (ih fun b hb => h b (List.mem_cons_of_mem a hb))

theorem StackCounts.ofList_concat (samples : List (String × Count)) (e : String × Count) :
    StackCounts.ofList (samples ++ [e]) = (StackCounts.ofList samples).add e.1 e.2 := by
  rw [StackCounts.ofList, List.foldl_append]
  rfl

/-- Counting the samples of a table is going on with its entries. -/
theorem StackCounts.addAll_eq_ofList (s t : StackCounts) :
    s.addAll t = StackCounts.ofList (s.entries ++ t.entries) := by
  rw [StackCounts.ofList, List.foldl_append]
  show _ = t.entries.foldl _ (StackCounts.ofList s.entries)
  rw [StackCounts.ofList_entries]
  rfl

/-! ## Gathering -/

/-- The table is made of these samples: of the list at once, by adding one to a table, by counting
    the samples of a table in another one, or from the entries of several tables in any order. -/
inductive StackCounts.Gathers : List (String × Count) → StackCounts → Prop
  | ofList (samples : List (String × Count)) : Gathers samples (.ofList samples)
  | add {samples : List (String × Count)} {s : StackCounts} (e : String × Count) :
    Gathers samples s → Gathers (samples ++ [e]) (s.add e.1 e.2)
  | addAll {samples samples' : List (String × Count)} {s t : StackCounts} :
    Gathers samples s → Gathers samples' t → Gathers (samples ++ samples') (s.addAll t)
  | entries {parts : List (List (String × Count) × StackCounts)}
    {listed : List (String × Count)} : (∀ part ∈ parts, Gathers part.1 part.2) →
    listed.Perm (parts.flatMap (·.2.entries)) → Gathers (parts.flatMap (·.1)) (.ofList listed)

/-- However samples are gathered, the table is the one that they add up to. -/
theorem StackCounts.Gathers.eq_ofList {samples : List (String × Count)} {s : StackCounts}
    (h : StackCounts.Gathers samples s) : s = .ofList samples := by
  induction h with
  | ofList samples => rfl
  | add e _ ih => rw [ih, StackCounts.ofList_concat]
  | addAll _ _ ih ih' =>
    rw [StackCounts.addAll_eq_ofList]
    refine StackCounts.ofList_append_congr ?_ ?_
    · rw [StackCounts.ofList_entries, ih]
    · rw [StackCounts.ofList_entries, ih']
  | entries _ hperm ih =>
    rw [StackCounts.ofList_perm hperm]
    refine StackCounts.ofList_flatMap_congr fun part hpart => ?_
    rw [StackCounts.ofList_entries, ih part hpart]

/-- The table holds the samples: each of their stacks once, in byte order, with the sum of its
    counts up to the largest count, and all of them as its total. -/
structure StackCounts.Holds (s : StackCounts) (samples : List (String × Count)) : Prop where
  ordered : s.entries.Pairwise fun e e' => Text.bytes e.1 < Text.bytes e'.1
  keys : ∀ stack, stack ∈ s.keys ↔ stack ∈ samples.map (·.1)
  counts : ∀ e ∈ s.entries,
    e.2.val = min ((samples.filter fun e' => e'.1 = e.1).map (·.2.val)).sum (2 ^ 64 - 1)
  total : s.total.val = min (samples.map (·.2.val)).sum (2 ^ 64 - 1)

theorem StackCounts.holds_ofList (samples : List (String × Count)) :
    (StackCounts.ofList samples).Holds samples where
  ordered := StackCounts.entries_byteOrder _
  keys := by
    intro stack
    rw [SortedMap.mem_keys_iff, StackCounts.get?_ofList]
    split
    next h => exact ⟨fun _ => h, fun _ => ⟨_, rfl⟩⟩
    next h => exact ⟨nofun, fun h' => absurd h' h⟩
  counts := by
    intro e he
    have hget := StackCounts.get?_ofList samples e.1
    rw [SortedMap.get?_eq_some_iff.2 he] at hget
    split at hget
    next => rw [Option.some.inj hget]; rfl
    next => cases hget
  total := by
    rw [StackCounts.total_ofList, Count.val_sum, List.map_map]
    rfl

/-- Every way to gather samples, in any order of them, leads to one and the same table, and it holds
    the samples. -/
theorem StackCounts.gathered_in_any_order (samples : List (String × Count)) :
    StackCounts.Gathers samples (.ofList samples) ∧
      ∀ samples' s, samples.Perm samples' → StackCounts.Gathers samples' s →
        s = .ofList samples ∧ s.Holds samples := by
  refine ⟨.ofList samples, fun samples' s hperm h => ?_⟩
  have heq : s = .ofList samples := h.eq_ofList.trans (StackCounts.ofList_perm hperm).symm
  rw [heq]
  exact ⟨rfl, StackCounts.holds_ofList samples⟩

/-- A stack that reaches the largest count, gathered by way of two tables. -/
theorem StackCounts.gathered_in_any_order_past_limit :
    let most := Count.ofNat (2 ^ 64 - 2)
    let samples := [("b", .ofNat 1), ("a", most), ("a", .ofNat 5)]
    let samples' := [("a", .ofNat 5), ("a", most), ("b", .ofNat 1)]
    let s := (StackCounts.ofList [("a", .ofNat 5)]).addAll
      ((StackCounts.ofList [("a", most)]).add "b" (.ofNat 1))
    samples.Perm samples' ∧ StackCounts.Gathers samples' s ∧ s = .ofList samples ∧
      s.entries = [("a", .ofNat Count.limit), ("b", .ofNat 1)] ∧ s.total = .ofNat Count.limit := by
  intro most samples samples' s
  have hperm : samples.Perm samples' := by decide
  have hgathers : StackCounts.Gathers samples' s :=
    .addAll (.ofList [("a", .ofNat 5)]) (.add ("b", .ofNat 1) (.ofList [("a", most)]))
  obtain ⟨heq, hholds⟩ :=
    (StackCounts.gathered_in_any_order samples).2 samples' s hperm hgathers
  exact ⟨hperm, hgathers, heq, by decide, Count.ext (hholds.total.trans (by decide))⟩

end FoldedStacks
