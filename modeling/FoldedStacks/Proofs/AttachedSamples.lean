-- SUMMARY: Hanging the samples of a table below markers loses none of them, also where different markers and stacks are joined to the same text and where counts reach the largest one.
import Mathlib
import FoldedStacks.Proofs.ScaledCounts
import FoldedStacks.Stack.ErrorMarker

/-!
# Samples below markers

A stack is hung below a marker by joining the two texts. Different pairs can be joined to the same
text, and then their samples meet in one count. The counts are told here by the pairs that make up a
stack, and the total by the number of markers, so neither a meeting nor the largest count loses
anything that it should not.
-/

namespace FoldedStacks

/-! ## Pairs of a marker and a stack -/

/-- The pairs of a marker and a sampled stack that are joined to a given stack. -/
def ErrorMarker.pairs (samples markers : StackCounts) (stack : String) :
    Finset (String × String) :=
  (markers.keys.toFinset ×ˢ samples.keys.toFinset).filter fun p =>
    StackCounts.rooted p.1 p.2 = stack

theorem ErrorMarker.mem_pairs {samples markers : StackCounts} {stack : String}
    {p : String × String} : p ∈ ErrorMarker.pairs samples markers stack ↔
      p.1 ∈ markers.keys ∧ p.2 ∈ samples.keys ∧ StackCounts.rooted p.1 p.2 = stack := by
  simp only [ErrorMarker.pairs, Finset.mem_filter, Finset.mem_product, List.mem_toFinset, and_assoc]

/-- All samples, each of them once below every marker. -/
def ErrorMarker.joined (samples markers : StackCounts) : List (String × Count) :=
  samples.entries.flatMap fun e =>
    markers.keys.map fun marker => (StackCounts.rooted marker e.1, e.2)

theorem ErrorMarker.attach_eq (samples markers : StackCounts) :
    ErrorMarker.attach samples markers = .ofList (ErrorMarker.joined samples markers) := rfl

theorem ErrorMarker.mem_joined_iff {samples markers : StackCounts} {stack : String} :
    stack ∈ (ErrorMarker.joined samples markers).map (·.1) ↔
      (ErrorMarker.pairs samples markers stack).Nonempty := by
  simp only [ErrorMarker.joined, List.map_flatMap, List.map_map, List.mem_flatMap, List.mem_map,
    Finset.Nonempty, ErrorMarker.mem_pairs, Prod.exists, Function.comp_apply]
  constructor
  · rintro ⟨f, n, hf, marker, hmarker, hstack⟩
    exact ⟨marker, f, hmarker, List.mem_map.2 ⟨(f, n), hf, rfl⟩, hstack⟩
  · rintro ⟨marker, f, hmarker, hf, hstack⟩
    obtain ⟨⟨f, n⟩, hfn, rfl⟩ := List.mem_map.1 hf
    exact ⟨f, n, hfn, marker, hmarker, hstack⟩

/-! ## Sums -/

theorem StackCounts.sum_entries (s : StackCounts) (f : String → Nat → Nat) :
    (s.entries.map fun e => f e.1 e.2.val).sum =
      ∑ stack ∈ s.keys.toFinset, f stack (s.held stack).val := by
  rw [List.sum_toFinset _ s.nodup_keys, SortedMap.keys, List.map_map]
  refine congrArg List.sum (List.map_congr_left ?_)
  intro e he
  rw [Function.comp_apply, StackCounts.held, SortedMap.get?_eq_some_iff.2 he, Option.getD_some]

theorem StackCounts.samplesOf_flatMap {α : Type} (l : List α) (f : α → List (String × Count))
    (stack : String) : StackCounts.samplesOf (l.flatMap f) stack =
      (l.map fun a => StackCounts.samplesOf (f a) stack).sum := by
  rw [StackCounts.samplesOf, List.filter_flatMap, List.map_flatMap, List.flatMap_def,
    List.sum_flatten, List.map_map]
  rfl

theorem StackCounts.samplesOf_rooted (roots : List String) (e : String × Count) (stack : String) :
    StackCounts.samplesOf (roots.map fun root => (StackCounts.rooted root e.1, e.2)) stack =
      (roots.map fun root => if StackCounts.rooted root e.1 = stack then e.2.val else 0).sum := by
  rw [List.sum_map_ite, List.sum_map_zero, add_zero, StackCounts.samplesOf, List.filter_map,
    List.map_map]
  rfl

/-- The samples of a stack are those of the pairs that are joined to it. -/
theorem ErrorMarker.samplesOf_joined (samples markers : StackCounts) (stack : String) :
    StackCounts.samplesOf (ErrorMarker.joined samples markers) stack =
      ∑ p ∈ ErrorMarker.pairs samples markers stack, (samples.held p.2).val := by
  rw [ErrorMarker.pairs, Finset.sum_filter, Finset.sum_product_right, ErrorMarker.joined,
    StackCounts.samplesOf_flatMap]
  simp only [StackCounts.samplesOf_rooted, List.sum_toFinset _ markers.nodup_keys]
  exact samples.sum_entries fun f n =>
    (markers.keys.map fun marker => if StackCounts.rooted marker f = stack then n else 0).sum

/-- All samples are counted once for every marker. -/
theorem ErrorMarker.sum_joined (samples markers : StackCounts) :
    ((ErrorMarker.joined samples markers).map (·.2.val)).sum =
      samples.exactTotal * markers.size := by
  have hrow : ∀ e : String × Count, ((markers.keys.map fun marker =>
      (StackCounts.rooted marker e.1, e.2)).map (·.2.val)).sum = e.2.val * markers.size := by
    intro e
    simp [SortedMap.size, SortedMap.keys, Function.comp_def, mul_comm]
  rw [ErrorMarker.joined, List.map_flatMap, List.flatMap_def, List.sum_flatten, List.map_map,
    StackCounts.exactTotal_eq_sum, ← List.sum_map_mul_right]
  refine congrArg List.sum (List.map_congr_left ?_)
  intro e _
  exact hrow e

/-! ## The table below the markers -/

section Attach

variable {samples markers : StackCounts} {marker stack : String}

theorem ErrorMarker.get?_attach (samples markers : StackCounts) (stack : String) :
    (ErrorMarker.attach samples markers).get? stack =
      if (ErrorMarker.pairs samples markers stack).Nonempty then
        some (.ofNat (∑ p ∈ ErrorMarker.pairs samples markers stack, (samples.held p.2).val))
      else none := by
  rw [ErrorMarker.attach_eq, StackCounts.get?_ofList, ErrorMarker.samplesOf_joined]
  exact if_congr ErrorMarker.mem_joined_iff rfl rfl

theorem ErrorMarker.mem_keys_attach : stack ∈ (ErrorMarker.attach samples markers).keys ↔
    ∃ marker ∈ markers.keys, ∃ sampled ∈ samples.keys,
      StackCounts.rooted marker sampled = stack := by
  have hpairs : stack ∈ (ErrorMarker.attach samples markers).keys ↔
      (ErrorMarker.pairs samples markers stack).Nonempty := by
    rw [SortedMap.mem_keys_iff, ErrorMarker.get?_attach]
    by_cases h : (ErrorMarker.pairs samples markers stack).Nonempty
    · simp [h]
    · simp [h]
  rw [hpairs]
  simp only [Finset.Nonempty, ErrorMarker.mem_pairs, Prod.exists, exists_and_left]

/-- The total is counted once for every marker. It does not matter whether it is capped before. -/
theorem ErrorMarker.val_total_attach (samples markers : StackCounts) :
    (ErrorMarker.attach samples markers).total.val =
      min (samples.total.val * markers.size) Count.limit := by
  rw [ErrorMarker.attach_eq, StackCounts.total_ofList, Count.val_sum, List.map_map,
    StackCounts.val_total]
  refine (congrArg (min · Count.limit) (ErrorMarker.sum_joined samples markers)).trans ?_
  rcases Nat.eq_zero_or_pos markers.size with hnone | hpos
  · rw [hnone, mul_zero, mul_zero]
  rcases Nat.le_total samples.exactTotal Count.limit with hle | hle
  · rw [min_eq_left hle]
  · have hexact := Nat.le_mul_of_pos_right samples.exactTotal hpos
    have hcapped := Nat.le_mul_of_pos_right Count.limit hpos
    rw [min_eq_right hle, min_eq_right (hle.trans hexact), min_eq_right hcapped]

theorem StackCounts.rooted_injective (root : String) :
    Function.Injective (StackCounts.rooted root) := by
  intro stack stack' h
  exact (String.append_right_inj (root ++ ";")).1 h

/-- Below a single marker every stack is joined from itself alone. -/
theorem ErrorMarker.pairs_of_single (hmarker : markers.keys = [marker])
    (hstack : stack ∈ samples.keys) :
    ErrorMarker.pairs samples markers (StackCounts.rooted marker stack) = {(marker, stack)} := by
  ext p
  rw [ErrorMarker.mem_pairs, hmarker, List.mem_singleton, Finset.mem_singleton, Prod.ext_iff]
  constructor
  · rintro ⟨hfirst, -, hjoined⟩
    rw [hfirst] at hjoined
    exact ⟨hfirst, StackCounts.rooted_injective marker hjoined⟩
  · rintro ⟨hfirst, hsecond⟩
    rw [hfirst, hsecond]
    exact ⟨rfl, hstack, rfl⟩

/-- Below a single marker every stack keeps its entry. -/
theorem ErrorMarker.get?_attach_single (hmarker : markers.keys = [marker]) (stack : String) :
    (ErrorMarker.attach samples markers).get? (StackCounts.rooted marker stack) =
      samples.get? stack := by
  rw [ErrorMarker.get?_attach]
  by_cases hstack : stack ∈ samples.keys
  case pos =>
    obtain ⟨n, hn⟩ := SortedMap.mem_keys_iff.1 hstack
    have hcount : Count.ofNat n.val = n := Count.ext (min_eq_left n.val_le_limit)
    rw [ErrorMarker.pairs_of_single hmarker hstack, if_pos (Finset.singleton_nonempty _),
      Finset.sum_singleton, StackCounts.held, hn, Option.getD_some, hcount]
  case neg =>
    rw [if_neg, eq_comm, Option.eq_none_iff_forall_ne_some]
    · intro n hn
      exact hstack (SortedMap.mem_keys_iff.2 ⟨n, hn⟩)
    · rintro ⟨⟨marker', stack'⟩, hp⟩
      obtain ⟨hmem, hstack', hjoined⟩ := ErrorMarker.mem_pairs.1 hp
      rw [hmarker, List.mem_singleton] at hmem
      rw [hmem] at hjoined
      exact hstack (StackCounts.rooted_injective marker hjoined ▸ hstack')

theorem ErrorMarker.bijOn_attach_single (hmarker : markers.keys = [marker]) :
    Set.BijOn (StackCounts.rooted marker) {stack | stack ∈ samples.keys}
      {stack | stack ∈ (ErrorMarker.attach samples markers).keys} := by
  refine ⟨?_, (StackCounts.rooted_injective marker).injOn, ?_⟩
  · intro stack hstack
    exact ErrorMarker.mem_keys_attach.2 ⟨marker, by rw [hmarker]; exact List.mem_cons_self,
      stack, hstack, rfl⟩
  · intro stack hstack
    obtain ⟨marker', hmem, sampled, hsampled, hjoined⟩ := ErrorMarker.mem_keys_attach.1 hstack
    rw [hmarker, List.mem_singleton] at hmem
    rw [hmem] at hjoined
    exact ⟨sampled, hsampled, hjoined⟩

end Attach

/-- Hanging samples below markers keeps their volume for every marker. A stack is there if some
    marker and some sampled stack are joined to it, with the samples of all such pairs, up to the
    largest count. The total is that of the samples for every marker, up to the largest count, and
    does not depend on the counts of the markers. Below a single marker every stack keeps an entry
    and a count of its own. -/
theorem ErrorMarker.attach_keeps_samples (samples markers : StackCounts) :
    (∀ stack, (ErrorMarker.attach samples markers).get? stack =
      if (ErrorMarker.pairs samples markers stack).Nonempty then
        some (.ofNat (∑ p ∈ ErrorMarker.pairs samples markers stack, (samples.held p.2).val))
      else none) ∧
    (ErrorMarker.attach samples markers).total.val =
      min (samples.total.val * markers.size) Count.limit ∧
    ∀ marker, markers.keys = [marker] →
      Set.BijOn (StackCounts.rooted marker) {stack | stack ∈ samples.keys}
        {stack | stack ∈ (ErrorMarker.attach samples markers).keys} ∧
      ∀ stack, (ErrorMarker.attach samples markers).get? (StackCounts.rooted marker stack) =
        samples.get? stack :=
  ⟨ErrorMarker.get?_attach samples markers, ErrorMarker.val_total_attach samples markers,
    fun _ hmarker => ⟨ErrorMarker.bijOn_attach_single hmarker,
      ErrorMarker.get?_attach_single hmarker⟩⟩

/-- Two pairs that are joined to `a;b;c`, with more samples than a count holds, and one marker
    alone. -/
theorem ErrorMarker.attach_keeps_samples_meeting :
    let samples : StackCounts := .ofList [("b;c", .ofNat 3), ("c", .ofNat Count.limit)]
    let markers : StackCounts := .ofList [("a", .ofNat 1), ("a;b", .ofNat 7)]
    let marker : StackCounts := .ofList [("a", .ofNat 1)]
    (ErrorMarker.attach samples markers).keys = ["a;b;b;c", "a;b;c", "a;c"] ∧
      (ErrorMarker.attach samples markers).get? "a;b;c" = some (.ofNat Count.limit) ∧
      (ErrorMarker.attach samples markers).total.val = Count.limit ∧
      (ErrorMarker.attach samples marker).get? "a;b;c" = some (.ofNat 3) := by
  intro samples markers marker
  have hall := ErrorMarker.attach_keeps_samples samples markers
  have hsingle := (ErrorMarker.attach_keeps_samples samples marker).2.2 "a" rfl
  exact ⟨by decide +kernel, by decide +kernel, hall.2.1.trans (by decide +kernel),
    (hsingle.2 "b;c").trans (by decide +kernel)⟩

end FoldedStacks
