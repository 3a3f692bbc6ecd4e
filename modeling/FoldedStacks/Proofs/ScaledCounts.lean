-- SUMMARY: Scaling by a ratio that is not negative: every count becomes one of the integers around its exact product, the total is off by at most one sample for each stack, and the stacks take one word each in the order of their bytes.
import Mathlib
import FoldedStacks.Proofs.ByteOrder
import FoldedStacks.Proofs.DoubleScaling

/-!
# Scaled counts of a table

A stack is scaled by the word at its place in the table, so what becomes of it is a matter of its
own count. In the range of exact integers that is one of the integers around the product, and the
errors of all stacks together are at most one sample for each.
-/

namespace FoldedStacks

/-! ## Stack by stack -/

/-- The count of a stack; zero for a stack that is not in the table. -/
def StackCounts.held (s : StackCounts) (stack : String) : Count :=
  (s.get? stack).getD .zero

section Stacks

variable {s : StackCounts} {ratio : Binary64} {ds : Draws} {stack : String} {c : Count} {j : Nat}

theorem StackCounts.mem_keys_of_scale (h : stack ∈ (s.scale ratio ds).keys) : stack ∈ s.keys := by
  rw [StackCounts.scale] at h
  split at h
  · exact h
  · exact SortedMap.mem_keys_of_filterMapIdx h

theorem StackCounts.held_of_place (h : s.entries[j]? = some (stack, c)) : s.held stack = c := by
  rw [StackCounts.held, SortedMap.get?_of_place h, Option.getD_some]

/-- A stack is scaled by the word at its place; a stack that is dropped has no samples. -/
theorem StackCounts.held_scale (hratio : ratio ≠ .one) (h : s.entries[j]? = some (stack, c)) :
    (s.scale ratio ds).held stack = c.scale ratio (ds j) := by
  rw [StackCounts.held, StackCounts.scale, if_neg hratio, SortedMap.get?_filterMapIdx _ h,
    StackCounts.scaleEntry]
  dsimp only
  split
  next hzero => exact hzero.symm
  next => rfl

end Stacks

/-! ## Neighbouring integers -/

/-- What scaling by `r` makes of a table. `total` is about the exact sums of the counts, and
    `cappedTotal` about the totals, which stop at the largest count. -/
structure StackCounts.ScaledTo (s scaled : StackCounts) (r : ℚ) : Prop where
  keys : ∀ stack ∈ scaled.keys, stack ∈ s.keys
  neighbour : ∀ stack c, s.get? stack = some c → c.InRange r →
    (scaled.held stack).val = ⌊(c.val : ℚ) * r⌋₊ ∨ (scaled.held stack).val = ⌈(c.val : ℚ) * r⌉₊
  exact : ∀ stack c, s.get? stack = some c → c.InRange r → ∀ k : ℕ, (c.val : ℚ) * r = k →
    (scaled.held stack).val = k
  total : (∀ e ∈ s.entries, e.2.InRange r) →
    |(scaled.exactTotal : ℚ) - r * s.exactTotal| ≤ s.size
  cappedTotal : (∀ e ∈ s.entries, e.2.InRange r) → s.exactTotal ≤ Count.limit →
    scaled.exactTotal ≤ Count.limit → |(scaled.total.val : ℚ) - r * s.total.val| ≤ s.size

section Rounded

variable {s : StackCounts} {r : Binary64.Finite}

/-- The count of a stack stays between the integers around its product, also when it is not looked
    at because the ratio is one. -/
theorem StackCounts.held_scale_between (hr : 0 ≤ r.toRat) (ds : Draws) {stack : String} {c : Count}
    (hc : s.get? stack = some c) (hrange : c.InRange r.toRat) :
    ⌊(c.val : ℚ) * r.toRat⌋₊ ≤ ((s.scale (.finite r) ds).held stack).val ∧
      ((s.scale (.finite r) ds).held stack).val ≤ ⌈(c.val : ℚ) * r.toRat⌉₊ := by
  obtain ⟨j, hj⟩ := SortedMap.exists_place hc
  by_cases hone : Binary64.finite r = .one
  case pos =>
    rw [StackCounts.scale, if_pos hone, StackCounts.held_of_place hj,
      Binary64.Finite.toRat_of_one hone, mul_one, Nat.floor_natCast, Nat.ceil_natCast]
    exact ⟨le_rfl, le_rfl⟩
  case neg =>
    rw [StackCounts.held_scale hone hj]
    exact Count.scale_between _ hr hrange.1 hrange.2

theorem StackCounts.scale_scaledTo (s : StackCounts) (hr : 0 ≤ r.toRat) (ds : Draws) :
    s.ScaledTo (s.scale (.finite r) ds) r.toRat where
  keys := fun _ => StackCounts.mem_keys_of_scale
  neighbour := by
    intro stack c hc hrange
    obtain ⟨hlo, hhi⟩ := StackCounts.held_scale_between hr ds hc hrange
    have hnext := Nat.ceil_le_floor_add_one ((c.val : ℚ) * r.toRat)
    omega
  exact := by
    intro stack c hc hrange k hk
    have hbetween := StackCounts.held_scale_between hr ds hc hrange
    rw [hk, Nat.floor_natCast, Nat.ceil_natCast] at hbetween
    exact le_antisymm hbetween.2 hbetween.1
  total := StackCounts.exactTotal_scale hr ds
  cappedTotal := by
    intro hrange hs hscaled
    rw [StackCounts.val_total, StackCounts.val_total, min_eq_left hs, min_eq_left hscaled]
    exact StackCounts.exactTotal_scale hr ds hrange

end Rounded

/-- Running the scaler gives the scaled table and the stream behind the words that it took. The
    table holds only stacks of the input, and each count in the range of exact integers has become
    an integer next to its exact product. Scaled by one, a table stays as it is and no word is taken.
    Otherwise the stack at place `j` in the order of the bytes is scaled by the word at `j`, and as
    many words are taken as there are stacks. -/
theorem StackCounts.scaling_rounds (s : StackCounts) {r : Binary64.Finite} (hr : 0 ≤ r.toRat)
    (ds : Draws) :
    let out := (s.scaling (.finite r)).run ds
    out = (s.scale (.finite r) ds, ds.after (s.drawsTaken (.finite r))) ∧
      s.ScaledTo out.1 r.toRat ∧
      (Binary64.finite r = .one → out = (s, ds)) ∧
      (Binary64.finite r ≠ .one →
        out.2 = ds.after s.size ∧
          (s.entries.Pairwise fun e e' => Text.bytes e.1 < Text.bytes e'.1) ∧
          ∀ (j : Nat) (stack : String) (c : Count), s.entries[j]? = some (stack, c) →
            out.1.held stack = c.scaleInDoubles (.finite r) (ds j)) := by
  intro out
  have hout : out = (s.scale (.finite r) ds, ds.after (s.drawsTaken (.finite r))) :=
    s.scaling_run _ ds
  refine ⟨hout, ?_, fun hone => ?_, fun hone => ⟨?_, s.entries_byteOrder, ?_⟩⟩
  · rw [hout]
    exact s.scale_scaledTo hr ds
  · rw [hout, StackCounts.scale, StackCounts.drawsTaken, if_pos hone, if_pos hone, Draws.after_zero]
  · rw [hout, StackCounts.drawsTaken, if_neg hone]
  · intro j stack c hj
    rw [hout, Count.scaleInDoubles_eq]
    exact StackCounts.held_scale hone hj

/-- Half of three samples is one or two, half of four is two, and two words are taken. -/
theorem StackCounts.scaling_rounds_by_half :
    let ds : Draws := fun i => i.toUInt64
    let half : Binary64.Finite := ⟨false, 2 ^ 52, -53, by decide⟩
    let table : StackCounts := .ofList [("a", .ofNat 3), ("b;c", .ofNat 4)]
    let out := (table.scaling (.finite half)).run ds
    ((out.1.held "a").val = 1 ∨ (out.1.held "a").val = 2) ∧ (out.1.held "b;c").val = 2 ∧
      out.2 = ds.after 2 := by
  intro ds half table out
  have hhalf : half.toRat = 1 / 2 := by decide +kernel
  obtain ⟨-, hscaled, -, hwords⟩ := StackCounts.scaling_rounds table (r := half)
    (by rw [hhalf]; norm_num) ds
  have hneighbour := hscaled.neighbour "a" (.ofNat 3) rfl
  have hexact := hscaled.exact "b;c" (.ofNat 4) rfl
  have hthree : (Count.ofNat 3).val = 3 := rfl
  have hfour : (Count.ofNat 4).val = 4 := rfl
  rw [hhalf] at hneighbour hexact
  simp only [Count.InRange, hthree] at hneighbour
  simp only [Count.InRange, hfour] at hexact
  refine ⟨?_, ?_, (hwords (by decide)).1⟩
  · have := hneighbour ⟨by norm_num, by norm_num⟩
    norm_num at this
    exact this
  · exact hexact ⟨by norm_num, by norm_num⟩ 2 (by norm_num)

end FoldedStacks
