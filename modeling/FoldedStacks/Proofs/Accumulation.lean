-- SUMMARY: Maps that are built entry by entry do not depend on the order of the entries: inserting under distinct keys, adding samples to stacks, and adding samples to the stacks of processes.
import Mathlib
import FoldedStacks.Listing.System
import FoldedStacks.Proofs.Entries

/-!
# Accumulation in any order

Two additions to a map can be made in either order, whether they meet in one key or not. So what is
added up from a list is the same for all its permutations.
-/

namespace FoldedStacks

section Maps

variable {κ α : Type} [Ord κ] [Std.TransOrd κ] [Std.LawfulEqOrd κ]

/-- Maps with the same look-ups are equal. -/
theorem SortedMap.ext_get? {m m' : SortedMap κ α} (h : ∀ k, m.get? k = m'.get? k) : m = m' :=
  SortedMap.ext (m.ascending.ext_get? m'.ascending h)

/-- Updates that commute where they meet in one key commute. -/
theorem SortedMap.upsert_comm [DecidableEq κ] (m : SortedMap κ α) {k k' : κ}
    {f f' : Option α → α}
    (h : k = k' → ∀ held, f' (some (f held)) = f (some (f' held))) :
    (m.upsert k f).upsert k' f' = (m.upsert k' f').upsert k f := by
  apply SortedMap.ext_get?
  intro j
  simp only [SortedMap.get?_upsert]
  by_cases heq : k = k'
  · subst heq
    simp only [if_true]
    split
    · rw [h rfl]
    · rfl
  · simp only [if_neg heq, if_neg (Ne.symm heq)]
    by_cases hj : j = k'
    · simp [hj, Ne.symm heq]
    · simp [hj]

/-- Entries with distinct keys make the same map in any order. -/
theorem SortedMap.ofList_perm [DecidableEq κ] {l l' : List (κ × α)} (h : l.Perm l')
    (hdistinct : (l.map (·.1)).Nodup) : SortedMap.ofList l = SortedMap.ofList l' := by
  refine h.foldl_eq' ?_ SortedMap.empty
  intro e he e' he' m
  apply SortedMap.upsert_comm
  intro hkey held
  have heq : e = e' := List.inj_on_of_nodup_map hdistinct he he' hkey
  rw [heq]

end Maps

/-! ## Samples -/

theorem StackCounts.add_comm (s : StackCounts) (e e' : String × Count) :
    (s.add e.1 e.2).add e'.1 e'.2 = (s.add e'.1 e'.2).add e.1 e.2 := by
  apply SortedMap.upsert_comm
  intro _ held
  simp only [Option.getD_some, Count.add_assoc]
  rw [Count.add_comm e.2]

/-- Samples may be added up in any order. -/
theorem StackCounts.ofList_perm {l l' : List (String × Count)} (h : l.Perm l') :
    StackCounts.ofList l = StackCounts.ofList l' :=
  h.foldl_eq' (fun e _ e' _ s => StackCounts.add_comm s e e') SortedMap.empty

/-- The samples of all processes may be added up in any order. -/
theorem SystemListing.counts_perm {l l' : SystemListing} (h : l.samples.Perm l'.samples) :
    l.counts = l'.counts := by
  refine h.foldl_eq' ?_ SortedMap.empty
  intro s _ s' _ m
  apply SortedMap.upsert_comm
  intro _ held
  exact StackCounts.add_comm _ (s.stack, s.count) (s'.stack, s'.count)

end FoldedStacks
