-- SUMMARY: Tables of stacks with their sample counts: adding samples, and totals.
import FoldedStacks.Count
import FoldedStacks.SortedMap

/-!
# Stack counts

A stack is written as its frames from the root to the leaf, with semicolons between them. A table
of stacks says for each stack how many samples were taken in it.
-/

namespace FoldedStacks

/-- Samples per stack. -/
abbrev StackCounts := SortedMap String Count

/-- A stack below another stack. -/
def StackCounts.rooted (root stack : String) : String :=
  root ++ ";" ++ stack

/-- Counts `n` more samples for a stack. A stack with no samples yet is entered even for `n = 0`. -/
def StackCounts.add (s : StackCounts) (stack : String) (n : Count) : StackCounts :=
  s.upsert stack fun held => held.getD Count.zero + n

/-- Adds up a list of samples. -/
def StackCounts.ofList (samples : List (String × Count)) : StackCounts :=
  samples.foldl (fun s e => s.add e.1 e.2) SortedMap.empty

/-- Counts every sample of `t` for the same stack in `s`. -/
def StackCounts.addAll (s t : StackCounts) : StackCounts :=
  t.entries.foldl (fun s e => s.add e.1 e.2) s

/-- All samples. -/
def StackCounts.total (s : StackCounts) : Count :=
  Count.sum s.values

theorem StackCounts.get?_add (s : StackCounts) (stack other : String) (n : Count) :
    (s.add stack n).get? other =
      if other = stack then some ((s.get? stack).getD Count.zero + n) else s.get? other :=
  s.get?_upsert stack other _

end FoldedStacks
