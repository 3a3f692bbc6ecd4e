-- SUMMARY: Scaling the counts of a table by a ratio, with a draw for every stack.
import FoldedStacks.Binary64.Rounding
import FoldedStacks.Random.Draws
import FoldedStacks.Stack.Counts

/-!
# Scaling

Multiplies the counts of a table by a ratio. A product between two integers is rounded up with the
probability of its fractional part, so the total is kept on average. Stacks that are left without
samples are dropped.
-/

namespace FoldedStacks

/-- The number in `[0, 1)` that a drawn word stands for: its upper 53 bits, behind the point. -/
def Draws.fraction (word : UInt64) : Rat :=
  mkRat (word >>> 11).toNat (2 ^ 53)

/-- Rounds `q` up if the number `u` lies below its fractional part, and down otherwise. -/
def Count.roundBy (u q : Rat) : Int :=
  if u < q - q.floor then q.floor + 1 else q.floor

/-- A count multiplied by a ratio and rounded by a drawn word. -/
def Count.scale (n : Count) (ratio : Binary64) (word : UInt64) : Count :=
  match Binary64.ofNat n.val * ratio with
  | .nan => .zero
  | .infinite negative => if negative then .zero else .ofNat Count.limit
  | .finite x => .ofNat (Count.roundBy (Draws.fraction word) x.toRat).toNat

/-- The count of an entry after scaling, unless there is none left. -/
def StackCounts.scaleEntry (ratio : Binary64) (ds : Draws) (i : Nat) (e : String × Count) :
    Option Count :=
  let n := e.2.scale ratio (ds i)
  if n = .zero then none else some n

/-- Scales a table. The words are drawn in the order of the stacks, one for each; a table that is
    scaled by one stays as it is. -/
def StackCounts.scale (s : StackCounts) (ratio : Binary64) (ds : Draws) : StackCounts :=
  if ratio = .one then s else s.filterMapIdx (StackCounts.scaleEntry ratio ds)

/-- How many words scaling a table takes. -/
def StackCounts.drawsTaken (s : StackCounts) (ratio : Binary64) : Nat :=
  if ratio = .one then 0 else s.size

end FoldedStacks
