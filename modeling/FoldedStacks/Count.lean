-- SUMMARY: Sample counts of 64 bits, added up to the largest one.
import FoldedStacks.Powers
import FoldedStacks.Text.Numeral

/-!
# Sample counts

Numbers of samples. A count is at most `2^64 - 1`, and sums past that stay there, so adding is
commutative and associative whatever the order of the samples.
-/

namespace FoldedStacks

/-- A number of samples. -/
@[ext] structure Count where
  val : Nat
  val_le : val ≤ 2 ^ 64 - 1
  deriving DecidableEq

/-- The largest count, `2^64 - 1`. -/
def Count.limit : Nat :=
  2 ^ 64 - 1

/-- The count nearest to a number. -/
def Count.ofNat (n : Nat) : Count :=
  ⟨min n Count.limit, Nat.min_le_right _ _⟩

def Count.zero : Count :=
  ⟨0, Nat.zero_le _⟩

instance : Inhabited Count := ⟨Count.zero⟩

/-- The sum, or the largest count when the sum is past it. -/
def Count.add (a b : Count) : Count :=
  .ofNat (a.val + b.val)

instance : Add Count := ⟨Count.add⟩

/-- The sum of a list of counts. -/
def Count.sum (cs : List Count) : Count :=
  cs.foldl (· + ·) Count.zero

/-- Reads a count. -/
def Count.read (cs : List Char) : Except NumeralError Count :=
  (Text.readNumeral Count.limit cs).map Count.ofNat

theorem Count.val_add (a b : Count) : (a + b).val = min (a.val + b.val) Count.limit := rfl

theorem Count.val_le_limit (a : Count) : a.val ≤ Count.limit := a.val_le

theorem Count.add_comm (a b : Count) : a + b = b + a := by
  ext; simp only [Count.val_add]; omega

theorem Count.add_assoc (a b c : Count) : a + b + c = a + (b + c) := by
  ext; simp only [Count.val_add]; omega

theorem Count.add_zero (a : Count) : a + Count.zero = a := by
  ext
  have := a.val_le_limit
  simp only [Count.val_add, Count.zero]
  omega

end FoldedStacks
