-- SUMMARY: The stream of random words that a seed determines.
import FoldedStacks.Random.ChaCha

/-!
# Draws

A stream of random 64-bit words that a seed determines. The stream is a function from positions to
words; a computation that has taken `n` words leaves the stream from position `n` on.
-/

namespace FoldedStacks

/-- A stream of 64-bit words. -/
abbrev Draws := Nat → UInt64

/-- The stream behind its first `n` words. -/
def Draws.after (ds : Draws) (n : Nat) : Draws :=
  fun i => ds (n + i)

/-- A step of the generator that spreads a seed over a key. -/
def Draws.nextSeedState (state : UInt64) : UInt64 :=
  state * 6364136223846793005 + 11634580027462260723

/-- The word that a state of that generator gives: its mixed upper bits, rotated right by the
    number in its five highest bits. -/
def Draws.seedWord (state : UInt64) : UInt32 :=
  let mixed := (((state >>> 18) ^^^ state) >>> 27).toUInt32
  let turn := (state >>> 59).toUInt32
  (mixed >>> turn) ||| (mixed <<< (32 - turn))

/-- The states of that generator behind a seed. -/
def Draws.seedState (seed : UInt64) : Nat → UInt64
  | 0 => seed
  | n + 1 => Draws.nextSeedState (Draws.seedState seed n)

/-- The key that a seed gives. -/
def Draws.key (seed : UInt64) : ChaCha.Key :=
  Vector.ofFn fun i => Draws.seedWord (Draws.seedState seed (i.val + 1))

/-- The word of 64 bits at position `n` is made of the two words of 32 bits at `2n` and `2n + 1`,
    the first one being the low half. -/
def Draws.ofSeed (seed : UInt64) : Draws :=
  let key := Draws.key seed
  fun n =>
    let block := ChaCha.block key (n / 8)
    let i := n % 8
    (block[2 * i]).toUInt64 ||| ((block[2 * i + 1]).toUInt64 <<< 32)

end FoldedStacks
