-- SUMMARY: The ChaCha stream cipher with four double rounds.
import FoldedStacks.Powers

/-!
# The ChaCha stream cipher

Blocks of sixteen 32-bit words, made from a key of eight words and a block counter by four double
rounds.
-/

namespace FoldedStacks

abbrev ChaCha.Block := Vector UInt32 16

abbrev ChaCha.Key := Vector UInt32 8

def ChaCha.rotateLeft (x : UInt32) (n : UInt32) : UInt32 :=
  (x <<< n) ||| (x >>> (32 - n))

/-- Mixes four words of a block. -/
def ChaCha.quarterRound (s : ChaCha.Block) (a b c d : Fin 16) : ChaCha.Block :=
  let s := s.set a (s[a] + s[b])
  let s := s.set d (ChaCha.rotateLeft (s[d] ^^^ s[a]) 16)
  let s := s.set c (s[c] + s[d])
  let s := s.set b (ChaCha.rotateLeft (s[b] ^^^ s[c]) 12)
  let s := s.set a (s[a] + s[b])
  let s := s.set d (ChaCha.rotateLeft (s[d] ^^^ s[a]) 8)
  let s := s.set c (s[c] + s[d])
  s.set b (ChaCha.rotateLeft (s[b] ^^^ s[c]) 7)

/-- Mixes the columns of a block, seen as a square, and then its diagonals. -/
def ChaCha.doubleRound (s : ChaCha.Block) : ChaCha.Block :=
  let s := ChaCha.quarterRound s 0 4 8 12
  let s := ChaCha.quarterRound s 1 5 9 13
  let s := ChaCha.quarterRound s 2 6 10 14
  let s := ChaCha.quarterRound s 3 7 11 15
  let s := ChaCha.quarterRound s 0 5 10 15
  let s := ChaCha.quarterRound s 1 6 11 12
  let s := ChaCha.quarterRound s 2 7 8 13
  ChaCha.quarterRound s 3 4 9 14

/-- The block before it is mixed: the text `expand 32-byte k`, the key, the block counter in two
    words, and two zero words. -/
def ChaCha.start (key : ChaCha.Key) (counter : Nat) : ChaCha.Block :=
  #v[0x61707865, 0x3320646e, 0x79622d32, 0x6b206574,
    key[0], key[1], key[2], key[3], key[4], key[5], key[6], key[7],
    counter.toUInt32, (counter / 2 ^ 32).toUInt32, 0, 0]

/-- The block with a given number: the mixed words, added to the words before mixing. -/
def ChaCha.block (key : ChaCha.Key) (counter : Nat) : ChaCha.Block :=
  let start := ChaCha.start key counter
  let mixed := (List.range 4).foldl (fun s _ => ChaCha.doubleRound s) start
  Vector.zipWith (· + ·) mixed start

end FoldedStacks
