-- SUMMARY: Readers with alternatives.
/-!
# Readers with alternatives

A reader takes a value off the front of a text, or fails and takes nothing. Of two alternatives the
second is tried when the first fails.
-/

namespace FoldedStacks

/-- Takes a value off the front of a text. -/
abbrev Text.Reader (α : Type) := StateT (List Char) Option α

/-- Takes a character if it is next. -/
def Text.takes (c : Char) : Text.Reader Bool := fun cs =>
  match cs with
  | [] => some (false, cs)
  | d :: rest => some (if d = c then (true, rest) else (false, cs))

/-- Takes a character, which must be next. -/
def Text.expect (c : Char) : Text.Reader Unit := do
  if !(← Text.takes c) then failure

/-- Takes the characters of a word, which must be next. -/
def Text.expectWord : List Char → Text.Reader Unit
  | [] => pure ()
  | c :: cs => do
    Text.expect c
    Text.expectWord cs

/-- Looks at the next character. -/
def Text.next : Text.Reader (Option Char) := fun cs => some (cs.head?, cs)

/-- Takes one of the characters of a class. -/
def Text.oneOf (p : Char → Bool) : Text.Reader Char := fun cs =>
  match cs with
  | [] => none
  | c :: rest => if p c then some (c, rest) else none

/-- Takes the characters of a class. -/
def Text.manyOf (p : Char → Bool) : Text.Reader (List Char) := fun cs =>
  some (cs.takeWhile p, cs.dropWhile p)

/-- Takes the characters of a class, of which there must be one. -/
def Text.someOf (p : Char → Bool) : Text.Reader (List Char) := do
  let cs ← Text.manyOf p
  if cs.isEmpty then failure else return cs

/-- Reads a part if it is there. -/
def Text.optional {α : Type} (r : Text.Reader α) : Text.Reader (Option α) := fun cs =>
  match r cs with
  | some (a, rest) => some (some a, rest)
  | none => some (none, cs)

/-- A number with exactly `n` digits. -/
def Text.fixedDigits (n : Nat) : Text.Reader Nat := fun cs =>
  let digits := cs.take n
  if digits.length = n ∧ digits.all Char.isDigit then
    some (Nat.ofDigitChars 10 digits 0, cs.drop n)
  else none

/-- Reads a whole text. -/
def Text.Reader.readAll {α : Type} (r : Text.Reader α) (text : List Char) : Option α :=
  match r text with
  | some (a, []) => some a
  | _ => none

end FoldedStacks
