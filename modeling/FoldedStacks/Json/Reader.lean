-- SUMMARY: Readers on the characters of a JSON text, and the ways in which they fail.
import FoldedStacks.Json.Basic

/-!
# Reading JSON text

A reader takes characters off the front of a text, from left to right, and stops at the first
fault. Here are the faults, the readers for single characters and words, and the reader for
sequences with commas.
-/

namespace FoldedStacks

/-- Why a text cannot be read. -/
inductive Json.ReadError where
  /-- The text is no JSON. -/
  | malformed
  /-- The text ends too early. -/
  | truncated
  /-- The text is JSON so far, but not of the type that is read. -/
  | mismatch
  deriving DecidableEq, Repr

/-- Reads a value off the front of the text that is left. -/
abbrev Json.Reader (α : Type) := StateT (List Char) (Except Json.ReadError) α

theorem Json.Reader.bind_apply {α β : Type} (r : Json.Reader α) (f : α → Json.Reader β)
    (cs : List Char) :
    (r >>= f) cs = match r cs with
      | .ok (a, rest) => f a rest
      | .error e => .error e := by
  show Except.bind (r cs) (fun p => f p.1 p.2) = _
  cases r cs <;> rfl

theorem Json.Reader.pure_apply {α : Type} (a : α) (cs : List Char) :
    (pure a : Json.Reader α) cs = .ok (a, cs) := rfl

/-! ## Characters and words -/

/-- The characters that may stand between the parts of a value. -/
def Json.isSpace (c : Char) : Bool :=
  c == ' ' || c == '\t' || c == '\n' || c == '\r'

/-- Goes past the spaces and looks at the next character, if there is one. -/
def Json.peek? : Json.Reader (Option Char) := fun cs =>
  let cs := cs.dropWhile Json.isSpace
  .ok (cs.head?, cs)

/-- Goes past the spaces and looks at the next character. -/
def Json.peek : Json.Reader Char := do
  match ← Json.peek? with
  | some c => return c
  | none => throw .truncated

/-- Takes one character. -/
def Json.advance : Json.Reader Unit := fun cs => .ok ((), cs.tail)

/-- Takes the characters of a word. -/
def Json.expectWord : List Char → Json.Reader Unit
  | [] => pure ()
  | w :: ws => fun cs =>
    match cs with
    | [] => .error .truncated
    | c :: cs => if c = w then Json.expectWord ws cs else .error .malformed

/-- Takes the colon after a key. -/
def Json.expectColon : Json.Reader Unit := do
  if (← Json.peek) = ':' then Json.advance else throw .malformed

/-- Nothing but spaces may be left. -/
def Json.expectEnd : Json.Reader Unit := do
  if (← Json.peek?).isSome then throw .malformed

/-! ## Sequences -/

/-- Elements with commas between them, up to and with `close`, when the next thing is an element.
    Each element takes up at least one character, so `fuel` of the text's length is enough. -/
def Json.readElements {σ : Type} (close : Char) (element : σ → Json.Reader σ) :
    Nat → σ → Json.Reader σ
  | 0, _ => throw .truncated
  | fuel + 1, s => do
    let s ← element s
    let c ← Json.peek
    if c = ',' then
      Json.advance
      Json.readElements close element fuel s
    else if c = close then
      Json.advance
      return s
    else throw .malformed

/-- The inside of an array or object after its opening bracket: `element` is run once for each
    element, from left to right. -/
def Json.readSequence {σ : Type} (close : Char) (element : σ → Json.Reader σ) (s : σ) :
    Json.Reader σ := do
  if (← Json.peek) = close then
    Json.advance
    return s
  else
    let rest ← get
    Json.readElements close element (rest.length + 1) s

end FoldedStacks
