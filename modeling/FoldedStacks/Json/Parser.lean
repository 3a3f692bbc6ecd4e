-- SUMMARY: The reader of JSON values and texts, with its limit on nesting.
import FoldedStacks.Json.Literal
import FoldedStacks.Json.Quoted

/-!
# Reading JSON values

Reading a value, skipping a value, and reading a whole text. Arrays and objects may be nested up to
a fixed depth in a value that is read, and to any depth in one that is skipped.
-/

namespace FoldedStacks

/-- How deep arrays and objects may be nested. -/
def Json.maxDepth : Nat := 127

/-! ## Reading -/

/-- Whether a character opens an array or an object. -/
def Json.opens (c : Char) : Bool :=
  c == '[' || c == '\x7b'

/-- A value without parts, which the next character `c` begins. -/
def Json.readScalar (c : Char) : Json.Reader Json :=
  if c = 'n' then do
    Json.expectWord ['n', 'u', 'l', 'l']
    return .null
  else if c = 't' then do
    Json.expectWord ['t', 'r', 'u', 'e']
    return .bool true
  else if c = 'f' then do
    Json.expectWord ['f', 'a', 'l', 's', 'e']
    return .bool false
  else if c = '\"' then do
    return .str (← Json.readString)
  else if c = '-' ∨ c.isDigit then do
    return .num (← Json.readNumber)
  else throw .malformed

/-- The key of a member. -/
def Json.readKey : Json.Reader String := do
  if (← Json.peek) = '\"' then Json.readString else throw .malformed

/-- The members of an object, whose values are read by `value`, behind its opening brace. -/
def Json.readMembers (value : Json.Reader Json) : Json.Reader (List (String × Json)) := do
  let members ← Json.readSequence '\x7d'
    (fun members => do
      let k ← Json.readKey
      Json.expectColon
      let v ← value
      return (k, v) :: members) []
  return members.reverse

/-- The elements of an array, behind its opening bracket. -/
def Json.readItems {α : Type} (item : Json.Reader α) : Json.Reader (List α) := do
  let items ← Json.readSequence ']' (fun items => do return (← item) :: items) []
  return items.reverse

/-- A value in which at most `levels` arrays and objects are nested. -/
def Json.readValue : Nat → Json.Reader Json
  | 0 => do
    let c ← Json.peek
    if Json.opens c then throw .malformed else Json.readScalar c
  | levels + 1 => do
    let c ← Json.peek
    if c = '[' then
      Json.advance
      return .arr (← Json.readItems (Json.readValue levels))
    else if c = '\x7b' then
      Json.advance
      return .obj (← Json.readMembers (Json.readValue levels))
    else Json.readScalar c

/-! ## Skipping -/

/-- Skips a value without parts, which the next character `c` begins. Numbers may be of any size. -/
def Json.skipScalar (c : Char) : Json.Reader Unit :=
  if c = '\"' then Json.skipString
  else if c = '-' ∨ c.isDigit then do
    let _ ← Json.readLiteral .malformed
  else do
    let _ ← Json.readScalar c

/-- Skips a value in which at most `levels` arrays and objects are nested. -/
def Json.skipNested : Nat → Json.Reader Unit
  | 0 => throw .truncated
  | levels + 1 => do
    let c ← Json.peek
    if c = '[' then
      Json.advance
      Json.readSequence ']' (fun _ => Json.skipNested levels) ()
    else if c = '\x7b' then
      Json.advance
      Json.readSequence '\x7d'
        (fun _ => do
          if (← Json.peek) = '\"' then Json.skipString else throw .malformed
          Json.expectColon
          Json.skipNested levels) ()
    else Json.skipScalar c

/-- Skips a value. No more arrays and objects can be open than the text has characters. -/
def Json.skipValue : Json.Reader Unit := do
  Json.skipNested ((← get).length + 1)

/-! ## Whole texts -/

/-- Reads a whole text. -/
def Json.Reader.readAll {α : Type} (r : Json.Reader α) (text : List Char) :
    Except Json.ReadError α :=
  match (do let a ← r; Json.expectEnd; return a : Json.Reader α) text with
  | .ok (a, _) => .ok a
  | .error e => .error e

/-- Reads a whole text as one value. -/
def Json.parse (text : List Char) : Except Json.ReadError Json :=
  (Json.readValue Json.maxDepth).readAll text

end FoldedStacks
