-- SUMMARY: Readers for texts that must hold a value of a known type.
import FoldedStacks.Json.Parser
import FoldedStacks.SortedMap

/-!
# Reading values of a type

Readers for texts that must hold a value of a known type. A value of another type is read to its
end if it is a scalar, so that a fault inside it is found first, and is then a mismatch.
-/

namespace FoldedStacks

/-! ## Scalars -/

/-- The next value, which `c` begins, is of the wrong type. -/
def Json.readWrongType {α : Type} (c : Char) : Json.Reader α :=
  if Json.opens c then throw .mismatch
  else do
    let _ ← Json.readScalar c
    throw .mismatch

def Json.readBool : Json.Reader Bool := do
  let c ← Json.peek
  match ← if c = 't' ∨ c = 'f' then Json.readScalar c else Json.readWrongType c with
  | .bool b => return b
  | _ => throw .mismatch

/-- A number of any kind. -/
def Json.readAnyNumber : Json.Reader Json.Number := do
  let c ← Json.peek
  if c = '-' ∨ c.isDigit then Json.readNumber else Json.readWrongType c

/-- An integer from zero up to `limit`. -/
def Json.readNatural (limit : Nat) : Json.Reader Nat := do
  match (← Json.readAnyNumber).natural? with
  | some n => if n ≤ limit then return n else throw .mismatch
  | none => throw .mismatch

/-- Any number, as a double. -/
def Json.readDouble : Json.Reader Binary64 := do
  return (← Json.readAnyNumber).toBinary64

/-- A string value. -/
def Json.readStringValue : Json.Reader String := do
  let c ← Json.peek
  if c = '\"' then Json.readString else Json.readWrongType c

/-- Null, or a value read by `r`. -/
def Json.readOption {α : Type} (r : Json.Reader α) : Json.Reader (Option α) := do
  if (← Json.peek?) = some 'n' then
    Json.expectWord ['n', 'u', 'l', 'l']
    return none
  else return some (← r)

/-! ## Values with parts -/

/-- Reads behind the opening bracket `c`, if one more may be opened. -/
def Json.opening {α : Type} (c : Char) (levels : Nat) (inside : Nat → Json.Reader α) :
    Json.Reader α := do
  let next ← Json.peek
  if next = c then
    match levels with
    | 0 => throw .malformed
    | levels + 1 =>
      Json.advance
      inside levels
  else Json.readWrongType next

/-- An array with elements of one type. -/
def Json.readList {α : Type} (levels : Nat) (item : Nat → Json.Reader α) : Json.Reader (List α) :=
  Json.opening '[' levels fun levels => Json.readItems (item levels)

/-- An object as a map. A later member overwrites an earlier one of the same key. -/
def Json.readMap {κ α : Type} [Ord κ] [Std.TransOrd κ] (levels : Nat) (key : Json.Reader κ)
    (value : Nat → Json.Reader α) : Json.Reader (SortedMap κ α) :=
  Json.opening '\x7b' levels fun levels =>
    Json.readSequence '\x7d'
      (fun m => do
        let k ← key
        Json.expectColon
        let a ← value levels
        return m.insert k a) SortedMap.empty

/-- A key that is an integer in quotes, from zero up to `limit`. -/
def Json.readNaturalKey (limit : Nat) : Json.Reader Nat := do
  if (← Json.peek) ≠ '\"' then throw .malformed
  Json.advance
  match (← get).head? with
  | none => throw .malformed
  | some c =>
    if c = '-' ∨ c.isDigit then
      match (← Json.readNumber).natural? with
      | none => throw .mismatch
      | some n =>
        if limit < n then throw .mismatch
        if (← get).head? ≠ some '\"' then throw .malformed
        Json.advance
        return n
    else throw .malformed

/-- A document of any type. -/
def Json.readDocument (levels : Nat) : Json.Reader Document := do
  return .ofJson (← Json.readValue levels)

/-- An object of any members. -/
def Json.readMetadata (levels : Nat) : Json.Reader Metadata :=
  Json.opening '\x7b' levels fun levels => do
    return .ofMembers (← Json.readMembers (Json.readValue levels))

/-- Reads a whole text as a document. -/
def Document.parse (text : List Char) : Except Json.ReadError Document :=
  (Json.readDocument Json.maxDepth).readAll text

/-- Reads a whole text as metadata. -/
def Metadata.parse (text : List Char) : Except Json.ReadError Metadata :=
  (Json.readMetadata Json.maxDepth).readAll text

end FoldedStacks
