-- SUMMARY: Reading and writing records: objects with known members.
import FoldedStacks.Json.Printer
import FoldedStacks.Json.Typed

/-!
# Reading and writing records

A record is an object with known members. It may also be given as the array of its fields, in their
order. Members with other names are skipped, and no field may be given twice.
-/

namespace FoldedStacks

/-! ## Fields -/

/-- When a field may be left out. -/
inductive Json.Presence where
  | required
  /-- It may be missing from an object, but not from an array. -/
  | requiredInArray
  | optional
  deriving DecidableEq

/-- A field of records of type `ρ`. Reading it puts its value into a record. -/
structure Json.Field (ρ : Type) where
  name : String
  presence : Json.Presence
  read : Nat → ρ → Json.Reader ρ

/-- A field whose value is read by `value` and put in by `put`. -/
def Json.Field.of {ρ α : Type} (name : String) (presence : Json.Presence)
    (value : Nat → Json.Reader α) (put : ρ → α → ρ) : Json.Field ρ :=
  ⟨name, presence, fun levels r => do return put r (← value levels)⟩

/-! ## Reading -/

/-- Whether the rest of the fields may be missing from an array. -/
def Json.mayEnd {ρ : Type} (fields : List (Json.Field ρ)) : Bool :=
  fields.all fun f => f.presence == .optional

/-- The fields in their order, with commas between them, behind the opening bracket. Before all but
    the first a comma must stand. -/
def Json.readFieldsInOrder {ρ : Type} (levels : Nat) :
    List (Json.Field ρ) → Bool → ρ → Json.Reader ρ
  | [], _, r => do
    if (← Json.peek) = ']' then
      Json.advance
      return r
    else throw .malformed
  | f :: rest, isFirst, r => do
    let c ← Json.peek
    if c = ']' then
      if Json.mayEnd (f :: rest) then
        Json.advance
        return r
      else throw .mismatch
    else
      if !isFirst then
        if c = ',' then Json.advance else throw .malformed
        if (← Json.peek) = ']' then throw .malformed
      let r ← f.read levels r
      Json.readFieldsInOrder levels rest false r

/-- One member of a record: the record with it, and the names that have been given. -/
def Json.readField {ρ : Type} (fields : List (Json.Field ρ)) (levels : Nat)
    (draft : ρ × List String) : Json.Reader (ρ × List String) := do
  let k ← Json.readKey
  match fields.find? fun f => f.name == k with
  | some f =>
    if draft.2.contains k then throw .mismatch
    Json.expectColon
    return (← f.read levels draft.1, k :: draft.2)
  | none =>
    Json.expectColon
    Json.skipValue
    return draft

/-- A record. Fields that are not given keep their value in `start`. -/
def Json.readRecord {ρ : Type} (fields : List (Json.Field ρ)) (start : ρ) (levels : Nat) :
    Json.Reader ρ := do
  if (← Json.peek) = '[' then
    Json.opening '[' levels fun levels => Json.readFieldsInOrder levels fields true start
  else
    Json.opening '\x7b' levels fun levels => do
      let (r, given) ← Json.readSequence '\x7d' (Json.readField fields levels) (start, [])
      if fields.all fun f => f.presence != .required || given.contains f.name then return r
      else throw .mismatch

/-! ## Choices -/

/-- One of several named values: its name as a string, or an object whose only member has that
    name and is null. -/
def Json.readChoice {α : Type} (byName : String → Option α) (levels : Nat) : Json.Reader α := do
  let named : Json.Reader α := do
    match byName (← Json.readStringValue) with
    | some a => return a
    | none => throw .mismatch
  let c ← Json.peek
  if c = '\"' then named
  else if c = '\x7b' then
    Json.opening '\x7b' levels fun _ => do
      if (← Json.peek) ≠ '\"' then throw .malformed
      let a ← named
      Json.expectColon
      match ← Json.peek with
      | 'n' => Json.expectWord ['n', 'u', 'l', 'l']
      | c => Json.readWrongType c
      if (← Json.peek) = '\x7d' then
        Json.advance
        return a
      else throw .malformed
  else throw .malformed

/-! ## Writing -/

/-- The text of a record with given field texts. -/
def Json.renderRecord (fields : List (String × List Char)) : List Char :=
  Json.braced (fields.map fun f => Json.renderMember f.1 f.2)

/-- The text of a value that may be missing. -/
def Json.renderOption {α : Type} (render : α → List Char) : Option α → List Char
  | none => Json.render .null
  | some a => render a

def Json.renderBool (b : Bool) : List Char :=
  Json.render (.bool b)

end FoldedStacks
