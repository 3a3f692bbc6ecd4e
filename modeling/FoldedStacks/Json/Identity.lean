-- SUMMARY: The text by which two documents are taken for the same.
import FoldedStacks.Json.Printer

/-!
# Identity of documents

Two documents are taken for the same when they have the same identity text. It is their JSON text,
but for doubles that are integers: below a limit they are written as integers.
-/

namespace FoldedStacks

/-- Doubles from this magnitude on are never written as integers. -/
def Json.Number.integerLimit : Int := 9200000000000000000

/-- The integer that a double is. -/
def Binary64.Finite.integer? (x : Binary64.Finite) : Option Int :=
  if x.toRat.den = 1 then some x.toRat.num else none

def Json.Number.identity : Json.Number → List Char
  | .int i _ => Json.renderInt i
  | .float x =>
    match x.integer? with
    | some i => if i.natAbs < Json.Number.integerLimit then Json.renderInt i else x.render
    | none => x.render

mutual

/-- The identity text of a value. -/
def Json.identity : Json → List Char
  | .num n => n.identity
  | .arr items => Json.bracketed (Json.identityItems items)
  | .obj members => Json.braced (Json.identityMembers members)
  | v => v.render

def Json.identityItems : List Json → List (List Char)
  | [] => []
  | v :: rest => v.identity :: Json.identityItems rest

def Json.identityMembers : List (String × Json) → List (List Char)
  | [] => []
  | (k, v) :: rest => Json.renderMember k v.identity :: Json.identityMembers rest

end

/-- The identity text of a document. -/
def Document.identity (d : Document) : List Char :=
  d.value.identity

end FoldedStacks
