-- SUMMARY: The key of a document is a faithful one: two documents have one key exactly when they differ in nothing but the way of writing an integer.
import Mathlib
import FoldedStacks.Artifact.MetadataTable
import FoldedStacks.Proofs.JsonText

/-!
# Equality of documents

Documents are the same when they have the same shape, texts and numbers, where a double that is an
integer below the limit counts as that integer. The identity text is the text of the document with
its integers written in one way, so it tells the document up to this equality.
-/

namespace FoldedStacks

/-! ## Normal form -/

theorem Json.Number.inRange_of_natAbs_lt {i : Int}
    (h : (i.natAbs : Int) < Json.Number.integerLimit) : -2 ^ 63 ≤ i ∧ i < 2 ^ 64 := by
  have hlimit : Json.Number.integerLimit = 9200000000000000000 := rfl
  have hlow : (2 : Int) ^ 63 = 9223372036854775808 := rfl
  have hhigh : (2 : Int) ^ 64 = 18446744073709551616 := rfl
  omega

/-- The number, as an integer where it is one below the limit. -/
def Json.Number.normal : Json.Number → Json.Number
  | .int i h => .int i h
  | .float x =>
    match x.integer? with
    | some i =>
      if h : i.natAbs < Json.Number.integerLimit then
        .int i (Json.Number.inRange_of_natAbs_lt h)
      else .float x
    | none => .float x

mutual

/-- The value with all its numbers in normal form. -/
def Json.normal : Json → Json
  | .num n => .num n.normal
  | .arr items => .arr (Json.normalItems items)
  | .obj members => .obj (Json.normalMembers members)
  | v => v

def Json.normalItems : List Json → List Json
  | [] => []
  | v :: rest => v.normal :: Json.normalItems rest

def Json.normalMembers : List (String × Json) → List (String × Json)
  | [] => []
  | (k, v) :: rest => (k, v.normal) :: Json.normalMembers rest

end

/-- The identity text of a number is the text of its normal form. -/
theorem Json.Number.identity_eq (n : Json.Number) : n.identity = n.normal.render := by
  cases n with
  | int i h => rfl
  | float x =>
    cases hx : x.integer? with
    | none => simp only [Json.Number.identity, Json.Number.normal, hx, Json.Number.render]
    | some i =>
      by_cases hi : (i.natAbs : Int) < Json.Number.integerLimit
      · simp only [Json.Number.identity, Json.Number.normal, hx, if_pos hi, dif_pos hi,
          Json.Number.render]
      · simp only [Json.Number.identity, Json.Number.normal, hx, if_neg hi, dif_neg hi,
          Json.Number.render]

mutual

/-- The identity text of a value is the text of its normal form. -/
theorem Json.identity_eq : ∀ v : Json, v.identity = v.normal.render
  | .null | .bool _ | .str _ => by simp only [Json.identity, Json.normal]
  | .num n => by simp only [Json.identity, Json.normal, Json.render, Json.Number.identity_eq n]
  | .arr items => by
    simp only [Json.identity, Json.normal, Json.render, Json.identityItems_eq items]
  | .obj members => by
    simp only [Json.identity, Json.normal, Json.render, Json.identityMembers_eq members]

theorem Json.identityItems_eq : ∀ items : List Json,
    Json.identityItems items = Json.renderItems (Json.normalItems items)
  | [] => rfl
  | v :: rest => by
    rw [Json.identityItems, Json.normalItems, Json.renderItems, Json.identity_eq v,
      Json.identityItems_eq rest]

theorem Json.identityMembers_eq : ∀ members : List (String × Json),
    Json.identityMembers members = Json.renderMembers (Json.normalMembers members)
  | [] => rfl
  | (k, v) :: rest => by
    rw [Json.identityMembers, Json.normalMembers, Json.renderMembers, Json.identity_eq v,
      Json.identityMembers_eq rest]

end

/-! ## The same document -/

/-- Equality of documents, up to doubles that are integers below the limit. -/
def Document.Same (d d' : Document) : Prop :=
  d.value.normal = d'.value.normal

namespace Document.Same

theorem refl (d : Document) : d.Same d := rfl

theorem trans {d d' d'' : Document} (h : d.Same d') (h' : d'.Same d'') : d.Same d'' :=
  Eq.trans h h'

end Document.Same

/-- The key of the table is sound and complete: it tells a document from all that are not the
    same, and from no others. -/
theorem MetadataTable.key_eq_iff {d d' : Document} :
    MetadataTable.key d = MetadataTable.key d' ↔ d.Same d' := by
  constructor
  · intro h
    have hidentity : d.identity = d'.identity := String.ofList_injective h
    rw [Document.identity, Document.identity, Json.identity_eq, Json.identity_eq] at hidentity
    exact Json.render_injective hidentity
  · intro h
    rw [MetadataTable.key, MetadataTable.key, Document.identity, Document.identity,
      Json.identity_eq, Json.identity_eq, h]

end FoldedStacks
