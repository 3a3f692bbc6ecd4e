-- SUMMARY: JSON values, their canonical form, and documents and metadata as values in it.
import FoldedStacks.Binary64.Basic
import FoldedStacks.Entries

/-!
# JSON values

A JSON value is a tree. Its canonical form has the members of every object in key order with each
key once, so two canonical values are equal exactly when they are the same document. Run metadata
and the metadata of applications are kept in that form.
-/

namespace FoldedStacks

/-- A number: an integer of 64 bits, signed or unsigned, or a finite double. -/
inductive Json.Number where
  | int (val : Int) (inRange : -2 ^ 63 ≤ val ∧ val < 2 ^ 64)
  | float (x : Binary64.Finite)
  deriving DecidableEq

inductive Json where
  | null
  | bool (b : Bool)
  | num (n : Json.Number)
  | str (s : String)
  | arr (items : List Json)
  | obj (members : List (String × Json))

instance : Inhabited Json := ⟨.null⟩

/-! ## Canonical form -/

mutual

/-- The members of every object stand in key order, each key once. -/
def Json.Canonical : Json → Prop
  | .arr items => Json.ItemsCanonical items
  | .obj members => Entries.Ascending members ∧ Json.MembersCanonical members
  | _ => True

def Json.ItemsCanonical : List Json → Prop
  | [] => True
  | v :: rest => v.Canonical ∧ Json.ItemsCanonical rest

def Json.MembersCanonical : List (String × Json) → Prop
  | [] => True
  | (_, v) :: rest => v.Canonical ∧ Json.MembersCanonical rest

end

mutual

/-- The canonical form of a value. The last of several members with one key stays. -/
def Json.canonical : Json → Json
  | .arr items => .arr (Json.canonicalItems items)
  | .obj members => .obj (Json.canonicalMembers members)
  | v => v

def Json.canonicalItems : List Json → List Json
  | [] => []
  | v :: rest => v.canonical :: Json.canonicalItems rest

def Json.canonicalMembers : List (String × Json) → List (String × Json)
  | [] => []
  | (k, v) :: rest =>
    Entries.upsert k (fun later => later.getD v.canonical) (Json.canonicalMembers rest)

end

theorem Json.membersCanonical_iff {members : List (String × Json)} :
    Json.MembersCanonical members ↔ ∀ e ∈ members, e.2.Canonical := by
  induction members with
  | nil => simp [Json.MembersCanonical]
  | cons e rest ih => simp [Json.MembersCanonical, ih]

theorem Json.MembersCanonical.get? {members : List (String × Json)} {k : String} {v : Json}
    (h : Json.MembersCanonical members) (hv : Entries.get? k members = some v) : v.Canonical := by
  induction members with
  | nil => simp [Entries.get?] at hv
  | cons e rest ih =>
    rw [Entries.get?] at hv
    split at hv
    · cases hv; exact h.1
    · exact ih h.2 hv

theorem Json.MembersCanonical.upsert {members : List (String × Json)} {k : String}
    {f : Option Json → Json} (h : Json.MembersCanonical members)
    (hf : ∀ held, (∀ v, held = some v → v.Canonical) → (f held).Canonical) :
    Json.MembersCanonical (Entries.upsert k f members) := by
  induction members with
  | nil => exact ⟨hf none (by simp), trivial⟩
  | cons e rest ih =>
    rw [Entries.upsert]
    split
    · exact ⟨hf none (by simp), h⟩
    · exact ⟨hf _ fun v hv => by cases hv; exact h.1, h.2⟩
    · exact ⟨h.1, ih h.2⟩

mutual

theorem Json.canonical_canonical : ∀ v : Json, v.canonical.Canonical
  | .null | .bool _ | .num _ | .str _ => by simp [Json.canonical, Json.Canonical]
  | .arr items => by
    simp only [Json.canonical, Json.Canonical]; exact Json.canonicalItems_canonical items
  | .obj members => by
    simp only [Json.canonical, Json.Canonical]; exact Json.canonicalMembers_canonical members

theorem Json.canonicalItems_canonical :
    ∀ items : List Json, Json.ItemsCanonical (Json.canonicalItems items)
  | [] => trivial
  | v :: rest => ⟨Json.canonical_canonical v, Json.canonicalItems_canonical rest⟩

theorem Json.canonicalMembers_canonical : ∀ members : List (String × Json),
    Entries.Ascending (Json.canonicalMembers members) ∧
      Json.MembersCanonical (Json.canonicalMembers members)
  | [] => ⟨Entries.ascending_nil, trivial⟩
  | (k, v) :: rest => by
    have hv := Json.canonical_canonical v
    obtain ⟨hasc, hmem⟩ := Json.canonicalMembers_canonical rest
    refine ⟨hasc.upsert k _, hmem.upsert fun held hheld => ?_⟩
    cases held with
    | none => exact hv
    | some w => exact hheld w rfl

end

/-! ## Documents -/

/-- A value in canonical form. -/
@[ext] structure Document where
  value : Json
  canonical : value.Canonical

/-- A JSON object in canonical form: metadata of a run. -/
@[ext] structure Metadata where
  members : List (String × Json)
  canonical : Json.Canonical (.obj members)

/-- The document of a value. -/
def Document.ofJson (v : Json) : Document :=
  ⟨v.canonical, v.canonical_canonical⟩

def Document.null : Document :=
  ⟨.null, trivial⟩

instance : Inhabited Document := ⟨Document.null⟩

def Document.isNull (d : Document) : Bool :=
  match d.value with
  | .null => true
  | _ => false

/-- The text that a string document holds. -/
def Document.string? (d : Document) : Option String :=
  match d.value with
  | .str s => some s
  | _ => none

/-- The metadata with given members; the last of several members with one key stays. -/
def Metadata.ofMembers (members : List (String × Json)) : Metadata :=
  ⟨Json.canonicalMembers members, Json.canonicalMembers_canonical members⟩

def Metadata.empty : Metadata :=
  ⟨[], Entries.ascending_nil, trivial⟩

instance : Inhabited Metadata := ⟨Metadata.empty⟩

def Metadata.toDocument (m : Metadata) : Document :=
  ⟨.obj m.members, m.canonical⟩

/-- The metadata that an object document holds. -/
def Document.metadata? : Document → Option Metadata
  | ⟨.obj members, h⟩ => some ⟨members, h⟩
  | _ => none

/-- The document under a key. -/
def Metadata.get? (m : Metadata) (k : String) : Option Document :=
  match h : Entries.get? k m.members with
  | some v => some ⟨v, m.canonical.2.get? h⟩
  | none => none

theorem Metadata.value_get? (m : Metadata) (k : String) :
    (m.get? k).map (·.value) = Entries.get? k m.members := by
  rw [Metadata.get?]
  split
  next v h => exact h.symm
  next h => exact h.symm

theorem Document.eq_toDocument {d : Document} {m : Metadata} (h : d.metadata? = some m) :
    d = m.toDocument := by
  obtain ⟨v, hv⟩ := d
  cases v with
  | obj members =>
    cases h
    rfl
  | _ => cases h

end FoldedStacks
