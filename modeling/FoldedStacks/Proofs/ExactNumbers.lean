-- SUMMARY: Documents whose doubles are read back as they are written are read back as they are: rereading and the canonical form change nothing about them.
import Mathlib
import FoldedStacks.Proofs.RecordReading

/-!
# Documents that are read back as they are

An integer is read back from its text, and so are strings and the rest. The text of a double may be
read as a neighbour of it. So a document is read back as it is when that holds of each of its
doubles.
-/

namespace FoldedStacks

/-- The reader takes the text of the double for the double itself. -/
def Json.Exact (x : Binary64.Finite) : Prop :=
  (Json.Number.float x).reread = .float x

instance : DecidablePred Json.Exact := fun x =>
  inferInstanceAs (Decidable ((Json.Number.float x).reread = .float x))

/-- Three quarters. -/
def Binary64.Finite.threeQuarters : Binary64.Finite :=
  ⟨false, 3 * 2 ^ 51, -53, by decide⟩

example : Json.Exact .threeQuarters := by decide +kernel

/-! ## Doubles of a value -/

def Json.Number.doubles : Json.Number → List Binary64.Finite
  | .int _ _ => []
  | .float x => [x]

mutual

/-- The doubles in a value. -/
def Json.doubles : Json → List Binary64.Finite
  | .num n => n.doubles
  | .arr items => Json.itemsDoubles items
  | .obj members => Json.membersDoubles members
  | _ => []

def Json.itemsDoubles : List Json → List Binary64.Finite
  | [] => []
  | v :: rest => v.doubles ++ Json.itemsDoubles rest

def Json.membersDoubles : List (String × Json) → List Binary64.Finite
  | [] => []
  | (_, v) :: rest => v.doubles ++ Json.membersDoubles rest

end

def Document.doubles (d : Document) : List Binary64.Finite :=
  d.value.doubles

def Metadata.doubles (m : Metadata) : List Binary64.Finite :=
  Json.membersDoubles m.members

theorem Json.mem_membersDoubles_iff {members : List (String × Json)} {x : Binary64.Finite} :
    x ∈ Json.membersDoubles members ↔ ∃ m ∈ members, x ∈ m.2.doubles := by
  induction members with
  | nil => simp [Json.membersDoubles]
  | cons m rest ih => simp [Json.membersDoubles, ih]

theorem Json.mem_itemsDoubles_iff {items : List Json} {x : Binary64.Finite} :
    x ∈ Json.itemsDoubles items ↔ ∃ v ∈ items, x ∈ v.doubles := by
  induction items with
  | nil => simp [Json.itemsDoubles]
  | cons v rest ih => simp [Json.itemsDoubles, ih]

/-! ## Rereading -/

theorem Json.Number.reread_of_exact {n : Json.Number} (h : ∀ x ∈ n.doubles, Json.Exact x) :
    n.reread = n := by
  cases n with
  | int i hi => exact Json.Number.reread_int i hi
  | float x => exact h x List.mem_cons_self

mutual

theorem Json.reread_of_exact : ∀ v : Json, (∀ x ∈ v.doubles, Json.Exact x) → v.reread = v
  | .null, _ | .bool _, _ | .str _, _ => by simp only [Json.reread]
  | .num n, h => by
    rw [Json.doubles] at h
    rw [Json.reread, Json.Number.reread_of_exact h]
  | .arr items, h => by
    rw [Json.doubles] at h
    rw [Json.reread, Json.rereadItems_of_exact items h]
  | .obj members, h => by
    rw [Json.doubles] at h
    rw [Json.reread, Json.rereadMembers_of_exact members h]

theorem Json.rereadItems_of_exact :
    ∀ items : List Json, (∀ x ∈ Json.itemsDoubles items, Json.Exact x) →
      Json.rereadItems items = items
  | [], _ => rfl
  | v :: rest, h => by
    rw [Json.itemsDoubles, List.forall_mem_append] at h
    rw [Json.rereadItems, Json.reread_of_exact v h.1, Json.rereadItems_of_exact rest h.2]

theorem Json.rereadMembers_of_exact :
    ∀ members : List (String × Json), (∀ x ∈ Json.membersDoubles members, Json.Exact x) →
      Json.rereadMembers members = members
  | [], _ => rfl
  | (k, v) :: rest, h => by
    rw [Json.membersDoubles, List.forall_mem_append] at h
    rw [Json.rereadMembers, Json.reread_of_exact v h.1, Json.rereadMembers_of_exact rest h.2]

end

/-! ## Canonical forms -/

/-- A key below all others is put in front. -/
theorem Entries.upsert_of_lt {α : Type} {k : String} {l : List (String × α)}
    (h : ∀ e ∈ l, compare k e.1 = .lt) (f : Option α → α) :
    Entries.upsert k f l = (k, f none) :: l := by
  cases l with
  | nil => rfl
  | cons e rest => rw [Entries.upsert, h e List.mem_cons_self]

mutual

/-- A canonical value is its own canonical form. -/
theorem Json.Canonical.canonical_eq : ∀ v : Json, v.Canonical → v.canonical = v
  | .null, _ | .bool _, _ | .num _, _ | .str _, _ => by simp only [Json.canonical]
  | .arr items, h => by rw [Json.canonical, Json.ItemsCanonical.canonicalItems_eq items h]
  | .obj members, h => by
    rw [Json.canonical, Json.MembersCanonical.canonicalMembers_eq members h.1 h.2]

theorem Json.ItemsCanonical.canonicalItems_eq :
    ∀ items : List Json, Json.ItemsCanonical items → Json.canonicalItems items = items
  | [], _ => rfl
  | v :: rest, h => by
    rw [Json.canonicalItems, Json.Canonical.canonical_eq v h.1,
      Json.ItemsCanonical.canonicalItems_eq rest h.2]

theorem Json.MembersCanonical.canonicalMembers_eq :
    ∀ members : List (String × Json), Entries.Ascending members →
      Json.MembersCanonical members → Json.canonicalMembers members = members
  | [], _, _ => rfl
  | (k, v) :: rest, hasc, h => by
    obtain ⟨hk, hrest⟩ := Entries.ascending_cons.1 hasc
    rw [Json.canonicalMembers, Json.MembersCanonical.canonicalMembers_eq rest hrest h.2,
      Entries.upsert_of_lt hk, Json.Canonical.canonical_eq v h.1, Option.getD_none]

end

/-! ## Documents and metadata -/

theorem Document.reread_of_exact {d : Document} (h : ∀ x ∈ d.doubles, Json.Exact x) :
    d.reread = d := by
  apply Document.ext
  show d.value.reread.canonical = d.value
  rw [Json.reread_of_exact d.value h, Json.Canonical.canonical_eq d.value d.canonical]

theorem Metadata.reread_of_exact {m : Metadata} (h : ∀ x ∈ m.doubles, Json.Exact x) :
    m.reread = m := by
  apply Metadata.ext
  show Json.canonicalMembers (Json.rereadMembers m.members) = m.members
  rw [Json.rereadMembers_of_exact m.members h,
    Json.MembersCanonical.canonicalMembers_eq m.members m.canonical.1 m.canonical.2]

end FoldedStacks
