-- SUMMARY: Metadata with other metadata put over it.
import FoldedStacks.Json.Basic

/-!
# Overriding metadata

Metadata with other metadata put over it: where both hold an object, the objects are merged member
by member; everywhere else the override wins, and what it does not mention stays.
-/

namespace FoldedStacks

mutual

/-- What a member becomes that held `held` and is overridden by a value. -/
def Json.override (held : Option Json) : Json → Json
  | .obj incoming =>
    match held with
    | some (.obj existing) => .obj (Json.overrideMembers existing incoming)
    | _ => .obj incoming
  | v => v

/-- Members with other members put over them. -/
def Json.overrideMembers (base : List (String × Json)) :
    List (String × Json) → List (String × Json)
  | [] => base
  | (k, v) :: rest =>
    Json.overrideMembers (Entries.upsert k (fun held => Json.override held v) base) rest

end

/-! ## The canonical form is kept -/

mutual

theorem Json.Canonical.override : ∀ (v : Json) (held : Option Json), v.Canonical →
    (∀ w, held = some w → w.Canonical) → (Json.override held v).Canonical
  | .null, _, _, _ | .bool _, _, _, _ | .num _, _, _, _ | .str _, _, _, _ => by
    simp [Json.override, Json.Canonical]
  | .arr _, _, hv, _ => by simpa [Json.override] using hv
  | .obj incoming, some (.obj existing), hv, hheld => by
    rw [Json.override]
    exact Json.Canonical.overrideMembers incoming existing hv.2 (hheld _ rfl)
  | .obj _, none, hv, _
  | .obj _, some .null, hv, _
  | .obj _, some (.bool _), hv, _
  | .obj _, some (.num _), hv, _
  | .obj _, some (.str _), hv, _
  | .obj _, some (.arr _), hv, _ => by simpa [Json.override] using hv

theorem Json.Canonical.overrideMembers : ∀ (members base : List (String × Json)),
    Json.MembersCanonical members → Json.Canonical (.obj base) →
      Json.Canonical (.obj (Json.overrideMembers base members))
  | [], _, _, hbase => by simpa [Json.overrideMembers] using hbase
  | (k, v) :: rest, base, hmem, hbase => by
    rw [Json.overrideMembers]
    refine Json.Canonical.overrideMembers rest _ hmem.2 ⟨?_, ?_⟩
    · exact Entries.Ascending.upsert hbase.1 k _
    · exact Json.MembersCanonical.upsert hbase.2 fun held hheld =>
        Json.Canonical.override v held hmem.1 hheld

end

/-- Metadata with `overrides` put over it. -/
def Metadata.override (base overrides : Metadata) : Metadata :=
  ⟨Json.overrideMembers base.members overrides.members,
    Json.Canonical.overrideMembers _ _ overrides.canonical.2 base.canonical⟩

/-! ## Dropping a nested member -/

/-- An object without its member under `k`; other values stay. -/
def Json.dropMember (k : String) : Json → Json
  | .obj members => .obj (Entries.erase k members)
  | v => v

theorem Json.Canonical.dropMember {v : Json} (h : v.Canonical) (k : String) :
    (v.dropMember k).Canonical := by
  cases v with
  | obj members =>
    refine ⟨h.1.erase k, Json.membersCanonical_iff.2 fun e he => ?_⟩
    exact Json.membersCanonical_iff.1 h.2 e (List.mem_filter.1 he).1
  | _ => exact h

/-- The members of which the object under `k` has lost its member under `inner`. -/
def Json.dropNested (k inner : String) (members : List (String × Json)) : List (String × Json) :=
  members.map fun e => (e.1, if e.1 = k then e.2.dropMember inner else e.2)

theorem Json.Canonical.dropNested {members : List (String × Json)}
    (h : Json.Canonical (.obj members)) (k inner : String) :
    Json.Canonical (.obj (Json.dropNested k inner members)) := by
  refine ⟨List.pairwise_map.2 h.1, Json.membersCanonical_iff.2 fun e he => ?_⟩
  obtain ⟨e', he', rfl⟩ := List.mem_map.1 he
  have hv := Json.membersCanonical_iff.1 h.2 e' he'
  show Json.Canonical (if e'.1 = k then e'.2.dropMember inner else e'.2)
  split
  · exact hv.dropMember inner
  · exact hv

def Metadata.dropNested (m : Metadata) (k inner : String) : Metadata :=
  ⟨Json.dropNested k inner m.members, m.canonical.dropNested k inner⟩

end FoldedStacks
