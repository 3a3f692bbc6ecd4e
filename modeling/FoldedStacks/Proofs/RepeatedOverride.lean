-- SUMMARY: Putting metadata over others a second time changes nothing, also when a nested member was dropped in between and is dropped again.
import Mathlib
import FoldedStacks.Proofs.Overriding

/-!
# Overriding twice

A value that was overridden holds the override already, so the same override leaves it as it is. A
member that was dropped meanwhile comes back if the override has it, and has to be dropped again.
-/

namespace FoldedStacks

/-! ## Values -/

/-- Overriding leaves members as they are when it does so under each of its keys. -/
theorem Json.overrideMembers_eq_self_iff {base members : List (String × Json)}
    (hbase : Json.Canonical (.obj base)) (hmembers : Json.Canonical (.obj members)) :
    Json.overrideMembers base members = base ↔
      ∀ k v, Entries.get? k members = some v →
        Entries.get? k base = some (Json.override (Entries.get? k base) v) := by
  have hget := Json.get?_overrideMembers hbase.1 hmembers.1
  constructor
  · intro heq k v hv
    have hk := hget k
    rw [heq, hv] at hk
    exact hk
  · intro h
    refine (Json.Canonical.overrideMembers members base hmembers.2 hbase).1.ext_get? hbase.1 ?_
    intro k
    rw [hget]
    cases hv : Entries.get? k members with
    | none => rfl
    | some v => exact (h k v hv).symm

theorem Json.overrideMembers_nil {members : List (String × Json)}
    (h : Json.Canonical (.obj members)) : Json.overrideMembers [] members = members := by
  have hnil : Json.Canonical (.obj []) := ⟨Entries.ascending_nil, trivial⟩
  refine (Json.Canonical.overrideMembers members [] h.2 hnil).1.ext_get? h.1 fun k => ?_
  rw [Json.get?_overrideMembers Entries.ascending_nil h.1]
  cases hv : Entries.get? k members with
  | none => rfl
  | some v => exact congrArg some (Json.override_none v)

/-- Members that were overridden stay as they are, when their values do. -/
theorem Json.overrideMembers_overrideMembers {base incoming : List (String × Json)}
    (hbase : Json.Canonical (.obj base)) (hincoming : Json.Canonical (.obj incoming))
    (ih : ∀ e ∈ incoming, ∀ held : Option Json, (∀ w, held = some w → w.Canonical) →
      Json.override (some (Json.override held e.2)) e.2 = Json.override held e.2) :
    Json.overrideMembers (Json.overrideMembers base incoming) incoming =
      Json.overrideMembers base incoming := by
  have hover := Json.Canonical.overrideMembers incoming base hincoming.2 hbase
  refine (Json.overrideMembers_eq_self_iff hover hincoming).2 fun k v hv => ?_
  have hget : Entries.get? k (Json.overrideMembers base incoming) =
      some (Json.override (Entries.get? k base) v) := by
    rw [Json.get?_overrideMembers hbase.1 hincoming.1, hv]
  have hmem : (k, v) ∈ incoming := (Entries.get?_eq_some_iff hincoming.1).1 hv
  have hheld : ∀ w, Entries.get? k base = some w → w.Canonical := fun w hw => hbase.2.get? hw
  rw [hget, ih (k, v) hmem _ hheld]

mutual

/-- What was overridden stays when it is overridden again. -/
theorem Json.override_override : ∀ (v : Json) (held : Option Json), v.Canonical →
    (∀ w, held = some w → w.Canonical) →
      Json.override (some (Json.override held v)) v = Json.override held v
  | .null, _, _, _ | .bool _, _, _, _ | .num _, _, _, _ | .str _, _, _, _ | .arr _, _, _, _ => by
    simp only [Json.override]
  | .obj incoming, some (.obj existing), hv, hheld => by
    simp only [Json.override]
    rw [Json.overrideMembers_overrideMembers (hheld _ rfl) hv
      (Json.override_override_members incoming hv.2)]
  | .obj incoming, none, hv, _
  | .obj incoming, some .null, hv, _
  | .obj incoming, some (.bool _), hv, _
  | .obj incoming, some (.num _), hv, _
  | .obj incoming, some (.str _), hv, _
  | .obj incoming, some (.arr _), hv, _ => by
    have hstep := Json.overrideMembers_overrideMembers ⟨Entries.ascending_nil, trivial⟩ hv
      (Json.override_override_members incoming hv.2)
    simp only [Json.override]
    rw [Json.overrideMembers_nil hv] at hstep
    rw [hstep]

theorem Json.override_override_members : ∀ members : List (String × Json),
    Json.MembersCanonical members → ∀ e ∈ members, ∀ held : Option Json,
      (∀ w, held = some w → w.Canonical) →
        Json.override (some (Json.override held e.2)) e.2 = Json.override held e.2
  | [], _ => fun e he => absurd he List.not_mem_nil
  | (k, v) :: rest, h => by
    rintro e he held hheld
    rcases List.mem_cons.1 he with rfl | he
    · exact Json.override_override v held h.1 hheld
    · exact Json.override_override_members rest h.2 e he held hheld

end

/-! ## Dropped members -/

theorem Entries.get?_erase {α : Type} (k inner : String) (l : List (String × α)) :
    Entries.get? k (Entries.erase inner l) = if k = inner then none else Entries.get? k l := by
  induction l with
  | nil => simp [Entries.erase, Entries.get?]
  | cons e rest ih =>
    rw [Entries.erase] at ih
    rw [Entries.erase, List.filter_cons, Entries.get?_cons]
    by_cases he : inner = e.1
    · have hdrop : ¬ (compare inner e.1 != .eq) = true := by simp [he]
      rw [if_neg hdrop, ih, ← he]
      by_cases hk : k = inner
      · rw [if_pos hk, if_pos hk]
      · rw [if_neg hk, if_neg hk, if_neg hk]
    · have hkeep : (compare inner e.1 != .eq) = true := by simpa using he
      rw [if_pos hkeep, Entries.get?_cons, ih]
      by_cases hk : k = e.1
      · rw [if_pos hk, if_pos hk, if_neg fun hinner => he (hinner.symm.trans hk)]
      · rw [if_neg hk, if_neg hk]

/-- A member that was dropped is all that overriding again brings back. -/
theorem Json.erase_overrideMembers_erase {base members : List (String × Json)}
    (hbase : Json.Canonical (.obj base)) (hmembers : Json.Canonical (.obj members))
    (h : Json.overrideMembers base members = base) (inner : String) :
    Entries.erase inner (Json.overrideMembers (Entries.erase inner base) members) =
      Entries.erase inner base := by
  have herased : Json.Canonical (.obj (Entries.erase inner base)) := hbase.dropMember inner
  have hagain := Json.Canonical.overrideMembers members _ hmembers.2 herased
  refine (hagain.dropMember inner).1.ext_get? herased.1 fun k => ?_
  rw [Entries.get?_erase, Json.get?_overrideMembers herased.1 hmembers.1, Entries.get?_erase]
  by_cases hk : k = inner
  · rw [if_pos hk, if_pos hk]
  · rw [if_neg hk, if_neg hk]
    cases hv : Entries.get? k members with
    | none => rfl
    | some v => exact ((Json.overrideMembers_eq_self_iff hbase hmembers).1 h k v hv).symm

theorem Json.exists_override_obj (held : Option Json) (incoming : List (String × Json)) :
    ∃ members, Json.override held (.obj incoming) = .obj members := by
  unfold Json.override
  split
  · exact ⟨_, rfl⟩
  · exact ⟨_, rfl⟩

/-- A value that was overridden and lost a member is the same when both is done again. -/
theorem Json.dropMember_override_dropMember (inner : String) {v : Json} {held : Option Json}
    (hv : v.Canonical) (hheld : ∀ w, held = some w → w.Canonical) :
    (Json.override (some ((Json.override held v).dropMember inner)) v).dropMember inner =
      (Json.override held v).dropMember inner := by
  have hagain := Json.override_override v held hv hheld
  have hcanonical := Json.Canonical.override v held hv hheld
  cases v with
  | obj incoming =>
    obtain ⟨members, hmembers⟩ := Json.exists_override_obj held incoming
    rw [hmembers] at hagain hcanonical ⊢
    simp only [Json.override, Json.obj.injEq] at hagain
    simp only [Json.dropMember, Json.override]
    rw [Json.erase_overrideMembers_erase hcanonical hv hagain]
  | _ => simp only [Json.override]

theorem Json.dropMember_dropMember (inner : String) (v : Json) :
    (v.dropMember inner).dropMember inner = v.dropMember inner := by
  cases v with
  | obj members =>
    rw [Json.dropMember, Json.dropMember, Entries.erase, Entries.erase, List.filter_filter]
    simp only [Bool.and_self]
  | _ => rfl

/-! ## Metadata -/

/-- Metadata that were overridden and lost a nested member are the same when both is done again. -/
theorem Metadata.dropNested_override_dropNested (base overrides : Metadata) (k inner : String) :
    (((base.override overrides).dropNested k inner).override overrides).dropNested k inner =
      (base.override overrides).dropNested k inner := by
  apply Metadata.ext
  refine Entries.Ascending.ext_get? (Metadata.canonical _).1 (Metadata.canonical _).1 fun k' => ?_
  rw [Metadata.lookup_dropNested, Metadata.lookup_override, Metadata.lookup_dropNested,
    Metadata.lookup_override]
  have hheld : ∀ w, Entries.get? k' base.members = some w → w.Canonical :=
    fun w hw => base.canonical.2.get? hw
  cases hv : Entries.get? k' overrides.members with
  | none =>
    by_cases hk : k' = k
    · simp only [if_pos hk, Option.map_map, Function.comp_def, Json.dropMember_dropMember]
    · simp only [if_neg hk, Option.map_id']
  | some v =>
    have hcanonical : v.Canonical := overrides.canonical.2.get? hv
    by_cases hk : k' = k
    · simp only [if_pos hk, Option.map_some,
        Json.dropMember_override_dropMember inner hcanonical hheld]
    · simp only [if_neg hk, Option.map_some, Json.override_override v _ hcanonical hheld]

end FoldedStacks
