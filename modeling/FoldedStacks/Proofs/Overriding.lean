-- SUMMARY: Overridden metadata are known by their look-ups: what stands under a key of a canonical form, of an override, and where a nested member is dropped.
import Mathlib
import FoldedStacks.Json.Override
import FoldedStacks.Proofs.Entries

/-!
# Look-ups in overridden metadata

An override goes through the members of the metadata that are put over, one after the other. What
stands under a key in the end depends on the two members of that key only.
-/

namespace FoldedStacks

theorem Entries.get?_cons {α : Type} (k : String) (e : String × α) (rest : List (String × α)) :
    Entries.get? k (e :: rest) = if k = e.1 then some e.2 else Entries.get? k rest := by
  rw [Entries.get?]
  simp only [Std.LawfulEqCmp.compare_eq_iff_eq]

/-! ## Canonical forms -/

section Canonical

variable {members : List (String × Json)} {k : String} {v : Json}

theorem Json.get?_canonicalMembers_cons (k' : String) (rest : List (String × Json)) :
    Entries.get? k (Json.canonicalMembers ((k', v) :: rest)) =
      if k = k' then some ((Entries.get? k' (Json.canonicalMembers rest)).getD v.canonical)
      else Entries.get? k (Json.canonicalMembers rest) := by
  rw [Json.canonicalMembers, Entries.get?_upsert (Json.canonicalMembers_canonical rest).1]
  simp only [Std.LawfulEqCmp.compare_eq_iff_eq]

/-- In a canonical form stands the last member of a key. -/
theorem Json.get?_canonicalMembers (members : List (String × Json)) (k : String) :
    Entries.get? k (Json.canonicalMembers members) =
      (Entries.last? members k).map Json.canonical := by
  induction members with
  | nil => rfl
  | cons m rest ih =>
    rw [Json.get?_canonicalMembers_cons, Entries.last?_cons, ih]
    by_cases hk : k = m.1
    · rw [if_pos hk, if_pos hk, ← hk, ih]
      cases Entries.last? rest k <;> rfl
    · rw [if_neg hk, if_neg hk, Option.or_none]

theorem Json.get?_canonicalMembers_of_not_mem (h : k ∉ members.map Prod.fst) :
    Entries.get? k (Json.canonicalMembers members) = none := by
  rw [Json.get?_canonicalMembers, Entries.last?_eq_none_iff.2 h, Option.map_none]

/-- A member whose key no other one has is found in its own canonical form. -/
theorem Json.get?_canonicalMembers_of_mem (hkeys : (members.map Prod.fst).Nodup)
    (h : (k, v) ∈ members) : Entries.get? k (Json.canonicalMembers members) = some v.canonical := by
  rw [Json.get?_canonicalMembers, Entries.last?_eq_some_of_mem hkeys h, Option.map_some]

end Canonical

/-! ## Overrides -/

/-- What is put over no object is taken as it is. -/
theorem Json.override_of_no_object {held : Option Json} (h : ∀ existing, held ≠ some (.obj existing))
    (v : Json) : Json.override held v = v := by
  cases v with
  | obj incoming =>
    unfold Json.override
    split
    next existing => exact absurd rfl (h existing)
    next => rfl
  | _ => simp only [Json.override]

theorem Json.override_none (v : Json) : Json.override none v = v :=
  Json.override_of_no_object (by simp) v

/-- What stands under a key depends on the members of that key only. -/
theorem Json.get?_overrideMembers {base members : List (String × Json)}
    (hbase : Entries.Ascending base) (hmembers : Entries.Ascending members) (k : String) :
    Entries.get? k (Json.overrideMembers base members) =
      match Entries.get? k members with
      | some v => some (Json.override (Entries.get? k base) v)
      | none => Entries.get? k base := by
  induction members generalizing base with
  | nil => rw [Json.overrideMembers, Entries.get?]
  | cons m rest ih =>
    obtain ⟨hm, hrest⟩ := Entries.ascending_cons.1 hmembers
    rw [Json.overrideMembers, ih (hbase.upsert _ _) hrest, Entries.get?_upsert hbase,
      Entries.get?_cons]
    simp only [Std.LawfulEqCmp.compare_eq_iff_eq]
    by_cases hk : k = m.1
    · -- the key is not overridden a second time
      subst hk
      rw [Entries.get?_eq_none_of_lt hm, if_pos rfl, if_pos rfl]
    · rw [if_neg hk, if_neg hk]

/-- Dropping a nested member touches the member that it is nested in only. -/
theorem Json.get?_dropNested (k inner : String) (members : List (String × Json)) (k' : String) :
    Entries.get? k' (Json.dropNested k inner members) =
      (Entries.get? k' members).map fun v => if k' = k then v.dropMember inner else v := by
  induction members with
  | nil => rfl
  | cons m rest ih =>
    have hcons : Json.dropNested k inner (m :: rest) =
        (m.1, if m.1 = k then m.2.dropMember inner else m.2) :: Json.dropNested k inner rest := rfl
    rw [hcons, Entries.get?_cons, Entries.get?_cons, ih]
    by_cases hk : k' = m.1
    · subst hk
      rw [if_pos rfl, if_pos rfl, Option.map_some]
    · rw [if_neg hk, if_neg hk]

/-! ## Metadata -/

section Metadata

variable {m m' base overrides : Metadata} {k k' : String}

theorem Metadata.get?_eq_iff {d : Option Document} :
    m.get? k = d ↔ Entries.get? k m.members = d.map Document.value := by
  rw [← m.value_get? k]
  have hinjective : Function.Injective Document.value := fun _ _ => Document.ext
  exact (Option.map_injective hinjective).eq_iff.symm

theorem Metadata.get?_congr (h : Entries.get? k m.members = Entries.get? k' m'.members) :
    m.get? k = m'.get? k' := by
  rw [Metadata.get?_eq_iff, h, m'.value_get?]

/-- Metadata with the same look-ups are equal. -/
theorem Metadata.ext_get? (h : ∀ k, m.get? k = m'.get? k) : m = m' := by
  refine Metadata.ext (m.canonical.1.ext_get? m'.canonical.1 fun k => ?_)
  rw [← m.value_get?, h, m'.value_get?]

theorem Metadata.lookup_override (base overrides : Metadata) (k : String) :
    Entries.get? k (base.override overrides).members =
      match Entries.get? k overrides.members with
      | some v => some (Json.override (Entries.get? k base.members) v)
      | none => Entries.get? k base.members :=
  Json.get?_overrideMembers base.canonical.1 overrides.canonical.1 k

theorem Metadata.lookup_dropNested (m : Metadata) (k inner k' : String) :
    Entries.get? k' (m.dropNested k inner).members =
      (Entries.get? k' m.members).map fun v => if k' = k then v.dropMember inner else v :=
  Json.get?_dropNested k inner m.members k'

theorem Metadata.get?_override_of_none (h : overrides.get? k = none) :
    (base.override overrides).get? k = base.get? k := by
  apply Metadata.get?_congr
  rw [Metadata.get?_eq_iff, Option.map_none] at h
  rw [Metadata.lookup_override, h]

/-- A member that is put over no object is taken as it is. -/
theorem Metadata.get?_override_of_no_base_object (h : ∀ existing : Metadata,
    base.get? k ≠ some existing.toDocument) {d : Document} (hd : overrides.get? k = some d) :
    (base.override overrides).get? k = some d := by
  rw [Metadata.get?_eq_iff] at hd ⊢
  rw [Metadata.lookup_override, hd]
  refine congrArg some (Json.override_of_no_object (fun existing heq => ?_) d.value)
  exact h ⟨existing, base.canonical.2.get? heq⟩ (Metadata.get?_eq_iff.2 heq)

/-- A member that only the override has is taken as it is. -/
theorem Metadata.get?_override_of_base_none (h : base.get? k = none) :
    (base.override overrides).get? k = overrides.get? k := by
  cases hd : overrides.get? k with
  | none => rw [Metadata.get?_override_of_none hd, h]
  | some d => exact Metadata.get?_override_of_no_base_object (by simp [h]) hd

/-- Objects under one key are merged. -/
theorem Metadata.get?_override_of_objects (h : base.get? k = some m.toDocument)
    (h' : overrides.get? k = some m'.toDocument) :
    (base.override overrides).get? k = some (m.override m').toDocument := by
  rw [Metadata.get?_eq_iff] at h h' ⊢
  rw [Metadata.lookup_override, h, h']
  simp only [Option.map_some, Metadata.toDocument, Json.override, Metadata.override]

/-- A value that is no object replaces what it is put over. -/
theorem Metadata.get?_override_of_no_object {d : Document} (h : overrides.get? k = some d)
    (hd : d.metadata? = none) : (base.override overrides).get? k = some d := by
  rw [Metadata.get?_eq_iff] at h ⊢
  rw [Metadata.lookup_override, h]
  obtain ⟨v, hv⟩ := d
  cases v with
  | obj members => cases hd
  | _ => simp only [Option.map_some, Json.override]

theorem Metadata.get?_dropNested_of_ne (h : k' ≠ k) (inner : String) :
    (m.dropNested k inner).get? k' = m.get? k' := by
  apply Metadata.get?_congr
  rw [Metadata.lookup_dropNested]
  simp only [if_neg h, Option.map_id']

/-- Dropping a nested member keeps that two metadata hold the same under a key. -/
theorem Metadata.get?_dropNested_congr (h : m.get? k' = m'.get? k') (k inner : String) :
    (m.dropNested k inner).get? k' = (m'.dropNested k inner).get? k' := by
  apply Metadata.get?_congr
  rw [Metadata.lookup_dropNested, Metadata.lookup_dropNested, ← m.value_get?, ← m'.value_get?, h]

end Metadata

end FoldedStacks
