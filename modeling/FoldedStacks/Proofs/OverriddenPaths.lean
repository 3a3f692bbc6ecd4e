-- SUMMARY: What stands at every path of overridden metadata: the values of the override, and elsewhere what stood there before. These facts tell the result, so overriding with nothing, twice, or with the same metadata changes nothing.
import Mathlib
import FoldedStacks.Proofs.RecordReading
import FoldedStacks.Proofs.RepeatedOverride

/-!
# Paths in overridden metadata

A path of keys leads through nested objects to a document. What stands there in overridden metadata
is told by what the base and the override hold along the path, and metadata are known by what stands
at all their paths.
-/

namespace FoldedStacks

/-! ## Paths -/

/-- What a path of keys leads to. Only objects are gone into. -/
def Document.at? : List String → Document → Option Document
  | [], d => some d
  | k :: path, d => (d.metadata?.bind (·.get? k)).bind (Document.at? path)

/-- What a path of keys leads to in metadata; the empty path leads to the metadata themselves. -/
def Metadata.at? (m : Metadata) (path : List String) : Option Document :=
  m.toDocument.at? path

theorem Metadata.at?_cons (m : Metadata) (k : String) (path : List String) :
    m.at? (k :: path) = (m.get? k).bind (Document.at? path) := rfl

theorem Metadata.at?_singleton (m : Metadata) (k : String) : m.at? [k] = m.get? k := by
  rw [Metadata.at?_cons]
  cases m.get? k <;> rfl

theorem Document.at?_append (d : Document) (path path' : List String) :
    d.at? (path ++ path') = (d.at? path).bind (Document.at? path') := by
  induction path generalizing d with
  | nil => rfl
  | cons k path ih =>
    rw [List.cons_append, Document.at?, Document.at?]
    cases d.metadata?.bind (·.get? k) with
    | none => rfl
    | some d' => exact ih d'

/-- Nothing stands below a document that is no object. -/
theorem Document.at?_of_no_object {d : Document} (h : d.metadata? = none) {path : List String}
    (hpath : path ≠ []) : d.at? path = none := by
  obtain ⟨k, path, rfl⟩ := List.exists_cons_of_ne_nil hpath
  rw [Document.at?, h]
  rfl

theorem Metadata.at?_empty {path : List String} (hpath : path ≠ []) :
    Metadata.empty.at? path = none := by
  obtain ⟨k, path, rfl⟩ := List.exists_cons_of_ne_nil hpath
  have hget : Metadata.empty.get? k = none := Metadata.get?_eq_iff.2 rfl
  rw [Metadata.at?_cons, hget]
  rfl

theorem Metadata.eq_nil_of_at?_empty {path : List String} {d : Document}
    (h : Metadata.empty.at? path = some d) : path = [] := by
  by_contra hpath
  rw [Metadata.at?_empty hpath] at h
  cases h

/-! ## Metadata are known by their paths -/

/-- The documents are equal, or both are objects. -/
def Document.Agree (d d' : Document) : Prop :=
  d = d' ∨ ∃ m m' : Metadata, d = m.toDocument ∧ d' = m'.toDocument

/-- Metadata that agree at every path are equal. -/
theorem Metadata.eq_of_agree {m m' : Metadata}
    (h : ∀ path, Option.Rel Document.Agree (m.at? path) (m'.at? path)) : m = m' := by
  -- the objects that stand under a key are nested less deep
  induction hdepth : m.depth using Nat.strong_induction_on generalizing m m' with
  | _ n ih =>
    refine Metadata.ext_get? fun k => ?_
    have hk := h [k]
    have hbelow : ∀ path, Option.Rel Document.Agree ((m.get? k).bind (Document.at? path))
        ((m'.get? k).bind (Document.at? path)) := fun path => h (k :: path)
    have hless : ∀ d, m.get? k = some d → d.depth < n := by
      intro d hd
      rw [← hdepth]
      exact Metadata.depth_get?_lt hd
    rw [Metadata.at?_singleton, Metadata.at?_singleton] at hk
    generalize m.get? k = d?, m'.get? k = d'? at hk hbelow hless ⊢
    cases hk with
    | none => rfl
    | some hagree =>
      rcases hagree with rfl | ⟨o, o', rfl, rfl⟩
      · rfl
      · have heq : o = o' := ih o.depth (hless _ rfl) hbelow rfl
        rw [heq]

/-! ## One key -/

/-- The object under a key; the empty one where no object stands. -/
def Metadata.below (m : Metadata) (k : String) : Metadata :=
  ((m.get? k).bind Document.metadata?).getD .empty

theorem Metadata.at?_below (m : Metadata) (k : String) {path : List String} (hpath : path ≠ []) :
    (m.below k).at? path = m.at? (k :: path) := by
  rw [Metadata.below, Metadata.at?_cons]
  cases m.get? k with
  | none => exact Metadata.at?_empty hpath
  | some d =>
    cases hd : d.metadata? with
    | none =>
      rw [Option.bind_some, Option.bind_some, hd, Document.at?_of_no_object hd hpath]
      exact Metadata.at?_empty hpath
    | some o =>
      rw [Document.eq_toDocument hd]
      rfl

theorem Metadata.override_empty (overrides : Metadata) :
    Metadata.empty.override overrides = overrides :=
  Metadata.ext (Json.overrideMembers_nil overrides.canonical)

/-- What becomes of the document under a key: it stays where the override has nothing, a document
    that is no object replaces it, and an object is put over the object that it is. -/
theorem Metadata.get?_override (base overrides : Metadata) (k : String) :
    (overrides.get? k = none ∧ (base.override overrides).get? k = base.get? k) ∨
      (∃ d, overrides.get? k = some d ∧ d.metadata? = none ∧
        (base.override overrides).get? k = some d) ∨
      ∃ o : Metadata, overrides.get? k = some o.toDocument ∧
        (base.override overrides).get? k = some ((base.below k).override o).toDocument := by
  cases hd : overrides.get? k with
  | none => exact .inl ⟨rfl, Metadata.get?_override_of_none hd⟩
  | some d =>
    refine .inr ?_
    cases ho : d.metadata? with
    | none => exact .inl ⟨d, rfl, ho, Metadata.get?_override_of_no_object hd ho⟩
    | some o =>
      obtain rfl := Document.eq_toDocument ho
      refine .inr ⟨o, rfl, ?_⟩
      by_cases hbase : ∃ b : Metadata, base.get? k = some b.toDocument
      case pos =>
        obtain ⟨b, hb⟩ := hbase
        have hbelow : base.below k = b := by rw [Metadata.below, hb]; rfl
        rw [hbelow]
        exact Metadata.get?_override_of_objects hb hd
      case neg =>
        have hnone : (base.get? k).bind Document.metadata? = none := by
          rw [Option.bind_eq_none_iff]
          intro d hd
          cases hm : d.metadata? with
          | none => rfl
          | some b => exact absurd ⟨b, by rw [hd, Document.eq_toDocument hm]⟩ hbase
        have hbelow : base.below k = .empty := by rw [Metadata.below, hnone]; rfl
        rw [hbelow, Metadata.override_empty]
        exact Metadata.get?_override_of_no_base_object (fun b hb => hbase ⟨b, hb⟩) hd

/-! ## Paths -/

/-- A path is cut short: on the way stands a document that is no object. -/
def Metadata.CutsShort (m : Metadata) (path : List String) : Prop :=
  ∃ before, before <+: path ∧ before ≠ path ∧
    ∃ d, m.at? before = some d ∧ d.metadata? = none

theorem Metadata.CutsShort.at?_eq_none {m : Metadata} {path : List String}
    (h : m.CutsShort path) : m.at? path = none := by
  obtain ⟨before, ⟨behind, rfl⟩, hne, d, hd, hobject⟩ := h
  have hbehind : behind ≠ [] := by
    rintro rfl
    exact hne (List.append_nil before).symm
  rw [Metadata.at?] at hd ⊢
  rw [Document.at?_append, hd, Option.bind_some, Document.at?_of_no_object hobject hbehind]

theorem Metadata.cutsShort_of_no_object {m : Metadata} {k : String} {d : Document}
    (hd : m.get? k = some d) (hobject : d.metadata? = none) {path : List String}
    (hpath : path ≠ []) : m.CutsShort (k :: path) :=
  ⟨[k], ⟨path, rfl⟩, fun heq => hpath (List.cons.inj heq).2.symm, d,
    by rw [Metadata.at?_singleton, hd], hobject⟩

theorem Metadata.CutsShort.cons {m o : Metadata} {k : String} (ho : m.get? k = some o.toDocument)
    {path : List String} (h : o.CutsShort path) : m.CutsShort (k :: path) := by
  obtain ⟨before, hprefix, hne, d, hd, hobject⟩ := h
  refine ⟨k :: before, List.cons_prefix_cons.2 ⟨rfl, hprefix⟩,
    fun heq => hne (List.cons.inj heq).2, d, ?_, hobject⟩
  rw [Metadata.at?_cons, ho]
  exact hd

/-- What stands at a path of overridden metadata: what the override has there, and what stood there
    where the override has nothing and does not cut the path short. -/
theorem Metadata.at?_override (base overrides : Metadata) (path : List String) :
    (∀ d, overrides.at? path = some d → d.metadata? = none →
      (base.override overrides).at? path = some d) ∧
    (∀ o : Metadata, overrides.at? path = some o.toDocument →
      ∃ merged : Metadata, (base.override overrides).at? path = some merged.toDocument) ∧
    (overrides.at? path = none → ¬ overrides.CutsShort path →
      (base.override overrides).at? path = base.at? path) := by
  induction path generalizing base overrides with
  | nil =>
    refine ⟨fun d hd hobject => ?_, fun o _ => ⟨_, rfl⟩, nofun⟩
    cases hd
    cases hobject
  | cons k path ih =>
    simp only [Metadata.at?_cons]
    rcases Metadata.get?_override base overrides k with
      ⟨hnone, hbase⟩ | ⟨d, hd, hobject, hover⟩ | ⟨o, ho, hover⟩
    · rw [hnone, hbase]
      exact ⟨nofun, nofun, fun _ _ => rfl⟩
    · rw [hd, hover]
      refine ⟨fun _ h _ => h, fun o h => ⟨o, h⟩, fun h hopen => ?_⟩
      have hpath : path ≠ [] := by
        rintro rfl
        cases h
      exact absurd (Metadata.cutsShort_of_no_object hd hobject hpath) hopen
    · rw [ho, hover]
      obtain ⟨hwins, hmerges, hstays⟩ := ih (base.below k) o
      refine ⟨hwins, hmerges, fun h hopen => ?_⟩
      have hpath : path ≠ [] := by
        rintro rfl
        cases h
      refine (hstays h fun hcuts => hopen (hcuts.cons ho)).trans ?_
      exact base.at?_below k hpath

/-! ## Overridden metadata -/

/-- The overrides win, and everything else stays. -/
structure Metadata.Overridden (base overrides result : Metadata) : Prop where
  /-- A document that is no object replaces what stood at its path. -/
  wins : ∀ path d, overrides.at? path = some d → d.metadata? = none → result.at? path = some d
  /-- Where an object is put over, an object stands. -/
  merges : ∀ path (o : Metadata), overrides.at? path = some o.toDocument →
    ∃ merged : Metadata, result.at? path = some merged.toDocument
  /-- What stands at a path stays, unless the overrides have something there or cut the path
      short. -/
  stays : ∀ path d, base.at? path = some d → overrides.at? path = none →
    ¬ overrides.CutsShort path → result.at? path = some d
  /-- Nothing else comes in. -/
  nothing : ∀ path, base.at? path = none → overrides.at? path = none → result.at? path = none

namespace Metadata.Overridden

variable {base overrides result result' : Metadata}

theorem at?_of_cutsShort (h : Metadata.Overridden base overrides result) {path : List String}
    (hcuts : overrides.CutsShort path) : result.at? path = none := by
  obtain ⟨before, hprefix, hne, d, hd, hobject⟩ := hcuts
  have hresult : result.CutsShort path :=
    ⟨before, hprefix, hne, d, h.wins before d hd hobject, hobject⟩
  exact hresult.at?_eq_none

/-- The promises tell the result. -/
theorem unique (h : Metadata.Overridden base overrides result)
    (h' : Metadata.Overridden base overrides result') : result = result' := by
  refine Metadata.eq_of_agree fun path => ?_
  cases hd : overrides.at? path with
  | some d =>
    cases hobject : d.metadata? with
    | none =>
      rw [h.wins path d hd hobject, h'.wins path d hd hobject]
      exact .some (.inl rfl)
    | some o =>
      rw [Document.eq_toDocument hobject] at hd
      obtain ⟨merged, hmerged⟩ := h.merges path o hd
      obtain ⟨merged', hmerged'⟩ := h'.merges path o hd
      rw [hmerged, hmerged']
      exact .some (.inr ⟨merged, merged', rfl, rfl⟩)
  | none =>
    by_cases hcuts : overrides.CutsShort path
    · rw [h.at?_of_cutsShort hcuts, h'.at?_of_cutsShort hcuts]
      exact .none
    · cases hbase : base.at? path with
      | none =>
        rw [h.nothing path hbase hd, h'.nothing path hbase hd]
        exact .none
      | some d =>
        rw [h.stays path d hbase hd hcuts, h'.stays path d hbase hd hcuts]
        exact .some (.inl rfl)

/-- What holds the overrides already is its own result. -/
theorem of_holding
    (hwins : ∀ path d, overrides.at? path = some d → d.metadata? = none → base.at? path = some d)
    (hmerges : ∀ path (o : Metadata), overrides.at? path = some o.toDocument →
      ∃ held : Metadata, base.at? path = some held.toDocument) :
    Metadata.Overridden base overrides base where
  wins := hwins
  merges := hmerges
  stays := fun _ _ hbase _ _ => hbase
  nothing := fun _ hbase _ => hbase

end Metadata.Overridden

theorem Metadata.overridden_override (base overrides : Metadata) :
    Metadata.Overridden base overrides (base.override overrides) where
  wins := fun path => (Metadata.at?_override base overrides path).1
  merges := fun path => (Metadata.at?_override base overrides path).2.1
  stays := fun path d hbase hnone hopen =>
    ((Metadata.at?_override base overrides path).2.2 hnone hopen).trans hbase
  nothing := by
    intro path hbase hnone
    by_cases hcuts : overrides.CutsShort path
    · -- on the way the override wins with a document that nothing stands below
      obtain ⟨before, hprefix, hne, d, hd, hobject⟩ := hcuts
      have hresult : (base.override overrides).CutsShort path :=
        ⟨before, hprefix, hne, d, (Metadata.at?_override base overrides before).1 d hd hobject,
          hobject⟩
      exact hresult.at?_eq_none
    · exact ((Metadata.at?_override base overrides path).2.2 hnone hcuts).trans hbase

/-- Overriding does what it promises at every path, and no other result does. Hence overriding with
    nothing, with what was put over before, or with the metadata themselves changes nothing, and
    what is put over nothing is taken as it is. -/
theorem Metadata.override_told_by_paths (base overrides : Metadata) :
    (∀ result, Metadata.Overridden base overrides result ↔ result = base.override overrides) ∧
      base.override .empty = base ∧
      Metadata.empty.override overrides = overrides ∧
      (base.override overrides).override overrides = base.override overrides ∧
      base.override base = base := by
  have hresult := Metadata.overridden_override base overrides
  have hnothing : Metadata.Overridden base .empty base := by
    refine .of_holding (fun path d hd hobject => ?_) fun path o ho => ?_
    · obtain rfl := Metadata.eq_nil_of_at?_empty hd
      cases hd
      cases hobject
    · obtain rfl := Metadata.eq_nil_of_at?_empty ho
      exact ⟨base, rfl⟩
  have hagain : Metadata.Overridden (base.override overrides) overrides (base.override overrides) :=
    .of_holding hresult.wins hresult.merges
  have hself : Metadata.Overridden base base base :=
    .of_holding (fun _ _ hd _ => hd) fun _ o ho => ⟨o, ho⟩
  refine ⟨fun result => ⟨fun h => h.unique hresult, ?_⟩, ?_, Metadata.override_empty overrides,
    ?_, ?_⟩
  · rintro rfl
    exact hresult
  · exact (Metadata.overridden_override base .empty).unique hnothing
  · exact (Metadata.overridden_override _ overrides).unique hagain
  · exact (Metadata.overridden_override base base).unique hself

example :
    let base := Metadata.ofMembers
      [("a", .null), ("b", .obj [("x", .null), ("y", .bool true)]), ("c", .obj [("x", .null)])]
    let overrides := Metadata.ofMembers
      [("a", .obj [("z", .null)]), ("b", .obj [("x", .obj [])]), ("c", .bool false)]
    (base.override overrides).members =
      [("a", .obj [("z", .null)]), ("b", .obj [("x", .obj []), ("y", .bool true)]),
        ("c", .bool false)] := rfl

end FoldedStacks
