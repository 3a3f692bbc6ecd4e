-- SUMMARY: How deep values are nested that were read or overridden: no deeper than the reader allows, and no deeper than what they were made of.
import Mathlib
import FoldedStacks.Proofs.ArtifactReadback
import FoldedStacks.Proofs.ReissuedListing

/-!
# Depth of what was read

A reader that allows some levels gives no value with more of them. Putting the members of an object
in order, overriding them and dropping some of them nests nothing deeper. So what an artifact is
reissued with can be read again wherever the limit is kept.
-/

namespace FoldedStacks

/-! ## What readers give -/

section Gives

variable {α β σ : Type} {r : Json.Reader α} {f : α → Json.Reader β} {P : α → Prop} {Q : β → Prop}

/-- Every value that the reader gives satisfies `P`, whatever it is read from. -/
def Json.Reader.Gives (r : Json.Reader α) (P : α → Prop) : Prop :=
  ∀ cs a rest, r cs = .ok (a, rest) → P a

theorem Json.Reader.gives_pure {a : α} (h : P a) : (pure a : Json.Reader α).Gives P := by
  intro cs b rest hb
  cases hb
  exact h

theorem Json.Reader.gives_throw (e : Json.ReadError) : (throw e : Json.Reader α).Gives P := by
  intro cs a rest ha
  cases ha

theorem Json.Reader.gives_true (r : Json.Reader α) : r.Gives fun _ => True :=
  fun _ _ _ _ => trivial

theorem Json.Reader.Gives.bind (h : r.Gives P) (hf : ∀ a, P a → (f a).Gives Q) :
    (r >>= f).Gives Q := by
  intro cs b rest hb
  rw [Json.Reader.bind_apply] at hb
  split at hb
  next a rest' hr => exact hf a (h cs a rest' hr) rest' b rest hb
  next => cases hb

/-- What is read first does not matter. -/
theorem Json.Reader.gives_bind (hf : ∀ a, (f a).Gives Q) : (r >>= f).Gives Q :=
  (Json.Reader.gives_true r).bind fun a _ => hf a

theorem Json.Reader.gives_ite {c : Prop} [Decidable c] {r r' : Json.Reader α} (h : r.Gives P)
    (h' : r'.Gives P) : (if c then r else r').Gives P := by
  split
  · exact h
  · exact h'

theorem Json.Reader.Gives.readAll (h : r.Gives P) {text : List Char} {a : α}
    (ha : r.readAll text = .ok a) : P a := by
  have hgives : (do let a ← r; Json.expectEnd; return a : Json.Reader α).Gives P :=
    h.bind fun a hPa => Json.Reader.gives_bind fun _ => Json.Reader.gives_pure hPa
  unfold Json.Reader.readAll at ha
  split at ha
  next a' rest hr =>
    cases ha
    exact hgives _ _ _ hr
  next => cases ha

/-- A sequence keeps what each of its elements keeps. -/
theorem Json.readSequence_gives {close : Char} {element : σ → Json.Reader σ} {P : σ → Prop}
    (helement : ∀ s, P s → (element s).Gives P) {s : σ} (hs : P s) :
    (Json.readSequence close element s).Gives P := by
  have helements : ∀ fuel s, P s → (Json.readElements close element fuel s).Gives P := by
    intro fuel
    induction fuel with
    | zero => exact fun s _ => Json.Reader.gives_throw _
    | succ fuel ih =>
      intro s hs
      refine (helement s hs).bind fun s' hs' => Json.Reader.gives_bind fun c => ?_
      refine Json.Reader.gives_ite (Json.Reader.gives_bind fun _ => ih s' hs') ?_
      refine Json.Reader.gives_ite ?_ (Json.Reader.gives_throw _)
      exact Json.Reader.gives_bind fun _ => Json.Reader.gives_pure hs'
  refine Json.Reader.gives_bind fun c => Json.Reader.gives_ite ?_ ?_
  · exact Json.Reader.gives_bind fun _ => Json.Reader.gives_pure hs
  · exact Json.Reader.gives_bind fun rest => helements _ s hs

theorem Json.readItems_gives {item : Json.Reader α} (h : item.Gives P) :
    (Json.readItems item).Gives fun items => ∀ a ∈ items, P a := by
  refine (Json.readSequence_gives (P := fun items => ∀ a ∈ items, P a) ?_ ?_).bind ?_
  · intro items hitems
    exact h.bind fun a ha => Json.Reader.gives_pure (List.forall_mem_cons.2 ⟨ha, hitems⟩)
  · exact List.forall_mem_nil P
  · intro items hitems
    exact Json.Reader.gives_pure fun a ha => hitems a (List.mem_reverse.1 ha)

theorem Json.readMembers_gives {value : Json.Reader Json} {P : Json → Prop} (h : value.Gives P) :
    (Json.readMembers value).Gives fun members => ∀ e ∈ members, P e.2 := by
  refine (Json.readSequence_gives (P := fun members => ∀ e ∈ members, P e.2) ?_ ?_).bind ?_
  · intro members hmembers
    refine Json.Reader.gives_bind fun k => Json.Reader.gives_bind fun _ => ?_
    exact h.bind fun v hv => Json.Reader.gives_pure (List.forall_mem_cons.2 ⟨hv, hmembers⟩)
  · exact List.forall_mem_nil _
  · intro members hmembers
    exact Json.Reader.gives_pure fun e he => hmembers e (List.mem_reverse.1 he)

end Gives

/-! ## Depth of values -/

theorem Json.readScalar_gives (c : Char) : (Json.readScalar c).Gives fun v => v.depth = 0 := by
  -- the first thing that is read is a word, a string or a number, and it is no array or object
  have hword : ∀ {α : Type} (r : Json.Reader α) (f : α → Json), (∀ a, (f a).depth = 0) →
      (r >>= fun a => (pure (f a) : Json.Reader Json)).Gives fun v => v.depth = 0 :=
    fun r f hf => Json.Reader.gives_bind fun a => Json.Reader.gives_pure (hf a)
  refine Json.Reader.gives_ite (hword _ (fun _ => .null) fun _ => rfl) ?_
  refine Json.Reader.gives_ite (hword _ (fun _ => .bool true) fun _ => rfl) ?_
  refine Json.Reader.gives_ite (hword _ (fun _ => .bool false) fun _ => rfl) ?_
  refine Json.Reader.gives_ite (hword _ .str fun _ => rfl) ?_
  exact Json.Reader.gives_ite (hword _ .num fun _ => rfl) (Json.Reader.gives_throw _)

theorem Json.readValue_gives (levels : Nat) :
    (Json.readValue levels).Gives fun v => v.depth ≤ levels := by
  induction levels with
  | zero =>
    refine Json.Reader.gives_bind fun c => Json.Reader.gives_ite (Json.Reader.gives_throw _) ?_
    exact fun cs v rest h => (Json.readScalar_gives c cs v rest h).le
  | succ levels ih =>
    refine Json.Reader.gives_bind fun c => Json.Reader.gives_ite ?_ (Json.Reader.gives_ite ?_ ?_)
    · refine Json.Reader.gives_bind fun _ => (Json.readItems_gives ih).bind fun items hitems => ?_
      refine Json.Reader.gives_pure ?_
      rw [Json.depth]
      exact Nat.succ_le_succ (Json.itemsDepth_le_iff.2 hitems)
    · refine Json.Reader.gives_bind fun _ => (Json.readMembers_gives ih).bind fun members hm => ?_
      refine Json.Reader.gives_pure ?_
      rw [Json.depth]
      exact Nat.succ_le_succ (Json.membersDepth_le_iff.2 hm)
    · exact fun cs v rest h => (Json.readScalar_gives c cs v rest h).trans_le (Nat.zero_le _)

/-! ## Depth of what is made of values -/

theorem Entries.forall_mem_upsert {α : Type} {P : α → Prop} {k : String} {f : Option α → α}
    {l : List (String × α)} (h : ∀ e ∈ l, P e.2)
    (hf : ∀ held, (∀ a, held = some a → P a) → P (f held)) : ∀ e ∈ Entries.upsert k f l, P e.2 := by
  induction l with
  | nil => exact List.forall_mem_singleton.2 (hf none nofun)
  | cons e rest ih =>
    obtain ⟨he, hrest⟩ := List.forall_mem_cons.1 h
    rw [Entries.upsert]
    split
    · exact List.forall_mem_cons.2 ⟨hf none nofun, h⟩
    · refine List.forall_mem_cons.2 ⟨hf _ ?_, hrest⟩
      rintro a ⟨⟩
      exact he
    · exact List.forall_mem_cons.2 ⟨he, ih hrest⟩

mutual

theorem Json.depth_canonical_le : ∀ v : Json, v.canonical.depth ≤ v.depth
  | .null | .bool _ | .num _ | .str _ => by simp only [Json.canonical, le_refl]
  | .arr items => by
    rw [Json.canonical, Json.depth, Json.depth]
    exact Nat.succ_le_succ (Json.itemsDepth_canonicalItems_le items)
  | .obj members => by
    rw [Json.canonical, Json.depth, Json.depth]
    exact Nat.succ_le_succ (Json.membersDepth_canonicalMembers_le members)

theorem Json.itemsDepth_canonicalItems_le : ∀ items : List Json,
    Json.itemsDepth (Json.canonicalItems items) ≤ Json.itemsDepth items
  | [] => le_rfl
  | v :: rest => by
    rw [Json.canonicalItems, Json.itemsDepth, Json.itemsDepth]
    exact max_le_max (Json.depth_canonical_le v) (Json.itemsDepth_canonicalItems_le rest)

theorem Json.membersDepth_canonicalMembers_le : ∀ members : List (String × Json),
    Json.membersDepth (Json.canonicalMembers members) ≤ Json.membersDepth members
  | [] => le_rfl
  | (k, v) :: rest => by
    rw [Json.canonicalMembers, Json.membersDepth, Json.membersDepth_le_iff]
    have hrest := (Json.membersDepth_canonicalMembers_le rest).trans
      (le_max_right v.depth (Json.membersDepth rest))
    refine Entries.forall_mem_upsert
      (P := fun w : Json => w.depth ≤ max v.depth (Json.membersDepth rest))
      (Json.membersDepth_le_iff.1 hrest) fun held hheld => ?_
    cases held with
    | none => exact (Json.depth_canonical_le v).trans (le_max_left _ _)
    | some w => exact hheld w rfl

end

mutual

theorem Json.depth_override_le : ∀ (v : Json) (held : Option Json) {n : Nat}, v.depth ≤ n →
    (∀ w, held = some w → w.depth ≤ n) → (Json.override held v).depth ≤ n
  | .null, _, _, hv, _ | .bool _, _, _, hv, _ | .num _, _, _, hv, _ | .str _, _, _, hv, _
  | .arr _, _, _, hv, _ => by simpa only [Json.override] using hv
  | .obj incoming, some (.obj existing), n, hv, hheld => by
    have hexisting := hheld _ rfl
    rw [Json.override, Json.depth]
    rw [Json.depth] at hv hexisting
    cases n with
    | zero => exact absurd hv (Nat.not_succ_le_zero _)
    | succ n =>
      have hincoming := Json.membersDepth_le_iff.1 (Nat.le_of_succ_le_succ hv)
      refine Nat.succ_le_succ (Json.membersDepth_le_iff.2 ?_)
      exact Json.depth_overrideMembers_le incoming existing hincoming
        (Json.membersDepth_le_iff.1 (Nat.le_of_succ_le_succ hexisting))
  | .obj _, none, _, hv, _
  | .obj _, some .null, _, hv, _
  | .obj _, some (.bool _), _, hv, _
  | .obj _, some (.num _), _, hv, _
  | .obj _, some (.str _), _, hv, _
  | .obj _, some (.arr _), _, hv, _ => by simpa only [Json.override] using hv

theorem Json.depth_overrideMembers_le : ∀ (members base : List (String × Json)) {n : Nat},
    (∀ e ∈ members, e.2.depth ≤ n) → (∀ e ∈ base, e.2.depth ≤ n) →
      ∀ e ∈ Json.overrideMembers base members, e.2.depth ≤ n
  | [], _, _, _, hbase => by
    rw [Json.overrideMembers]
    exact hbase
  | (k, v) :: rest, base, n, hmembers, hbase => by
    obtain ⟨hv, hrest⟩ := List.forall_mem_cons.1 hmembers
    rw [Json.overrideMembers]
    refine Json.depth_overrideMembers_le rest _ hrest ?_
    exact Entries.forall_mem_upsert hbase fun held hheld => Json.depth_override_le v held hv hheld

end

theorem Metadata.depth_override_le {base overrides : Metadata} {n : Nat}
    (hbase : base.depth ≤ n + 1) (hoverrides : overrides.depth ≤ n + 1) :
    (base.override overrides).depth ≤ n + 1 :=
  Metadata.depth_le_succ_iff.2 (Json.depth_overrideMembers_le overrides.members base.members
    (Metadata.depth_le_succ_iff.1 hoverrides) (Metadata.depth_le_succ_iff.1 hbase))

theorem Json.depth_dropMember_le (k : String) (v : Json) : (v.dropMember k).depth ≤ v.depth := by
  cases v with
  | obj members =>
    rw [Json.dropMember, Json.depth, Json.depth]
    refine Nat.succ_le_succ (Json.membersDepth_le_iff.2 fun e he => ?_)
    exact Json.membersDepth_le_iff.1 le_rfl e (List.mem_filter.1 he).1
  | _ => exact le_rfl

theorem Metadata.depth_dropNested_le {m : Metadata} {n : Nat} (h : m.depth ≤ n + 1)
    (k inner : String) : (m.dropNested k inner).depth ≤ n + 1 := by
  refine Metadata.depth_le_succ_iff.2 fun e he => ?_
  obtain ⟨e', he', rfl⟩ := List.mem_map.1 he
  have hdepth := Metadata.depth_le_succ_iff.1 h e' he'
  show Json.depth (if e'.1 = k then e'.2.dropMember inner else e'.2) ≤ n
  split
  · exact (Json.depth_dropMember_le inner e'.2).trans hdepth
  · exact hdepth

/-! ## Headers -/

theorem Reissue.exists_document_of_readHeader {line : List Char} {found : Metadata}
    (h : Reissue.readHeader line = .ok found) :
    ∃ json, line = '#' :: json ∧ Document.parse json = .ok found.toDocument := by
  obtain ⟨json, rfl⟩ := Reissue.exists_of_readHeader h
  refine ⟨json, rfl, ?_⟩
  cases hparse : Document.parse json with
  | error e =>
    rw [Reissue.readHeader_of_error hparse] at h
    cases h
  | ok d =>
    cases hobject : d.metadata? with
    | none =>
      simp only [Reissue.readHeader, Header.jsonOf, bind, Except.bind, hparse, Except.mapError,
        hobject] at h
      cases h
    | some m =>
      rw [Reissue.readHeader_of_ok hparse hobject] at h
      cases h
      rw [Document.eq_toDocument hobject]

/-- The object that is found in a header line keeps the limit on nesting. -/
theorem Reissue.depth_le_of_readHeader {line : List Char} {found : Metadata}
    (h : Reissue.readHeader line = .ok found) : found.depth ≤ Json.maxDepth := by
  obtain ⟨json, -, hparse⟩ := Reissue.exists_document_of_readHeader h
  have hgives : (Json.readDocument Json.maxDepth).Gives fun d => d.depth ≤ Json.maxDepth :=
    (Json.readValue_gives Json.maxDepth).bind fun v hv =>
      Json.Reader.gives_pure ((Json.depth_canonical_le v).trans hv)
  exact hgives.readAll hparse

end FoldedStacks
