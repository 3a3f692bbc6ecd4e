-- SUMMARY: Written records are read: the readers for values of a type take what is written for such values, and a record is read field by field.
import Mathlib
import FoldedStacks.Json.Record
import FoldedStacks.Proofs.Entries
import FoldedStacks.Proofs.JsonReading

/-!
# Reading written records

Every reader for values of a type takes the text that is written for such a value. A record whose
fields are written in their order is read field by field, and fits when every field does.
-/

namespace FoldedStacks

/-! ## Scalars -/

theorem Json.peek_of_head {text : List Char} {c : Char} (h : text.head? = some c)
    (hc : Json.isSpace c = false) (s : List Char) : Json.peek (text ++ s) = .ok (c, text ++ s) := by
  obtain ⟨cs, rfl⟩ := List.head?_eq_some_iff.1 h
  exact Json.peek_cons hc _

theorem Json.readBool_takes (b : Bool) :
    Json.Takes Json.readBool (Json.renderBool b) True b := by
  refine .of_ok fun s hs => ?_
  obtain ⟨c, hhead, hc, hspace⟩ : ∃ c, (Json.renderBool b).head? = some c ∧ (c = 't' ∨ c = 'f') ∧
      Json.isSpace c = false := by
    cases b with
    | true => exact ⟨'t', rfl, .inl rfl, rfl⟩
    | false => exact ⟨'f', rfl, .inr rfl, rfl⟩
  obtain ⟨cs, hcs⟩ := List.head?_eq_some_iff.1 hhead
  have hread := (Json.readScalar_takes (v := .bool b) rfl hcs).of_fits trivial s hs
  rw [Json.readBool, Json.Reader.bind_of_ok (Json.peek_of_head hhead hspace s)]
  simp only [if_pos hc]
  exact Json.Reader.bind_of_ok hread

theorem Json.readStringValue_takes (a : String) :
    Json.Takes Json.readStringValue (Json.renderString a) True a := by
  refine .of_ok fun s _ => ?_
  rw [Json.readStringValue, Json.Reader.bind_of_ok (Json.peek_of_head (c := '\"') rfl rfl s)]
  exact Json.readString_renderString a s

theorem Json.readAnyNumber_takes (n : Json.Number) :
    Json.Takes Json.readAnyNumber n.render True n.reread := by
  refine .of_ok fun s hs => ?_
  obtain ⟨c, cs, hcs, hc⟩ := n.render_head
  have hhead : n.render.head? = some c := by rw [hcs]; rfl
  have hspace := Json.isSpace_of_kindOf? (Json.kindOf?_of_number hc)
  rw [Json.readAnyNumber, Json.Reader.bind_of_ok (Json.peek_of_head hhead hspace s)]
  simp only [if_pos hc.symm]
  exact Json.readNumber_render n hs

theorem Json.readDouble_takes (n : Json.Number) :
    Json.Takes Json.readDouble n.render True n.reread.toBinary64 :=
  (Json.readAnyNumber_takes n).map _

/-! ## Values that may be missing -/

section Options

variable {α : Type} {r : Json.Reader α} {text : List Char} {fits : Prop} {a : α}

theorem Json.peek?_of_head {text : List Char} {c : Char} (h : text.head? = some c)
    (hc : Json.isSpace c = false) (s : List Char) :
    Json.peek? (text ++ s) = .ok (some c, text ++ s) := by
  obtain ⟨cs, rfl⟩ := List.head?_eq_some_iff.1 h
  unfold Json.peek?
  rw [List.cons_append, List.dropWhile_cons, hc]
  rfl

theorem Json.readOption_takes_null (r : Json.Reader α) :
    Json.Takes (Json.readOption r) (Json.render .null) True none := by
  refine .of_ok fun s _ => ?_
  have hnull : Json.render .null = ['n', 'u', 'l', 'l'] := by rw [Json.render]
  rw [hnull, Json.readOption, Json.Reader.bind_of_ok (Json.peek?_of_head (c := 'n') rfl rfl s)]
  simp only [if_true]
  rw [Json.Reader.bind_of_ok (Json.expectWord_append ['n', 'u', 'l', 'l'] s)]
  rfl

theorem Json.readOption_takes_some (h : Json.Takes r text fits a) {c : Char}
    (hhead : text.head? = some c) (hspace : Json.isSpace c = false) (hne : c ≠ 'n') :
    Json.Takes (Json.readOption r) text fits (some a) := by
  refine (h.map some).of_step fun s => ?_
  have hsome : ¬ some c = some 'n' := fun heq => hne (Option.some.inj heq)
  rw [Json.readOption, Json.Reader.bind_of_ok (Json.peek?_of_head hhead hspace s)]
  simp only [if_neg hsome]

end Options

/-! ## Arrays, objects and documents -/

section Opening

variable {α β : Type} {text : List Char} {fits : Prop} {a : α}

theorem Json.opening_takes {c : Char} (hc : Json.isSpace c = false) {levels : Nat}
    {inside : Nat → Json.Reader α} (h : Json.Takes (inside levels) text fits a) :
    Json.Takes (Json.opening c (levels + 1) inside) (c :: text) fits a := by
  refine h.of_step fun s => ?_
  rw [Json.opening, List.cons_append, Json.Reader.bind_of_ok (Json.peek_cons hc _)]
  simp only [if_true]
  rw [Json.Reader.bind_of_ok (Json.advance_cons c _)]

theorem Json.readList_takes {render : α → List Char} {item : Nat → Json.Reader β} {levels : Nat}
    {fits : α → Prop} {f : α → β} {as : List α}
    (hhead : ∀ a ∈ as, ∃ c cs, render a = c :: cs ∧ c ≠ ']' ∧ Json.isSpace c = false)
    (h : ∀ a ∈ as, Json.Takes (item levels) (render a) (fits a) (f a)) :
    Json.Takes (Json.readList (levels + 1) item) (Json.bracketed (as.map render))
      (∀ a ∈ as, fits a) (as.map f) :=
  Json.opening_takes rfl (Json.readItems_takes _ hhead h)

end Opening

/-- How many arrays and objects are nested in a document. -/
def Document.depth (d : Document) : Nat :=
  d.value.depth

theorem Document.value_of_isNull {d : Document} (h : d.isNull = true) : d.value = .null := by
  unfold Document.isNull at h
  split at h
  next hvalue => exact hvalue
  next => cases h

theorem Document.depth_of_isNull {d : Document} (h : d.isNull = true) : d.depth = 0 := by
  rw [Document.depth, Document.value_of_isNull h, Json.depth] <;> simp

/-- Only the text of null begins as it does. -/
theorem Document.isNull_of_head? {d : Document} (h : d.render.head? = some 'n') :
    d.isNull = true := by
  obtain ⟨c, cs, hcs, hc⟩ := d.value.render_head
  rw [Document.render, hcs, List.head?_cons, Option.some.injEq] at h
  subst h
  unfold Document.isNull
  cases hvalue : d.value with
  | null => rfl
  | bool b =>
    rw [hvalue] at hc
    cases b <;> cases hc
  | _ =>
    rw [hvalue] at hc
    cases hc

/-- How many arrays and objects are nested in metadata, which is an object itself. -/
def Metadata.depth (m : Metadata) : Nat :=
  m.toDocument.depth

/-- What stands under a key is a member. -/
theorem Metadata.mem_members_of_get? {m : Metadata} {k : String} {d : Document}
    (h : m.get? k = some d) : (k, d.value) ∈ m.members := by
  have hvalue := m.value_get? k
  rw [h, Option.map_some] at hvalue
  exact (Entries.get?_eq_some_iff m.canonical.1).1 hvalue.symm

theorem Metadata.depth_le_succ_iff {m : Metadata} {n : Nat} :
    m.depth ≤ n + 1 ↔ ∀ e ∈ m.members, e.2.depth ≤ n := by
  show Json.depth (.obj m.members) ≤ n + 1 ↔ _
  rw [Json.depth, Nat.add_le_add_iff_right, Json.membersDepth_le_iff]

/-- A document in metadata is nested less deep than the metadata. -/
theorem Metadata.depth_get?_lt {m : Metadata} {k : String} {d : Document} (h : m.get? k = some d) :
    d.depth < m.depth := by
  have hdepth : m.depth = Json.membersDepth m.members + 1 := by
    rw [Metadata.depth, Document.depth, Metadata.toDocument, Json.depth]
  rw [hdepth]
  exact Nat.lt_succ_of_le (Json.membersDepth_le_iff.1 le_rfl _ (Metadata.mem_members_of_get? h))

/-- A document with every number as the reader takes its text. -/
def Document.reread (d : Document) : Document :=
  .ofJson d.value.reread

/-- Metadata with every number as the reader takes its text. -/
def Metadata.reread (m : Metadata) : Metadata :=
  .ofMembers (Json.rereadMembers m.members)

theorem Json.readDocument_takes (d : Document) (levels : Nat) :
    Json.Takes (Json.readDocument levels) d.render (d.depth ≤ levels) d.reread :=
  (Json.readValue_takes d.value levels).map Document.ofJson

theorem Json.readMetadata_takes (m : Metadata) (levels : Nat) :
    Json.Takes (Json.readMetadata (levels + 1)) m.render (m.depth ≤ levels + 1) m.reread := by
  have hmembers := (Json.readMembers_takes (fun v => v.depth ≤ levels) Json.reread
    (fun e (_ : e ∈ m.members) => Json.readValue_takes e.2 levels)).map Metadata.ofMembers
  rw [← Json.rereadMembers_eq_map] at hmembers
  have htext : m.render = '\x7b' :: (Json.commaSeparated (Json.renderMembers m.members) ++
      ['\x7d']) := by
    simp only [Metadata.render, Document.render, Metadata.toDocument, Json.render, Json.braced,
      List.cons_append]
  rw [htext]
  exact (Json.opening_takes rfl hmembers).congr Metadata.depth_le_succ_iff

/-! ## Records -/

/-- A field as it is written, and what reading its text does to a record. -/
structure Json.WrittenField (ρ : Type) where
  field : Json.Field ρ
  text : List Char
  fits : Prop
  put : ρ → ρ

section Records

variable {ρ α : Type}

/-- The field is read from its text, where `levels` more arrays and objects may be nested. -/
def Json.WrittenField.Readable (levels : Nat) (w : Json.WrittenField ρ) : Prop :=
  ∀ r, Json.Takes (w.field.read levels r) w.text w.fits (w.put r)

theorem Json.WrittenField.readable_of {name : String} {presence : Json.Presence}
    {value : Nat → Json.Reader α} {put : ρ → α → ρ} {text : List Char} {fits : Prop} {a : α}
    {levels : Nat} (h : Json.Takes (value levels) text fits a) :
    Json.WrittenField.Readable levels ⟨.of name presence value put, text, fits, fun r => put r a⟩ :=
  fun r => h.map (put r)

/-- The draft behind a field. -/
def Json.WrittenField.next (draft : ρ × List String) (w : Json.WrittenField ρ) : ρ × List String :=
  (w.put draft.1, w.field.name :: draft.2)

/-- The member of a field. -/
def Json.WrittenField.memberText (w : Json.WrittenField ρ) : List Char :=
  Json.renderMember w.field.name w.text

theorem Json.WrittenField.foldl_next (ws : List (Json.WrittenField ρ)) (start : ρ)
    (given : List String) :
    ws.foldl Json.WrittenField.next (start, given) =
      (ws.foldl (fun r w => w.put r) start, (ws.map (·.field.name)).reverse ++ given) := by
  induction ws generalizing start given with
  | nil => rfl
  | cons w ws ih =>
    rw [List.foldl_cons, Json.WrittenField.next, ih, List.foldl_cons, List.map_cons,
      List.reverse_cons, List.append_assoc, List.singleton_append]

/-- A field that has not been given yet is found by its name and read. -/
theorem Json.readField_takes {fields : List (Json.Field ρ)} {levels : Nat}
    {w : Json.WrittenField ρ} (hfind : fields.find? (fun f => f.name == w.field.name) = some w.field)
    (hw : w.Readable levels) {draft : ρ × List String} (hnew : w.field.name ∉ draft.2) :
    Json.Takes (Json.readField fields levels draft) w.memberText w.fits (w.next draft) := by
  have hgiven : draft.2.contains w.field.name = false := by
    rw [Bool.eq_false_iff]
    exact fun h => hnew (List.contains_iff_mem.1 h)
  refine ((hw draft.1).map fun r => (r, w.field.name :: draft.2)).of_step fun s => ?_
  rw [Json.readField, Json.WrittenField.memberText, Json.renderMember, List.append_assoc,
    Json.Reader.bind_of_ok (Json.readKey_renderString _ _)]
  simp only [hfind, hgiven, Bool.false_eq_true, if_false]
  rw [List.cons_append, Json.Reader.bind_of_ok (Json.expectColon_cons _)]

section Written

variable {ws : List (Json.WrittenField ρ)} {levels : Nat}

/-- A field is found by its name among fields with names of their own. -/
theorem Json.WrittenField.find?_field (hnames : (ws.map (·.field.name)).Nodup)
    {w : Json.WrittenField ρ} (hw : w ∈ ws) :
    (ws.map (·.field)).find? (fun f => f.name == w.field.name) = some w.field := by
  obtain ⟨before, after, hws⟩ := List.append_of_mem hw
  refine List.find?_eq_some_iff_append.2 ⟨BEq.rfl, before.map (·.field), after.map (·.field), ?_, ?_⟩
  · rw [hws, List.map_append, List.map_cons]
  · intro f hf
    obtain ⟨v, hv, rfl⟩ := List.mem_map.1 hf
    rw [hws, List.map_append, List.map_cons] at hnames
    have hne := (List.nodup_append.1 hnames).2.2 _ (List.mem_map.2 ⟨v, hv, rfl⟩) _
      List.mem_cons_self
    rw [Bool.not_eq_true', beq_eq_false_iff_ne]
    exact hne

/-- No field has been given before its turn. -/
theorem Json.WrittenField.readInTurn (hw : ∀ w ∈ ws, w.Readable levels)
    (hnames : (ws.map (·.field.name)).Nodup) (start : ρ) :
    Json.ReadInTurn (Json.readField (ws.map (·.field)) levels) Json.WrittenField.memberText
      Json.WrittenField.fits Json.WrittenField.next (start, []) ws := by
  intro before w after hws
  have hmem : w ∈ ws := by simp [hws]
  refine Json.readField_takes (Json.WrittenField.find?_field hnames hmem) (hw w hmem) ?_
  rw [Json.WrittenField.foldl_next, List.append_nil, List.mem_reverse]
  rw [hws, List.map_append, List.map_cons] at hnames
  intro hin
  exact (List.nodup_append.1 hnames).2.2 _ hin _ List.mem_cons_self rfl

/-- Where all fields have been given, none is missing. -/
theorem Json.WrittenField.all_given (ws : List (Json.WrittenField ρ)) :
    ((ws.map (·.field)).all fun f =>
      f.presence != .required || ((ws.map (·.field.name)).reverse).contains f.name) = true := by
  rw [List.all_eq_true]
  intro f hf
  obtain ⟨w, hw, rfl⟩ := List.mem_map.1 hf
  rw [Bool.or_eq_true]
  exact .inr (List.contains_iff_mem.2 (List.mem_reverse.2 (List.mem_map.2 ⟨w, hw, rfl⟩)))

/-- The members of a record, behind its opening brace. -/
def Json.readFields (fields : List (Json.Field ρ)) (start : ρ) (levels : Nat) : Json.Reader ρ := do
  let (r, given) ← Json.readSequence '\x7d' (Json.readField fields levels) (start, [])
  if fields.all fun f => f.presence != .required || given.contains f.name then return r
  else throw .mismatch

theorem Json.readFields_takes (hw : ∀ w ∈ ws, w.Readable levels)
    (hnames : (ws.map (·.field.name)).Nodup) (start : ρ) :
    Json.Takes (Json.readFields (ws.map (·.field)) start levels)
      (Json.commaSeparated (ws.map Json.WrittenField.memberText) ++ ['\x7d']) (∀ w ∈ ws, w.fits)
      (ws.foldl (fun r w => w.put r) start) := by
  have hhead : ∀ w ∈ ws, ∃ c cs, w.memberText = c :: cs ∧ c ≠ '\x7d' ∧ Json.isSpace c = false :=
    fun w _ => ⟨'\"', _, rfl, by decide, rfl⟩
  have hread := Json.readSequence_takes (.inr rfl) hhead (start, [])
    (Json.WrittenField.readInTurn hw hnames start)
  rw [Json.WrittenField.foldl_next, List.append_nil] at hread
  refine ⟨fun hf s hs => ?_, fun hf s hs => Json.Reader.bind_of_error (hread.of_not_fits hf s hs)⟩
  rw [Json.readFields, Json.Reader.bind_of_ok (hread.of_fits hf s hs)]
  simp only [Json.WrittenField.all_given, if_true]
  rfl

/-- A record whose fields are written in their order is read field by field. -/
theorem Json.readRecord_takes (hw : ∀ w ∈ ws, w.Readable levels)
    (hnames : (ws.map (·.field.name)).Nodup) (start : ρ) :
    Json.Takes (Json.readRecord (ws.map (·.field)) start (levels + 1))
      (Json.renderRecord (ws.map fun w => (w.field.name, w.text))) (∀ w ∈ ws, w.fits)
      (ws.foldl (fun r w => w.put r) start) := by
  have hspace : Json.isSpace '\x7b' = false := rfl
  refine (Json.opening_takes hspace (Json.readFields_takes hw hnames start)).of_step fun s => ?_
  have htext : Json.renderRecord (ws.map fun w => (w.field.name, w.text)) =
      '\x7b' :: (Json.commaSeparated (ws.map Json.WrittenField.memberText) ++ ['\x7d']) := by
    rw [Json.renderRecord, Json.braced, List.map_map, List.cons_append]
    rfl
  rw [htext, Json.readRecord, List.cons_append, Json.Reader.bind_of_ok (Json.peek_cons hspace _)]
  simp only [if_neg (by decide : ¬ '\x7b' = '[')]
  rfl

end Written

end Records

end FoldedStacks
