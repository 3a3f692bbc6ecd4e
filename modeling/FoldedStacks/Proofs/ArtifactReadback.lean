-- SUMMARY: Artifacts are read back: a header is accepted exactly when its documents leave room for the levels that the header puts around them.
import Mathlib
import FoldedStacks.Artifact.Reissue
import FoldedStacks.Proofs.ControlFree
import FoldedStacks.Proofs.RecordReading

/-!
# Reading artifacts back

A header puts run metadata one level deep and the documents of applications two levels deep into an
object of its own. The reader of headers and the reader that an artifact is reissued with have one
limit on nesting, so both accept the header exactly when its parts stay that much below the limit.
-/

namespace FoldedStacks

/-! ## Metrics -/

/-- A measured value as it is read back. Those that are not finite are missing then. -/
def Metrics.rereadValue : Option Binary64 → Option Binary64
  | some (.finite x) => some (Json.Number.float x).reread.toBinary64
  | _ => .none

def Metrics.reread (m : Metrics) : Metrics :=
  ⟨Metrics.rereadValue m.cpuAverage, Metrics.rereadValue m.memoryAverage⟩

theorem Metrics.readValue_takes (a : Option Binary64) :
    Json.Takes (Json.readOption Json.readDouble) (Json.renderOption Metrics.renderValue a) True
      (Metrics.rereadValue a) := by
  cases a with
  | none => exact Json.readOption_takes_null _
  | some x =>
    cases x with
    | nan => exact Json.readOption_takes_null _
    | infinite negative => exact Json.readOption_takes_null _
    | finite x =>
      obtain ⟨c, cs, hcs, hc⟩ := (Json.Number.float x).render_head
      have hhead : (Json.Number.float x).render.head? = some c := by rw [hcs]; rfl
      refine Json.readOption_takes_some (Json.readDouble_takes (.float x)) hhead
        (Json.isSpace_of_kindOf? (Json.kindOf?_of_number hc)) ?_
      rintro rfl
      rcases hc with hc | hc <;> cases hc

/-- The fields of metrics as they are written. -/
def Metrics.written (m : Metrics) : List (Json.WrittenField Metrics) :=
  let value (_ : Nat) := Json.readOption Json.readDouble
  [⟨.of "cpu_avg" .requiredInArray value fun r a => { r with cpuAverage := a },
      Json.renderOption Metrics.renderValue m.cpuAverage, True,
      fun r => { r with cpuAverage := Metrics.rereadValue m.cpuAverage }⟩,
    ⟨.of "mem_avg" .requiredInArray value fun r a => { r with memoryAverage := a },
      Json.renderOption Metrics.renderValue m.memoryAverage, True,
      fun r => { r with memoryAverage := Metrics.rereadValue m.memoryAverage }⟩]

theorem Metrics.reader_takes (m : Metrics) (levels : Nat) :
    Json.Takes (Metrics.reader (levels + 1)) m.render True m.reread := by
  have hreadable : ∀ w ∈ m.written, w.Readable levels := by
    intro w hw
    simp only [Metrics.written, List.mem_cons, List.not_mem_nil, or_false] at hw
    rcases hw with rfl | rfl
    · exact Json.WrittenField.readable_of (Metrics.readValue_takes m.cpuAverage)
    · exact Json.WrittenField.readable_of (Metrics.readValue_takes m.memoryAverage)
  have hnames : (m.written.map (·.field.name)).Nodup := by
    show ["cpu_avg", "mem_avg"].Nodup
    decide
  refine (Json.readRecord_takes hreadable hnames Metrics.none).congr ?_
  simp [Metrics.written]

/-! ## Documents of applications -/

/-- An entry of the table of documents as it is read back. -/
def Document.rereadEntry : Option Document → Option Document
  | some d => if d.isNull then none else some d.reread
  | none => none

theorem Document.readEntry_takes (d : Option Document) (levels : Nat) :
    Json.Takes (Json.readOption (Json.readDocument levels)) (Json.renderOption Document.render d)
      (∀ d', d = some d' → d'.depth ≤ levels) (Document.rereadEntry d) := by
  cases d with
  | none => exact (Json.readOption_takes_null _).congr (iff_true_intro (by simp))
  | some d =>
    have hfits : (∀ d', some d = some d' → d'.depth ≤ levels) ↔ d.depth ≤ levels := by simp
    by_cases hnull : d.isNull = true
    · -- the text of null is taken for no document
      have hnone : Document.rereadEntry (some d) = none := if_pos hnull
      have hdepth : d.depth ≤ levels := (Document.depth_of_isNull hnull).trans_le (Nat.zero_le _)
      rw [hnone, Json.renderOption, Document.render, Document.value_of_isNull hnull]
      exact (Json.readOption_takes_null _).congr (iff_true_intro (hfits.2 hdepth))
    · obtain ⟨c, cs, hcs, hc⟩ := d.value.render_head
      have hhead : d.render.head? = some c := by rw [Document.render, hcs]; rfl
      have hsome : Document.rereadEntry (some d) = some d.reread := if_neg hnull
      rw [hsome]
      refine (Json.readOption_takes_some (Json.readDocument_takes d levels) hhead
        (Json.isSpace_of_kindOf? hc) ?_).congr hfits
      rintro rfl
      exact hnull (Document.isNull_of_head? hhead)

theorem Document.entry_first (d : Option Document) :
    ∃ c cs, Json.renderOption Document.render d = c :: cs ∧ c ≠ ']' ∧ Json.isSpace c = false := by
  cases d with
  | none => exact Json.render_first .null rfl
  | some d => exact d.value.render_first rfl

/-! ## Headers -/

/-- The parts of a header are nested at most as deep as the levels around them leave room for. -/
structure Header.Shallow (h : Header) : Prop where
  metadata : h.metadata.depth + 1 ≤ Json.maxDepth
  documents : ∀ d, some d ∈ h.applicationMetadata → d.depth + 2 ≤ Json.maxDepth
  profilingMode : h.profilingMode.depth + 1 ≤ Json.maxDepth

theorem Json.add_one_le_maxDepth {n : Nat} : n + 1 ≤ Json.maxDepth ↔ n ≤ 126 :=
  Nat.add_le_add_iff_right

theorem Json.add_two_le_maxDepth {n : Nat} : n + 2 ≤ Json.maxDepth ↔ n ≤ 125 :=
  Nat.add_le_add_iff_right

/-- A header as it is read back. -/
def Header.reread (h : Header) : Header where
  containers := h.containers
  containerNamesEnabled := h.containerNamesEnabled
  metadata := h.metadata.reread
  metrics := h.metrics.reread
  applicationMetadata := h.applicationMetadata.map Document.rereadEntry
  applicationMetadataEnabled := h.applicationMetadataEnabled
  profilingMode := h.profilingMode.reread

/-- The fields of a header as they are written. -/
def Header.written (h : Header) : List (Json.WrittenField Header) :=
  let flag (_ : Nat) := Json.readBool
  [⟨.of "containers" .required (Json.readList · fun _ => Json.readStringValue)
        fun r a => { r with containers := a },
      Json.bracketed (h.containers.map Json.renderString), True,
      fun r => { r with containers := h.containers }⟩,
    ⟨.of "container_names_enabled" .required flag fun r a => { r with containerNamesEnabled := a },
      Json.renderBool h.containerNamesEnabled, True,
      fun r => { r with containerNamesEnabled := h.containerNamesEnabled }⟩,
    ⟨.of "metadata" .required Json.readMetadata fun r a => { r with metadata := a },
      h.metadata.render, h.metadata.depth + 1 ≤ Json.maxDepth,
      fun r => { r with metadata := h.metadata.reread }⟩,
    ⟨.of "metrics" .required Metrics.reader fun r a => { r with metrics := a },
      h.metrics.render, True, fun r => { r with metrics := h.metrics.reread }⟩,
    ⟨.of "application_metadata" .required
        (Json.readList · fun levels => Json.readOption (Json.readDocument levels))
        fun r a => { r with applicationMetadata := a },
      MetadataTable.renderEntries h.applicationMetadata,
      ∀ d, some d ∈ h.applicationMetadata → d.depth + 2 ≤ Json.maxDepth,
      fun r => { r with applicationMetadata := h.applicationMetadata.map Document.rereadEntry }⟩,
    ⟨.of "application_metadata_enabled" .required flag
        fun r a => { r with applicationMetadataEnabled := a },
      Json.renderBool h.applicationMetadataEnabled, True,
      fun r => { r with applicationMetadataEnabled := h.applicationMetadataEnabled }⟩,
    ⟨.of "profiling_mode" .required Json.readDocument fun r a => { r with profilingMode := a },
      h.profilingMode.render, h.profilingMode.depth + 1 ≤ Json.maxDepth,
      fun r => { r with profilingMode := h.profilingMode.reread }⟩]

theorem Header.readable_written (h : Header) : ∀ w ∈ h.written, w.Readable 126 := by
  intro w hw
  simp only [Header.written, List.mem_cons, List.not_mem_nil, or_false] at hw
  rcases hw with rfl | rfl | rfl | rfl | rfl | rfl | rfl
  case inl =>
    have hnames : Json.Takes (Json.readList 126 fun _ => Json.readStringValue)
        (Json.bracketed (h.containers.map Json.renderString)) (∀ a ∈ h.containers, True)
        (h.containers.map id) :=
      Json.readList_takes (fun a _ => ⟨'\"', _, rfl, by decide, rfl⟩)
        fun a _ => Json.readStringValue_takes a
    rw [List.map_id] at hnames
    exact Json.WrittenField.readable_of (hnames.congr (by simp))
  case inr.inl => exact Json.WrittenField.readable_of (Json.readBool_takes _)
  case inr.inr.inl =>
    exact Json.WrittenField.readable_of
      ((Json.readMetadata_takes h.metadata 125).congr Json.add_one_le_maxDepth)
  case inr.inr.inr.inl => exact Json.WrittenField.readable_of (h.metrics.reader_takes 125)
  case inr.inr.inr.inr.inl =>
    have hentries : Json.Takes
        (Json.readList 126 fun levels => Json.readOption (Json.readDocument levels))
        (MetadataTable.renderEntries h.applicationMetadata)
        (∀ d ∈ h.applicationMetadata, ∀ d', d = some d' → d'.depth ≤ 125)
        (h.applicationMetadata.map Document.rereadEntry) :=
      Json.readList_takes (fun d _ => Document.entry_first d)
        fun d _ => Document.readEntry_takes d 125
    refine Json.WrittenField.readable_of (hentries.congr ?_)
    simp only [Json.add_two_le_maxDepth]
    exact ⟨fun hd d' hd' d heq => hd d (heq ▸ hd'), fun hd d hd' => hd (some d) hd' d rfl⟩
  case inr.inr.inr.inr.inr.inl => exact Json.WrittenField.readable_of (Json.readBool_takes _)
  case inr.inr.inr.inr.inr.inr =>
    exact Json.WrittenField.readable_of
      ((Json.readDocument_takes h.profilingMode 126).congr Json.add_one_le_maxDepth)

theorem Header.reader_takes (h : Header) :
    Json.Takes (Header.reader Json.maxDepth) h.render h.Shallow h.reread := by
  have hnames : (h.written.map (·.field.name)).Nodup := by
    show ["containers", "container_names_enabled", "metadata", "metrics", "application_metadata",
      "application_metadata_enabled", "profiling_mode"].Nodup
    decide
  refine (Json.readRecord_takes h.readable_written hnames default).congr ?_
  simp only [Header.written, List.forall_mem_cons, List.not_mem_nil, false_implies, implies_true,
    and_true, true_and]
  exact ⟨fun hs => ⟨hs.metadata, hs.documents, hs.profilingMode⟩, fun hs => ⟨hs.1, hs.2.1, hs.2.2⟩⟩

/-! ## Header lines -/

theorem Json.readAll_space {α : Type} {r : Json.Reader α} {cs : List Char}
    (h : r (' ' :: cs) = r cs) : r.readAll (' ' :: cs) = r.readAll cs := by
  rw [Json.Reader.readAll, Json.Reader.readAll, Json.Reader.bind_apply, Json.Reader.bind_apply, h]

theorem Json.peek_space (cs : List Char) : Json.peek (' ' :: cs) = Json.peek cs := rfl

/-- A header line is read as a header exactly when its parts are shallow. -/
theorem Header.parse_line (h : Header) :
    (h.Shallow → Header.parse h.line = .ok h.reread) ∧
      (¬ h.Shallow → Header.parse h.line = .error (.headerUnreadable .malformed)) := by
  have hspace : Header.reader Json.maxDepth (' ' :: h.render) =
      Header.reader Json.maxDepth h.render := by
    rw [Header.reader, Json.readRecord, Json.Reader.bind_apply, Json.Reader.bind_apply,
      Json.peek_space]
  have hparse : Header.parse h.line =
      ((Header.reader Json.maxDepth).readAll h.render).mapError .headerUnreadable := by
    rw [Header.parse, Header.toList_line, ← Json.readAll_space hspace]
    rfl
  obtain ⟨hfits, hnot⟩ := h.reader_takes.readAll
  rw [hparse]
  exact ⟨fun hs => by rw [hfits hs]; rfl, fun hs => by rw [hnot hs]; rfl⟩

/-! ## Headers as documents -/

/-- A measured value as JSON. -/
def Metrics.jsonValue : Option Binary64 → Json
  | some (.finite x) => .num (.float x)
  | _ => .null

def Metrics.json (m : Metrics) : Json :=
  .obj [("cpu_avg", Metrics.jsonValue m.cpuAverage), ("mem_avg", Metrics.jsonValue m.memoryAverage)]

/-- An entry of the table of documents as JSON. -/
def Document.entryJson (d : Option Document) : Json :=
  (d.map Document.value).getD .null

/-- The members of a header as JSON, in the order in which they are written. -/
def Header.members (h : Header) : List (String × Json) :=
  [("containers", .arr (h.containers.map Json.str)),
    ("container_names_enabled", .bool h.containerNamesEnabled),
    ("metadata", .obj h.metadata.members),
    ("metrics", h.metrics.json),
    ("application_metadata", .arr (h.applicationMetadata.map Document.entryJson)),
    ("application_metadata_enabled", .bool h.applicationMetadataEnabled),
    ("profiling_mode", h.profilingMode.value)]

theorem Metrics.render_jsonValue (a : Option Binary64) :
    (Metrics.jsonValue a).render = Json.renderOption Metrics.renderValue a := by
  cases a with
  | none => rfl
  | some x =>
    cases x with
    | nan => rfl
    | infinite negative => rfl
    | finite x => rw [Metrics.jsonValue, Json.render]; rfl

theorem Document.render_entryJson (d : Option Document) :
    (Document.entryJson d).render = Json.renderOption Document.render d := by
  cases d <;> rfl

theorem Json.render_obj_eq_renderRecord (members : List (String × Json)) :
    (Json.obj members).render = Json.renderRecord (members.map fun m => (m.1, m.2.render)) := by
  rw [Json.render, Json.renderRecord, List.map_map]
  congr 1
  induction members with
  | nil => rfl
  | cons m rest ih => rw [Json.renderMembers, ih]; rfl

theorem Json.render_arr_map {α : Type} (f : α → Json) (as : List α) :
    (Json.arr (as.map f)).render = Json.bracketed (as.map fun a => (f a).render) := by
  rw [Json.render, Json.renderItems_eq_map, List.map_map]
  rfl

theorem Metrics.render_json (m : Metrics) : m.json.render = m.render := by
  rw [Metrics.json, Json.render_obj_eq_renderRecord, List.map_cons, List.map_cons, List.map_nil,
    Metrics.render_jsonValue, Metrics.render_jsonValue]
  rfl

/-- A header is written as a document with its members. -/
theorem Header.render_eq (h : Header) : h.render = (Json.obj h.members).render := by
  have hnames : (Json.arr (h.containers.map Json.str)).render =
      Json.bracketed (h.containers.map Json.renderString) := by
    rw [Json.render_arr_map]
    exact congrArg Json.bracketed (List.map_congr_left fun a _ => by rw [Json.render])
  have hentries : (Json.arr (h.applicationMetadata.map Document.entryJson)).render =
      MetadataTable.renderEntries h.applicationMetadata := by
    rw [Json.render_arr_map]
    exact congrArg Json.bracketed (List.map_congr_left fun d _ => Document.render_entryJson d)
  rw [Json.render_obj_eq_renderRecord, Header.members]
  simp only [List.map_cons, List.map_nil, hnames, hentries, Metrics.render_json]
  rfl

theorem Metrics.depth_json (m : Metrics) : m.json.depth = 1 := by
  have hvalue : ∀ a, (Metrics.jsonValue a).depth = 0 := by
    intro a
    unfold Metrics.jsonValue
    split <;> rw [Json.depth] <;> simp
  simp only [Metrics.json, Json.depth, Json.membersDepth, hvalue, Nat.max_self]

/-- A header is an object around its parts, so the levels of the parts and its own add up. -/
theorem Header.depth_members_iff (h : Header) :
    (Json.obj h.members).depth ≤ Json.maxDepth ↔ h.Shallow := by
  have hnames : (Json.arr (h.containers.map Json.str)).depth ≤ 126 := by
    rw [Json.depth, Nat.add_le_add_iff_right (n := 1), Json.itemsDepth_le_iff]
    intro v hv
    obtain ⟨a, -, rfl⟩ := List.mem_map.1 hv
    rw [Json.depth] <;> simp
  have hentries : (Json.arr (h.applicationMetadata.map Document.entryJson)).depth ≤ 126 ↔
      ∀ d, some d ∈ h.applicationMetadata → d.depth + 2 ≤ Json.maxDepth := by
    simp only [Json.add_two_le_maxDepth]
    rw [Json.depth, Nat.add_le_add_iff_right (n := 1), Json.itemsDepth_le_iff, List.forall_mem_map]
    constructor
    · exact fun hd d hin => hd (some d) hin
    · rintro hd (_ | d) hin
      · rw [Document.entryJson, Option.map_none, Option.getD_none, Json.depth] <;> simp
      · exact hd d hin
  have hflag : ∀ b : Bool, (Json.bool b).depth = 0 := fun b => by rw [Json.depth] <;> simp
  rw [Json.depth, Json.add_one_le_maxDepth, Json.membersDepth_le_iff]
  simp only [Header.members, List.forall_mem_cons, List.not_mem_nil, false_implies, implies_true,
    and_true, hnames, hentries, hflag, Metrics.depth_json, Nat.zero_le, Nat.one_le_ofNat, true_and]
  exact ⟨fun hs => ⟨Json.add_one_le_maxDepth.2 hs.1, hs.2.1, Json.add_one_le_maxDepth.2 hs.2.2⟩,
    fun hs => ⟨Json.add_one_le_maxDepth.1 hs.metadata, hs.documents,
      Json.add_one_le_maxDepth.1 hs.profilingMode⟩⟩

/-- The object in a header line, as it is read back. -/
def Header.found (h : Header) : Metadata :=
  .ofMembers (Json.rereadMembers h.members)

theorem Reissue.readHeader_of_ok {json : List Char} {d : Document} {m : Metadata}
    (h : Document.parse json = .ok d) (hm : d.metadata? = some m) :
    Reissue.readHeader ('#' :: json) = .ok m := by
  simp only [Reissue.readHeader, Header.jsonOf, bind, Except.bind, h, Except.mapError, hm]
  rfl

theorem Reissue.readHeader_of_error {json : List Char} {e : Json.ReadError}
    (h : Document.parse json = .error e) :
    Reissue.readHeader ('#' :: json) = .error (.headerUnreadable e) := by
  simp only [Reissue.readHeader, Header.jsonOf, bind, Except.bind, h, Except.mapError]

/-- A header line with an object is read as that object exactly when it is not nested too deep. -/
theorem Reissue.readHeader_lineOf (members : List (String × Json)) :
    ((Json.obj members).depth ≤ Json.maxDepth →
        Reissue.readHeader (Header.lineOf (Json.obj members).render).toList =
          .ok (.ofMembers (Json.rereadMembers members))) ∧
      (¬ (Json.obj members).depth ≤ Json.maxDepth →
        Reissue.readHeader (Header.lineOf (Json.obj members).render).toList =
          .error (.headerUnreadable .malformed)) := by
  have hspace : ∀ cs, Json.readDocument Json.maxDepth (' ' :: cs) =
      Json.readDocument Json.maxDepth cs := by
    intro cs
    rw [Json.readDocument, Json.Reader.bind_apply, Json.Reader.bind_apply]
    rw [Json.maxDepth, Json.readValue, Json.Reader.bind_apply, Json.Reader.bind_apply,
      Json.peek_space]
  have hparse : Document.parse (' ' :: (Json.obj members).render) =
      (Json.readDocument Json.maxDepth).readAll (Json.obj members).render :=
    Json.readAll_space (hspace _)
  obtain ⟨hfits, hnot⟩ := ((Json.readValue_takes (.obj members) Json.maxDepth).map
    Document.ofJson).readAll
  rw [Header.toList_lineOf]
  constructor
  · intro hdepth
    refine Reissue.readHeader_of_ok (hparse.trans (hfits hdepth)) ?_
    rw [Json.reread]
    rfl
  · intro hdepth
    exact Reissue.readHeader_of_error (hparse.trans (hnot hdepth))

theorem Header.readHeader_line (h : Header) :
    (h.Shallow → Reissue.readHeader h.line.toList = .ok h.found) ∧
      (¬ h.Shallow →
        Reissue.readHeader h.line.toList = .error (.headerUnreadable .malformed)) := by
  rw [Header.line, h.render_eq, ← h.depth_members_iff]
  exact Reissue.readHeader_lineOf h.members

end FoldedStacks
