-- SUMMARY: What is put over an artifact lands beside the metadata of its run, not in them: where every member of a reissued header comes from, and the time that it tells.
import Mathlib
import FoldedStacks.Proofs.MergedReadback
import FoldedStacks.Proofs.Overriding

/-!
# Metadata of reissued artifacts

A header holds the metadata of the run under a key of its own. Reissuing puts the obtained metadata
over the header itself, and looks there for the time of the run and for its arguments. So the
metadata of the run stay as they are, but for what is obtained under that key.
-/

namespace FoldedStacks

/-! ## Headers as they are found -/

theorem Header.keys_rereadMembers (h : Header) :
    (Json.rereadMembers h.members).map Prod.fst = Header.fields.map (·.name) := rfl

theorem Header.nodup_names : (Header.fields.map (·.name)).Nodup := by
  show ["containers", "container_names_enabled", "metadata", "metrics", "application_metadata",
    "application_metadata_enabled", "profiling_mode"].Nodup
  decide

/-- The metadata of the run stand under their key. -/
theorem Header.get?_found_metadata (h : Header) :
    h.found.get? "metadata" = some h.metadata.reread.toDocument := by
  have hmem : ("metadata", Json.reread (.obj h.metadata.members)) ∈
      Json.rereadMembers h.members := by
    rw [Json.rereadMembers_eq_map]
    exact List.mem_map.2 ⟨("metadata", .obj h.metadata.members), by simp [Header.members], rfl⟩
  have hget := Json.get?_canonicalMembers_of_mem (h.keys_rereadMembers ▸ Header.nodup_names) hmem
  rw [Metadata.get?_eq_iff]
  refine hget.trans ?_
  rw [Json.reread, Json.canonical]
  rfl

theorem Header.get?_found_of_not_mem (h : Header) {k : String}
    (hk : k ∉ Header.fields.map (·.name)) : h.found.get? k = none := by
  rw [Metadata.get?_eq_iff]
  rw [← h.keys_rereadMembers] at hk
  exact Json.get?_canonicalMembers_of_not_mem hk

/-! ## Reissued headers -/

theorem Metadata.timestamp?_congr {m m' : Metadata} {k : String} (h : m.get? k = m'.get? k) :
    m.timestamp? k = m'.timestamp? k := by
  rw [Metadata.timestamp?, Metadata.timestamp?, h]

/-- A reissued artifact and its header `written`, for an artifact whose run had `metadata`. What was
    obtained lands beside these, and only what was obtained for their key lands in them. -/
structure Reissue.BesideMetadata (metadata obtained : Metadata) (r : Reissue)
    (written : Metadata) : Prop where
  /-- The header is the first line. -/
  header : ∃ rest, Text.lines r.text.toList = (Header.lineOf written.render).toList :: rest
  /-- The time is told by what was obtained alone. -/
  startTime : r.startTime = obtained.timestamp? "start_time"
  endTime : r.endTime = obtained.timestamp? "end_time"
  kept : obtained.get? "metadata" = none →
    written.get? "metadata" = some metadata.reread.toDocument
  merged : ∀ m, obtained.get? "metadata" = some m.toDocument →
    written.get? "metadata" = some (metadata.reread.override m).toDocument
  replaced : ∀ d, obtained.get? "metadata" = some d → d.metadata? = none →
    written.get? "metadata" = some d
  /-- The function that was run is not written where the arguments of a run were obtained. -/
  others : ∀ k, k ∉ Header.fields.map (·.name) →
    written.get? k = (obtained.dropNested "run_arguments" "func").get? k

theorem Header.reissue_besideMetadata (h : Header) (obtained : Metadata)
    (lines : List (List Char)) :
    Reissue.BesideMetadata h.metadata obtained (Reissue.ofParts h.found obtained lines)
      ((h.found.override obtained).dropNested "run_arguments" "func") := by
  have hmetadata := h.get?_found_metadata
  have hdrop : ((h.found.override obtained).dropNested "run_arguments" "func").get? "metadata" =
      (h.found.override obtained).get? "metadata" :=
    Metadata.get?_dropNested_of_ne (by decide) "func"
  have hothers : ∀ k, k ∉ Header.fields.map (·.name) →
      (h.found.override obtained).get? k = obtained.get? k :=
    fun k hk => Metadata.get?_override_of_base_none (h.get?_found_of_not_mem hk)
  constructor
  case header =>
    exact Text.exists_lines_unlines_cons (Header.lineOf_isLine (Json.render_controlFree
      ((h.found.override obtained).dropNested "run_arguments" "func").toDocument.value)) _
  case startTime => exact Metadata.timestamp?_congr (hothers "start_time" (by decide))
  case endTime => exact Metadata.timestamp?_congr (hothers "end_time" (by decide))
  case kept =>
    intro hnone
    rw [hdrop, Metadata.get?_override_of_none hnone, hmetadata]
  case merged =>
    intro m hm
    rw [hdrop, Metadata.get?_override_of_objects hmetadata hm]
  case replaced =>
    intro d hd hobject
    rw [hdrop, Metadata.get?_override_of_no_object hd hobject]
  case others =>
    intro k hk
    exact Metadata.get?_dropNested_congr (hothers k hk) "run_arguments" "func"

theorem Artifact.reissue_besideMetadata {a : Artifact} (h : a.header.Shallow)
    (obtained : Metadata) :
    ∃ r written, Reissue.ofText a.text obtained = .ok r ∧
      Reissue.BesideMetadata a.header.metadata obtained r written := by
  obtain ⟨rest, hlines⟩ := a.exists_lines_text
  have hread := a.header.readHeader_line.1 h
  exact ⟨_, _, Reissue.ofText_eq_ok_iff.2 ⟨_, rest, _, hlines, hread, rfl⟩,
    a.header.reissue_besideMetadata obtained rest⟩

/-! ## Reissued artifacts -/

/-- Every artifact that is shallow enough is reissued. What was obtained lands beside the metadata
    of its run, and tells the time alone. -/
theorem Profiles.reissued_besideMetadata {σ : Type} [ContainerClient σ] (ps : Profiles)
    (o : Options) (client : Option σ) (metadata : Metadata) (metrics : Metrics)
    (hmetadata : metadata.depth + 1 ≤ Json.maxDepth)
    (hdocuments : ∀ e ∈ ps.entries, ∀ d, e.2.appMetadata = some d → d.depth + 2 ≤ Json.maxDepth)
    (obtained : Metadata) :
    ∃ r written,
      Reissue.ofText (ps.concatenate o client metadata metrics).artifact.text obtained = .ok r ∧
        Reissue.BesideMetadata metadata obtained r written :=
  Artifact.reissue_besideMetadata
    ((ps.header_shallow_iff o client metadata metrics).2 ⟨hmetadata, hdocuments⟩) obtained

/-- Metadata of a run with its start and its function. -/
def Metadata.ofRun : Metadata :=
  .ofMembers [("run_arguments", .obj [("func", .str "main")]),
    ("start_time", .str "2024-03-01T10:00:00Z")]

/-- A start that is obtained is told; where none is, no start is told although the run has one. -/
theorem Profiles.reissued_besideMetadata_ofRun :
    let obtained : Metadata := .ofMembers [("start_time", .str "1970-01-01T00:00:01Z")]
    let artifact :=
      (Profiles.concatenate .empty .all (none : Option Containers) .ofRun .none).artifact
    (∃ r, Reissue.ofText artifact.text obtained = .ok r ∧
        r.startTime = some ⟨1000000000, 0⟩) ∧
      ∃ r, Reissue.ofText artifact.text .empty = .ok r ∧ r.startTime = none := by
  intro obtained artifact
  have hreissue := Profiles.reissued_besideMetadata .empty .all (none : Option Containers) .ofRun
    .none (by decide) (by intro e he; cases he)
  obtain ⟨r, written, hr, hbeside⟩ := hreissue obtained
  obtain ⟨r', written', hr', hbeside'⟩ := hreissue .empty
  exact ⟨⟨r, hr, hbeside.startTime.trans (by decide)⟩, r', hr', hbeside'.startTime⟩

/-- The start of the run is lost, and its function is written. -/
theorem Profiles.reissued_without_start :
    let artifact :=
      (Profiles.concatenate .empty .all (none : Option Containers) .ofRun .none).artifact
    let updated := Metadata.ofRun.override .empty
    ∃ (r : Reissue) (written : Metadata) (rest : List (List Char)),
      Reissue.ofText artifact.text .empty = .ok r ∧
      Text.lines r.text.toList = (Header.lineOf written.render).toList :: rest ∧
      written.get? "metadata" ≠ some (updated.dropNested "run_arguments" "func").toDocument ∧
      updated.timestamp? "start_time" = some ⟨1709287200000000000, 0⟩ ∧ r.startTime = none := by
  intro artifact updated
  have hshallow : artifact.header.Shallow :=
    (Profiles.header_shallow_iff _ _ _ _ _).2 ⟨by decide, by intro e he; cases he⟩
  obtain ⟨r, written, hr, hbeside⟩ := Artifact.reissue_besideMetadata hshallow .empty
  obtain ⟨rest, hlines⟩ := hbeside.header
  refine ⟨r, written, rest, hr, hlines, ?_, by decide, hbeside.startTime⟩
  rw [hbeside.kept rfl]
  intro heq
  have htext := congrArg (Option.map Document.render) heq
  revert htext
  decide

end FoldedStacks
