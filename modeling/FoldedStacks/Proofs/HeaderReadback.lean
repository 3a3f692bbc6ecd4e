-- SUMMARY: The header of an artifact is read back from its first line with the values that it was built from.
import Mathlib
import FoldedStacks.Proofs.ContainerListing
import FoldedStacks.Proofs.ExactNumbers
import FoldedStacks.Proofs.MergedReadback

/-!
# Reading headers back

The reader of headers gives back what was written, up to three losses: a double may be read as a
neighbour of it, a measured value that is not finite is missing, and so is a document that is null.
The last loss never shows, because null is not entered into the table of documents. So a header is
read back as it was built when its doubles are exact and its measured values are finite.
-/

namespace FoldedStacks

/-! ## Parts of a header -/

/-- The values that were measured are finite numbers. -/
structure Metrics.Finite (m : Metrics) : Prop where
  cpuAverage : ∀ x, m.cpuAverage = some x → ∃ y, x = .finite y
  memoryAverage : ∀ x, m.memoryAverage = some x → ∃ y, x = .finite y

theorem Metrics.rereadValue_of_exact {a : Option Binary64}
    (hfinite : ∀ x, a = some x → ∃ y, x = .finite y)
    (hexact : ∀ x ∈ (Metrics.jsonValue a).doubles, Json.Exact x) : Metrics.rereadValue a = a := by
  cases a with
  | none => rfl
  | some x =>
    obtain ⟨y, rfl⟩ := hfinite x rfl
    have hy : (Json.Number.float y).reread = .float y := hexact y List.mem_cons_self
    rw [Metrics.rereadValue, hy, Json.Number.toBinary64]

theorem Metrics.reread_of_exact {m : Metrics} (hfinite : m.Finite)
    (hexact : ∀ x ∈ m.json.doubles, Json.Exact x) : m.reread = m := by
  simp only [Metrics.json, Json.doubles, Json.membersDoubles, List.append_nil,
    List.forall_mem_append] at hexact
  rw [Metrics.reread, Metrics.rereadValue_of_exact hfinite.cpuAverage hexact.1,
    Metrics.rereadValue_of_exact hfinite.memoryAverage hexact.2]

theorem Document.rereadEntry_of_exact {entry : Option Document}
    (hnull : ∀ d, entry = some d → d.isNull = false)
    (hexact : ∀ x ∈ (Document.entryJson entry).doubles, Json.Exact x) :
    Document.rereadEntry entry = entry := by
  cases entry with
  | none => rfl
  | some d =>
    have hd : d.reread = d := Document.reread_of_exact hexact
    rw [Document.rereadEntry, hnull d rfl, hd, if_neg Bool.false_ne_true]

/-- A header as a document. -/
def Header.json (h : Header) : Json :=
  .obj h.members

/-- A header is read back as it is when its values are. -/
theorem Header.reread_of_exact {h : Header} (hmetrics : h.metrics.Finite)
    (hnull : ∀ d, some d ∈ h.applicationMetadata → d.isNull = false)
    (hexact : ∀ x ∈ h.json.doubles, Json.Exact x) : h.reread = h := by
  have hmember : ∀ m ∈ h.members, ∀ x ∈ m.2.doubles, Json.Exact x := by
    intro m hm x hx
    exact hexact x (Json.mem_membersDoubles_iff.2 ⟨m, hm, hx⟩)
  simp only [Header.members, List.forall_mem_cons] at hmember
  obtain ⟨-, -, hmetadata, hvalues, hentries, -, hmode, -⟩ := hmember
  have htable : h.applicationMetadata.map Document.rereadEntry = h.applicationMetadata := by
    refine (List.map_congr_left fun entry hentry => ?_).trans (List.map_id _)
    refine Document.rereadEntry_of_exact (fun d hd => hnull d (hd ▸ hentry)) fun x hx => ?_
    exact hentries x (Json.mem_itemsDoubles_iff.2 ⟨_, List.mem_map_of_mem hentry, hx⟩)
  apply Header.ext
  · rfl
  · rfl
  · exact Metadata.reread_of_exact hmetadata
  · exact Metrics.reread_of_exact hmetrics hvalues
  · exact htable
  · rfl
  · exact Document.reread_of_exact hmode

/-! ## The header of a pass -/

section Pass

variable {σ : Type} [ContainerClient σ]

/-- The header holds what a pass was given and what it collected from the processes. -/
structure Header.BuiltFrom (h : Header) (ps : Profiles) (o : Options) (client : Option σ)
    (metadata : Metadata) (metrics : Metrics) : Prop where
  containers : h.containers = ps.listedNames o client
  containerNamesEnabled : h.containerNamesEnabled = (client.isSome && o.containerNames)
  profilingMode : metadata.get? "profiling_mode" = some h.profilingMode ∨
    metadata.get? "profiling_mode" = none ∧ h.profilingMode = .null
  metadata : h.metadata = metadata
  metrics : h.metrics = metrics
  /-- The entry for no document stands in front of those of the processes. -/
  applicationMetadata : ∃ docs, h.applicationMetadata = none :: docs.map some ∧
    Profiles.ListsDocuments ps.entries docs
  applicationMetadataEnabled : h.applicationMetadataEnabled = o.applicationMetadata

variable (ps : Profiles) (o : Options) (client : Option σ) (metadata : Metadata) (metrics : Metrics)

theorem Profiles.header_builtFrom :
    (ps.concatenate o client metadata metrics).artifact.header.BuiltFrom ps o client metadata
      metrics where
  containers := ps.containers_header o client metadata metrics
  containerNamesEnabled := ps.containerNamesEnabled_header o client metadata metrics
  metadata := rfl
  metrics := rfl
  applicationMetadata := by
    obtain ⟨docs, hholds, hlists⟩ := MetadataTable.holds_after ps.ascending
    exact ⟨docs, (ps.applicationMetadata_concatenate o client metadata metrics).trans
      hholds.entries, hlists⟩
  applicationMetadataEnabled := rfl
  profilingMode := by
    show _ = some ((metadata.get? "profiling_mode").getD .null) ∨
      _ ∧ (metadata.get? "profiling_mode").getD .null = .null
    cases metadata.get? "profiling_mode" with
    | none => exact .inr ⟨rfl, rfl⟩
    | some d => exact .inl rfl

/-- Null is no entry of a header. -/
theorem Profiles.isNull_of_mem_applicationMetadata {d : Document}
    (h : some d ∈ (ps.concatenate o client metadata metrics).artifact.header.applicationMetadata) :
    d.isNull = false := by
  have hbuilt := ps.header_builtFrom o client metadata metrics
  obtain ⟨docs, hdocs, hlists⟩ := hbuilt.applicationMetadata
  rw [hdocs] at h
  obtain ⟨d', hd', heq⟩ := List.mem_map.1 ((List.mem_cons.1 h).resolve_left nofun)
  cases heq
  obtain ⟨e, -, he⟩ := hlists.exists_process hd'
  exact (Document.present?_eq_some_iff.1 he).2

/-- A header that is not nested too deep is read back from the first line of its artifact as it was
    built, when the measured values are finite and the doubles in it are read back exactly. -/
theorem Profiles.header_readback {c : Concatenation σ}
    (hc : ps.concatenate o client metadata metrics = c)
    (hdepth : c.artifact.header.json.depth ≤ Json.maxDepth) (hmetrics : metrics.Finite)
    (hexact : ∀ x ∈ c.artifact.header.json.doubles, Json.Exact x) :
    ∃ first rest,
      Text.lines c.artifact.text.toList = first :: rest ∧
        Header.parse (String.ofList first) = .ok c.artifact.header ∧
        c.artifact.header.BuiltFrom ps o client metadata metrics := by
  subst hc
  have hbuilt := ps.header_builtFrom o client metadata metrics
  have hnull := fun d => ps.isNull_of_mem_applicationMetadata o client metadata metrics (d := d)
  generalize (ps.concatenate o client metadata metrics).artifact = artifact at *
  obtain ⟨rest, hlines⟩ := artifact.exists_lines_text
  have hshallow : artifact.header.Shallow := artifact.header.depth_members_iff.1 hdepth
  have hreread : artifact.header.reread = artifact.header :=
    Header.reread_of_exact (hbuilt.metrics ▸ hmetrics) hnull hexact
  refine ⟨_, rest, hlines, ?_, hbuilt⟩
  rw [String.ofList_toList, artifact.header.parse_line.1 hshallow, hreread]

end Pass

/-- Two processes, one of which has null for its document. -/
def Profiles.described : Profiles :=
  .ofList [(4, ⟨.ofList [("main", .ofNat 1)], none, some .null⟩),
    (9, ⟨.ofList [("main;é", .ofNat 6)], none,
      some (.ofJson (.arr [.num (.float .threeQuarters), .null]))⟩)]

theorem Profiles.header_readback_described :
    let client := some (Containers.ofNames (.ofList [(9, "box \"2\"")]))
    let metadata : Metadata := .ofMembers [("profiling_mode", .str "cpu\n")]
    let metrics : Metrics := ⟨some (.finite .threeQuarters), none⟩
    let c := Profiles.described.concatenate .all client metadata metrics
    c.artifact.header.json.depth ≤ Json.maxDepth ∧ metrics.Finite ∧
      (∀ x ∈ c.artifact.header.json.doubles, Json.Exact x) ∧
      c.artifact.header.containers = ["box \"2\""] ∧
      ∃ first rest, Text.lines c.artifact.text.toList = first :: rest ∧
        Header.parse (String.ofList first) = .ok c.artifact.header := by
  intro client metadata metrics c
  have hdepth : c.artifact.header.json.depth ≤ Json.maxDepth := by decide
  have hmetrics : metrics.Finite := by
    constructor
    · rintro x ⟨⟩
      exact ⟨_, rfl⟩
    · rintro x ⟨⟩
  have hexact : ∀ x ∈ c.artifact.header.json.doubles, Json.Exact x := by decide +kernel
  obtain ⟨first, rest, hlines, hparse, hbuilt⟩ :=
    Profiles.header_readback Profiles.described .all client metadata metrics rfl hdepth hmetrics
      hexact
  exact ⟨hdepth, hmetrics, hexact, by decide, first, rest, hlines, hparse⟩

end FoldedStacks
