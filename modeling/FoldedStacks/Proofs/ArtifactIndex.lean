-- SUMMARY: The fields in front of a stack agree with the header: the number points at the process's own document, and the name is that of its container.
import Mathlib
import FoldedStacks.Proofs.ArtifactListing
import FoldedStacks.Proofs.MetadataNumbering

/-!
# Numbers and names in stack lines

Lines are written while the table still grows, and the header is written from the table behind all
processes. The numbers in the lines are places in the header all the same.
-/

namespace FoldedStacks

/-! ## Fields of a line -/

/-- The fields in front of a stack are the first two of its line. -/
theorem Enrichment.splitOn_line {e : Enrichment} {number name : List Char}
    (hnumber : e.applicationField.toList = number ++ [';'])
    (hname : e.containerField.toList = name ++ [';']) (hfirst : ';' ∉ number)
    (hsecond : ';' ∉ name) (o : Options) (stack : String) (n : Count) :
    ∃ rest, (e.line o stack n).toList.splitOn ';' = number :: name :: rest := by
  obtain ⟨behind, hline⟩ : ∃ behind, (e.line o stack n).toList =
      number ++ ';' :: (name ++ ';' :: behind) := by
    simp only [Enrichment.line, Enrichment.stackText, String.toList_append, hnumber, hname,
      List.append_assoc, List.cons_append, List.nil_append]
    exact ⟨_, rfl⟩
  refine ⟨behind.splitOn ';', ?_⟩
  rw [hline, List.splitOn_append_cons_self_of_not_mem hfirst,
    List.splitOn_append_cons_self_of_not_mem hsecond]

/-- The lines of a process, one for each of its stacks, point at an entry of the table that is the
    process's own document, and name its container. -/
structure Profile.Marked (p : Profile) (table : List (Option Document)) (name : String)
    (lines : List (List Char)) : Prop where
  length : lines.length = p.counts.entries.length
  fields : ∃ i entry, table[i]? = some entry ∧ Option.Rel Document.Same entry p.document? ∧
    ∀ line ∈ lines, ∃ rest, line.splitOn ';' = Text.numeral i :: name.toList :: rest

section Pass

variable {σ : Type} [ContainerClient σ]

/-- What a process's lines look like when their number is a place in the table. -/
theorem Profiles.marked_lines {ps : Profiles} {o : Options} {client : Option σ}
    (hframes : o.version.hasFrames = true) (hmetadata : o.applicationMetadata = true)
    {e : Pid × Profile}
    (hname : e.2.counts.entries ≠ [] → ';' ∉ (ps.containerName o client e.1).toList)
    {table : List (Option Document)} {entry : Option Document}
    (hentry : table[ps.documentNumber e.1 e.2]? = some entry)
    (hsame : Option.Rel Document.Same entry e.2.document?) :
    e.2.Marked table (ps.containerName o client e.1)
      ((e.2.lines o (ps.enrichment o client e.1 e.2)).map String.toList) where
  length := by rw [Profile.lines, List.map_map, List.length_map]
  fields := by
    refine ⟨ps.documentNumber e.1 e.2, entry, hentry, hsame, ?_⟩
    intro line hline
    rw [Profile.lines, List.map_map] at hline
    obtain ⟨s, hs, rfl⟩ := List.mem_map.1 hline
    have hsemicolon : (";" : String).toList = [';'] := rfl
    have happlication : (ps.enrichment o client e.1 e.2).applicationField.toList =
        Text.numeral (ps.documentNumber e.1 e.2) ++ [';'] := by
      simp only [Profiles.enrichment, hframes, hmetadata, Bool.and_self, if_true,
        String.toList_append, String.toList_ofList, hsemicolon]
    have hcontainer : (ps.enrichment o client e.1 e.2).containerField.toList =
        (ps.containerName o client e.1).toList ++ [';'] := by
      simp only [Profiles.enrichment, hframes, if_true, String.toList_append, hsemicolon]
    exact Enrichment.splitOn_line happlication hcontainer (Text.not_mem_numeral (by decide))
      (hname (List.ne_nil_of_mem hs)) o s.1 s.2

theorem Profiles.containerName_of_off (ps : Profiles) {o : Options} {client : Option σ}
    (h : client = none ∨ o.containerNames = false) (pid : Pid) :
    ps.containerName o client pid = "" := by
  cases client with
  | none => rfl
  | some c =>
    rcases h with h | h
    · cases h
    · simp only [Profiles.containerName, h, Bool.false_eq_true, if_false]

/-- The lines of an artifact agree with its header over a whole pass. The header lists null and then
    the documents of the processes, each of them once and in the order in which they occur first.
    Every stack line has for its first field the place of its process's document in that list, and
    for its second one the name of its process's container. -/
theorem Profiles.lines_point_into_header (ps : Profiles) (o : Options) (client : Option σ)
    (metadata : Metadata) (metrics : Metrics) (hversion : o.version = .v2)
    (hmetadata : o.applicationMetadata = true) (hfeed : ps.LineFeedFree o client)
    (hnames : ∀ e ∈ ps.entries, e.2.counts.entries ≠ [] →
      ';' ∉ (ps.containerName o client e.1).toList) :
    let artifact := (ps.concatenate o client metadata metrics).artifact
    let table := artifact.header.applicationMetadata
    (∃ docs, table = none :: docs.map some ∧ Profiles.ListsDocuments ps.entries docs) ∧
      (∃ blocks : List (List (List Char)),
        Text.lines artifact.text.toList = artifact.header.line.toList :: blocks.flatten ∧
        List.Forall₂ (fun e lines => e.2.Marked table (ps.containerName o client e.1) lines)
          ps.entries blocks) ∧
      ((client = none ∨ o.containerNames = false) →
        ∀ pid, ps.containerName o client pid = "") := by
  intro artifact table
  have hframes : o.version.hasFrames = true := by rw [hversion]; rfl
  have htable : table = _ := ps.applicationMetadata_concatenate o client metadata metrics
  refine ⟨?_, ?_, fun h => ps.containerName_of_off h⟩
  · obtain ⟨docs, hholds, hlists⟩ := MetadataTable.holds_after ps.ascending
    exact ⟨docs, htable.trans hholds.entries, hlists⟩
  · -- the blocks are the lines of the processes, in their order
    refine ⟨ps.entries.map fun e =>
      (e.2.lines o (ps.enrichment o client e.1 e.2)).map String.toList, ?_, ?_⟩
    · rw [hfeed.lines_text metadata metrics, ps.lines_concatenate o client metadata metrics,
        List.map_flatMap, List.flatMap_def]
    · rw [List.forall₂_map_right_iff]
      refine List.forall₂_same.2 ?_
      intro e he
      obtain ⟨entry, hentry, hsame⟩ := ps.entry_documentNumber he
      rw [← htable] at hentry
      exact Profiles.marked_lines hframes hmetadata (hnames e he) hentry hsame

end Pass

/-- Three processes: the number 5, then null in a container, then 5 written as a double. -/
def Profiles.numbered : Profiles :=
  .ofList [(3, ⟨.ofList [("main", .ofNat 2)], none, some (.ofJson (.num (.int 5 (by decide))))⟩),
    (5, ⟨.ofList [("main;a", .ofNat 1)], some "web", some .null⟩),
    (8, ⟨.ofList [("", .ofNat 4), ("idle", .ofNat 7)], none,
      some (.ofJson (.num (.float ⟨false, 5 * 2 ^ 50, -50, by decide⟩)))⟩)]

theorem Profiles.lines_point_into_header_numbered :
    let client := some (Containers.ofNames (.ofList [(5, "box 1")]))
    let artifact := (Profiles.numbered.concatenate .all client .empty .none).artifact
    artifact.lines = ["1;;main 2", "0;box 1;main;appid: web;a 1", "1;; 4", "1;;idle 7"] ∧
      ∃ docs, artifact.header.applicationMetadata = none :: docs.map some ∧
        Profiles.ListsDocuments Profiles.numbered.entries docs := by
  intro client artifact
  have hfeed : Profiles.numbered.LineFeedFree .all client := ⟨by decide, by decide, by decide⟩
  have hnames : ∀ e ∈ Profiles.numbered.entries, e.2.counts.entries ≠ [] →
      ';' ∉ (Profiles.numbered.containerName .all client e.1).toList := by decide
  obtain ⟨hdocs, -, -⟩ :=
    Profiles.lines_point_into_header Profiles.numbered .all client .empty .none rfl rfl hfeed hnames
  exact ⟨by decide, hdocs⟩

end FoldedStacks
