-- SUMMARY: Merged artifacts are read back exactly when the metadata of the run and of the applications stay below the limit on nesting by the levels of the header.
import Mathlib
import FoldedStacks.Proofs.ArtifactReadback
import FoldedStacks.Proofs.Merging
import FoldedStacks.Proofs.MetadataNumbering
import FoldedStacks.Proofs.ReissuedListing

/-!
# Reading merged artifacts back

Whether a merged artifact is read back depends on what its header was made of: on the metadata of
the run, and on the documents that the merge leaves with the processes. Names, measured values and
stacks never matter. Documents that the reader takes on their own may be too deep inside a header.
-/

namespace FoldedStacks

/-! ## Whole artifacts -/

/-- The first line of an artifact is its header, whatever stands in the stack lines. -/
theorem Artifact.exists_lines_text (a : Artifact) :
    ∃ rest, Text.lines a.text.toList = a.header.line.toList :: rest :=
  Text.exists_lines_unlines_cons a.header.line_isLine a.lines

/-- The artifact is accepted with any metadata put over its header, and its first line as a header
    of what the artifact was written with. -/
structure Artifact.Accepted (a : Artifact) : Prop where
  reissued : ∀ obtained, ∃ r, Reissue.ofText a.text obtained = .ok r
  parsed : ∃ first rest, Text.lines a.text.toList = first :: rest ∧
    Header.parse (String.ofList first) = .ok a.header.reread

/-- The artifact is taken for malformed, whatever is put over its header. -/
structure Artifact.Refused (a : Artifact) : Prop where
  reissued : ∀ obtained, Reissue.ofText a.text obtained = .error (.headerUnreadable .malformed)
  parsed : ∃ first rest, Text.lines a.text.toList = first :: rest ∧
    Header.parse (String.ofList first) = .error (.headerUnreadable .malformed)

theorem Artifact.accepted_of_shallow {a : Artifact} (h : a.header.Shallow) : a.Accepted := by
  obtain ⟨rest, hlines⟩ := a.exists_lines_text
  constructor
  · intro obtained
    exact ⟨_, Reissue.ofText_eq_ok_iff.2 ⟨_, rest, _, hlines, a.header.readHeader_line.1 h, rfl⟩⟩
  · refine ⟨_, rest, hlines, ?_⟩
    rw [String.ofList_toList]
    exact a.header.parse_line.1 h

theorem Artifact.refused_of_not_shallow {a : Artifact} (h : ¬ a.header.Shallow) : a.Refused := by
  obtain ⟨rest, hlines⟩ := a.exists_lines_text
  constructor
  · intro obtained
    unfold Reissue.ofText
    rw [hlines]
    simp only [a.header.readHeader_line.2 h]
    rfl
  · refine ⟨_, rest, hlines, ?_⟩
    rw [String.ofList_toList]
    exact a.header.parse_line.2 h

/-! ## Depth of parts -/

mutual

theorem Json.depth_normal : ∀ v : Json, v.normal.depth = v.depth
  | .null | .bool _ | .str _ => by simp only [Json.normal]
  | .num n => by simp only [Json.normal, Json.depth]
  | .arr items => by simp only [Json.normal, Json.depth, Json.itemsDepth_normalItems items]
  | .obj members => by simp only [Json.normal, Json.depth, Json.membersDepth_normalMembers members]

theorem Json.itemsDepth_normalItems :
    ∀ items : List Json, Json.itemsDepth (Json.normalItems items) = Json.itemsDepth items
  | [] => rfl
  | v :: rest => by
    rw [Json.normalItems, Json.itemsDepth, Json.itemsDepth, Json.depth_normal v,
      Json.itemsDepth_normalItems rest]

theorem Json.membersDepth_normalMembers : ∀ members : List (String × Json),
    Json.membersDepth (Json.normalMembers members) = Json.membersDepth members
  | [] => rfl
  | (k, v) :: rest => by
    rw [Json.normalMembers, Json.membersDepth, Json.membersDepth, Json.depth_normal v,
      Json.membersDepth_normalMembers rest]

end

/-- Documents that are taken for the same are nested equally deep. -/
theorem Document.Same.depth_eq {d d' : Document} (h : d.Same d') : d.depth = d'.depth := by
  rw [Document.depth, ← Json.depth_normal, h, Json.depth_normal, Document.depth]

/-- The listed documents are nested at most as deep as those of the processes, and reach that. -/
theorem Profiles.ListsDocuments.depth_le_iff {es : List (Pid × Profile)} {docs : List Document}
    (h : Profiles.ListsDocuments es docs) {n : Nat} :
    (∀ d ∈ docs, d.depth ≤ n) ↔ ∀ e ∈ es, ∀ d, e.2.appMetadata = some d → d.depth ≤ n := by
  constructor
  · intro hdocs e he d hd
    by_cases hnull : d.isNull = true
    · rw [Document.depth_of_isNull hnull]
      exact Nat.zero_le n
    · have hdocument : e.2.document? = some d :=
        Document.present?_eq_some_iff.2 ⟨hd, Bool.eq_false_iff.2 hnull⟩
      obtain ⟨d', hd', hsame⟩ := h.complete e he d hdocument
      rw [← hsame.depth_eq]
      exact hdocs d' hd'
  · intro hes d hd
    obtain ⟨e, he, hdocument⟩ := h.exists_process hd
    exact hes e he d (Document.present?_eq_some_iff.1 hdocument).1

/-! ## Merged profiles -/

/-- The profile that a merge takes what is known about the application from. -/
def Merge.source (system runtime : Profiles) (pid : Pid) : Option Profile :=
  ((runtime.get? pid).filter fun r => !r.counts.isEmpty).or (system.get? pid)

theorem Merge.Reached.appMetadata_eq {system runtime : Profiles} {ds : Draws} {m : Merge.Progress}
    (h : Merge.Reached system ds runtime.entries m) (pid : Pid) :
    (m.profiles.get? pid).bind Profile.appMetadata =
      (Merge.source system runtime pid).bind Profile.appMetadata := by
  unfold Merge.source
  cases hr : runtime.get? pid with
  | none =>
    rw [h.outcome.kept pid fun r hget => by rw [hr] at hget; cases hget]
    rfl
  | some r =>
    by_cases hempty : r.counts.entries = []
    · rw [h.outcome.kept pid fun r' hget => by rw [hr] at hget; cases hget; exact hempty,
        Option.filter_some, StackCounts.isEmpty_iff.2 hempty]
      rfl
    · have hstacks : r.counts.isEmpty = false :=
        Bool.eq_false_iff.2 fun hc => hempty (StackCounts.isEmpty_iff.1 hc)
      rw [h.get?_eq hr hempty, Option.filter_some, hstacks]
      rfl

/-- The metadata of the run leave room for the level of the header, and the documents of the
    processes leave room for that level and the one of the list that they stand in. -/
structure Merge.Shallow (system runtime : Profiles) (metadata : Metadata) : Prop where
  metadata : metadata.depth + 1 ≤ Json.maxDepth
  documents : ∀ pid d, (Merge.source system runtime pid).bind Profile.appMetadata = some d →
    d.depth + 2 ≤ Json.maxDepth

section Merged

variable {σ : Type} [ContainerClient σ] {system runtime : Profiles} {ds : Draws} {o : Options}
  {client : Option σ} {metadata : Metadata} {metrics : Metrics} {c : Concatenation σ}

theorem Profiles.header_shallow_iff (ps : Profiles) (o : Options) (client : Option σ)
    (metadata : Metadata) (metrics : Metrics) :
    (ps.concatenate o client metadata metrics).artifact.header.Shallow ↔
      metadata.depth + 1 ≤ Json.maxDepth ∧
        ∀ e ∈ ps.entries, ∀ d, e.2.appMetadata = some d → d.depth + 2 ≤ Json.maxDepth := by
  obtain ⟨docs, hholds, hlists⟩ := MetadataTable.holds_after ps.ascending
  have htable := (ps.applicationMetadata_concatenate o client metadata metrics).trans hholds.entries
  let header := (ps.concatenate o client metadata metrics).artifact.header
  have hdocuments : (∀ d, some d ∈ header.applicationMetadata → d.depth + 2 ≤ Json.maxDepth) ↔
      ∀ d ∈ docs, d.depth ≤ 125 := by
    rw [htable]
    simp [Json.add_two_le_maxDepth]
  have hmode : metadata.depth + 1 ≤ Json.maxDepth →
      ((metadata.get? "profiling_mode").getD .null).depth + 1 ≤ Json.maxDepth := by
    intro hm
    cases hget : metadata.get? "profiling_mode" with
    | none => exact Json.add_one_le_maxDepth.2 (Nat.zero_le _)
    | some d => exact (Nat.succ_le_succ (Metadata.depth_get?_lt hget).le).trans hm
  simp only [Json.add_two_le_maxDepth (n := Document.depth _)]
  rw [← hlists.depth_le_iff, ← hdocuments]
  exact ⟨fun hs => ⟨hs.metadata, hs.documents⟩, fun hs => ⟨hs.1, hs.2, hmode hs.1⟩⟩

theorem Profiles.merge_header_shallow_iff
    (h : system.merge runtime ds o client metadata metrics = .ok c) :
    c.artifact.header.Shallow ↔ Merge.Shallow system runtime metadata := by
  cases hm : system.mergeAll runtime ds with
  | error cause =>
    simp only [Profiles.merge, hm] at h
    cases h
  | ok m =>
    have hc : c.artifact = (m.profiles.concatenate o client metadata metrics).artifact := by
      simp only [Profiles.merge, hm] at h
      cases h
      rfl
    have hdocuments := (Profiles.reached_of_mergeAll hm).appMetadata_eq
    rw [hc, Profiles.header_shallow_iff]
    constructor
    · rintro ⟨hmetadata, hd⟩
      refine ⟨hmetadata, fun pid d hget => ?_⟩
      rw [← hdocuments] at hget
      obtain ⟨p, hp, hpd⟩ := Option.bind_eq_some_iff.1 hget
      exact hd (pid, p) (SortedMap.get?_eq_some_iff.1 hp) d hpd
    · intro hs
      refine ⟨hs.metadata, fun e he d hpd => hs.documents e.1 d ?_⟩
      rw [← hdocuments, SortedMap.get?_eq_some_iff.2 he]
      exact hpd

/-- A merged artifact is read back exactly when its parts leave room for the levels of the header,
    whatever the options, the client and the measured values are. It is malformed otherwise. -/
theorem Profiles.merged_artifact_readable
    (h : system.merge runtime ds o client metadata metrics = .ok c) :
    (Merge.Shallow system runtime metadata → c.artifact.Accepted) ∧
      (¬ Merge.Shallow system runtime metadata → c.artifact.Refused) := by
  rw [← Profiles.merge_header_shallow_iff h]
  exact ⟨Artifact.accepted_of_shallow, Artifact.refused_of_not_shallow⟩

end Merged

/-- Arrays in each other. -/
def Json.nested : Nat → Json
  | 0 => .null
  | n + 1 => .arr [Json.nested n]

theorem Json.depth_nested (n : Nat) : (Json.nested n).depth = n := by
  induction n with
  | zero => rw [Json.nested, Json.depth] <;> simp
  | succ n ih => rw [Json.nested, Json.depth, Json.itemsDepth, Json.itemsDepth, ih, Nat.max_zero]

theorem Json.nested_canonical (n : Nat) : (Json.nested n).Canonical := by
  induction n with
  | zero => trivial
  | succ n ih => exact ⟨ih, trivial⟩

def Document.nested (n : Nat) : Document :=
  ⟨Json.nested n, Json.nested_canonical n⟩

/-- Metadata with nothing but arrays in each other. -/
def Metadata.nested (n : Nat) : Metadata :=
  ⟨[("a", Json.nested n)], List.pairwise_singleton _ _, Json.nested_canonical n, trivial⟩

theorem Metadata.depth_nested (n : Nat) : (Metadata.nested n).depth = n + 1 := by
  rw [Metadata.depth, Document.depth, Metadata.toDocument, Metadata.nested, Json.depth,
    Json.membersDepth, Json.membersDepth, Json.depth_nested, Nat.max_zero]

/-- Without runtime profiles the artifact is that of the system-wide profiles. -/
theorem Profiles.merge_empty {σ : Type} [ContainerClient σ] (ps : Profiles) (ds : Draws)
    (o : Options) (client : Option σ) (metadata : Metadata) (metrics : Metrics) :
    ps.merge .empty ds o client metadata metrics =
      .ok (ps.concatenate o client metadata metrics) := rfl

/-- One process with a document of 125 levels or of 126. -/
theorem Profiles.merged_artifact_readable_nested :
    let system (n : Nat) : Profiles :=
      .ofList [(7, ⟨.ofList [("main", .ofNat 1)], none, some (.nested n)⟩)]
    let artifact (n : Nat) :=
      ((system n).concatenate .all (none : Option Containers) (.nested 125) .none).artifact
    (artifact 125).Accepted ∧ (artifact 126).Refused := by
  intro system artifact
  have hmerge (n : Nat) := Profiles.merge_empty (system n) (fun _ => 0) .all
    (none : Option Containers) (.nested 125) .none
  have hshallow (n : Nat) : Merge.Shallow (system n) .empty (.nested 125) ↔ n ≤ 125 := by
    constructor
    · intro h
      rw [← Json.depth_nested n]
      exact Json.add_two_le_maxDepth.1 (h.documents 7 (.nested n) rfl)
    · intro hn
      refine ⟨Json.add_one_le_maxDepth.2 (Metadata.depth_nested 125).le, fun pid d hd => ?_⟩
      obtain ⟨p, hp, hpd⟩ := Option.bind_eq_some_iff.1 hd
      rcases List.mem_singleton.1 (SortedMap.get?_eq_some_iff.1 hp) with ⟨rfl, rfl⟩
      cases hpd
      exact Json.add_two_le_maxDepth.2 ((Json.depth_nested n).trans_le hn)
  exact ⟨(Profiles.merged_artifact_readable (hmerge 125)).1 ((hshallow 125).2 (by decide)),
    (Profiles.merged_artifact_readable (hmerge 126)).2 (mt (hshallow 126).1 (by decide))⟩

/-- Metadata of 127 levels are accepted by their reader. The artifact that is written with them is
    refused by both readers of artifacts. -/
theorem Profiles.merged_artifact_refused :
    (∃ m, Metadata.parse (Metadata.nested 126).render = .ok m) ∧
      ∃ c : Concatenation Containers,
        Profiles.merge .empty .empty (.ofSeed 1) .all none (.nested 126) .none = .ok c ∧
        c.artifact.Refused := by
  constructor
  · exact ⟨_, (Json.readMetadata_takes (.nested 126) 126).readAll.1 (Metadata.depth_nested 126).le⟩
  · refine ⟨_, Profiles.merge_empty .empty (.ofSeed 1) .all none (.nested 126) .none, ?_⟩
    apply Artifact.refused_of_not_shallow
    intro h
    obtain ⟨hle, -⟩ := (Profiles.header_shallow_iff _ _ _ _ _).1 h
    rw [Metadata.depth_nested] at hle
    exact absurd hle (by decide)

end FoldedStacks
