-- SUMMARY: An artifact read as a listing: the reader finds every sample that was written, under the text that was written for its stack, and rejects no line.
import Mathlib
import FoldedStacks.Listing.Process
import FoldedStacks.Proofs.ControlFree
import FoldedStacks.Proofs.Enrichments
import FoldedStacks.Proofs.Totals

/-!
# Artifacts as listings

The stack lines of an artifact are a listing of one process, and its header is a comment in it. The
reader cuts a line at its last space, which is the one that was written before the count, whatever
spaces, semicolons and carriage returns the stack holds.
-/

namespace FoldedStacks

/-! ## Samples and their lines -/

/-- The line of a listing for a sample. -/
def Listing.sampleLine (s : String × Count) : String :=
  s.1 ++ " " ++ String.ofList (Text.numeral s.2.val)

theorem Listing.toList_sampleLine (s : String × Count) :
    (Listing.sampleLine s).toList = s.1.toList ++ ' ' :: Text.numeral s.2.val := by
  simp [Listing.sampleLine]

/-- The last space of a line stands in front of its count. -/
theorem Listing.splitLast_sampleLine (s : String × Count) :
    Text.splitLast ' ' (Listing.sampleLine s).toList =
      some (s.1.toList, Text.numeral s.2.val) :=
  Text.splitLast_eq_some_iff.2 ⟨Listing.toList_sampleLine s, Text.not_mem_numeral (by decide)⟩

theorem Text.isBlank_of_isDigit {c : Char} (h : c.isDigit = true) : Text.isBlank c = false := by
  simp only [Char.isDigit, Bool.and_eq_true, decide_eq_true_eq] at h
  have hle : '0'.toNat ≤ c.toNat := h.1
  have hge : c.toNat ≤ '9'.toNat := h.2
  have : '0'.toNat = 0x30 := rfl
  have : '9'.toNat = 0x39 := rfl
  simp only [Text.isBlank, Bool.or_eq_false_iff, Bool.and_eq_false_iff, decide_eq_false_iff_not,
    beq_eq_false_iff_ne]
  omega

/-- A line with a count is not blank. -/
theorem Listing.allBlank_sampleLine (s : String × Count) :
    Text.allBlank (Listing.sampleLine s).toList = false := by
  obtain ⟨c, cs, hcs, hc⟩ := Text.exists_numeral_eq_cons s.2.val
  rw [Listing.toList_sampleLine, hcs, Text.allBlank, List.all_eq_false]
  refine ⟨c, by simp, ?_⟩
  rw [Text.isBlank_of_isDigit hc]
  decide

/-- The reader takes the line of a sample for that sample. -/
theorem Listing.classify_sampleLine {s : String × Count}
    (h : (Listing.sampleLine s).toList.head? ≠ some '#') :
    Listing.classify (Listing.sampleLine s).toList = .sample s.1 s.2 := by
  have hskip : (Text.allBlank (Listing.sampleLine s).toList ||
      (Listing.sampleLine s).toList.head? == some '#') = false := by
    rw [Listing.allBlank_sampleLine, Bool.false_or, beq_eq_false_iff_ne]
    exact h
  simp only [Listing.classify, hskip, Listing.splitLast_sampleLine, Option.getD_some,
    Count.read_numeral, String.ofList_toList, Bool.false_eq_true, if_false]

theorem Listing.isLine_sampleLine {s : String × Count} (h : '\n' ∉ s.1.toList) :
    Text.IsLine (Listing.sampleLine s).toList where
  ne_nil := by simp [Listing.toList_sampleLine]
  lineFeedFree := by
    rw [Listing.toList_sampleLine, List.mem_append, List.mem_cons]
    rintro (hin | hin | hin)
    · exact h hin
    · exact absurd hin (by decide)
    · exact Text.not_mem_numeral (by decide) hin
  no_return := by
    intro hlast
    rw [Listing.toList_sampleLine, List.getLast?_append, List.getLast?_cons,
      Option.some_or] at hlast
    cases hd : (Text.numeral s.2.val).getLast? with
    | none => exact Text.numeral_ne_nil _ (List.getLast?_eq_none_iff.1 hd)
    | some c =>
      rw [hd, Option.getD_some, Option.some.injEq] at hlast
      exact Text.not_mem_numeral (by decide) (hlast ▸ List.mem_of_getLast? hd)

/-- A comment and the lines of samples are read as these samples. -/
theorem Listing.parse_sampleLines {comment : String} {samples : List (String × Count)}
    (hcomment : Text.IsLine comment.toList) (hmark : comment.toList.head? = some '#')
    (hfeed : ∀ s ∈ samples, '\n' ∉ s.1.toList)
    (hhash : ∀ s ∈ samples, (Listing.sampleLine s).toList.head? ≠ some '#') :
    Listing.parse (Text.unlines (comment :: samples.map Listing.sampleLine)) = ⟨samples, []⟩ := by
  have hlines : ∀ l ∈ comment :: samples.map Listing.sampleLine, Text.IsLine l.toList := by
    intro l hl
    rcases List.mem_cons.1 hl with rfl | hl
    · exact hcomment
    · obtain ⟨s, hs, rfl⟩ := List.mem_map.1 hl
      exact Listing.isLine_sampleLine (hfeed s hs)
  have hskipped : Listing.classify comment.toList = .skipped := by
    simp [Listing.classify, hmark]
  have hsamples : ∀ s ∈ samples, Listing.classify (Listing.sampleLine s).toList =
      .sample s.1 s.2 := fun s hs => Listing.classify_sampleLine (hhash s hs)
  simp only [Listing.parse, Text.lines_unlines hlines, Listing.mk.injEq]
  constructor
  · rw [List.map_cons, List.map_map, List.filterMap_cons, hskipped, List.filterMap_map]
    simp only [Listing.Line.sample?]
    refine (List.filterMap_congr (g := some) fun s hs => ?_).trans (List.filterMap_some)
    simp only [Function.comp_apply, hsamples s hs]
  · apply List.filterMap_eq_nil_iff.2
    intro line hline
    simp only [List.mem_map, List.mem_cons] at hline
    obtain ⟨l, rfl | ⟨s, hs, rfl⟩, rfl⟩ := hline
    · rw [hskipped]; rfl
    · rw [hsamples s hs]; rfl

/-! ## Written texts -/

/-- No text that a pass puts into a stack line holds a line feed. Identifiers and names that are
    not written may hold some. -/
structure Profiles.LineFeedFree {σ : Type} [ContainerClient σ] (ps : Profiles) (o : Options)
    (client : Option σ) : Prop where
  keys : ∀ e ∈ ps.entries, ∀ s ∈ e.2.counts.entries, '\n' ∉ s.1.toList
  identifiers : o.applicationIdentifiers = true → ∀ e ∈ ps.entries, e.2.counts.entries ≠ [] →
    ∀ a, e.2.appid = some a → '\n' ∉ a.toList
  names : o.version.hasFrames = true → ∀ e ∈ ps.entries, e.2.counts.entries ≠ [] →
    '\n' ∉ (ps.containerName o client e.1).toList

/-- The spliced frame stands in front of the first semicolon of the stack, or behind all of it. -/
theorem Enrichment.exists_toList_spliceFrame (frame stack : String) :
    ∃ root behind, stack.toList = root ++ behind ∧ ';' ∉ root ∧
      (Enrichment.spliceFrame frame stack).toList = root ++ ';' :: (frame.toList ++ behind) := by
  have hsemicolon : (";" : String).toList = [';'] := rfl
  cases hsplit : Text.splitFirst ';' stack.toList with
  | none =>
    refine ⟨stack.toList, [], by simp, Text.splitFirst_eq_none_iff.1 hsplit, ?_⟩
    simp [Enrichment.spliceFrame, hsplit, hsemicolon]
  | some parts =>
    obtain ⟨hstack, hroot⟩ := Text.splitFirst_eq_some_iff.1 hsplit
    refine ⟨parts.1, ';' :: parts.2, hstack, hroot, ?_⟩
    simp [Enrichment.spliceFrame, hsplit, hsemicolon]

/-- A spliced stack holds nothing but the stack, the frame and semicolons. -/
theorem Enrichment.mem_spliceFrame {frame stack : String} {c : Char}
    (h : c ∈ (Enrichment.spliceFrame frame stack).toList) :
    c = ';' ∨ c ∈ frame.toList ∨ c ∈ stack.toList := by
  obtain ⟨root, behind, hstack, -, hspliced⟩ := Enrichment.exists_toList_spliceFrame frame stack
  rw [hspliced] at h
  rw [hstack]
  simp only [List.mem_append, List.mem_cons] at h ⊢
  tauto

section Artifact

variable {σ : Type} [ContainerClient σ] {ps : Profiles} {o : Options} {client : Option σ}

theorem Profiles.LineFeedFree.not_mem_applicationField (ps : Profiles) (o : Options)
    (client : Option σ) (e : Pid × Profile) :
    '\n' ∉ (ps.enrichment o client e.1 e.2).applicationField.toList := by
  have hsemicolon : (";" : String).toList = [';'] := rfl
  simp only [Profiles.enrichment]
  split
  · rw [String.toList_append, String.toList_ofList, hsemicolon, List.mem_append]
    rintro (hin | hin)
    · exact Text.not_mem_numeral (by decide) hin
    · exact absurd hin (by decide)
  · simp

theorem Profiles.LineFeedFree.not_mem_containerField (h : ps.LineFeedFree o client)
    {e : Pid × Profile} (he : e ∈ ps.entries) (hne : e.2.counts.entries ≠ []) :
    '\n' ∉ (ps.enrichment o client e.1 e.2).containerField.toList := by
  have hsemicolon : (";" : String).toList = [';'] := rfl
  simp only [Profiles.enrichment]
  split
  next hframes =>
    rw [String.toList_append, hsemicolon, List.mem_append]
    rintro (hin | hin)
    · exact h.names hframes e he hne hin
    · exact absurd hin (by decide)
  next => simp

/-- The texts that are written for stacks hold no line feed. -/
theorem Profiles.LineFeedFree.not_mem_stackText (h : ps.LineFeedFree o client)
    {e : Pid × Profile} (he : e ∈ ps.entries) {s : String × Count}
    (hs : s ∈ e.2.counts.entries) :
    '\n' ∉ ((ps.enrichment o client e.1 e.2).stackText o s.1).toList := by
  have hne : e.2.counts.entries ≠ [] := List.ne_nil_of_mem hs
  have hstack := h.keys e he s hs
  simp only [Enrichment.stackText, String.toList_append, List.mem_append, not_or]
  refine ⟨⟨not_mem_applicationField ps o client e, h.not_mem_containerField he hne⟩, ?_⟩
  split
  next frame hframe =>
    split
    next hids =>
      obtain ⟨a, ha, rfl⟩ := Option.map_eq_some_iff.1 hframe
      intro hin
      rcases Enrichment.mem_spliceFrame hin with hin | hin | hin
      · exact absurd hin (by decide)
      · rw [String.toList_append, List.mem_append] at hin
        rcases hin with hin | hin
        · exact absurd hin (by decide)
        · exact h.identifiers hids e he hne a ha hin
      · exact hstack hin
    next => exact hstack
  next => exact hstack

theorem Profiles.LineFeedFree.not_mem_writtenSamples (h : ps.LineFeedFree o client) :
    ∀ s ∈ ps.writtenSamples o client, '\n' ∉ s.1.toList := by
  intro s hs
  obtain ⟨e, he, hs⟩ := List.mem_flatMap.1 hs
  obtain ⟨s', hs', rfl⟩ := List.mem_map.1 hs
  exact h.not_mem_stackText he hs'

/-- The stack lines of an artifact are those of the written samples. -/
theorem Profiles.lines_eq_map_sampleLine (ps : Profiles) (o : Options) (client : Option σ)
    (metadata : Metadata) (metrics : Metrics) :
    (ps.concatenate o client metadata metrics).artifact.lines =
      (ps.writtenSamples o client).map Listing.sampleLine := by
  rw [Profiles.lines_concatenate, Profiles.writtenSamples, List.map_flatMap]
  simp only [List.map_map]
  rfl

/-- An artifact's lines are its header and its stack lines: no written text breaks one. -/
theorem Profiles.LineFeedFree.lines_text (h : ps.LineFeedFree o client) (metadata : Metadata)
    (metrics : Metrics) :
    let artifact := (ps.concatenate o client metadata metrics).artifact
    Text.lines artifact.text.toList =
      artifact.header.line.toList :: artifact.lines.map String.toList := by
  intro artifact
  refine Text.lines_unlines ?_
  intro l hl
  rcases List.mem_cons.1 hl with rfl | hl
  · exact Header.line_isLine _
  · rw [Profiles.lines_eq_map_sampleLine] at hl
    obtain ⟨s, hs, rfl⟩ := List.mem_map.1 hl
    exact Listing.isLine_sampleLine (h.not_mem_writtenSamples s hs)

/-- Reading an artifact as a listing finds exactly the samples that were written, added up under the
    texts that were written for their stacks, and rejects no line. A stack line that begins with `#`
    would be a comment. -/
theorem Profiles.counts_parse_concatenate (ps : Profiles) (o : Options) (client : Option σ)
    (metadata : Metadata) (metrics : Metrics) (hfeed : ps.LineFeedFree o client)
    (hhash : ∀ line ∈ (ps.concatenate o client metadata metrics).artifact.lines,
      line.toList.head? ≠ some '#') :
    let listing := Listing.parse (ps.concatenate o client metadata metrics).artifact.text
    listing.notices = [] ∧
      listing.counts none = StackCounts.ofList (ps.writtenSamples o client) ∧
      ∀ text, (listing.counts none).get? text =
        if text ∈ (ps.writtenSamples o client).map (·.1) then
          some (.ofNat (StackCounts.samplesOf (ps.writtenSamples o client) text))
        else none := by
  have hlines := ps.lines_eq_map_sampleLine o client metadata metrics
  have hparse : Listing.parse (ps.concatenate o client metadata metrics).artifact.text =
      ⟨ps.writtenSamples o client, []⟩ := by
    rw [Artifact.text, hlines]
    refine Listing.parse_sampleLines (Header.line_isLine _) ?_ hfeed.not_mem_writtenSamples ?_
    · rw [Header.toList_line]; rfl
    · intro s hs
      refine hhash _ ?_
      rw [hlines]
      exact List.mem_map.2 ⟨s, hs, rfl⟩
  intro listing
  have hlisting : listing = ⟨ps.writtenSamples o client, []⟩ := hparse
  rw [hlisting]
  exact ⟨rfl, rfl, StackCounts.get?_ofList _⟩

end Artifact

/-- Two processes, the first with an empty stack and one with a space and a carriage return, the
    second with an identifier and in a container. -/
def Profiles.mixed : Profiles :=
  .ofList [(7, .ofCounts (.ofList [("", .ofNat 3), ("main;a b\x0d;c", .ofNat 2)])),
    (9, ⟨.ofList [("main", .ofNat 4)], some "web", some (.ofJson (.str "x"))⟩)]

theorem Profiles.counts_parse_concatenate_mixed :
    let client := some (Containers.ofNames (.ofList [(9, "box 1")]))
    let artifact := (Profiles.mixed.concatenate .all client .empty .none).artifact
    (Listing.parse artifact.text).notices = [] ∧
      (Listing.parse artifact.text).counts none =
        .ofList [("0;;", .ofNat 3), ("0;;main;a b\x0d;c", .ofNat 2),
          ("1;box 1;main;appid: web", .ofNat 4)] := by
  intro client artifact
  have hfeed : Profiles.mixed.LineFeedFree .all client := ⟨by decide, by decide, by decide⟩
  have hhash : ∀ line ∈ artifact.lines, line.toList.head? ≠ some '#' := by decide
  obtain ⟨hnotices, hcounts, -⟩ :=
    Profiles.counts_parse_concatenate Profiles.mixed .all client .empty .none hfeed hhash
  exact ⟨hnotices, hcounts.trans (by decide)⟩

end FoldedStacks
