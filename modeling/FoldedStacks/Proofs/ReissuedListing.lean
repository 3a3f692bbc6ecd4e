-- SUMMARY: Reissuing an artifact keeps its samples: trimming changes no line that is read, and at most makes rejected lines readable.
import Mathlib
import FoldedStacks.Artifact.Reissue
import FoldedStacks.Proofs.ArtifactListing
import FoldedStacks.Proofs.SampleLines

/-!
# Samples of reissued artifacts

A reissued text has a new header, and its other lines without the blank characters at their ends. A
line that is read as a sample ends in a digit, so it is the same line in both texts.
-/

namespace FoldedStacks

/-! ## Trimmed lines -/

theorem Text.lineFeed_not_mem_of_mem_lines {cs l : List Char} (h : l ∈ Text.lines cs) :
    '\n' ∉ l := by
  fun_induction Text.lines cs generalizing l with
  | case1 => simp at h
  | case2 cs ih =>
    rcases List.mem_cons.1 h with rfl | h
    · simp
    · exact ih h
  | case3 cs ih =>
    rcases List.mem_cons.1 h with rfl | h
    · simp
    · exact ih h
  | case4 c cs hfeed _ hnil =>
    rw [List.mem_singleton.1 h, List.mem_singleton]
    exact fun hc => hfeed hc.symm
  | case5 c cs hfeed _ l' ls hls ih =>
    rw [hls] at ih
    rcases List.mem_cons.1 h with rfl | h
    · rw [List.mem_cons, not_or]
      exact ⟨fun hc => hfeed hc.symm, ih (by simp)⟩
    · exact ih (List.mem_cons_of_mem l' h)

theorem Text.trimEnd_prefix (cs : List Char) : Text.trimEnd cs <+: cs := by
  obtain ⟨blanks, hcs, -⟩ := Text.exists_trimEnd_append cs
  exact ⟨blanks, hcs.symm⟩

/-- Nothing is trimmed off a text that does not end in a blank character. -/
theorem Text.trimEnd_eq_self {cs : List Char} {c : Char} (hlast : cs.getLast? = some c)
    (hc : Text.isBlank c = false) : Text.trimEnd cs = cs := by
  obtain ⟨blanks, hcs, hblanks⟩ := Text.exists_trimEnd_append cs
  rcases List.eq_nil_or_concat blanks with rfl | ⟨init, b, rfl⟩
  · rw [List.append_nil] at hcs
    exact hcs.symm
  · rw [hcs, List.concat_eq_append, ← List.append_assoc, List.getLast?_concat,
      Option.some.injEq] at hlast
    have hb : Text.isBlank b = true := by
      rw [Text.allBlank, List.all_eq_true] at hblanks
      exact hblanks b (by simp)
    rw [hlast, hc] at hb
    exact absurd hb (by simp)

theorem Text.trimEnd_eq_nil {cs : List Char} (h : Text.allBlank cs = true) :
    Text.trimEnd cs = [] := by
  induction cs with
  | nil => rfl
  | cons c cs ih =>
    rw [Text.allBlank, List.all_cons, Bool.and_eq_true] at h
    rw [Text.trimEnd, ih h.2]
    exact if_pos h.1

theorem Text.isBlank_of_getLast?_trimEnd {cs : List Char} {c : Char}
    (h : (Text.trimEnd cs).getLast? = some c) : Text.isBlank c = false := by
  induction cs with
  | nil => simp at h
  | cons d cs ih =>
    rw [Text.trimEnd] at h
    split at h
    next =>
      split at h
      · simp at h
      next hd =>
        rw [List.getLast?_singleton, Option.some.injEq] at h
        rw [← h]
        exact Bool.eq_false_iff.2 hd
    next e es htrim =>
      rw [List.getLast?_cons_cons, ← htrim] at h
      exact ih h

/-- A text that begins with a character that is not blank still does when it is trimmed. -/
theorem Text.head?_trimEnd {cs : List Char} {c : Char} (h : cs.head? = some c)
    (hc : Text.isBlank c = false) : (Text.trimEnd cs).head? = some c := by
  obtain ⟨ds, rfl⟩ := List.head?_eq_some_iff.1 h
  rw [Text.trimEnd]
  split
  · rw [hc]
    rfl
  · rfl

/-- A trimmed line is taken for no line end, wherever it stands. -/
theorem Text.trimEnd_readable {cs : List Char} (h : '\n' ∉ cs) :
    '\n' ∉ Text.trimEnd cs ∧ (Text.trimEnd cs).getLast? ≠ some '\r' := by
  constructor
  · exact fun hin => h ((Text.trimEnd_prefix cs).subset hin)
  · intro hlast
    exact absurd (Text.isBlank_of_getLast?_trimEnd hlast) (by decide)

/-! ## Lines of a listing -/

/-- A line that is read as a sample ends in a digit. -/
theorem Listing.exists_getLast?_of_sample {line : List Char} {stack : String} {n : Count}
    (h : Listing.classify line = .sample stack n) :
    ∃ c, line.getLast? = some c ∧ c.isDigit = true := by
  obtain ⟨-, count, hcut, hcount⟩ := Listing.classify_eq_sample_iff.1 h
  obtain ⟨c, hc, hdigit⟩ := hcount.exists_getLast?
  refine ⟨c, ?_, hdigit⟩
  rcases hcut.1 with rfl | ⟨-, rfl⟩
  · rw [List.getLast?_append, List.getLast?_cons, hc]
    rfl
  · exact hc

/-- Trimming changes nothing about a line that is not rejected. -/
theorem Listing.classify_trimEnd {line : List Char}
    (h : ∀ cause, Listing.classify line ≠ .bad cause) :
    Listing.classify (Text.trimEnd line) = Listing.classify line := by
  cases hline : Listing.classify line with
  | bad cause => exact absurd hline (h cause)
  | sample stack n =>
    obtain ⟨c, hc, hdigit⟩ := Listing.exists_getLast?_of_sample hline
    rw [Text.trimEnd_eq_self hc (Text.isBlank_of_isDigit hdigit), hline]
  | skipped =>
    apply Listing.classify_eq_skipped_iff.2
    rcases Listing.classify_eq_skipped_iff.1 hline with hblank | hmark
    · exact .inl (by rw [Text.trimEnd_eq_nil hblank]; rfl)
    · exact .inr (Text.head?_trimEnd hmark (by decide))

/-! ## Counts -/

/-- A map that is defined at more values gives a longer list. -/
theorem Listing.filterMap_sublist_filterMap {α β : Type} {f g : α → Option β} {l : List α}
    (h : ∀ a ∈ l, ∀ b, f a = some b → g a = some b) :
    (l.filterMap f).Sublist (l.filterMap g) := by
  induction l with
  | nil => exact .slnil
  | cons a l ih =>
    have hrest := ih fun x hx => h x (List.mem_cons_of_mem a hx)
    rw [List.filterMap_cons, List.filterMap_cons]
    cases hf : f a with
    | some b =>
      rw [h a (by simp) b hf]
      exact hrest.cons_cons b
    | none =>
      cases g a with
      | some b => exact hrest.cons b
      | none => exact hrest

/-- A count is no larger when some of the samples are left out. -/
theorem StackCounts.get?_ofList_of_sublist {l l' : List (String × Count)} (h : l.Sublist l')
    {stack : String} {n : Count} (hget : (StackCounts.ofList l).get? stack = some n) :
    ∃ n', (StackCounts.ofList l').get? stack = some n' ∧ n.val ≤ n'.val := by
  rw [StackCounts.get?_ofList] at hget
  split at hget
  next hmem =>
    refine ⟨.ofNat (StackCounts.samplesOf l' stack), ?_, ?_⟩
    · rw [StackCounts.get?_ofList, if_pos ((h.map (·.1)).subset hmem)]
    · have hle : StackCounts.samplesOf l stack ≤ StackCounts.samplesOf l' stack :=
        ((h.filter _).map _).sum_le_sum (by simp)
      rw [← Option.some.inj hget]
      exact min_le_min_right _ hle
  · cases hget

theorem Listing.counts_of_sublist {l l' : Listing} (h : l.samples.Sublist l'.samples)
    (root : Option String) {stack : String} {n : Count}
    (hget : (l.counts root).get? stack = some n) :
    ∃ n', (l'.counts root).get? stack = some n' ∧ n.val ≤ n'.val := by
  cases root with
  | none => exact StackCounts.get?_ofList_of_sublist h hget
  | some root => exact StackCounts.get?_ofList_of_sublist (h.map _) hget

/-! ## Reissued texts -/

/-- What is written when a header is found in front of some lines. -/
def Reissue.ofParts (found obtained : Metadata) (lines : List (List Char)) : Reissue :=
  let header := found.override obtained
  { startTime := header.timestamp? "start_time"
    endTime := header.timestamp? "end_time"
    text := Text.unlines <|
      Header.lineOf (header.dropNested "run_arguments" "func").render ::
        lines.map fun line => String.ofList (Text.trimEnd line) }

theorem Reissue.ofText_eq_ok_iff {text : String} {obtained : Metadata} {r : Reissue} :
    Reissue.ofText text obtained = .ok r ↔
      ∃ first rest found, Text.lines text.toList = first :: rest ∧
        Reissue.readHeader first = .ok found ∧ r = Reissue.ofParts found obtained rest := by
  unfold Reissue.ofText
  split
  next hlines => simp [hlines]
  next first rest hlines =>
    cases hread : Reissue.readHeader first with
    | error cause => simp [hlines, hread, bind, Except.bind]
    | ok found =>
      simp only [hlines, List.cons.injEq, bind, Except.bind, pure, Except.pure, Except.ok.injEq]
      constructor
      · rintro rfl
        exact ⟨first, rest, found, ⟨rfl, rfl⟩, hread, rfl⟩
      · rintro ⟨first', rest', found', ⟨rfl, rfl⟩, hread', rfl⟩
        rw [hread, Except.ok.injEq] at hread'
        rw [hread']
        rfl

/-- A header is read from a line with the mark of a comment only. -/
theorem Reissue.exists_of_readHeader {line : List Char} {found : Metadata}
    (h : Reissue.readHeader line = .ok found) : ∃ json, line = '#' :: json := by
  unfold Reissue.readHeader Header.jsonOf at h
  split at h
  next json => exact ⟨json, rfl⟩
  · cases h

/-- No line of a reissued text is taken for more or less than it is. -/
theorem Reissue.readable_lines (header : Metadata) {lines : List (List Char)}
    (h : ∀ line ∈ lines, '\n' ∉ line) :
    ∀ l ∈ Header.lineOf header.render :: lines.map fun line => String.ofList (Text.trimEnd line),
      '\n' ∉ l.toList ∧ l.toList.getLast? ≠ some '\r' := by
  intro l hl
  rcases List.mem_cons.1 hl with rfl | hl
  · have hline := Header.lineOf_isLine (Json.render_controlFree header.toDocument.value)
    exact ⟨hline.lineFeedFree, hline.no_return⟩
  · obtain ⟨line, hline, rfl⟩ := List.mem_map.1 hl
    rw [String.toList_ofList]
    exact Text.trimEnd_readable (h line hline)

/-- The reissued text has a comment and the trimmed lines. An empty line at its end is lost. -/
theorem Reissue.lines_ofParts (found obtained : Metadata) {lines : List (List Char)}
    (h : ∀ line ∈ lines, '\n' ∉ line) :
    ∃ json lost, ('#' :: json) :: lines.map Text.trimEnd =
      Text.lines (Reissue.ofParts found obtained lines).text.toList ++ lost ∧
        ∀ l ∈ lost, l = [] := by
  let written := (found.override obtained).dropNested "run_arguments" "func"
  obtain ⟨lost, hlost, hempty⟩ := Text.exists_lines_unlines (Reissue.readable_lines written h)
  refine ⟨' ' :: written.render, lost, ?_, hempty⟩
  rw [List.map_cons, Header.toList_lineOf, List.map_map] at hlost
  simp only [Function.comp_def, String.toList_ofList] at hlost
  exact hlost

/-- Every line but the first one gives its samples to the listing, trimmed or not. -/
theorem Reissue.samples_ofParts (found obtained : Metadata) {lines : List (List Char)}
    (h : ∀ line ∈ lines, '\n' ∉ line) :
    (Listing.parse (Reissue.ofParts found obtained lines).text).samples =
      lines.filterMap fun line => (Listing.classify (Text.trimEnd line)).sample? := by
  obtain ⟨json, lost, hlost, hempty⟩ := Reissue.lines_ofParts found obtained h
  have hnone : (lost.filterMap fun line => (Listing.classify line).sample?) = [] := by
    apply List.filterMap_eq_nil_iff.2
    intro l hl
    rw [hempty l hl, Listing.classify_nil]
    rfl
  have hsamples := congrArg
    (List.filterMap fun line => (Listing.classify line).sample?) hlost
  rw [List.filterMap_append, hnone, List.append_nil, List.filterMap_cons,
    Listing.classify_comment, List.filterMap_map] at hsamples
  exact hsamples.symm

theorem Listing.samples_parse {text : String} {json : List Char} {rest : List (List Char)}
    (h : Text.lines text.toList = ('#' :: json) :: rest) :
    (Listing.parse text).samples = rest.filterMap fun line => (Listing.classify line).sample? := by
  simp only [Listing.parse, h, List.filterMap_cons, Listing.classify_comment]
  rfl

theorem Listing.rejected_parse_eq_nil_iff {text : String} :
    (Listing.parse text).rejected = [] ↔
      ∀ line ∈ Text.lines text.toList, ∀ cause, Listing.classify line ≠ .bad cause := by
  simp only [Listing.parse, List.filterMap_eq_nil_iff, Option.map_eq_none_iff]
  refine forall₂_congr fun line _ => ?_
  cases Listing.classify line <;> simp [Listing.Line.cause?]

/-- Reissuing loses no sample, and adds none where no line was rejected. -/
theorem Reissue.samples_sublist {text : String} {obtained : Metadata} {r : Reissue}
    (h : Reissue.ofText text obtained = .ok r) :
    (Listing.parse text).samples.Sublist (Listing.parse r.text).samples ∧
      ((Listing.parse text).rejected = [] →
        (Listing.parse r.text).samples = (Listing.parse text).samples) := by
  obtain ⟨first, rest, found, hlines, hread, rfl⟩ := Reissue.ofText_eq_ok_iff.1 h
  obtain ⟨json, rfl⟩ := Reissue.exists_of_readHeader hread
  have hfeed : ∀ line ∈ rest, '\n' ∉ line := by
    intro line hline
    have hmem : line ∈ Text.lines text.toList := by simp [hlines, hline]
    exact Text.lineFeed_not_mem_of_mem_lines hmem
  rw [Listing.samples_parse hlines, Reissue.samples_ofParts found obtained hfeed]
  constructor
  · apply Listing.filterMap_sublist_filterMap
    intro line _ s hs
    have hgood : ∀ cause, Listing.classify line ≠ .bad cause := by
      intro cause hbad
      rw [hbad] at hs
      cases hs
    rw [Listing.classify_trimEnd hgood, hs]
  · intro hrejected
    have hgood := Listing.rejected_parse_eq_nil_iff.1 hrejected
    apply List.filterMap_congr
    intro line hline
    rw [Listing.classify_trimEnd (hgood line (by simp [hlines, hline]))]

section Artifact

variable {σ : Type} [ContainerClient σ] {ps : Profiles} {o : Options} {client : Option σ}

/-- No line of an artifact is rejected, whether it begins like a comment or not. -/
theorem Profiles.LineFeedFree.rejected_text (h : ps.LineFeedFree o client) (metadata : Metadata)
    (metrics : Metrics) :
    (Listing.parse (ps.concatenate o client metadata metrics).artifact.text).rejected = [] := by
  rw [Listing.rejected_parse_eq_nil_iff, h.lines_text metadata metrics]
  intro line hline cause hbad
  rcases List.mem_cons.1 hline with heq | hline
  · rw [heq, Header.toList_line, Listing.classify_comment] at hbad
    cases hbad
  · rw [Profiles.lines_eq_map_sampleLine, List.map_map] at hline
    obtain ⟨s, -, rfl⟩ := List.mem_map.1 hline
    by_cases hmark : (Listing.sampleLine s).toList.head? = some '#'
    · rw [Function.comp_apply, Listing.classify_eq_skipped_iff.2 (.inr hmark)] at hbad
      cases hbad
    · rw [Function.comp_apply, Listing.classify_sampleLine hmark] at hbad
      cases hbad

theorem Listing.trimEnd_sampleLine (s : String × Count) :
    Text.trimEnd (Listing.sampleLine s).toList = (Listing.sampleLine s).toList := by
  have hne := Text.numeral_ne_nil s.2.val
  have hlast : (Listing.sampleLine s).toList.getLast? =
      some ((Text.numeral s.2.val).getLast hne) := by
    rw [Listing.toList_sampleLine, List.getLast?_append, List.getLast?_cons,
      List.getLast?_eq_some_getLast hne]
    rfl
  exact Text.trimEnd_eq_self hlast
    (Text.isBlank_of_isDigit (Text.isDigit_of_mem_numeral (List.getLast_mem hne)))

/-- The stack lines of an artifact are written again as they are. -/
theorem Profiles.LineFeedFree.exists_reissued_text (h : ps.LineFeedFree o client)
    (metadata : Metadata) (metrics : Metrics) {obtained : Metadata} {r : Reissue}
    (hread : Reissue.ofText (ps.concatenate o client metadata metrics).artifact.text obtained =
      .ok r) :
    ∃ header, r.text = Text.unlines
      (header :: (ps.concatenate o client metadata metrics).artifact.lines) := by
  obtain ⟨first, rest, found, hlines, -, rfl⟩ := Reissue.ofText_eq_ok_iff.1 hread
  rw [h.lines_text metadata metrics, List.cons.injEq] at hlines
  refine ⟨_, congrArg (fun ls => Text.unlines (_ :: ls)) ?_⟩
  rw [← hlines.2, Profiles.lines_eq_map_sampleLine, List.map_map, List.map_map]
  apply List.map_congr_left
  intro s _
  simp only [Function.comp_apply, Listing.trimEnd_sampleLine, String.ofList_toList]

/-- Reissuing never loses or alters a sample. Every stack has at least the count that it had, and
    the counts are equal when the reader rejects no line, which it never does for an artifact without
    line feeds in its texts: the stack lines of such an artifact are written again as they are. -/
theorem Reissue.keeps_samples {text : String} {obtained : Metadata} {r : Reissue}
    (h : Reissue.ofText text obtained = .ok r) (root : Option String) :
    (∀ stack n, ((Listing.parse text).counts root).get? stack = some n →
        ∃ n', ((Listing.parse r.text).counts root).get? stack = some n' ∧ n.val ≤ n'.val) ∧
      ((Listing.parse text).rejected = [] →
        (Listing.parse r.text).counts root = (Listing.parse text).counts root) ∧
      ∀ (ps : Profiles) (o : Options) (client : Option σ) (metadata : Metadata) (metrics : Metrics),
        ps.LineFeedFree o client →
        text = (ps.concatenate o client metadata metrics).artifact.text →
        (Listing.parse text).rejected = [] ∧
          ∃ header, r.text = Text.unlines
            (header :: (ps.concatenate o client metadata metrics).artifact.lines) := by
  obtain ⟨hsublist, hsame⟩ := Reissue.samples_sublist h
  refine ⟨?_, ?_, ?_⟩
  · intro stack n hget
    exact Listing.counts_of_sublist hsublist root hget
  · intro hrejected
    unfold Listing.counts
    rw [hsame hrejected]
  · rintro ps o client metadata metrics hfeed rfl
    exact ⟨hfeed.rejected_text metadata metrics, hfeed.exists_reissued_text metadata metrics h⟩

end Artifact

/-- Behind its count the first stack line has a blank and is rejected. Trimmed, it is read. -/
theorem Reissue.keeps_samples_of_trimmed :
    let text := "# {}\na;b 3 \na;b 2\nc 1"
    ∃ r, Reissue.ofText text .empty = .ok r ∧ (Listing.parse text).counts none =
        .ofList [("a;b", .ofNat 2), ("c", .ofNat 1)] ∧
      (Listing.parse r.text).counts none = .ofList [("a;b", .ofNat 5), ("c", .ofNat 1)] ∧
      ∃ n', ((Listing.parse r.text).counts none).get? "a;b" = some n' ∧ 2 ≤ n'.val := by
  intro text
  have hread : Reissue.ofText "# {}\na;b 3 \na;b 2\nc 1" .empty =
      .ok ⟨none, none, "# {}\na;b 3\na;b 2\nc 1"⟩ := by cbv
  refine ⟨_, hread, by decide, by decide, ?_⟩
  exact (Reissue.keeps_samples (σ := Containers) hread none).1 "a;b" (.ofNat 2) (by decide)

end FoldedStacks
