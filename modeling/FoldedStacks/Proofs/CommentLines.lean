-- SUMMARY: What deleting the comments of a listing changes: nothing for one process, and for a system-wide listing exactly the stacks that begin with the mark of a comment.
import Mathlib
import FoldedStacks.Proofs.ListingAccounts

/-!
# Comments in listings

Lines that start with `#` are comments in the listing of one process. A system-wide listing has no
comments: a line of that kind is read as any other one. The name of its process begins with
the mark then, and so does its stack, which no other line can give.
-/

namespace FoldedStacks

/-! ## Texts by their lines -/

/-- The lines of a text as they stand in it, with their ends. -/
def Text.pieces : List Char → List (List Char)
  | [] => []
  | c :: cs =>
    if c = '\n' then [c] :: Text.pieces cs
    else
      match Text.pieces cs with
      | [] => [[c]]
      | piece :: rest => (c :: piece) :: rest

theorem Text.pieces_of_not_mem {line : List Char} (hne : line ≠ []) (h : '\n' ∉ line) :
    Text.pieces line = [line] := by
  induction line with
  | nil => exact absurd rfl hne
  | cons c cs ih =>
    obtain ⟨hc, hcs⟩ := List.ne_and_not_mem_of_not_mem_cons h
    rw [Text.pieces, if_neg (Ne.symm hc)]
    cases cs with
    | nil => rfl
    | cons d ds => rw [ih (by simp) hcs]

theorem Text.pieces_append_lineFeed {line : List Char} (h : '\n' ∉ line) (rest : List Char) :
    Text.pieces (line ++ '\n' :: rest) = (line ++ ['\n']) :: Text.pieces rest := by
  induction line with
  | nil => rfl
  | cons c cs ih =>
    obtain ⟨hc, hcs⟩ := List.ne_and_not_mem_of_not_mem_cons h
    rw [List.cons_append, Text.pieces, if_neg (Ne.symm hc), ih hcs]
    rfl

/-- The pieces are the text. -/
theorem Text.flatten_pieces (cs : List Char) : (Text.pieces cs).flatten = cs := by
  induction cs using Text.lineInduction with
  | nil => rfl
  | last line hne hline => simp [Text.pieces_of_not_mem hne hline]
  | feed line rest hline ih => simp [Text.pieces_append_lineFeed hline, ih]

/-! ## Comments -/

/-- The line begins with the mark of a comment. -/
def Text.isComment (line : List Char) : Bool :=
  line.head? == some '#'

/-- The text without its comments, each taken away with its line end. -/
def Text.withoutComments (text : String) : String :=
  String.ofList ((Text.pieces text.toList).filter fun piece => !Text.isComment piece).flatten

theorem Text.isComment_append (line : List Char) {behind : List Char}
    (h : Text.isComment behind = false) :
    Text.isComment (line ++ behind) = Text.isComment line := by
  cases line with
  | nil => exact h
  | cons c cs => rfl

theorem Text.isComment_chopReturn (line : List Char) :
    Text.isComment (Text.chopReturn line) = Text.isComment line := by
  unfold Text.chopReturn
  split
  next hreturn =>
    obtain ⟨front, rfl⟩ := List.getLast?_eq_some_iff.1 hreturn
    rw [List.dropLast_concat, Text.isComment_append front rfl]
  next => rfl

/-- The lines that are left are those that are no comments. -/
theorem Text.lines_withoutComments (text : String) :
    Text.lines (Text.withoutComments text).toList =
      (Text.lines text.toList).filter fun line => !Text.isComment line := by
  rw [Text.withoutComments, String.toList_ofList]
  induction text.toList using Text.lineInduction with
  | nil => rfl
  | last line hne hline =>
    rw [Text.pieces_of_not_mem hne hline, Text.lines_of_not_mem hne hline, List.filter_singleton]
    cases Text.isComment line with
    | false => simpa using Text.lines_of_not_mem hne hline
    | true => rfl
  | feed line rest hline ih =>
    rw [Text.pieces_append_lineFeed hline, Text.lines_append_feed hline, List.filter_cons,
      List.filter_cons, Text.isComment_append line rfl, Text.isComment_chopReturn]
    split
    next =>
      rw [List.flatten_cons, List.append_assoc, ← ih]
      exact Text.lines_append_feed hline _
    next => exact ih

/-! ## Listings without their comments -/

/-- The listing of one process does not depend on its comments. -/
theorem Listing.parse_withoutComments (text : String) :
    Listing.parse (Text.withoutComments text) = Listing.parse text := by
  have hskipped : ∀ line, Text.isComment line = true → Listing.classify line = .skipped := by
    intro line hcomment
    exact Listing.classify_eq_skipped_iff.2 (.inr (eq_of_beq hcomment))
  simp only [Listing.parse, Text.lines_withoutComments, List.filterMap_filter]
  congr 1 <;> refine List.filterMap_congr fun line _ => ?_
  all_goals
    cases hcomment : Text.isComment line with
    | false => rfl
    | true =>
      rw [hskipped line hcomment]
      rfl

/-- The stack begins with the mark of a comment. -/
def SystemListing.Sample.commented (s : SystemListing.Sample) : Bool :=
  Text.isComment s.stack.toList

/-- A stack begins with the mark exactly when its line does: both begin with the name of the process,
    and the mark is no separator. -/
theorem SystemListing.isComment_of_reads {line : List Char} {s : SystemListing.Sample}
    (h : SystemListing.Reads line s) : Text.isComment line = s.commented := by
  obtain ⟨p, rfl, hmeans⟩ := h
  rw [SystemListing.Sample.commented, hmeans.stack, String.toList_ofList,
    SystemListing.LineParts.line, SystemListing.LineParts.stack, SystemListing.LineParts.identity,
    List.append_assoc, List.append_assoc, Text.isComment_append _ rfl, Text.isComment_append _ rfl]

theorem SystemListing.mem_samples_iff {text : String} {s : SystemListing.Sample} :
    s ∈ (SystemListing.parse text).samples ↔
      ∃ line ∈ Text.lines text.toList, Text.allBlank line = false ∧ SystemListing.Reads line s := by
  simp only [SystemListing.parse, List.mem_filterMap, List.mem_filter, Bool.not_eq_true',
    SystemListing.readSample_eq_some_iff, and_assoc]

/-- The samples that are left are those whose stack does not begin with the mark of a comment. -/
theorem SystemListing.samples_withoutComments (text : String) :
    (SystemListing.parse (Text.withoutComments text)).samples =
      (SystemListing.parse text).samples.filter fun s => !s.commented := by
  have hread : ∀ line, (if !Text.isComment line then SystemListing.readSample line else none) =
      (SystemListing.readSample line).filter fun s => !s.commented := by
    intro line
    cases hs : SystemListing.readSample line with
    | none => simp
    | some s =>
      rw [SystemListing.isComment_of_reads (SystemListing.readSample_eq_some_iff.1 hs)]
      rfl
  simp only [SystemListing.parse, Text.lines_withoutComments, List.filterMap_filter,
    List.filter_filterMap]
  refine List.filterMap_congr fun line _ => ?_
  cases Text.allBlank line with
  | false => exact hread line
  | true => simp

theorem SystemListing.exists_commented_iff {text : String} :
    (∃ s ∈ (SystemListing.parse text).samples, s.commented = true) ↔
      ∃ line ∈ Text.lines text.toList, Text.isComment line = true ∧
        ∃ s, SystemListing.Reads line s := by
  constructor
  · rintro ⟨s, hs, hcommented⟩
    obtain ⟨line, hline, -, hreads⟩ := SystemListing.mem_samples_iff.1 hs
    exact ⟨line, hline, (SystemListing.isComment_of_reads hreads).trans hcommented, s, hreads⟩
  · rintro ⟨line, hline, hcomment, s, hreads⟩
    have hblank : Text.allBlank line = false := by
      obtain ⟨rest, rfl⟩ := List.head?_eq_some_iff.1 (eq_of_beq hcomment)
      rfl
    exact ⟨s, SystemListing.mem_samples_iff.2 ⟨line, hline, hblank, hreads⟩,
      (SystemListing.isComment_of_reads hreads).symm.trans hcomment⟩

theorem SystemListing.held?_withoutComments (text : String) (pid : Pid) (stack : String) :
    SystemListing.held? (SystemListing.parse (Text.withoutComments text)).counts pid stack =
      if Text.isComment stack.toList then none
      else SystemListing.held? (SystemListing.parse text).counts pid stack := by
  -- all samples of the stack have the stack's first character
  have hstack : ∀ s : SystemListing.Sample,
      (decide (s.pid = pid ∧ s.stack = stack) && !s.commented) =
        (decide (s.pid = pid ∧ s.stack = stack) && !Text.isComment stack.toList) := by
    intro s
    by_cases hs : s.pid = pid ∧ s.stack = stack
    · rw [SystemListing.Sample.commented, hs.2]
    · simp [hs]
  rw [SystemListing.held?_counts, SystemListing.held?_counts,
    SystemListing.samples_withoutComments, List.filter_filter, List.filter_congr fun s _ => hstack s]
  cases Text.isComment stack.toList <;> simp [Count.sum?]

/-- A process is left when it has a stack that does not begin with the mark. -/
theorem SystemListing.mem_keys_withoutComments_iff {text : String} {pid : Pid} :
    pid ∈ (SystemListing.parse (Text.withoutComments text)).counts.keys ↔
      ∃ stack, Text.isComment stack.toList = false ∧
        SystemListing.held? (SystemListing.parse text).counts pid stack ≠ none := by
  simp only [SystemListing.mem_keys_counts_iff, SystemListing.samples_withoutComments,
    List.mem_filter, Bool.not_eq_true', Ne, SystemListing.held?_counts_eq_none_iff]
  constructor
  · rintro ⟨s, ⟨hs, hcommented⟩, hpid⟩
    exact ⟨s.stack, hcommented, fun hnone => hnone s hs ⟨hpid, rfl⟩⟩
  · rintro ⟨stack, hcomment, hheld⟩
    push Not at hheld
    obtain ⟨s, hs, hpid, rfl⟩ := hheld
    exact ⟨s, ⟨hs, hcomment⟩, hpid⟩

/-- Nothing changes when no comment can be read as a sample. -/
theorem SystemListing.counts_withoutComments_iff {text : String} :
    (SystemListing.parse (Text.withoutComments text)).counts = (SystemListing.parse text).counts ↔
      ∀ line ∈ Text.lines text.toList, Text.isComment line = true →
        ∀ s, ¬ SystemListing.Reads line s := by
  have hcomments := not_congr (@SystemListing.exists_commented_iff text)
  push Not at hcomments
  rw [← hcomments]
  constructor
  · intro hsame s hs hcommented
    have hheld := SystemListing.held?_withoutComments text s.pid s.stack
    rw [SystemListing.Sample.commented] at hcommented
    rw [hsame, if_pos hcommented, SystemListing.held?_counts_eq_none_iff] at hheld
    exact hheld s hs ⟨rfl, rfl⟩
  · intro hnone
    have hall : (SystemListing.parse text).samples.filter (fun s => !s.commented) =
        (SystemListing.parse text).samples := by
      rw [List.filter_eq_self]
      intro s hs
      simpa using hnone s hs
    rw [SystemListing.counts, SystemListing.samples_withoutComments, hall, SystemListing.counts]

/-- Comments of any text mean nothing to the reader for one process. Deleting them takes away those
    counts of a system-wide listing whose stack begins with the mark of a comment, and no others. So
    it changes nothing exactly when no comment has the parts of a sample. -/
theorem SystemListing.counts_withoutComments (text : String) :
    Listing.parse (Text.withoutComments text) = Listing.parse text ∧
    (∀ pid stack,
      SystemListing.held? (SystemListing.parse (Text.withoutComments text)).counts pid stack =
        if Text.isComment stack.toList then none
        else SystemListing.held? (SystemListing.parse text).counts pid stack) ∧
    (∀ pid, pid ∈ (SystemListing.parse (Text.withoutComments text)).counts.keys ↔
      ∃ stack, Text.isComment stack.toList = false ∧
        SystemListing.held? (SystemListing.parse text).counts pid stack ≠ none) ∧
    ((SystemListing.parse (Text.withoutComments text)).counts = (SystemListing.parse text).counts ↔
      ∀ line ∈ Text.lines text.toList, Text.isComment line = true →
        ∀ s, ¬ SystemListing.Reads line s) :=
  ⟨Listing.parse_withoutComments text, SystemListing.held?_withoutComments text,
    fun _ => SystemListing.mem_keys_withoutComments_iff, SystemListing.counts_withoutComments_iff⟩

/-- A comment that is counted for a process with the name `#x`. -/
theorem SystemListing.comment_counted :
    let text := "#x-1/1;a 3"
    Text.withoutComments text = "" ∧
      SystemListing.held? (SystemListing.parse text).counts 1 "#x;a" = some (.ofNat 3) ∧
      (SystemListing.parse (Text.withoutComments text)).counts ≠
        (SystemListing.parse text).counts := by
  decide

end FoldedStacks
