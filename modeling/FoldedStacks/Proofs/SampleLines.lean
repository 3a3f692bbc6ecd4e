-- SUMMARY: The grammar of lines that are read as samples: what the parts of a line may hold, that a line has them in one way only, and that every written sample is read back.
import Mathlib
import FoldedStacks.Listing.Process
import FoldedStacks.Listing.System
import FoldedStacks.Proofs.Numerals

/-!
# Lines that are samples

A line of the listing of one process is cut at its last space only, and what stands before the space
is the stack. A line of a system-wide listing is cut at its last space, its first semicolon, the last
dash of its identity and the first slash behind that. Each part lacks the character that it is cut
at, so the parts can be told from the line. The names of processes and the frames may hold any of
the other separators.
-/

namespace FoldedStacks

/-! ## Lines of one process -/

/-- The line is cut at its last space. A line without a space is a count for the empty stack. -/
def Listing.Cut (line stack count : List Char) : Prop :=
  (line = stack ++ ' ' :: count ∨ stack = [] ∧ line = count) ∧ ' ' ∉ count

/-- The line counts for nothing: it is blank or a comment. -/
def Listing.Skips (line : List Char) : Prop :=
  Text.allBlank line = true ∨ line.head? = some '#'

/-- The line is a stack with its count. -/
def Listing.Reads (line : List Char) (s : String × Count) : Prop :=
  ∃ count, Listing.Cut line s.1.toList count ∧ Text.Denotes count s.2.val

/-- What stands for the count cannot be read. -/
def Listing.Refuses (line : List Char) (cause : NumeralError) : Prop :=
  ∃ stack count, Listing.Cut line stack count ∧ Count.read count = .error cause

section Process

variable {line stack count : List Char}

theorem Listing.cut_iff : (Text.splitLast ' ' line).getD ([], line) = (stack, count) ↔
    Listing.Cut line stack count := by
  cases hsplit : Text.splitLast ' ' line with
  | none =>
    have hspace := Text.splitLast_eq_none_iff.1 hsplit
    rw [Option.getD_none, Prod.mk.injEq]
    constructor
    · rintro ⟨rfl, rfl⟩
      exact ⟨.inr ⟨rfl, rfl⟩, hspace⟩
    · rintro ⟨rfl | ⟨rfl, rfl⟩, -⟩
      · exact absurd (by simp) hspace
      · exact ⟨rfl, rfl⟩
  | some parts =>
    obtain ⟨hline, hparts⟩ := Text.splitLast_eq_some_iff.1 hsplit
    rw [Option.getD_some]
    constructor
    · rintro rfl
      exact ⟨.inl hline, hparts⟩
    · rintro ⟨hcut | ⟨rfl, rfl⟩, hcount⟩
      · have hsame := Text.splitLast_eq_some_iff.2 ⟨hcut, hcount⟩
        rw [hsplit, Option.some.injEq] at hsame
        exact hsame
      · exact absurd (by simp [hline]) hcount

theorem Listing.exists_cut (line : List Char) : ∃ stack count, Listing.Cut line stack count :=
  ⟨_, _, Listing.cut_iff.1 rfl⟩

theorem Listing.skips_iff :
    Listing.Skips line ↔ (Text.allBlank line || line.head? == some '#') = true := by
  rw [Listing.Skips, Bool.or_eq_true, beq_iff_eq]

theorem Listing.classify_eq_skipped_iff : Listing.classify line = .skipped ↔ Listing.Skips line := by
  rw [Listing.skips_iff]
  unfold Listing.classify
  split
  next hskip => exact iff_of_true rfl hskip
  next hread =>
    refine iff_of_false ?_ hread
    dsimp only
    split <;> simp

theorem Listing.classify_comment (cs : List Char) : Listing.classify ('#' :: cs) = .skipped :=
  Listing.classify_eq_skipped_iff.2 (.inr rfl)

theorem Listing.classify_nil : Listing.classify [] = .skipped :=
  Listing.classify_eq_skipped_iff.2 (.inl rfl)

theorem Listing.classify_of_ok {n : Count} (hskip : ¬ Listing.Skips line)
    (hcut : Listing.Cut line stack count) (hread : Count.read count = .ok n) :
    Listing.classify line = .sample (String.ofList stack) n := by
  rw [Listing.skips_iff] at hskip
  simp only [Listing.classify, if_neg hskip, Listing.cut_iff.2 hcut, hread]

theorem Listing.classify_of_error {cause : NumeralError} (hskip : ¬ Listing.Skips line)
    (hcut : Listing.Cut line stack count) (hread : Count.read count = .error cause) :
    Listing.classify line = .bad cause := by
  rw [Listing.skips_iff] at hskip
  simp only [Listing.classify, if_neg hskip, Listing.cut_iff.2 hcut, hread]

/-- A line is read as the sample that it stands for, if it is looked at. -/
theorem Listing.classify_eq_sample_iff {root : String} {n : Count} :
    Listing.classify line = .sample root n ↔
      ¬ Listing.Skips line ∧ Listing.Reads line (root, n) := by
  by_cases hskip : Listing.Skips line
  case pos => simp [Listing.classify_eq_skipped_iff.2 hskip, hskip]
  case neg =>
    rw [and_iff_right hskip]
    constructor
    · intro h
      obtain ⟨stack, count, hcut⟩ := Listing.exists_cut line
      cases hread : Count.read count with
      | ok m =>
        rw [Listing.classify_of_ok hskip hcut hread] at h
        cases h
        rw [← String.toList_ofList (l := stack)] at hcut
        exact ⟨count, hcut, Count.read_eq_ok_iff.1 hread⟩
      | error cause =>
        rw [Listing.classify_of_error hskip hcut hread] at h
        cases h
    · rintro ⟨count, hcut, hcount⟩
      rw [Listing.classify_of_ok hskip hcut (Count.read_eq_ok_iff.2 hcount), String.ofList_toList]

theorem Listing.classify_eq_bad_iff {cause : NumeralError} :
    Listing.classify line = .bad cause ↔ ¬ Listing.Skips line ∧ Listing.Refuses line cause := by
  by_cases hskip : Listing.Skips line
  case pos => simp [Listing.classify_eq_skipped_iff.2 hskip, hskip]
  case neg =>
    rw [and_iff_right hskip]
    constructor
    · intro h
      obtain ⟨stack, count, hcut⟩ := Listing.exists_cut line
      cases hread : Count.read count with
      | ok n =>
        rw [Listing.classify_of_ok hskip hcut hread] at h
        cases h
      | error cause' =>
        rw [Listing.classify_of_error hskip hcut hread] at h
        cases h
        exact ⟨stack, count, hcut, hread⟩
    · rintro ⟨stack, count, hcut, hread⟩
      exact Listing.classify_of_error hskip hcut hread

end Process

/-! ## Parts of a line of a system-wide listing -/

/-- What a line of a system-wide listing is made of. -/
@[ext] structure SystemListing.LineParts where
  comm : List Char
  pid : List Char
  /-- The slash with all behind it; there may be neither. -/
  thread : List Char
  frames : List Char
  count : List Char
  comm_semicolon : ';' ∉ comm
  pid_semicolon : ';' ∉ pid
  pid_dash : '-' ∉ pid
  pid_slash : '/' ∉ pid
  thread_semicolon : ';' ∉ thread
  thread_dash : '-' ∉ thread
  thread_slash : thread = [] ∨ thread.head? = some '/'
  count_space : ' ' ∉ count

/-- The first frame of the line. -/
def SystemListing.LineParts.identity (p : SystemListing.LineParts) : List Char :=
  p.comm ++ '-' :: (p.pid ++ p.thread)

def SystemListing.LineParts.stack (p : SystemListing.LineParts) : List Char :=
  p.identity ++ ';' :: p.frames

/-- The line `<comm>-<pid>/<tid>;<frames> <count>`. -/
def SystemListing.LineParts.line (p : SystemListing.LineParts) : List Char :=
  p.stack ++ ' ' :: p.count

/-- The sample that the parts stand for; its stack has the name of the process as its first frame. -/
structure SystemListing.LineParts.Means (p : SystemListing.LineParts) (s : SystemListing.Sample) :
    Prop where
  pid : Text.Denotes p.pid s.pid.toNat
  count : Text.Denotes p.count s.count.val
  stack : s.stack = String.ofList (p.comm ++ ';' :: p.frames)

/-- The grammar of a system-wide listing: the line has parts, and they stand for the sample. -/
def SystemListing.Reads (line : List Char) (s : SystemListing.Sample) : Prop :=
  ∃ p : SystemListing.LineParts, p.line = line ∧ p.Means s

section Parts

variable (p : SystemListing.LineParts)

theorem SystemListing.LineParts.splitLast_line :
    Text.splitLast ' ' p.line = some (p.stack, p.count) :=
  Text.splitLast_eq_some_iff.2 ⟨rfl, p.count_space⟩

theorem SystemListing.LineParts.splitFirst_stack :
    Text.splitFirst ';' p.stack = some (p.identity, p.frames) := by
  refine Text.splitFirst_eq_some_iff.2 ⟨rfl, ?_⟩
  simp only [SystemListing.LineParts.identity, List.mem_append, List.mem_cons]
  rintro (hcomm | hdash | hpid | hthread)
  · exact p.comm_semicolon hcomm
  · exact absurd hdash (by decide)
  · exact p.pid_semicolon hpid
  · exact p.thread_semicolon hthread

theorem SystemListing.LineParts.splitLast_identity :
    Text.splitLast '-' p.identity = some (p.comm, p.pid ++ p.thread) := by
  refine Text.splitLast_eq_some_iff.2 ⟨rfl, ?_⟩
  rw [List.mem_append, not_or]
  exact ⟨p.pid_dash, p.thread_dash⟩

theorem SystemListing.LineParts.takeWhile_ids :
    (p.pid ++ p.thread).takeWhile (· != '/') = p.pid := by
  have hpid : ∀ c ∈ p.pid, (c != '/') = true := by
    intro c hc
    rw [bne_iff_ne]
    rintro rfl
    exact p.pid_slash hc
  rw [List.takeWhile_append_of_pos hpid]
  rcases p.thread_slash with hnil | hslash
  · rw [hnil, List.takeWhile_nil, List.append_nil]
  · obtain ⟨rest, hrest⟩ := List.head?_eq_some_iff.1 hslash
    rw [hrest, List.takeWhile_cons_of_neg (by simp), List.append_nil]

/-- The parts are found again by cutting the line. -/
theorem SystemListing.LineParts.line_injective : Function.Injective SystemListing.LineParts.line := by
  intro p q h
  have hline := q.splitLast_line
  rw [← h, p.splitLast_line, Option.some.injEq, Prod.mk.injEq] at hline
  obtain ⟨hstack, hcount⟩ := hline
  have hfirst := q.splitFirst_stack
  rw [← hstack, p.splitFirst_stack, Option.some.injEq, Prod.mk.injEq] at hfirst
  obtain ⟨hidentity, hframes⟩ := hfirst
  have hlast := q.splitLast_identity
  rw [← hidentity, p.splitLast_identity, Option.some.injEq, Prod.mk.injEq] at hlast
  obtain ⟨hcomm, hids⟩ := hlast
  have hpid : p.pid = q.pid := by rw [← p.takeWhile_ids, hids, q.takeWhile_ids]
  have hthread : p.thread = q.thread := by
    rw [hpid] at hids
    exact List.append_cancel_left hids
  exact SystemListing.LineParts.ext hcomm hpid hthread hframes hcount

/-- What is read from the line of the parts depends on their two numerals only. -/
theorem SystemListing.LineParts.readSample_line :
    SystemListing.readSample p.line = (do
      let n ← (Count.read p.count).toOption
      let pid ← (Pid.read p.pid).toOption
      return ⟨pid, String.ofList (p.comm ++ ';' :: p.frames), n⟩) := by
  have hstack : StackCounts.rooted (String.ofList p.comm) (String.ofList p.frames) =
      String.ofList (p.comm ++ ';' :: p.frames) := by
    simp [StackCounts.rooted, String.ext_iff]
  simp only [SystemListing.readSample, p.splitLast_line, p.splitFirst_stack, p.splitLast_identity,
    p.takeWhile_ids, hstack, Option.bind_eq_bind, Option.bind_some]

end Parts

private theorem toOption_eq_some_iff {ε α : Type} {x : Except ε α} {a : α} :
    x.toOption = some a ↔ x = .ok a := by
  cases x <;> simp [Except.toOption]

/-- The parts stand for the sample that is read from their line. -/
theorem SystemListing.LineParts.readSample_line_iff {p : SystemListing.LineParts}
    {s : SystemListing.Sample} : SystemListing.readSample p.line = some s ↔ p.Means s := by
  rw [p.readSample_line]
  simp only [Option.bind_eq_bind, Option.bind_eq_some_iff, toOption_eq_some_iff,
    Count.read_eq_ok_iff, Pid.read_eq_ok_iff, Option.pure_def, Option.some.injEq]
  constructor
  · rintro ⟨n, hcount, pid, hpid, rfl⟩
    exact ⟨hpid, hcount, rfl⟩
  · rintro ⟨hpid, hcount, hstack⟩
    exact ⟨s.count, hcount, s.pid, hpid, by rw [← hstack]⟩

/-- A line that is read has parts. -/
theorem SystemListing.exists_parts {line : List Char} {s : SystemListing.Sample}
    (h : SystemListing.readSample line = some s) : ∃ p : SystemListing.LineParts, p.line = line := by
  simp only [SystemListing.readSample, Option.bind_eq_bind, Option.bind_eq_some_iff,
    Prod.exists] at h
  obtain ⟨stack, count, hline, -, -, identity, frames, hstack, comm, ids, hidentity, -⟩ := h
  obtain ⟨rfl, hspace⟩ := Text.splitLast_eq_some_iff.1 hline
  obtain ⟨rfl, hsemicolon⟩ := Text.splitFirst_eq_some_iff.1 hstack
  obtain ⟨rfl, hdash⟩ := Text.splitLast_eq_some_iff.1 hidentity
  -- what stands behind the dash is cut at its first slash
  have hids : ids.takeWhile (· != '/') ++ ids.dropWhile (· != '/') = ids :=
    List.takeWhile_append_dropWhile
  rw [← hids] at hsemicolon hdash
  simp only [List.mem_append, List.mem_cons, not_or] at hsemicolon hdash
  have hslash : '/' ∉ ids.takeWhile (· != '/') := fun hin => by
    simpa using List.mem_takeWhile_imp hin
  have hthread : ids.dropWhile (· != '/') = [] ∨ (ids.dropWhile (· != '/')).head? = some '/' := by
    cases hdrop : ids.dropWhile (· != '/') with
    | nil => exact .inl rfl
    | cons c cs =>
      have hc := List.head?_dropWhile_not (· != '/') ids
      rw [hdrop] at hc
      simp only [List.head?_cons, bne_eq_false_iff_eq] at hc
      exact .inr (by rw [hc]; rfl)
  refine ⟨⟨comm, ids.takeWhile (· != '/'), ids.dropWhile (· != '/'), frames, count, hsemicolon.1,
    hsemicolon.2.2.1, hdash.1, hslash, hsemicolon.2.2.2, hdash.2, hthread, hspace⟩, ?_⟩
  simp only [SystemListing.LineParts.line, SystemListing.LineParts.stack,
    SystemListing.LineParts.identity, hids]

theorem SystemListing.readSample_eq_some_iff {line : List Char} {s : SystemListing.Sample} :
    SystemListing.readSample line = some s ↔ SystemListing.Reads line s := by
  constructor
  · intro h
    obtain ⟨p, rfl⟩ := SystemListing.exists_parts h
    exact ⟨p, rfl, SystemListing.LineParts.readSample_line_iff.1 h⟩
  · rintro ⟨p, rfl, hmeans⟩
    exact SystemListing.LineParts.readSample_line_iff.2 hmeans

/-! ## Written lines -/

/-- The line of a sample that was taken in the thread `tid` of a process. -/
def SystemListing.sampleLine (comm : String) (pid : Pid) (tid : Nat) (frames : String) (n : Count) :
    String :=
  comm ++ "-" ++ Pid.numeral pid ++ "/" ++ String.ofList (Text.numeral tid) ++ ";" ++ frames ++ " " ++
    String.ofList (Text.numeral n.val)

/-- The parts that a sample is written with. -/
def SystemListing.LineParts.ofSample (comm : String) (hcomm : ';' ∉ comm.toList) (pid : Pid)
    (tid : Nat) (frames : String) (n : Count) : SystemListing.LineParts where
  comm := comm.toList
  pid := Text.numeral pid.toNat
  thread := '/' :: Text.numeral tid
  frames := frames.toList
  count := Text.numeral n.val
  comm_semicolon := hcomm
  pid_semicolon := Text.not_mem_numeral (by decide)
  pid_dash := Text.not_mem_numeral (by decide)
  pid_slash := Text.not_mem_numeral (by decide)
  thread_semicolon := List.not_mem_cons_of_ne_of_not_mem (by decide) (Text.not_mem_numeral (by decide))
  thread_dash := List.not_mem_cons_of_ne_of_not_mem (by decide) (Text.not_mem_numeral (by decide))
  thread_slash := .inr rfl
  count_space := Text.not_mem_numeral (by decide)

theorem SystemListing.readSample_sampleLine (comm : String) (hcomm : ';' ∉ comm.toList) (pid : Pid)
    (tid : Nat) (frames : String) (n : Count) :
    SystemListing.readSample (SystemListing.sampleLine comm pid tid frames n).toList =
      some ⟨pid, comm ++ ";" ++ frames, n⟩ := by
  let p := SystemListing.LineParts.ofSample comm hcomm pid tid frames n
  have hline : (SystemListing.sampleLine comm pid tid frames n).toList = p.line := by
    simp [SystemListing.sampleLine, SystemListing.LineParts.line, SystemListing.LineParts.stack,
      SystemListing.LineParts.identity, p, SystemListing.LineParts.ofSample, Pid.numeral]
  rw [hline]
  refine SystemListing.LineParts.readSample_line_iff.2 ⟨?_, ?_, ?_⟩
  · exact Text.denotes_numeral pid.toNat
  · exact Text.denotes_numeral n.val
  · simp [p, SystemListing.LineParts.ofSample, String.ext_iff]

/-- Exactly the lines of the grammar are read, each as the sample that its parts stand for. A line
    has its parts in one way only. Written samples are read back, whatever the name of the process
    and the frames hold; only a semicolon in the name would end it. -/
theorem SystemListing.readSample_grammar :
    (∀ (line : List Char) (s : SystemListing.Sample),
      SystemListing.readSample line = some s ↔
        ∃ p : SystemListing.LineParts, p.line = line ∧ p.Means s) ∧
    Function.Injective SystemListing.LineParts.line ∧
    ∀ (comm : String) (pid : Pid) (tid : Nat) (frames : String) (n : Count), ';' ∉ comm.toList →
      SystemListing.readSample (SystemListing.sampleLine comm pid tid frames n).toList =
        some ⟨pid, comm ++ ";" ++ frames, n⟩ := by
  refine ⟨fun line s => SystemListing.readSample_eq_some_iff,
    SystemListing.LineParts.line_injective, ?_⟩
  intro comm pid tid frames n hcomm
  exact SystemListing.readSample_sampleLine comm hcomm pid tid frames n

/-- A name with spaces, dashes and a slash, and frames with all separators. -/
theorem SystemListing.readSample_grammar_of_separators :
    ';' ∉ "my app-2/3 -x".toList ∧
      SystemListing.readSample "my app-2/3 -x-41/7;a b;-9/8;c 5 12".toList =
        some ⟨41, "my app-2/3 -x;a b;-9/8;c 5", .ofNat 12⟩ :=
  ⟨by decide, SystemListing.readSample_grammar.2.2 "my app-2/3 -x" 41 7 "a b;-9/8;c 5" (.ofNat 12)
    (by decide)⟩

end FoldedStacks
