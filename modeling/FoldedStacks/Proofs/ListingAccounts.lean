-- SUMMARY: Every line of a listing is accounted for: it is passed over, counted once or reported once, the counts are the sums of the samples that were read, and listings that are joined add up.
import Mathlib
import FoldedStacks.Proofs.Lines
import FoldedStacks.Proofs.SampleLines
import FoldedStacks.Proofs.Totals

/-!
# Accounts of listings

Both readers of listings go through a text line by line, with a table of counts and a list of
what they have to report. A line changes at most one of them, and by one entry. So the samples and
the reported lines make up all lines that are looked at, and the counts are sums over the samples.
-/

namespace FoldedStacks

/-! ## Lines and what becomes of them -/

/-- What becomes of the lines of a text, in their order. A line is passed over, or it is read as one
    value, or there is one report about it. -/
inductive Text.Accounted {α β : Type} (passes : List Char → Prop) (reads : List Char → α → Prop)
    (tells : List Char → β → Prop) : List (List Char) → List α → List β → Prop
  | nil : Text.Accounted passes reads tells [] [] []
  | passed {line lines values reports} : passes line →
      Text.Accounted passes reads tells lines values reports →
      Text.Accounted passes reads tells (line :: lines) values reports
  | counted {line lines value values reports} : ¬ passes line → reads line value →
      Text.Accounted passes reads tells lines values reports →
      Text.Accounted passes reads tells (line :: lines) (value :: values) reports
  | reported {line lines values report reports} : ¬ passes line → (∀ value, ¬ reads line value) →
      tells line report → Text.Accounted passes reads tells lines values reports →
      Text.Accounted passes reads tells (line :: lines) values (report :: reports)

section Accounted

variable {α β : Type} {passes : List Char → Prop} {reads : List Char → α → Prop}
  {tells : List Char → β → Prop} {lines : List (List Char)} {values : List α} {reports : List β}

/-- No line is counted and reported, and none is lost. -/
theorem Text.Accounted.countP_eq [DecidablePred passes]
    (h : Text.Accounted passes reads tells lines values reports) :
    lines.countP (fun line => ¬ passes line) = values.length + reports.length := by
  induction h with
  | nil => rfl
  | passed hpass _ ih => rw [List.countP_cons_of_neg (by simpa using hpass), ih]
  | counted hpass _ _ ih =>
    rw [List.countP_cons_of_pos (by simpa using hpass), ih, List.length_cons, Nat.add_right_comm]
  | reported hpass _ _ _ ih =>
    rw [List.countP_cons_of_pos (by simpa using hpass), ih, List.length_cons, Nat.add_assoc]

/-- A step that changes the table for a line that is read, and the reports for a line that is
    reported, has entered all values and all reports in the end. -/
theorem Text.Accounted.foldl_eq {σ : Type} {step : σ × List β → List Char → σ × List β}
    {enter : σ → α → σ} (h : Text.Accounted passes reads tells lines values reports)
    (hpassed : ∀ st line, passes line → step st line = st)
    (hcounted : ∀ st line value, ¬ passes line → reads line value →
      step st line = (enter st.1 value, st.2))
    (hreported : ∀ st line report, ¬ passes line → (∀ value, ¬ reads line value) →
      tells line report → step st line = (st.1, st.2 ++ [report])) (st : σ × List β) :
    lines.foldl step st = (values.foldl enter st.1, st.2 ++ reports) := by
  induction h generalizing st with
  | nil => simp
  | passed hpass _ ih => rw [List.foldl_cons, hpassed st _ hpass, ih]
  | counted hpass hreads _ ih => rw [List.foldl_cons, hcounted st _ _ hpass hreads, ih]; rfl
  | reported hpass hreads htells _ ih =>
    rw [List.foldl_cons, hreported st _ _ hpass hreads htells, ih, List.append_assoc]
    rfl

end Accounted

/-- The sum of counts, up to the largest count; there is none for no counts. -/
def Count.sum? (ns : List Count) : Option Count :=
  if ns = [] then none else some (.ofNat (ns.map Count.val).sum)

theorem Count.sum?_eq_none_iff {ns : List Count} : Count.sum? ns = none ↔ ns = [] := by
  simp [Count.sum?]

theorem Count.sum?_append (ns ms : List Count) :
    Count.sum? (ns ++ ms) = Option.merge (· + ·) (Count.sum? ns) (Count.sum? ms) := by
  have hval : ∀ n, (Count.ofNat n).val = min n Count.limit := fun _ => rfl
  cases ns with
  | nil => simp [Count.sum?]
  | cons n ns =>
    cases ms with
    | nil => simp [Count.sum?]
    | cons m ms =>
      simp only [Count.sum?, List.cons_append, reduceCtorEq, if_false, Option.merge,
        Option.some.injEq, Count.ext_iff, Count.val_add, hval, List.map_cons, List.map_append,
        List.sum_cons, List.sum_append]
      omega

theorem StackCounts.get?_ofList_eq_sum? (samples : List (String × Count)) (stack : String) :
    (StackCounts.ofList samples).get? stack =
      Count.sum? ((samples.filter fun s => s.1 = stack).map (·.2)) := by
  have hnone : (samples.filter fun s => s.1 = stack).map (·.2) = [] ↔
      stack ∉ samples.map (·.1) := by
    rw [List.map_eq_nil_iff, List.filter_eq_nil_iff, List.mem_map]
    simp only [decide_eq_true_eq, not_exists, not_and]
  rw [StackCounts.get?_ofList, StackCounts.samplesOf, Count.sum?, List.map_map]
  simp only [hnone, ite_not]
  rfl

/-! ## Listings of one process -/

instance : DecidablePred Listing.Skips := fun line =>
  inferInstanceAs (Decidable (Text.allBlank line = true ∨ line.head? = some '#'))

/-- The stack below the root frame, if one is given. -/
def Listing.below : Option String → String → String
  | none, stack => stack
  | some root, stack => StackCounts.rooted root stack

theorem Listing.counts_eq (l : Listing) (root : Option String) :
    l.counts root = .ofList (l.samples.map fun s => (Listing.below root s.1, s.2)) := by
  cases root <;> simp [Listing.counts, Listing.below]

/-- The notice for the line says why its count cannot be read. -/
def Listing.Tells (line : List Char) (notice : Notice) : Prop :=
  ∃ cause, Listing.Refuses line cause ∧ notice = .badLine (String.ofList line) cause

/-- The table and the notices after one more line. -/
def Listing.step (root : Option String) (st : StackCounts × List Notice) (line : List Char) :
    StackCounts × List Notice :=
  match Listing.classify line with
  | .skipped => st
  | .sample stack n => (st.1.add (Listing.below root stack) n, st.2)
  | .bad cause => (st.1, st.2 ++ [.badLine (String.ofList line) cause])

theorem Listing.not_reads_of_refuses {line : List Char} {cause : NumeralError}
    (h : Listing.Refuses line cause) (s : String × Count) : ¬ Listing.Reads line s := by
  obtain ⟨stack, count, hcut, hread⟩ := h
  rintro ⟨count', hcut', hcount⟩
  have hsame := (Listing.cut_iff.2 hcut).symm.trans (Listing.cut_iff.2 hcut')
  rw [(Prod.mk.inj hsame).2, Count.read_eq_ok_iff.2 hcount] at hread
  cases hread

/-- A listing tells what becomes of each of its lines. -/
theorem Listing.accounted (text : String) :
    Text.Accounted Listing.Skips Listing.Reads Listing.Tells (Text.lines text.toList)
      (Listing.parse text).samples (Listing.parse text).notices := by
  simp only [Listing.parse, Listing.notices, List.map_filterMap]
  induction Text.lines text.toList with
  | nil => exact .nil
  | cons line lines ih =>
    rw [List.filterMap_cons, List.filterMap_cons]
    cases hclass : Listing.classify line with
    | skipped => exact .passed (Listing.classify_eq_skipped_iff.1 hclass) ih
    | sample stack n =>
      obtain ⟨hskip, hreads⟩ := Listing.classify_eq_sample_iff.1 hclass
      exact .counted hskip hreads ih
    | bad cause =>
      obtain ⟨hskip, hrefuses⟩ := Listing.classify_eq_bad_iff.1 hclass
      exact .reported hskip (Listing.not_reads_of_refuses hrefuses) ⟨cause, hrefuses, rfl⟩ ih

/-- Going through lines adds their samples to the table, one by one, and appends their notices. -/
theorem Listing.foldl_step {lines : List (List Char)} {samples : List (String × Count)}
    {notices : List Notice}
    (h : Text.Accounted Listing.Skips Listing.Reads Listing.Tells lines samples notices)
    (root : Option String) (st : StackCounts × List Notice) :
    lines.foldl (Listing.step root) st =
      (samples.foldl (fun t s => t.add (Listing.below root s.1) s.2) st.1, st.2 ++ notices) := by
  refine h.foldl_eq ?_ ?_ ?_ st
  · intro st line hskip
    rw [Listing.step, Listing.classify_eq_skipped_iff.2 hskip]
  · intro st line s hskip hreads
    rw [Listing.step, Listing.classify_eq_sample_iff.2 ⟨hskip, hreads⟩]
  · rintro st line notice hskip - ⟨cause, hrefuses, rfl⟩
    rw [Listing.step, Listing.classify_eq_bad_iff.2 ⟨hskip, hrefuses⟩]

/-- What a listing has read of a text and reported about it accounts for all its lines. `loop` is the
    reader that goes through the text line by line. -/
structure Listing.AccountsFor (l : Listing) (text : String) : Prop where
  lines : Text.Accounted Listing.Skips Listing.Reads Listing.Tells (Text.lines text.toList)
    l.samples l.notices
  number : (Text.lines text.toList).countP (fun line => ¬ Listing.Skips line) =
    l.samples.length + l.notices.length
  counts : ∀ root stack, (l.counts root).get? stack =
    Count.sum? ((l.samples.filter fun s => Listing.below root s.1 = stack).map (·.2))
  loop : ∀ root, (Text.lines text.toList).foldl (Listing.step root) (.empty, []) =
    (l.counts root, l.notices)

theorem Listing.get?_counts (l : Listing) (root : Option String) (stack : String) :
    (l.counts root).get? stack =
      Count.sum? ((l.samples.filter fun s => Listing.below root s.1 = stack).map (·.2)) := by
  rw [Listing.counts_eq, StackCounts.get?_ofList_eq_sum?, List.filter_map, List.map_map]
  rfl

theorem Listing.accountsFor (text : String) : (Listing.parse text).AccountsFor text where
  lines := Listing.accounted text
  number := (Listing.accounted text).countP_eq
  counts := (Listing.parse text).get?_counts
  loop := by
    intro root
    rw [Listing.foldl_step (Listing.accounted text), Listing.counts_eq, StackCounts.ofList,
      List.foldl_map, List.nil_append]

/-! ## System-wide listings -/

/-- The count of a stack of a process. -/
def SystemListing.held? (m : SortedMap Pid StackCounts) (pid : Pid) (stack : String) :
    Option Count :=
  (m.get? pid).bind fun s => s.get? stack

/-- The table with one more sample. -/
def SystemListing.enter (m : SortedMap Pid StackCounts) (s : SystemListing.Sample) :
    SortedMap Pid StackCounts :=
  m.upsert s.pid fun held => (held.getD SortedMap.empty).add s.stack s.count

/-- The table and the rejected lines after one more line. -/
def SystemListing.step (st : SortedMap Pid StackCounts × List String) (line : List Char) :
    SortedMap Pid StackCounts × List String :=
  if Text.allBlank line then st
  else
    match SystemListing.readSample line with
    | some s => (SystemListing.enter st.1 s, st.2)
    | none => (st.1, st.2 ++ [String.ofList line])

/-- The line is reported as it stands. -/
def SystemListing.Tells (line : List Char) (report : String) : Prop :=
  report = String.ofList line

/-- A system-wide listing tells what becomes of each of its lines. -/
theorem SystemListing.accounted (text : String) :
    Text.Accounted (Text.allBlank · = true) SystemListing.Reads SystemListing.Tells
      (Text.lines text.toList) (SystemListing.parse text).samples
      (SystemListing.parse text).rejected := by
  simp only [SystemListing.parse, List.filterMap_filter]
  induction Text.lines text.toList with
  | nil => exact .nil
  | cons line lines ih =>
    rw [List.filterMap_cons, List.filterMap_cons]
    cases hblank : Text.allBlank line with
    | true => exact .passed hblank ih
    | false =>
      have hpass : ¬ Text.allBlank line = true := by simp [hblank]
      cases hread : SystemListing.readSample line with
      | some s => exact .counted hpass (SystemListing.readSample_eq_some_iff.1 hread) ih
      | none =>
        refine .reported hpass (fun s hreads => ?_) rfl ih
        rw [SystemListing.readSample_eq_some_iff.2 hreads] at hread
        cases hread

/-- Going through lines adds their samples to the table, one by one, and appends those rejected. -/
theorem SystemListing.foldl_step {lines : List (List Char)} {samples : List SystemListing.Sample}
    {rejected : List String}
    (h : Text.Accounted (Text.allBlank · = true) SystemListing.Reads SystemListing.Tells lines
      samples rejected) (st : SortedMap Pid StackCounts × List String) :
    lines.foldl SystemListing.step st =
      (samples.foldl SystemListing.enter st.1, st.2 ++ rejected) := by
  refine h.foldl_eq ?_ ?_ ?_ st
  · intro st line hblank
    rw [SystemListing.step, if_pos hblank]
  · intro st line s hblank hreads
    rw [SystemListing.step, if_neg hblank, SystemListing.readSample_eq_some_iff.2 hreads]
  · rintro st line report hblank hreads rfl
    have hread : SystemListing.readSample line = none := by
      apply Option.eq_none_iff_forall_ne_some.2
      intro s hs
      exact hreads s (SystemListing.readSample_eq_some_iff.1 hs)
    rw [SystemListing.step, if_neg hblank, hread]

/-- A process has the samples that its lines gave. -/
theorem SystemListing.get?_enter_all (samples : List SystemListing.Sample) (pid : Pid) :
    (samples.foldl SystemListing.enter SortedMap.empty).get? pid =
      let own := samples.filter fun s => s.pid = pid
      if own = [] then none else some (.ofList (own.map fun s => (s.stack, s.count))) := by
  -- the last sample of the list is the last one that is entered
  induction samples using List.reverseRecOn with
  | nil => rfl
  | append_singleton samples s ih =>
    rw [List.foldl_append, List.foldl_cons, List.foldl_nil, SystemListing.enter,
      SortedMap.get?_upsert]
    by_cases hpid : pid = s.pid
    case neg =>
      rw [if_neg hpid, ih]
      simp [Ne.symm hpid]
    case pos =>
      have hheld : ((samples.foldl SystemListing.enter SortedMap.empty).get? s.pid).getD
          SortedMap.empty =
            .ofList ((samples.filter fun t => t.pid = s.pid).map fun t => (t.stack, t.count)) := by
        rw [← hpid, ih]
        dsimp only
        split
        next hown =>
          rw [hown]
          rfl
        next => rfl
      rw [if_pos hpid, hheld, hpid]
      simp [StackCounts.ofList]

theorem SystemListing.get?_counts (l : SystemListing) (pid : Pid) :
    l.counts.get? pid =
      let own := l.samples.filter fun s => s.pid = pid
      if own = [] then none else some (.ofList (own.map fun s => (s.stack, s.count))) :=
  SystemListing.get?_enter_all l.samples pid

theorem SystemListing.mem_keys_counts_iff {l : SystemListing} {pid : Pid} :
    pid ∈ l.counts.keys ↔ ∃ s ∈ l.samples, s.pid = pid := by
  rw [SortedMap.mem_keys_iff, SystemListing.get?_counts]
  dsimp only
  split
  next hnone =>
    have hno := List.filter_eq_nil_iff.1 hnone
    simp only [decide_eq_true_eq] at hno
    simpa using hno
  next hsome =>
    obtain ⟨s, hs⟩ := List.exists_mem_of_ne_nil _ hsome
    rw [List.mem_filter, decide_eq_true_eq] at hs
    exact iff_of_true ⟨_, rfl⟩ ⟨s, hs⟩

theorem SystemListing.held?_counts (l : SystemListing) (pid : Pid) (stack : String) :
    SystemListing.held? l.counts pid stack =
      Count.sum? ((l.samples.filter fun s => s.pid = pid ∧ s.stack = stack).map (·.count)) := by
  have hown : (l.samples.filter fun s => s.pid = pid ∧ s.stack = stack) =
      (l.samples.filter fun s => s.pid = pid).filter fun s => s.stack = stack := by
    rw [List.filter_filter]
    simp [and_comm]
  rw [SystemListing.held?, SystemListing.get?_counts, hown]
  dsimp only
  split
  next hnone =>
    rw [hnone]
    rfl
  next =>
    rw [Option.bind_some, StackCounts.get?_ofList_eq_sum?, List.filter_map, List.map_map]
    rfl

theorem SystemListing.held?_counts_eq_none_iff {l : SystemListing} {pid : Pid} {stack : String} :
    SystemListing.held? l.counts pid stack = none ↔
      ∀ s ∈ l.samples, ¬ (s.pid = pid ∧ s.stack = stack) := by
  rw [SystemListing.held?_counts, Count.sum?_eq_none_iff, List.map_eq_nil_iff,
    List.filter_eq_nil_iff]
  simp only [decide_eq_true_eq]

/-- What a system-wide listing has read of a text and reported about it accounts for all its lines.
    `loop` is the reader that goes through the text line by line. -/
structure SystemListing.AccountsFor (l : SystemListing) (text : String) : Prop where
  lines : Text.Accounted (Text.allBlank · = true) SystemListing.Reads SystemListing.Tells
    (Text.lines text.toList) l.samples l.rejected
  number : (Text.lines text.toList).countP (fun line => ¬ Text.allBlank line = true) =
    l.samples.length + l.rejected.length
  processes : ∀ pid, pid ∈ l.counts.keys ↔ ∃ s ∈ l.samples, s.pid = pid
  counts : ∀ pid stack, SystemListing.held? l.counts pid stack =
    Count.sum? ((l.samples.filter fun s => s.pid = pid ∧ s.stack = stack).map (·.count))
  notices : l.notices =
    if l.rejected = [] then [] else [.badLines l.rejected.length (l.rejected.take 8)]
  loop : (Text.lines text.toList).foldl SystemListing.step (.empty, []) = (l.counts, l.rejected)

theorem SystemListing.accountsFor (text : String) : (SystemListing.parse text).AccountsFor text where
  lines := SystemListing.accounted text
  number := (SystemListing.accounted text).countP_eq
  processes _ := SystemListing.mem_keys_counts_iff
  counts := (SystemListing.parse text).held?_counts
  notices := by
    rw [SystemListing.notices, Notice.shownLines]
    exact if_congr List.isEmpty_iff rfl rfl
  loop := by
    rw [SystemListing.foldl_step (SystemListing.accounted text), List.nil_append]
    rfl

/-! ## Joined listings -/

theorem Listing.samples_append {left : String} (h : left.toList.getLast? ≠ some '\r')
    (right : String) : (Listing.parse (left ++ "\n" ++ right)).samples =
      (Listing.parse left).samples ++ (Listing.parse right).samples := by
  have htext : (left ++ "\n" ++ right).toList = left.toList ++ '\n' :: right.toList := by simp
  simp only [Listing.parse, htext]
  exact Text.filterMap_lines_append (by rw [Listing.classify_nil]; rfl) h right.toList

theorem SystemListing.samples_append {left : String} (h : left.toList.getLast? ≠ some '\r')
    (right : String) : (SystemListing.parse (left ++ "\n" ++ right)).samples =
      (SystemListing.parse left).samples ++ (SystemListing.parse right).samples := by
  have htext : (left ++ "\n" ++ right).toList = left.toList ++ '\n' :: right.toList := by simp
  simp only [SystemListing.parse, htext, List.filterMap_filter]
  exact Text.filterMap_lines_append rfl h right.toList

/-- Both readers account for every line of every text. Texts that are joined by a line feed have the
    samples of both, stack by stack and process by process, unless the first one ends in a carriage
    return. -/
theorem Listing.accounts_add :
    (∀ text, (Listing.parse text).AccountsFor text ∧ (SystemListing.parse text).AccountsFor text) ∧
    ∀ left right : String, left.toList.getLast? ≠ some '\r' →
      (∀ root stack, ((Listing.parse (left ++ "\n" ++ right)).counts root).get? stack =
        Option.merge (· + ·) (((Listing.parse left).counts root).get? stack)
          (((Listing.parse right).counts root).get? stack)) ∧
      (∀ pid, pid ∈ (SystemListing.parse (left ++ "\n" ++ right)).counts.keys ↔
        pid ∈ (SystemListing.parse left).counts.keys ∨
          pid ∈ (SystemListing.parse right).counts.keys) ∧
      ∀ pid stack,
        SystemListing.held? (SystemListing.parse (left ++ "\n" ++ right)).counts pid stack =
          Option.merge (· + ·) (SystemListing.held? (SystemListing.parse left).counts pid stack)
            (SystemListing.held? (SystemListing.parse right).counts pid stack) := by
  refine ⟨fun text => ⟨Listing.accountsFor text, SystemListing.accountsFor text⟩, ?_⟩
  intro left right h
  refine ⟨fun root stack => ?_, fun pid => ?_, fun pid stack => ?_⟩
  · simp only [Listing.get?_counts, Listing.samples_append h, List.filter_append, List.map_append,
      Count.sum?_append]
  · simp only [SystemListing.mem_keys_counts_iff, SystemListing.samples_append h, List.mem_append,
      or_and_right, exists_or]
  · simp only [SystemListing.held?_counts, SystemListing.samples_append h, List.filter_append,
      List.map_append, Count.sum?_append]

/-- A stack of one process with the largest count already, and two lines that are rejected. -/
theorem Listing.accounts_add_of_largest :
    let left := "x-1/2;a 18446744073709551615\n\nx-1 2"
    let right := "x-1/3;a 7\n# x"
    left.toList.getLast? ≠ some '\r' ∧
      ((Listing.parse (left ++ "\n" ++ right)).counts (some "java")).get? "java;x-1/3;a" =
        some (.ofNat 7) ∧
      SystemListing.held? (SystemListing.parse (left ++ "\n" ++ right)).counts 1 "x;a" =
        some (.ofNat Count.limit) := by
  intro left right
  have hleft : left.toList.getLast? ≠ some '\r' := by decide
  obtain ⟨hone, -, hsystem⟩ := Listing.accounts_add.2 left right hleft
  exact ⟨hleft, (hone (some "java") "java;x-1/3;a").trans (by decide +kernel),
    (hsystem 1 "x;a").trans (by decide +kernel)⟩

end FoldedStacks
