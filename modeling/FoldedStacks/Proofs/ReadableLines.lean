-- SUMMARY: A line of an artifact tells its stack and its count: whatever frame is spliced in and whatever the frames are, the line is read back.
import Mathlib
import FoldedStacks.Proofs.ArtifactListing

/-!
# Lines that are read back

What is added to the stacks of a process is the same for all of them. Who knows it finds the stack
and the count again in every line: the count stands behind the last space, the spliced frame behind
the first semicolon of the stack. So no two samples of a process have one line.
-/

namespace FoldedStacks

/-! ## Spliced frames -/

/-- A stack without the frame behind its root frame. -/
def Enrichment.unspliceFrame (frame text : String) : String :=
  (Text.splitFirst ';' text.toList).elim text fun parts =>
    String.ofList (parts.1 ++ parts.2.drop frame.toList.length)

theorem Enrichment.unspliceFrame_spliceFrame (frame stack : String) :
    Enrichment.unspliceFrame frame (Enrichment.spliceFrame frame stack) = stack := by
  obtain ⟨root, behind, hstack, hroot, hspliced⟩ :=
    Enrichment.exists_toList_spliceFrame frame stack
  have hsplit : Text.splitFirst ';' (Enrichment.spliceFrame frame stack).toList =
      some (root, frame.toList ++ behind) :=
    Text.splitFirst_eq_some_iff.2 ⟨hspliced, hroot⟩
  rw [Enrichment.unspliceFrame, hsplit, Option.elim_some, List.drop_left, ← hstack,
    String.ofList_toList]

/-! ## Stacks and lines -/

namespace Enrichment

variable (e : Enrichment) (o : Options)

/-- The frame that is spliced in under some options. -/
def spliced : Option String :=
  if o.applicationIdentifiers then e.appid else .none

theorem spliced_eq_none_iff :
    e.spliced o = .none ↔ e.appid = .none ∨ o.applicationIdentifiers = false := by
  rw [spliced]
  cases o.applicationIdentifiers <;> simp

theorem stackText_eq (stack : String) :
    e.stackText o stack = e.applicationField ++ e.containerField ++
      (e.spliced o).elim stack (spliceFrame · stack) := by
  rw [stackText, spliced]
  cases e.appid with
  | none => cases o.applicationIdentifiers <;> rfl
  | some frame => cases o.applicationIdentifiers <;> rfl

/-- The stack that a text is written for. -/
def readStack (text : String) : String :=
  let stack := String.ofList
    (text.toList.drop (e.applicationField ++ e.containerField).toList.length)
  (e.spliced o).elim stack (unspliceFrame · stack)

theorem readStack_stackText (stack : String) : e.readStack o (e.stackText o stack) = stack := by
  have hdrop : ∀ fields rest : String,
      String.ofList ((fields ++ rest).toList.drop fields.toList.length) = rest := by
    intro fields rest
    rw [String.toList_append, List.drop_left, String.ofList_toList]
  rw [readStack, stackText_eq, hdrop]
  cases e.spliced o with
  | none => rfl
  | some frame => exact unspliceFrame_spliceFrame frame stack

/-- The sample that a line is written for. -/
def readLine (line : String) : Option (String × Count) :=
  (Text.splitLast ' ' line.toList).bind fun parts =>
    (Count.read parts.2).toOption.map fun n => (e.readStack o (String.ofList parts.1), n)

theorem splitLast_line (stack : String) (n : Count) :
    Text.splitLast ' ' (e.line o stack n).toList =
      some ((e.stackText o stack).toList, Text.numeral n.val) :=
  Listing.splitLast_sampleLine (e.stackText o stack, n)

theorem readLine_line (stack : String) (n : Count) :
    e.readLine o (e.line o stack n) = some (stack, n) := by
  rw [readLine, splitLast_line, Option.bind_some, Count.read_numeral, String.ofList_toList,
    readStack_stackText]
  rfl

end Enrichment

/-- The lines that are written for the stacks of a process are read back, whatever the stacks, the
    counts and the spliced frame are: neither two samples have one line, nor two stacks one text in
    front of the count. Without a spliced frame a line is its fields, the stack and the count. -/
theorem Enrichment.lines_readable (e : Enrichment) (o : Options) :
    (∀ stack n, e.readLine o (e.line o stack n) = some (stack, n)) ∧
      (∀ stack stack' n n', e.line o stack n = e.line o stack' n' ↔ stack = stack' ∧ n = n') ∧
      (∀ stack stack', e.stackText o stack = e.stackText o stack' ↔ stack = stack') ∧
      (∀ stack n, Text.splitLast ' ' (e.line o stack n).toList =
        some ((e.stackText o stack).toList, Text.numeral n.val)) ∧
      (∀ p : Profile, (p.lines o e).Nodup) ∧
      ((e.appid = .none ∨ o.applicationIdentifiers = false) → ∀ stack n, e.line o stack n =
        e.applicationField ++ e.containerField ++ stack ++ " " ++
          String.ofList (Text.numeral n.val)) := by
  have hline : ∀ stack stack' n n', e.line o stack n = e.line o stack' n' ↔
      stack = stack' ∧ n = n' := by
    intro stack stack' n n'
    constructor
    · intro heq
      have hread := e.readLine_line o stack n
      rw [heq, e.readLine_line, Option.some.injEq, Prod.mk.injEq] at hread
      exact ⟨hread.1.symm, hread.2.symm⟩
    · rintro ⟨rfl, rfl⟩
      rfl
  refine ⟨e.readLine_line o, hline, fun stack stack' => ⟨fun heq => ?_, congrArg _⟩,
    e.splitLast_line o, fun p => ?_, fun hnone stack n => ?_⟩
  · rw [← e.readStack_stackText o stack, heq, e.readStack_stackText]
  · have hentries : p.counts.entries.Nodup := List.Nodup.of_map Prod.fst p.counts.nodup_keys
    refine hentries.map fun s s' heq => ?_
    obtain ⟨hstack, hcount⟩ := (hline s.1 s'.1 s.2 s'.2).1 heq
    exact Prod.ext hstack hcount
  · rw [Enrichment.line, Enrichment.stackText_eq, (e.spliced_eq_none_iff o).2 hnone]
    rfl

/-- A stack that has the spliced frame already and one that gets it for the first time, in both of
    them a frame with a semicolon and a space; and an empty stack without a spliced frame. -/
theorem Enrichment.lines_readable_of_imitation :
    let e : Enrichment := ⟨some "appid: a; b", "2;", "box 1;"⟩
    let bare : Options := ⟨.v2, true, false, true⟩
    e.line .all "java" ⟨7, by decide⟩ = "2;box 1;java;appid: a; b 7" ∧
      e.line .all "java;appid: a; b" ⟨7, by decide⟩ =
        "2;box 1;java;appid: a; b;appid: a; b 7" ∧
      e.line .all "java" ⟨7, by decide⟩ ≠ e.line .all "java;appid: a; b" ⟨7, by decide⟩ ∧
      (e.appid = .none ∨ bare.applicationIdentifiers = false) ∧
      e.line bare "" ⟨0, by decide⟩ = "2;box 1; 0" := by
  intro e bare
  have hbare : e.appid = .none ∨ bare.applicationIdentifiers = false := .inr rfl
  obtain ⟨-, hline, -⟩ := Enrichment.lines_readable e .all
  obtain ⟨-, -, -, -, -, hplain⟩ := Enrichment.lines_readable e bare
  refine ⟨by decide, by decide, fun heq => ?_, hbare, (hplain hbare "" _).trans (by decide)⟩
  exact absurd ((hline _ _ _ _).1 heq).1 (by decide)

end FoldedStacks
