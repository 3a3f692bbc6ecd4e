-- SUMMARY: Lines survive being joined and split: which texts are one line, the lines of a text made of such, and the lines of two texts that are joined.
import Mathlib
import FoldedStacks.Text.Lines
import FoldedStacks.Text.Split

/-!
# Splitting joined lines

A line feed in a line, or a carriage return at its end, would be taken for a line end. Without them
a list of lines that are not empty is read back from its joined text. Two texts that are joined by a
line feed have the lines of both.
-/

namespace FoldedStacks

/-- The text is read back as one line wherever it stands. -/
structure Text.IsLine (cs : List Char) : Prop where
  ne_nil : cs ≠ []
  lineFeedFree : '\n' ∉ cs
  no_return : cs.getLast? ≠ some '\r'

/-- A character that ends no line belongs to the line that begins behind it. -/
theorem Text.lines_cons {c : Char} {cs l : List Char} {ls : List (List Char)} (hfeed : c ≠ '\n')
    (hreturn : c = '\r' → cs.head? ≠ some '\n') (h : Text.lines cs = l :: ls) :
    Text.lines (c :: cs) = (c :: l) :: ls := by
  rw [Text.lines, h]
  · exact hfeed
  · intro rest hc hcs
    exact hreturn hc (by rw [hcs]; rfl)

/-- The last line needs no line feed behind it. -/
theorem Text.lines_of_not_mem {cs : List Char} (hne : cs ≠ []) (h : '\n' ∉ cs) :
    Text.lines cs = [cs] := by
  -- the last character is a line, and every other one joins the line behind it
  induction cs with
  | nil => exact absurd rfl hne
  | cons c cs ih =>
    have hc : c ≠ '\n' := fun hc => h (by simp [hc])
    have hcs : '\n' ∉ cs := fun hcs => h (by simp [hcs])
    cases cs with
    | nil =>
      rw [Text.lines, Text.lines_nil]
      · exact hc
      · intro rest _ hrest
        exact absurd hrest (by simp)
    | cons d ds =>
      exact Text.lines_cons hc (fun _ hhead => hcs (List.mem_of_mem_head? hhead)) (ih (by simp) hcs)

theorem Text.lines_append_lineFeed {cs rest : List Char} (h : '\n' ∉ cs)
    (hreturn : cs.getLast? ≠ some '\r') :
    Text.lines (cs ++ '\n' :: rest) = cs :: Text.lines rest := by
  induction cs with
  | nil => exact Text.lines_lineFeed rest
  | cons c cs ih =>
    have hc : c ≠ '\n' := fun hc => h (by simp [hc])
    have hcs : '\n' ∉ cs := fun hcs => h (by simp [hcs])
    have hfirst : c = '\r' → (cs ++ '\n' :: rest).head? ≠ some '\n' := by
      rintro rfl hhead
      cases cs with
      | nil => exact hreturn rfl
      | cons d ds => exact hcs (List.mem_of_mem_head? (by simpa using hhead))
    have hlast : cs.getLast? ≠ some '\r' := by
      cases cs with
      | nil => simp
      | cons d ds => simpa [List.getLast?_cons_cons] using hreturn
    exact Text.lines_cons hc hfirst (ih hcs hlast)

/-! ## Texts by their lines -/

/-- A text is empty, or one line without an end, or a line with its feed in front of a text. -/
@[elab_as_elim] theorem Text.lineInduction {motive : List Char → Prop} (nil : motive [])
    (last : ∀ line, line ≠ [] → '\n' ∉ line → motive line)
    (feed : ∀ line rest, '\n' ∉ line → motive rest → motive (line ++ '\n' :: rest))
    (cs : List Char) : motive cs := by
  induction hlength : cs.length using Nat.strong_induction_on generalizing cs with
  | _ n ih =>
    cases hsplit : Text.splitFirst '\n' cs with
    | none =>
      by_cases hcs : cs = []
      · rw [hcs]
        exact nil
      · exact last cs hcs (Text.splitFirst_eq_none_iff.1 hsplit)
    | some parts =>
      obtain ⟨rfl, hline⟩ := Text.splitFirst_eq_some_iff.1 hsplit
      refine feed _ _ hline (ih _ ?_ _ rfl)
      rw [← hlength, List.length_append, List.length_cons]
      omega

/-- A carriage return at the end of a line belongs to the line end. -/
def Text.chopReturn (line : List Char) : List Char :=
  if line.getLast? = some '\r' then line.dropLast else line

theorem Text.lines_append_returnFeed {line : List Char} (h : '\n' ∉ line) (rest : List Char) :
    Text.lines (line ++ '\r' :: '\n' :: rest) = line :: Text.lines rest := by
  induction line with
  | nil => rw [List.nil_append, Text.lines]
  | cons c cs ih =>
    obtain ⟨hc, hcs⟩ := List.ne_and_not_mem_of_not_mem_cons h
    refine Text.lines_cons (Ne.symm hc) (fun _ => ?_) (ih hcs)
    cases cs with
    | nil => simp
    | cons d ds => simpa using fun hd : d = '\n' => hcs (by simp [hd])

theorem Text.lines_append_feed {line : List Char} (h : '\n' ∉ line) (rest : List Char) :
    Text.lines (line ++ '\n' :: rest) = Text.chopReturn line :: Text.lines rest := by
  unfold Text.chopReturn
  split
  next hreturn =>
    obtain ⟨front, rfl⟩ := List.getLast?_eq_some_iff.1 hreturn
    rw [List.dropLast_concat, List.append_assoc]
    exact Text.lines_append_returnFeed (fun hin => h (List.mem_append_left _ hin)) rest
  next hreturn => exact Text.lines_append_lineFeed h hreturn

/-- Two texts that are joined by a line feed have the lines of both. An empty line may stand between
    them, where the first text ended in a line feed. -/
theorem Text.exists_lines_append {left : List Char} (h : left.getLast? ≠ some '\r')
    (right : List Char) : ∃ seam, Text.lines (left ++ '\n' :: right) =
      Text.lines left ++ seam ++ Text.lines right ∧ ∀ l ∈ seam, l = [] := by
  induction left using Text.lineInduction with
  | nil => exact ⟨[[]], by simp⟩
  | last line hne hline =>
    refine ⟨[], ?_, by simp⟩
    rw [Text.lines_append_lineFeed hline h, Text.lines_of_not_mem hne hline]
    rfl
  | feed line rest hline ih =>
    have hrest : rest.getLast? ≠ some '\r' := by
      intro hreturn
      exact h (by rw [List.getLast?_append_cons, List.getLast?_cons, hreturn]; rfl)
    obtain ⟨seam, hlines, hempty⟩ := ih hrest
    refine ⟨seam, ?_, hempty⟩
    rw [List.append_assoc, List.cons_append, Text.lines_append_feed hline, hlines,
      Text.lines_append_feed hline]
    rfl

/-- What is read from the lines of joined texts, when nothing is read from an empty line. -/
theorem Text.filterMap_lines_append {α : Type} {f : List Char → Option α} (hf : f [] = none)
    {left : List Char} (h : left.getLast? ≠ some '\r') (right : List Char) :
    (Text.lines (left ++ '\n' :: right)).filterMap f =
      (Text.lines left).filterMap f ++ (Text.lines right).filterMap f := by
  obtain ⟨seam, hlines, hempty⟩ := Text.exists_lines_append h right
  have hseam : seam.filterMap f = [] := by
    apply List.filterMap_eq_nil_iff.2
    intro l hl
    rw [hempty l hl, hf]
  rw [hlines, List.filterMap_append, List.filterMap_append, hseam, List.append_nil]

/-! ## Joined lines -/

@[simp] theorem Text.unlines_singleton (l : String) : Text.unlines [l] = l :=
  String.intercalate_singleton

theorem Text.toList_unlines_cons_cons (l l' : String) (ls : List String) :
    (Text.unlines (l :: l' :: ls)).toList =
      l.toList ++ '\n' :: (Text.unlines (l' :: ls)).toList := by
  unfold Text.unlines
  simp [String.intercalate_cons_cons]

/-- Of lines that were joined, only an empty one at the end is not read back. -/
theorem Text.exists_lines_unlines {ls : List String}
    (h : ∀ l ∈ ls, '\n' ∉ l.toList ∧ l.toList.getLast? ≠ some '\r') :
    ∃ lost, ls.map String.toList = Text.lines (Text.unlines ls).toList ++ lost ∧
      ∀ l ∈ lost, l = [] := by
  induction ls with
  | nil => exact ⟨[], by simp [Text.unlines]⟩
  | cons l ls ih =>
    obtain ⟨hfeed, hreturn⟩ := h l (by simp)
    cases ls with
    | nil =>
      by_cases hl : l.toList = []
      · exact ⟨[[]], by simp [hl]⟩
      · exact ⟨[], by simp [Text.lines_of_not_mem hl hfeed]⟩
    | cons l' ls =>
      obtain ⟨lost, hlost, hempty⟩ := ih fun m hm => h m (List.mem_cons_of_mem l hm)
      refine ⟨lost, ?_, hempty⟩
      rw [Text.toList_unlines_cons_cons, Text.lines_append_lineFeed hfeed hreturn, List.map_cons,
        hlost, List.cons_append]

/-- The lines of a text that was joined from lines. -/
theorem Text.lines_unlines {ls : List String} (h : ∀ l ∈ ls, Text.IsLine l.toList) :
    Text.lines (Text.unlines ls).toList = ls.map String.toList := by
  obtain ⟨lost, hlost, hempty⟩ :=
    Text.exists_lines_unlines fun l hl => ⟨(h l hl).lineFeedFree, (h l hl).no_return⟩
  have hnone : lost = [] := by
    apply List.eq_nil_iff_forall_not_mem.2
    intro cs hcs
    have hmem : cs ∈ ls.map String.toList := by simp [hlost, hcs]
    obtain ⟨l, hl, heq⟩ := List.mem_map.1 hmem
    exact (h l hl).ne_nil (heq.trans (hempty cs hcs))
  simp [hlost, hnone]

/-- The first line of a text that was joined from lines, whatever the other ones are. -/
theorem Text.exists_lines_unlines_cons {l : String} (h : Text.IsLine l.toList) (ls : List String) :
    ∃ rest, Text.lines (Text.unlines (l :: ls)).toList = l.toList :: rest := by
  cases ls with
  | nil =>
    rw [Text.unlines_singleton]
    exact ⟨[], Text.lines_of_not_mem h.ne_nil h.lineFeedFree⟩
  | cons l' ls =>
    rw [Text.toList_unlines_cons_cons, Text.lines_append_lineFeed h.lineFeedFree h.no_return]
    exact ⟨_, rfl⟩

/-! ## Joining again -/

/-- A text without the line feed at its end, if it ends in one. -/
def Text.chopFeed (cs : List Char) : List Char :=
  if cs.getLast? = some '\n' then cs.dropLast else cs

theorem Text.chopFeed_of_not_mem {cs : List Char} (h : '\n' ∉ cs) : Text.chopFeed cs = cs :=
  if_neg fun hlast => h (List.mem_of_getLast? hlast)

theorem Text.chopFeed_append_lineFeed (cs : List Char) {behind : List Char} (h : behind ≠ []) :
    Text.chopFeed (cs ++ '\n' :: behind) = cs ++ '\n' :: Text.chopFeed behind := by
  obtain ⟨c, behind, rfl⟩ := List.exists_cons_of_ne_nil h
  unfold Text.chopFeed
  rw [List.getLast?_append_cons, List.getLast?_cons_cons]
  split
  · rw [List.dropLast_append_cons, List.dropLast_cons_cons]
  · rfl

theorem Text.lines_eq_nil_iff {cs : List Char} : Text.lines cs = [] ↔ cs = [] := by
  constructor
  · intro h
    fun_cases Text.lines cs <;> simp_all [Text.lines]
  · rintro rfl
    exact Text.lines_nil

/-- Joined lines that are split and joined again lose a line feed at the end. -/
theorem Text.unlines_lines_unlines {ls : List String}
    (h : ∀ l ∈ ls, '\n' ∉ l.toList ∧ l.toList.getLast? ≠ some '\r') :
    (Text.unlines ((Text.lines (Text.unlines ls).toList).map String.ofList)).toList =
      Text.chopFeed (Text.unlines ls).toList := by
  induction ls with
  | nil => rfl
  | cons l ls ih =>
    obtain ⟨hfeed, hreturn⟩ := h l List.mem_cons_self
    cases ls with
    | nil =>
      rw [Text.unlines_singleton, Text.chopFeed_of_not_mem hfeed]
      by_cases hl : l.toList = []
      · rw [hl, Text.lines_nil]
        rfl
      · rw [Text.lines_of_not_mem hl hfeed, List.map_singleton, String.ofList_toList,
          Text.unlines_singleton]
    | cons l' ls =>
      have hrest := ih fun m hm => h m (List.mem_cons_of_mem l hm)
      rw [Text.toList_unlines_cons_cons, Text.lines_append_lineFeed hfeed hreturn, List.map_cons,
        String.ofList_toList]
      cases hlines : Text.lines (Text.unlines (l' :: ls)).toList with
      | nil =>
        -- the feed behind the line opens no further one
        rw [Text.lines_eq_nil_iff.1 hlines, List.map_nil, Text.unlines_singleton]
        simp [Text.chopFeed]
      | cons first others =>
        have hbehind : (Text.unlines (l' :: ls)).toList ≠ [] := by
          intro hnil
          rw [hnil, Text.lines_nil] at hlines
          cases hlines
        rw [hlines, List.map_cons] at hrest
        rw [List.map_cons, Text.toList_unlines_cons_cons, hrest,
          Text.chopFeed_append_lineFeed _ hbehind]

end FoldedStacks
