-- SUMMARY: Error markers are found exactly where the language of markers has them, also by a search that goes by byte offsets, and no offset of that search lies outside a text or inside a character.
import Mathlib
import FoldedStacks.Stack.ErrorMarker

/-!
# The search for error markers

A marker is looked for by the byte offsets of two words: the beginning of a marker frame, and what
separates a reason from what failed. Occurrences of a word are counted off from the left, and one
that overlaps the one before it would be missed. Neither word can overlap itself.
-/

namespace FoldedStacks

/-! ## Byte offsets -/

/-- The length of a text in bytes. -/
def Text.byteLength (cs : List Char) : Nat :=
  (cs.map Char.utf8Size).sum

@[simp] theorem Text.byteLength_nil : Text.byteLength [] = 0 := rfl

@[simp] theorem Text.byteLength_cons (c : Char) (cs : List Char) :
    Text.byteLength (c :: cs) = c.utf8Size + Text.byteLength cs := rfl

@[simp] theorem Text.byteLength_append (cs ds : List Char) :
    Text.byteLength (cs ++ ds) = Text.byteLength cs + Text.byteLength ds := by
  simp [Text.byteLength]

theorem Text.byteLength_pos_iff {cs : List Char} : 0 < Text.byteLength cs ↔ cs ≠ [] := by
  cases cs with
  | nil => simp
  | cons c cs =>
    have hc := c.utf8Size_pos
    simp only [Text.byteLength_cons, ne_eq, reduceCtorEq, not_false_eq_true, iff_true]
    omega

/-- The text from a byte offset on. There is none past its end or inside a character. -/
def Text.fromByte? : List Char → Nat → Option (List Char)
  | cs, 0 => some cs
  | [], _ + 1 => none
  | c :: cs, n + 1 =>
    if c.utf8Size ≤ n + 1 then Text.fromByte? cs (n + 1 - c.utf8Size) else none

@[simp] theorem Text.fromByte?_zero (cs : List Char) : Text.fromByte? cs 0 = some cs := by
  rw [Text.fromByte?]

theorem Text.fromByte?_append (before behind : List Char) :
    Text.fromByte? (before ++ behind) (Text.byteLength before) = some behind := by
  induction before with
  | nil => exact Text.fromByte?_zero behind
  | cons c before ih =>
    obtain ⟨n, hn⟩ : ∃ n, c.utf8Size + Text.byteLength before = n + 1 :=
      Nat.exists_eq_succ_of_ne_zero (by have := c.utf8Size_pos; omega)
    have hrest : n + 1 - c.utf8Size = Text.byteLength before := by omega
    rw [List.cons_append, Text.byteLength_cons, hn, Text.fromByte?, if_pos (by omega), hrest, ih]

/-- What stands behind an occurrence of a word. -/
theorem Text.fromByte?_behind {cs before word behind : List Char}
    (h : cs = before ++ (word ++ behind)) :
    Text.fromByte? cs (Text.byteLength before + Text.byteLength word) = some behind := by
  rw [h, ← List.append_assoc, ← Text.byteLength_append]
  exact Text.fromByte?_append _ behind

/-! ## Occurrences of a word -/

/-- The byte offsets at which a word begins, from the left. An occurrence is passed over if it begins
    inside the one before it. The first `skip` characters belong to an occurrence, and
    `bytes` stand before the text. -/
def Text.matchOffsets (word : List Char) : Nat → Nat → List Char → List Nat
  | _, _, [] => []
  | skip + 1, bytes, c :: cs => Text.matchOffsets word skip (bytes + c.utf8Size) cs
  | 0, bytes, c :: cs =>
    if word.isPrefixOf (c :: cs) then
      bytes :: Text.matchOffsets word (word.length - 1) (bytes + c.utf8Size) cs
    else Text.matchOffsets word 0 (bytes + c.utf8Size) cs

/-- No end of the word is also its beginning, so that two occurrences cannot overlap. -/
def Text.Unbordered (word : List Char) : Prop :=
  ∀ k < word.length, 0 < k → (word.drop k).isPrefixOf word = false

instance : DecidablePred Text.Unbordered := fun word =>
  inferInstanceAs (Decidable (∀ k < word.length, 0 < k → (word.drop k).isPrefixOf word = false))

theorem Text.Unbordered.not_prefix_drop {word cs : List Char} (hword : Text.Unbordered word)
    (h : word <+: cs) {k : Nat} (hk : k < word.length) (hpos : 0 < k) : ¬ word <+: cs.drop k := by
  intro hlater
  -- the end of the first occurrence begins where the second one does
  have hend : word.drop k <+: word :=
    List.prefix_of_prefix_length_le (h.drop k) hlater (by simp)
  rw [← List.isPrefixOf_iff_prefix, hword k hk hpos] at hend
  exact absurd hend (by decide)

/-- All occurrences of a word that cannot overlap itself are found. -/
theorem Text.matchOffsets_eq {word : List Char} (hword : Text.Unbordered word) (hne : word ≠ [])
    {cs : List Char} {skip : Nat} (hskip : ∀ k < skip, ¬ word <+: cs.drop k) (bytes : Nat) :
    Text.matchOffsets word skip bytes cs =
      (Text.around word cs).map fun parts => bytes + Text.byteLength parts.1 := by
  induction cs generalizing skip bytes with
  | nil => simp [Text.matchOffsets, Text.around, hne]
  | cons c cs ih =>
    have hlater : ((Text.around word cs).map fun parts => (c :: parts.1, parts.2)).map
          (fun parts => bytes + Text.byteLength parts.1) =
        (Text.around word cs).map fun parts => bytes + c.utf8Size + Text.byteLength parts.1 := by
      simp [Function.comp_def, Nat.add_assoc]
    cases skip with
    | succ skip =>
      have hhere : word.isPrefixOf (c :: cs) = false := by
        rw [Bool.eq_false_iff, ne_eq, List.isPrefixOf_iff_prefix]
        exact hskip 0 (by omega)
      rw [Text.matchOffsets, ih (fun k hk => hskip (k + 1) (by omega)), Text.around, hhere, ← hlater]
      rfl
    | zero =>
      rw [Text.matchOffsets, Text.around]
      split
      next hhere =>
        -- the next occurrence begins behind this one
        have hclear : ∀ k < word.length - 1, ¬ word <+: cs.drop k := by
          intro k hk
          exact hword.not_prefix_drop (List.isPrefixOf_iff_prefix.1 hhere) (k := k + 1) (by omega)
            (by omega)
        rw [ih hclear, List.map_cons, hlater]
        rfl
      next => rw [ih (by simp), hlater]

theorem Text.anyM_map_eq_some {α β : Type} {xs : List α} {offset : α → β} {f : β → Option Bool}
    {g : α → Bool} (h : ∀ x ∈ xs, f (offset x) = some (g x)) :
    (xs.map offset).anyM f = some (xs.any g) := by
  induction xs with
  | nil => rfl
  | cons x xs ih =>
    obtain ⟨hx, hxs⟩ := List.forall_mem_cons.1 h
    rw [List.map_cons, List.anyM, hx, List.any_cons, ih hxs]
    cases g x <;> rfl

/-- A test of offsets that has an answer for each occurrence of a word has one for all of them. -/
theorem Text.anyM_matchOffsets {word cs : List Char} (hword : Text.Unbordered word) (hne : word ≠ [])
    {f : Nat → Option Bool} {g : List Char × List Char → Bool}
    (h : ∀ before behind, cs = before ++ (word ++ behind) →
      f (Text.byteLength before) = some (g (before, behind))) :
    (Text.matchOffsets word 0 0 cs).anyM f = some ((Text.around word cs).any g) := by
  rw [Text.matchOffsets_eq hword hne (by simp)]
  refine Text.anyM_map_eq_some ?_
  rintro ⟨before, behind⟩ hparts
  simpa using h before behind (Text.mem_around.1 hparts)

/-! ## The search -/

/-- The byte offset of the first `sep`. -/
def Text.find? (sep : Char) (cs : List Char) : Option Nat :=
  (Text.splitFirst sep cs).map fun parts => Text.byteLength parts.1

/-- Whether a reason stands behind one of the separators, and something before that one. -/
def ErrorMarker.findReason (cs : List Char) : Option Bool :=
  (Text.matchOffsets ": ".toList 0 0 cs).anyM fun offset => do
    if 0 < offset then
      let behind ← Text.fromByte? cs (offset + 2)
      return (Text.find? ']' behind).any (0 < ·)
    else return false

/-- Whether a stack has a marker frame, searched for by byte offsets. There is no answer if an offset
    of the search is none of the stack. -/
def ErrorMarker.find (stack : String) : Option Bool :=
  (Text.matchOffsets ";[Profiling ".toList 0 0 stack.toList).anyM fun offset => do
    let behind ← Text.fromByte? stack.toList (offset + Text.byteLength ";[Profiling ".toList)
    ErrorMarker.findReason behind

/-- Whether the only stack of a table is found to be a marker. -/
def StackCounts.findErrorMarker (s : StackCounts) : Option Bool :=
  match s.keys with
  | [stack] => ErrorMarker.find stack
  | _ => some false

theorem ErrorMarker.any_find? (cs : List Char) :
    (Text.find? ']' cs).any (0 < ·) = ErrorMarker.closesReason cs := by
  unfold Text.find? ErrorMarker.closesReason
  cases Text.splitFirst ']' cs with
  | none => rfl
  | some parts =>
    rw [Option.map_some, Option.any_some, Bool.eq_iff_iff, decide_eq_true_eq,
      Text.byteLength_pos_iff]
    simp

theorem ErrorMarker.findReason_eq (cs : List Char) :
    ErrorMarker.findReason cs = some (ErrorMarker.fills cs) := by
  refine Text.anyM_matchOffsets (by decide) (by decide) fun what behind hcs => ?_
  have hlength : Text.byteLength ": ".toList = 2 := by decide
  have hslice := Text.fromByte?_behind hcs
  rw [hlength] at hslice
  by_cases hwhat : what = []
  · simp [hwhat]
  · rw [if_pos (Text.byteLength_pos_iff.2 hwhat), hslice]
    simp [hwhat, ErrorMarker.any_find?]

theorem ErrorMarker.find_eq (stack : String) :
    ErrorMarker.find stack = some (ErrorMarker.marks stack) := by
  refine Text.anyM_matchOffsets (by decide) (by decide) fun before behind hstack => ?_
  rw [Text.fromByte?_behind hstack]
  exact ErrorMarker.findReason_eq behind

/-! ## The language of markers -/

/-- The stack has a marker frame below its root frame: what failed and the reason are given, and the
    reason ends at the first closing bracket. -/
def ErrorMarker.IsMarker (stack : String) : Prop :=
  ∃ root what reason behind : String,
    stack = root ++ ";[Profiling " ++ what ++ ": " ++ reason ++ "]" ++ behind ∧
      what ≠ "" ∧ reason ≠ "" ∧ ']' ∉ reason.toList

theorem ErrorMarker.closesReason_iff {cs : List Char} : ErrorMarker.closesReason cs = true ↔
    ∃ reason behind, cs = reason ++ ']' :: behind ∧ reason ≠ [] ∧ ']' ∉ reason := by
  unfold ErrorMarker.closesReason
  split
  next reason behind hsplit =>
    obtain ⟨hcs, hbracket⟩ := Text.splitFirst_eq_some_iff.1 hsplit
    rw [Bool.not_eq_true', List.isEmpty_eq_false_iff]
    constructor
    · intro hreason
      exact ⟨reason, behind, hcs, hreason, hbracket⟩
    · rintro ⟨reason', behind', hcs', hreason', hbracket'⟩
      -- there is only one first bracket
      have hsame := Text.splitFirst_eq_some_iff.2 ⟨hcs', hbracket'⟩
      rw [hsplit, Option.some.injEq, Prod.mk.injEq] at hsame
      rwa [hsame.1]
  next hsplit =>
    refine iff_of_false (by decide) ?_
    rintro ⟨reason, behind, rfl, -, -⟩
    exact Text.splitFirst_eq_none_iff.1 hsplit (by simp)

theorem ErrorMarker.fills_iff {cs : List Char} : ErrorMarker.fills cs = true ↔
    ∃ what reason behind, cs = what ++ (": ".toList ++ (reason ++ ']' :: behind)) ∧ what ≠ [] ∧
      reason ≠ [] ∧ ']' ∉ reason := by
  simp only [ErrorMarker.fills, List.any_eq_true, Prod.exists, Text.mem_around, Bool.and_eq_true,
    Bool.not_eq_true', List.isEmpty_eq_false_iff, ErrorMarker.closesReason_iff]
  constructor
  · rintro ⟨what, _, hcs, hwhat, reason, behind, rfl, hreason⟩
    exact ⟨what, reason, behind, hcs, hwhat, hreason⟩
  · rintro ⟨what, reason, behind, hcs, hwhat, hreason⟩
    exact ⟨what, _, hcs, hwhat, reason, behind, rfl, hreason⟩

theorem ErrorMarker.marks_iff {stack : String} :
    ErrorMarker.marks stack = true ↔ ErrorMarker.IsMarker stack := by
  simp only [ErrorMarker.marks, List.any_eq_true, Prod.exists, Text.mem_around,
    ErrorMarker.fills_iff]
  constructor
  · rintro ⟨root, _, hstack, what, reason, behind, rfl, hwhat, hreason, hbracket⟩
    refine ⟨.ofList root, .ofList what, .ofList reason, .ofList behind, ?_, ?_, ?_, ?_⟩
    · simp [String.ext_iff, hstack]
    · simpa [String.ext_iff] using hwhat
    · simpa [String.ext_iff] using hreason
    · simpa using hbracket
  · rintro ⟨root, what, reason, behind, rfl, hwhat, hreason, hbracket⟩
    refine ⟨root.toList, _, ?_, what.toList, reason.toList, behind.toList, rfl, ?_, ?_, hbracket⟩
    · simp
    · exact fun hnil => hwhat (String.toList_eq_nil_iff.1 hnil)
    · exact fun hnil => hreason (String.toList_eq_nil_iff.1 hnil)

theorem StackCounts.isErrorMarker_iff {s : StackCounts} :
    s.isErrorMarker = true ↔ ∃ stack, s.keys = [stack] ∧ ErrorMarker.IsMarker stack := by
  unfold StackCounts.isErrorMarker
  split
  next stack hkeys =>
    rw [ErrorMarker.marks_iff]
    constructor
    · intro hmarker
      exact ⟨stack, hkeys, hmarker⟩
    · rintro ⟨stack', hkeys', hmarker⟩
      rw [hkeys, List.singleton_inj] at hkeys'
      rwa [hkeys']
  next hkeys =>
    refine iff_of_false (by decide) ?_
    rintro ⟨stack, hstack, -⟩
    exact hkeys stack hstack

theorem StackCounts.findErrorMarker_eq (s : StackCounts) :
    s.findErrorMarker = some s.isErrorMarker := by
  unfold StackCounts.findErrorMarker StackCounts.isErrorMarker
  generalize s.keys = keys
  cases keys with
  | nil => rfl
  | cons stack others =>
    cases others with
    | nil => exact ErrorMarker.find_eq stack
    | cons => rfl

/-- A table is taken for the report of a profiler that failed exactly when its only stack is in the
    language of markers. The search by byte offsets has the same answer, and it has one for every
    table. -/
theorem StackCounts.isErrorMarker_iff_language (s : StackCounts) :
    (s.isErrorMarker = true ↔ ∃ stack, s.keys = [stack] ∧ ErrorMarker.IsMarker stack) ∧
      s.findErrorMarker = some s.isErrorMarker :=
  ⟨StackCounts.isErrorMarker_iff, s.findErrorMarker_eq⟩

end FoldedStacks
