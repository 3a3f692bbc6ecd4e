-- SUMMARY: Cutting a text at the first or the last occurrence of a character.
/-!
# Splitting at a separator

A text cut in two at the first or at the last occurrence of a character. The separator itself is
in neither part, and there are no parts when it does not occur.
-/

namespace FoldedStacks

/-- The parts before and after the first `sep`. -/
def Text.splitFirst (sep : Char) : List Char → Option (List Char × List Char)
  | [] => none
  | c :: cs =>
    if c = sep then some ([], cs)
    else (Text.splitFirst sep cs).map fun (l, r) => (c :: l, r)

theorem Text.splitFirst_eq_some_iff {sep : Char} {cs l r : List Char} :
    Text.splitFirst sep cs = some (l, r) ↔ cs = l ++ sep :: r ∧ sep ∉ l := by
  induction cs generalizing l with
  | nil => simp [Text.splitFirst]
  | cons c cs ih =>
    by_cases hc : c = sep
    · subst hc
      cases l with
      | nil => simp [Text.splitFirst, eq_comm]
      | cons d ds => simp only [Text.splitFirst, ↓reduceIte]; grind
    · cases l with
      | nil => simp [Text.splitFirst, hc]
      | cons d ds =>
        simp only [Text.splitFirst, hc, ↓reduceIte, Option.map_eq_some_iff, Prod.exists]
        grind

theorem Text.splitFirst_eq_none_iff {sep : Char} {cs : List Char} :
    Text.splitFirst sep cs = none ↔ sep ∉ cs := by
  induction cs with
  | nil => simp [Text.splitFirst]
  | cons c cs ih =>
    by_cases hc : c = sep
    · simp [Text.splitFirst, hc]
    · simp [Text.splitFirst, hc, ih, Ne.symm hc]

/-- The parts before and after the last `sep`. -/
def Text.splitLast (sep : Char) : List Char → Option (List Char × List Char)
  | [] => none
  | c :: cs =>
    match Text.splitLast sep cs with
    | some (l, r) => some (c :: l, r)
    | none => if c = sep then some ([], cs) else none

theorem Text.splitLast_eq_none_iff {sep : Char} {cs : List Char} :
    Text.splitLast sep cs = none ↔ sep ∉ cs := by
  induction cs with
  | nil => simp [Text.splitLast]
  | cons c cs ih =>
    rw [Text.splitLast]
    split
    next l r h => simp only [reduceCtorEq, false_iff]; simp [h] at ih; grind
    next h => grind

theorem Text.splitLast_eq_some_iff {sep : Char} {cs l r : List Char} :
    Text.splitLast sep cs = some (l, r) ↔ cs = l ++ sep :: r ∧ sep ∉ r := by
  induction cs generalizing l with
  | nil => simp [Text.splitLast]
  | cons c cs ih =>
    rw [Text.splitLast]
    split
    next l' r' h =>
      have hmem : sep ∈ cs := Classical.byContradiction fun hno => by
        simp [Text.splitLast_eq_none_iff.2 hno] at h
      cases l with
      | nil => grind
      | cons d ds => grind
    next h =>
      have hno := Text.splitLast_eq_none_iff.1 h
      cases l with
      | nil => grind
      | cons d ds => grind

end FoldedStacks
