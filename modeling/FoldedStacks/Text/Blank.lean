-- SUMMARY: Blank characters, blank lines and trimming.
/-!
# Blank characters

The characters that Unicode lists as `White_Space`, the blank lines made of them alone, and
trimming them off the end of a text.
-/

namespace FoldedStacks

/-- Unicode `White_Space`. Zero-width characters and the byte order mark are not in it. -/
def Text.isBlank (c : Char) : Bool :=
  let n := c.toNat
  (0x9 ≤ n && n ≤ 0xD) || n == 0x20 || n == 0x85 || n == 0xA0 || n == 0x1680 ||
    (0x2000 ≤ n && n ≤ 0x200A) || n == 0x2028 || n == 0x2029 || n == 0x202F || n == 0x205F ||
    n == 0x3000

/-- A text of blank characters only; the empty text is one. -/
def Text.allBlank (cs : List Char) : Bool :=
  cs.all Text.isBlank

/-- The text without the blank characters at its end. -/
def Text.trimEnd : List Char → List Char
  | [] => []
  | c :: cs =>
    match Text.trimEnd cs with
    | [] => if Text.isBlank c then [] else [c]
    | d :: ds => c :: d :: ds

@[simp] theorem Text.trimEnd_nil : Text.trimEnd [] = [] := rfl

/-- Trimming takes away blank characters and nothing else. -/
theorem Text.exists_trimEnd_append (cs : List Char) :
    ∃ blanks, cs = Text.trimEnd cs ++ blanks ∧ Text.allBlank blanks = true := by
  induction cs with
  | nil => exact ⟨[], rfl, rfl⟩
  | cons c cs ih =>
    obtain ⟨blanks, hcs, hblank⟩ := ih
    rw [Text.trimEnd]
    split
    next h =>
      rw [h, List.nil_append] at hcs
      split
      next hc =>
        refine ⟨c :: blanks, by rw [List.nil_append, ← hcs], ?_⟩
        simpa [Text.allBlank, hc] using hblank
      next => exact ⟨blanks, by rw [List.singleton_append, ← hcs], hblank⟩
    next d ds h => exact ⟨blanks, by rw [List.cons_append, ← h, ← hcs], hblank⟩

end FoldedStacks
