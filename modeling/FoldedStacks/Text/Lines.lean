-- SUMMARY: The lines of a text, and a text from its lines.
/-!
# Lines

A text as a list of lines. A line ends at a line feed; one carriage return directly before that
line feed belongs to the line end too. The last line needs no line feed, and a line feed at the
very end of the text opens no further line.
-/

namespace FoldedStacks

/-- The lines of a text, without their line ends. -/
def Text.lines : List Char → List (List Char)
  | [] => []
  | '\n' :: cs => [] :: Text.lines cs
  | '\r' :: '\n' :: cs => [] :: Text.lines cs
  | c :: cs =>
    match Text.lines cs with
    | [] => [[c]]
    | l :: ls => (c :: l) :: ls

@[simp] theorem Text.lines_nil : Text.lines [] = [] := by simp [Text.lines]

@[simp] theorem Text.lines_lineFeed (cs : List Char) :
    Text.lines ('\n' :: cs) = [] :: Text.lines cs := by simp [Text.lines]

/-- The lines of a text, joined by line feeds. -/
def Text.unlines (ls : List String) : String :=
  "\n".intercalate ls

end FoldedStacks
