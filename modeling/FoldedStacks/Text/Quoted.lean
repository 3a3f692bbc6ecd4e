-- SUMMARY: Texts in quotes, as notices show them.
import FoldedStacks.Text.Printable

/-!
# Quoted texts

A text in double quotes, so that a log line shows where it begins and ends and what is in it that
cannot be seen.
-/

namespace FoldedStacks

/-- One character inside the quotes. -/
def Text.quotedChar (c : Char) : List Char :=
  match c with
  | '\x00' => ['\\', '0']
  | '\t' => ['\\', 't']
  | '\n' => ['\\', 'n']
  | '\r' => ['\\', 'r']
  | '\"' => ['\\', '\"']
  | '\\' => ['\\', '\\']
  | _ =>
    if Text.isPrintable c then [c]
    else ['\\', 'u', '\x7b'] ++ Nat.toDigits 16 c.toNat ++ ['\x7d']

/-- The text in double quotes. -/
def Text.quoted (s : String) : String :=
  String.ofList ('\"' :: s.toList.flatMap Text.quotedChar ++ ['\"'])

end FoldedStacks
