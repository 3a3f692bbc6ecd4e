-- SUMMARY: Process numbers.
import FoldedStacks.Powers
import FoldedStacks.Text.Numeral

/-!
# Process numbers

Processes are told apart by numbers of 32 bits.
-/

namespace FoldedStacks

/-- The number of a process. -/
abbrev Pid := UInt32

def Pid.read (cs : List Char) : Except NumeralError Pid :=
  (Text.readNumeral (2 ^ 32 - 1) cs).map UInt32.ofNat

def Pid.numeral (pid : Pid) : String :=
  String.ofList (Text.numeral pid.toNat)

end FoldedStacks
