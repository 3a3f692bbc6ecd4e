-- SUMMARY: The notices that the library gives on the side, as values.
import FoldedStacks.Binary64.Basic
import FoldedStacks.Count
import FoldedStacks.Pid
import FoldedStacks.Text.Lines
import FoldedStacks.Text.Quoted

/-!
# Notices

What the library reports on the side while it works: lines it had to leave out and decisions it
took. A notice changes no result.
-/

namespace FoldedStacks

inductive Notice where
  /-- A line of a listing without a readable count was left out. -/
  | badLine (line : String) (cause : NumeralError)
  /-- Lines of a system-wide listing were left out; the first few of them are shown. -/
  | badLines (total : Nat) (shown : List String)
  /-- A failed profiler's marker was put over the samples of the system-wide profile. -/
  | markerAttached (pid : Pid) (samples : Count)
  /-- The system-wide profile does not know the process. -/
  | samplesDropped (pid : Pid) (samples : Count)
  | samplesScaled (pid : Pid) (ratio : Binary64)
  | profilingModeMissing
  /-- There is a configuration file, but it cannot be read. -/
  | configIgnored
  deriving DecidableEq

inductive Notice.Level where
  | debug
  | warning
  deriving DecidableEq

def Notice.level : Notice → Notice.Level
  | .badLine .. => .warning
  | .badLines .. => .warning
  | .markerAttached .. => .debug
  | .samplesDropped .. => .debug
  | .samplesScaled .. => .debug
  | .profilingModeMissing => .warning
  | .configIgnored => .warning

/-- How many of the bad lines of a system-wide listing a notice shows. -/
def Notice.shownLines : Nat := 8

private def Notice.number (n : Nat) : String :=
  String.ofList (Text.numeral n)

def Notice.message : Notice → String
  | .badLine line cause => "bad stack - line=" ++ Text.quoted line ++ ": " ++ cause.message
  | .badLines total shown =>
    "Got " ++ Notice.number total ++ " bad lines when parsing (showing up to " ++
      Notice.number Notice.shownLines ++ "):\n" ++ Text.unlines shown
  | .markerAttached _ samples =>
    "attaching runtime profiler error to " ++ Notice.number samples.val ++ " perf samples"
  | .samplesDropped _ samples =>
    "no perf samples, dropping " ++ Notice.number samples.val ++ " runtime samples"
  | .samplesScaled .. => "scaling runtime samples"
  | .profilingModeMissing => "run metadata has no profiling_mode"
  | .configIgnored => "the configuration file cannot be read and is ignored"

end FoldedStacks
