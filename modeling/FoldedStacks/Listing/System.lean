-- SUMMARY: Listings of the stacks of all processes, told apart by their first frame.
import FoldedStacks.Notice
import FoldedStacks.Stack.Counts
import FoldedStacks.Text.Blank
import FoldedStacks.Text.Split

/-!
# System-wide listings

A listing of the stacks of all processes. The first frame of a stack is the identity
`<comm>-<pid>/<tid>` of the thread that it was taken in, and its sample count stands after the last
space of the line. Every line that is not blank is either read as one sample or rejected.
-/

namespace FoldedStacks

/-- A sample of a system-wide listing. -/
structure SystemListing.Sample where
  pid : Pid
  stack : String
  count : Count
  deriving DecidableEq

/-- Reads `<comm>-<pid>/<tid>;<frames> <count>`; the identity frame is cut to `<comm>`. The name
    before the last dash of the identity may itself hold dashes. -/
def SystemListing.readSample (line : List Char) : Option SystemListing.Sample := do
  let (stack, count) ← Text.splitLast ' ' line
  let n ← (Count.read count).toOption
  let (identity, frames) ← Text.splitFirst ';' stack
  let (comm, ids) ← Text.splitLast '-' identity
  let pid ← (Pid.read (ids.takeWhile (· != '/'))).toOption
  return ⟨pid, StackCounts.rooted (String.ofList comm) (String.ofList frames), n⟩

/-- The samples and the rejected lines of a system-wide listing, each in the order of the text. -/
structure SystemListing where
  samples : List SystemListing.Sample
  rejected : List String

def SystemListing.parse (text : String) : SystemListing :=
  let lines := (Text.lines text.toList).filter fun line => !Text.allBlank line
  { samples := lines.filterMap SystemListing.readSample
    rejected := lines.filterMap fun line =>
      if (SystemListing.readSample line).isNone then some (String.ofList line) else none }

/-- Samples per process and stack. -/
def SystemListing.counts (l : SystemListing) : SortedMap Pid StackCounts :=
  l.samples.foldl
    (fun m s => m.upsert s.pid fun held => (held.getD SortedMap.empty).add s.stack s.count)
    SortedMap.empty

/-- One warning for all rejected lines together. -/
def SystemListing.notices (l : SystemListing) : List Notice :=
  if l.rejected.isEmpty then []
  else [.badLines l.rejected.length (l.rejected.take Notice.shownLines)]

end FoldedStacks
