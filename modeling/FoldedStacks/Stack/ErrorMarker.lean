-- SUMMARY: Stacks that report a failed profiler, how they are recognised, and hanging samples below them.
import FoldedStacks.Stack.Counts
import FoldedStacks.Text.Around
import FoldedStacks.Text.Split

/-!
# Error markers

A profiler that failed reports a single stack with a frame `[Profiling <what>: <reason>]` below the
root frame. Such a marker takes the place of the samples that are missing.
-/

namespace FoldedStacks

/-- The stack of a profiler that failed. -/
def ErrorMarker.stack (what reason comm : String) : String :=
  comm ++ ";[Profiling " ++ what ++ ": " ++ reason ++ "]"

/-- The table that a profiler reports when it failed: its marker, with one sample. -/
def ErrorMarker.counts (what reason comm : String) : StackCounts :=
  .ofList [(ErrorMarker.stack what reason comm, .ofNat 1)]

/-- Whether a text goes on with a reason and its closing bracket. -/
def ErrorMarker.closesReason (cs : List Char) : Bool :=
  match Text.splitFirst ']' cs with
  | some (reason, _) => !reason.isEmpty
  | none => false

/-- Whether the inside of a marker frame begins a text: what failed, then the reason. The reason
    may hold semicolons. -/
def ErrorMarker.fills (cs : List Char) : Bool :=
  (Text.around ": ".toList cs).any fun (what, behind) =>
    !what.isEmpty && ErrorMarker.closesReason behind

/-- Whether a stack has a marker frame below its root frame. -/
def ErrorMarker.marks (stack : String) : Bool :=
  (Text.around ";[Profiling ".toList stack.toList).any fun (_, behind) => ErrorMarker.fills behind

/-- Whether a table is the report of a profiler that failed: one stack, which is a marker. -/
def StackCounts.isErrorMarker (s : StackCounts) : Bool :=
  match s.keys with
  | [stack] => ErrorMarker.marks stack
  | _ => false

/-- The samples of a table, each hung below every marker of another table. -/
def ErrorMarker.attach (samples markers : StackCounts) : StackCounts :=
  .ofList <| samples.entries.flatMap fun e =>
    markers.keys.map fun marker => (StackCounts.rooted marker e.1, e.2)

end FoldedStacks
