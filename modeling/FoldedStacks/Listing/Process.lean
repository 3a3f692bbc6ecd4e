-- SUMMARY: Listings of the stacks of one process, and the lines that a reader rejects.
import FoldedStacks.Notice
import FoldedStacks.Stack.Counts
import FoldedStacks.Text.Blank
import FoldedStacks.Text.Split

/-!
# Listings of one process

A listing has one stack a line, with its sample count after the last space of the line. Lines that
start with `#` are comments. Every line is either skipped, or read as one sample, or rejected.
-/

namespace FoldedStacks

/-- What a line of the listing of one process holds. -/
inductive Listing.Line where
  | skipped
  | sample (stack : String) (count : Count)
  | bad (cause : NumeralError)
  deriving DecidableEq

/-- Blank lines and comments are skipped. A line without a space is a count for the empty
    stack. -/
def Listing.classify (line : List Char) : Listing.Line :=
  if Text.allBlank line || line.head? == some '#' then .skipped
  else
    let (stack, count) := (Text.splitLast ' ' line).getD ([], line)
    match Count.read count with
    | .ok n => .sample (String.ofList stack) n
    | .error cause => .bad cause

def Listing.Line.sample? : Listing.Line → Option (String × Count)
  | .sample stack n => some (stack, n)
  | _ => none

def Listing.Line.cause? : Listing.Line → Option NumeralError
  | .bad cause => some cause
  | _ => none

/-- The samples and the rejected lines of a listing, each in the order of the text. -/
structure Listing where
  samples : List (String × Count)
  rejected : List (String × NumeralError)

def Listing.parse (text : String) : Listing :=
  let lines := Text.lines text.toList
  { samples := lines.filterMap fun line => (Listing.classify line).sample?
    rejected := lines.filterMap fun line =>
      (Listing.classify line).cause?.map (String.ofList line, ·) }

/-- The samples added up, under a new root frame if one is given. -/
def Listing.counts (l : Listing) (root : Option String) : StackCounts :=
  match root with
  | none => .ofList l.samples
  | some root => .ofList (l.samples.map fun e => (StackCounts.rooted root e.1, e.2))

/-- One warning for each rejected line. -/
def Listing.notices (l : Listing) : List Notice :=
  l.rejected.map fun e => .badLine e.1 e.2

end FoldedStacks
