-- SUMMARY: Writing an artifact again with other metadata put over its header.
import FoldedStacks.Artifact.Basic
import FoldedStacks.Json.Override
import FoldedStacks.Text.Blank
import FoldedStacks.Time.Timestamp

/-!
# Reissuing artifacts

An artifact is written again with other metadata put over its header. The stack lines stay, without
the blank characters at their ends.
-/

namespace FoldedStacks

/-- An artifact written again, and the time that it covers as far as its header tells. -/
structure Reissue where
  startTime : Option Timestamp
  endTime : Option Timestamp
  text : String

/-- The timestamp under a key. -/
def Metadata.timestamp? (m : Metadata) (k : String) : Option Timestamp := do
  Timestamp.parse? (← (← m.get? k).string?)

/-- The object in a header line. -/
def Reissue.readHeader (line : List Char) : Except ArtifactError Metadata := do
  let json ← Header.jsonOf line
  let found ← (Document.parse json).mapError .headerUnreadable
  match found.metadata? with
  | some m => return m
  | none => throw (.headerNotObject found)

/-- Writes an artifact again with `obtained` put over its header. The function that was run, which
    stands among the arguments of the run, is not written. -/
def Reissue.ofText (text : String) (obtained : Metadata) : Except ArtifactError Reissue :=
  match Text.lines text.toList with
  | [] => .error .empty
  | first :: rest => do
    let header := (← Reissue.readHeader first).override obtained
    let written := header.dropNested "run_arguments" "func"
    return {
      startTime := header.timestamp? "start_time"
      endTime := header.timestamp? "end_time"
      text := Text.unlines <|
        Header.lineOf written.render :: rest.map fun line => String.ofList (Text.trimEnd line) }

end FoldedStacks
