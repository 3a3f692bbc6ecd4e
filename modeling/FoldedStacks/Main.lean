-- SUMMARY: The program: the files that a request reads and writes.
import FoldedStacks.CommandLine.Run

/-!
# The program

Reads the files that a request names, runs it, and writes what comes out of it.
-/

namespace FoldedStacks

/-- The contents of a file, if it can be read. -/
def Program.readContents (path : String) : IO (String × Option ByteArray) := do
  try
    return (path, some (← IO.FS.readBinFile path))
  catch _ => return (path, none)

/-- The directory that a file is in. -/
def Program.directoryOf (path : String) : String :=
  "/".intercalate (path.splitOn "/").dropLast

/-- Writes the result where it is asked for. -/
def Program.writeResult (out : Option String) (text : String) : IO Unit := do
  match out with
  | none => IO.println text
  | some path =>
    let directory := Program.directoryOf path
    if directory ≠ "" then IO.FS.createDirAll directory
    IO.FS.writeFile path text

/-- A number that nobody can foresee. -/
def Program.drawEntropy : IO UInt64 := do
  return (← IO.getRandomBytes 8).foldl (fun n b => 256 * n + b.toUInt64) 0

/-- Shows why a command has ended, and gives its code. -/
def Program.report (e : CommandError) : IO UInt32 := do
  IO.eprintln e.message
  return e.exitCode.toUInt32

def Program.run (arguments : List String) : IO UInt32 := do
  match Request.parse arguments with
  | .error e => Program.report (.usage e)
  | .ok r =>
    let files ← r.inputs.mapM Program.readContents
    let contents : Contents := fun path => (files.find? fun f => f.1 == path).bind (·.2)
    match r.run contents (← Program.drawEntropy) with
    | .error e => Program.report e
    | .ok result =>
      for n in result.notices do
        if n.level = .warning then IO.eprintln ("WARN " ++ n.message)
      try
        Program.writeResult r.out result.text
        return 0
      catch _ => Program.report (.outUnwritable (r.out.getD ""))

end FoldedStacks

def main (arguments : List String) : IO UInt32 :=
  FoldedStacks.Program.run arguments
