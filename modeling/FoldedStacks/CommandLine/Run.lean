-- SUMMARY: What comes out of a request.
import FoldedStacks.Artifact.Reissue
import FoldedStacks.CommandLine.Request
import FoldedStacks.Listing.Process
import FoldedStacks.Listing.System
import FoldedStacks.Profile.Merge
import FoldedStacks.Settings.ConfigFile

/-!
# Running requests

What comes out of a request, given the contents of the files that it reads.
-/

namespace FoldedStacks

/-- The contents of the files by their paths. -/
abbrev Contents := String → Option ByteArray

/-- Why a command ends without a result. -/
inductive CommandError where
  | usage (cause : UsageError)
  | perfUnreadable (path : String) (cause : FileError)
  | runtimeUnreadable (path : String) (cause : FileError)
  | metadataMissing (path : String)
  | metadataInvalid (cause : Json.ReadError)
  | merge (cause : MergeError)
  | inputUnreadable (path : String) (cause : FileError)
  | inputInvalid (path : String) (cause : ArtifactError)
  | outUnwritable (path : String)

/-- The line that is shown for it. -/
def CommandError.message : CommandError → String
  | .usage cause => "error: " ++ cause.message
  | .perfUnreadable path _ => "Error: failed to read perf output " ++ path
  | .runtimeUnreadable path _ => "Error: failed to read runtime profile " ++ path
  | .metadataMissing path => "Error: failed to read metadata " ++ path
  | .metadataInvalid _ => "Error: the metadata is no JSON object"
  | .merge cause => cause.message
  | .inputUnreadable path _ => "Error: failed to concatenate " ++ path
  | .inputInvalid path _ => "Error: failed to concatenate " ++ path
  | .outUnwritable path => "Error: cannot write " ++ path

/-- The code that the program ends with. -/
def CommandError.exitCode : CommandError → Nat
  | .usage _ => 2
  | .merge _ => 101
  | _ => 1

/-- A text that is to be written, and what is noticed on the way. -/
structure CommandResult where
  text : String
  notices : List Notice

/-! ## Inputs -/

/-- The metadata in a file, or none if no file is named. -/
def CommandLine.metadata (contents : Contents) (path : Option String) :
    Except CommandError Metadata :=
  match path with
  | none => .ok .empty
  | some path =>
    match contents path with
    | none => .error (.metadataMissing path)
    | some bytes =>
      match String.fromUTF8? bytes with
      | none => .error (.metadataInvalid .malformed)
      | some text => (Metadata.parse text.toList).mapError .metadataInvalid

/-- The profile of one process, read from the listing of its runtime. -/
def CommandLine.runtimeProfile (contents : Contents) (appids : SortedMap Pid String)
    (e : Pid × String) : Except CommandError ((Pid × Profile) × List Notice) := do
  let text ← (File.text (contents e.2)).mapError (.runtimeUnreadable e.2)
  let listing := Listing.parse text
  return ((e.1, ⟨listing.counts none, appids.get? e.1, none⟩), listing.notices)

/-! ## Commands -/

/-- The options of a pass: those of the configuration, with the version that is asked for. -/
def MergeRequest.options (r : MergeRequest) (c : Config) : Options :=
  { c.enrichment with version := r.version.getD c.enrichment.version }

/-- Merges the named listings. Without a seed, `entropy` takes its place. -/
def MergeRequest.run (r : MergeRequest) (contents : Contents) (entropy : UInt64) :
    Except CommandError CommandResult := do
  let (config, notices₁) := Config.loadOptional (contents r.config)
  let text ← (File.text (contents r.perf)).mapError (.perfUnreadable r.perf)
  let listing := SystemListing.parse text
  let system := Profiles.ofCounts listing.counts
  let appids := SortedMap.ofList r.appids
  let runtime ← r.runtime.mapM (CommandLine.runtimeProfile contents appids)
  let metadata ← CommandLine.metadata contents r.metadata
  let seed := (r.seed.or config.scaleSeed).getD entropy
  let c ← (Profiles.merge system (.ofList (runtime.map (·.1))) (.ofSeed seed) (r.options config)
    (some (Containers.ofNames (.ofList r.containers))) metadata .none).mapError .merge
  return ⟨c.artifact.text, notices₁ ++ listing.notices ++ runtime.flatMap (·.2) ++ c.notices⟩

/-- Writes the named artifact again. -/
def ConcatRequest.run (r : ConcatRequest) (contents : Contents) :
    Except CommandError CommandResult := do
  let metadata ← CommandLine.metadata contents r.metadata
  let text ← (File.text (contents r.input)).mapError (.inputUnreadable r.input)
  let reissue ← (Reissue.ofText text metadata).mapError (.inputInvalid r.input)
  return ⟨reissue.text, []⟩

def Request.run (r : Request) (contents : Contents) (entropy : UInt64) :
    Except CommandError CommandResult :=
  match r with
  | .merge r => r.run contents entropy
  | .concat r => r.run contents

/-! ## In a directory -/

/-- What a run of the program leaves: its code, its output, the line for its error, and the files
    after it. -/
structure RunOutcome where
  exitCode : Nat
  output : String
  report : Option String
  directory : Directory

def RunOutcome.ofError (d : Directory) (e : CommandError) : RunOutcome :=
  ⟨e.exitCode, "", some e.message, d⟩

/-- Runs the program in a directory. The result is written to the file that is asked for, or shown
    with a line feed behind it. -/
def Directory.run (d : Directory) (arguments : List String) (entropy : UInt64) : RunOutcome :=
  match Request.parse arguments with
  | .error e => .ofError d (.usage e)
  | .ok r =>
    match r.run d.read? entropy with
    | .error e => .ofError d e
    | .ok result =>
      match r.out with
      | none => ⟨0, result.text ++ "\n", none, d⟩
      | some path =>
        match d.write? path result.text.toUTF8 with
        | some d => ⟨0, "", none, d⟩
        | none => .ofError d (.outUnwritable path)

end FoldedStacks
