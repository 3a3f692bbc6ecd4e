-- SUMMARY: The header of an artifact and its text.
import FoldedStacks.Artifact.MetadataTable
import FoldedStacks.Artifact.Metrics

/-!
# Headers of artifacts

The first line of an artifact is `#` and a JSON object. It tells what is known about the run, and
holds what the stack lines refer to.
-/

namespace FoldedStacks

@[ext] structure Header where
  /-- The names of all containers that the stacks were taken in. -/
  containers : List String
  containerNamesEnabled : Bool
  metadata : Metadata
  metrics : Metrics
  /-- The documents that the stacks refer to by their place here. -/
  applicationMetadata : List (Option Document)
  applicationMetadataEnabled : Bool
  profilingMode : Document

instance : Inhabited Header := ⟨⟨[], false, default, default, [], false, default⟩⟩

/-- Why a text is not read as an artifact. -/
inductive ArtifactError where
  | empty
  | headerMissing
  | headerNotObject (found : Document)
  /-- The header line cannot be read as JSON. -/
  | headerUnreadable (cause : Json.ReadError)

/-- The wording of the cause. -/
def ArtifactError.message : ArtifactError → String
  | .empty => "artifact error: empty collapsed file"
  | .headerMissing => "artifact error: first line is not a metadata header"
  | .headerNotObject found =>
    "artifact error: metadata header is not an object: " ++ String.ofList found.render
  | .headerUnreadable .malformed => "json error: the text is malformed"
  | .headerUnreadable .truncated => "json error: the text ends too early"
  | .headerUnreadable .mismatch => "json error: the text is of another type"

/-- A header line with a given JSON text. -/
def Header.lineOf (json : List Char) : String :=
  "# " ++ String.ofList json

/-- The JSON text of a header line. -/
def Header.jsonOf (line : List Char) : Except ArtifactError (List Char) :=
  match line with
  | '#' :: json => .ok json
  | _ => .error .headerMissing

def Header.render (h : Header) : List Char :=
  Json.renderRecord [
    ("containers", Json.bracketed (h.containers.map Json.renderString)),
    ("container_names_enabled", Json.renderBool h.containerNamesEnabled),
    ("metadata", h.metadata.render),
    ("metrics", h.metrics.render),
    ("application_metadata", MetadataTable.renderEntries h.applicationMetadata),
    ("application_metadata_enabled", Json.renderBool h.applicationMetadataEnabled),
    ("profiling_mode", h.profilingMode.render)]

def Header.line (h : Header) : String :=
  Header.lineOf h.render

def Header.fields : List (Json.Field Header) :=
  let flag (_ : Nat) := Json.readBool
  [.of "containers" .required (Json.readList · fun _ => Json.readStringValue)
      fun h a => { h with containers := a },
    .of "container_names_enabled" .required flag fun h a => { h with containerNamesEnabled := a },
    .of "metadata" .required Json.readMetadata fun h a => { h with metadata := a },
    .of "metrics" .required Metrics.reader fun h a => { h with metrics := a },
    .of "application_metadata" .required
      (Json.readList · fun levels => Json.readOption (Json.readDocument levels))
      fun h a => { h with applicationMetadata := a },
    .of "application_metadata_enabled" .required flag
      fun h a => { h with applicationMetadataEnabled := a },
    .of "profiling_mode" .required Json.readDocument fun h a => { h with profilingMode := a }]

def Header.reader : Nat → Json.Reader Header :=
  Json.readRecord Header.fields default

/-- Reads a header line. -/
def Header.parse (line : String) : Except ArtifactError Header := do
  let json ← Header.jsonOf line.toList
  ((Header.reader Json.maxDepth).readAll json).mapError .headerUnreadable

end FoldedStacks
