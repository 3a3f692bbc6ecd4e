-- SUMMARY: The options of an artifact, and their JSON form.
import FoldedStacks.Json.Record

/-!
# Options

What is added to the stacks of an artifact. Frames with metadata and container names exist only
from version 2 of the artifact's format on.
-/

namespace FoldedStacks

/-- Versions of the artifact's format. -/
inductive ApiVersion where
  | v1
  | v2
  deriving DecidableEq

/-- Whether stacks carry frames with metadata and container names. -/
def ApiVersion.hasFrames : ApiVersion → Bool
  | .v1 => false
  | .v2 => true

def ApiVersion.name : ApiVersion → String
  | .v1 => "v1"
  | .v2 => "v2"

def ApiVersion.ofName? (s : String) : Option ApiVersion :=
  if s = "v1" then some .v1 else if s = "v2" then some .v2 else none

theorem ApiVersion.ofName?_name (v : ApiVersion) : ApiVersion.ofName? v.name = some v := by
  cases v <;> decide

@[ext] structure Options where
  version : ApiVersion
  containerNames : Bool
  applicationIdentifiers : Bool
  applicationMetadata : Bool
  deriving DecidableEq

/-- Everything is added. -/
def Options.all : Options :=
  ⟨.v2, true, true, true⟩

instance : Inhabited Options := ⟨Options.all⟩

def Options.render (o : Options) : List Char :=
  Json.renderRecord [
    ("profile_api_version", Json.renderString o.version.name),
    ("container_names", Json.renderBool o.containerNames),
    ("application_identifiers", Json.renderBool o.applicationIdentifiers),
    ("application_metadata", Json.renderBool o.applicationMetadata)]

def Options.fields : List (Json.Field Options) :=
  let flag (_ : Nat) := Json.readBool
  [.of "profile_api_version" .optional (Json.readChoice ApiVersion.ofName?)
      fun o v => { o with version := v },
    .of "container_names" .optional flag fun o b => { o with containerNames := b },
    .of "application_identifiers" .optional flag fun o b => { o with applicationIdentifiers := b },
    .of "application_metadata" .optional flag fun o b => { o with applicationMetadata := b }]

/-- Options that are not given are on, and the version is the latest. -/
def Options.reader : Nat → Json.Reader Options :=
  Json.readRecord Options.fields Options.all

end FoldedStacks
