-- SUMMARY: Reading a configuration file.
import FoldedStacks.Files
import FoldedStacks.Notice
import FoldedStacks.Settings.Config
import FoldedStacks.Toml.Document

/-!
# Configuration files

A configuration file is a TOML document. Keys that are not settings are left alone; a setting of the
wrong type makes the file invalid.
-/

namespace FoldedStacks

/-- Whether a value has no parts. -/
def Toml.isHollow : Toml → Bool
  | .array [] => true
  | .table _ [] => true
  | _ => false

/-- A version is given by its name, or by a table whose only key has that name and holds nothing. -/
def ApiVersion.ofToml? : Toml → Option ApiVersion
  | .string s => ApiVersion.ofName? s
  | .table _ [(k, v)] => if Toml.isHollow v then ApiVersion.ofName? k else none
  | _ => none

def Toml.boolean? : Toml → Option Bool
  | .boolean b => some b
  | _ => none

/-- Reads a setting, which has a standard value when it is missing. -/
def Toml.setting {α : Type} (standard : α) (read : Toml → Option α) : Option Toml → Option α
  | none => some standard
  | some v => read v

/-- The options that are given by four settings. -/
def Options.ofSettings (version containers identifiers metadata : Option Toml) :
    Option Options := do
  return {
    version := ← Toml.setting Options.all.version ApiVersion.ofToml? version
    containerNames := ← Toml.setting Options.all.containerNames Toml.boolean? containers
    applicationIdentifiers :=
      ← Toml.setting Options.all.applicationIdentifiers Toml.boolean? identifiers
    applicationMetadata := ← Toml.setting Options.all.applicationMetadata Toml.boolean? metadata }

/-- Options are a table, or an array with the settings in their order. A date has no settings. -/
def Options.ofToml? : Toml → Option Options
  | .table _ es =>
    let get (k : String) := Toml.Entries.get? es k
    Options.ofSettings (get "profile_api_version") (get "container_names")
      (get "application_identifiers") (get "application_metadata")
  | .array items => Options.ofSettings items[0]? items[1]? items[2]? items[3]?
  | .tables earlier last =>
    let items := earlier ++ [.table .header last]
    Options.ofSettings items[0]? items[1]? items[2]? items[3]?
  | .date => some .all
  | _ => none

/-- A seed is an integer that is not negative. -/
def Config.seedOfToml? : Toml → Option UInt64
  | .integer i => if 0 ≤ i then some (UInt64.ofNat i.toNat) else none
  | _ => none

def Config.ofToml? (es : Toml.Entries) : Option Config := do
  let seed (v : Toml) := some <$> Config.seedOfToml? v
  return {
    enrichment := ← Toml.setting .all Options.ofToml? (es.get? "enrichment")
    scaleSeed := ← Toml.setting none seed (es.get? "scale_seed") }

/-- Why a configuration file gives no configuration. -/
inductive ConfigError where
  | file (cause : FileError)
  | invalid
  deriving DecidableEq

/-- The configuration in a file with given contents. -/
def Config.load (contents : Option ByteArray) : Except ConfigError Config :=
  match File.text contents with
  | .error e => .error (.file e)
  | .ok text =>
    match Toml.parse text.toList with
    | none => .error .invalid
    | some es =>
      match Config.ofToml? es with
      | none => .error .invalid
      | some c => .ok c

/-- The configuration in a file that may be missing or useless; then the standard one holds. A file
    that is there but useless is noticed. -/
def Config.loadOptional (contents : Option ByteArray) : Config × List Notice :=
  match Config.load contents with
  | .ok c => (c, [])
  | .error (.file .notFound) => (.standard, [])
  | .error _ => (.standard, [.configIgnored])

end FoldedStacks
