-- SUMMARY: The arguments of the command line.
import FoldedStacks.Pid
import FoldedStacks.Settings.Options
import FoldedStacks.Text.Split

/-!
# Requests

What the arguments of the command line ask for: to merge profiles, or to write an artifact again.
Every option has a value, which follows it or stands behind an equals sign.
-/

namespace FoldedStacks

/-- To merge the profiles of runtimes into a system-wide profile. -/
structure MergeRequest where
  perf : String
  runtime : List (Pid × String)
  appids : List (Pid × String)
  containers : List (Pid × String)
  metadata : Option String
  out : Option String
  config : String
  seed : Option UInt64
  version : Option ApiVersion
  deriving DecidableEq

/-- To write an artifact again with other metadata. -/
structure ConcatRequest where
  input : String
  metadata : Option String
  out : Option String
  deriving DecidableEq

inductive Request where
  | merge (r : MergeRequest)
  | concat (r : ConcatRequest)
  deriving DecidableEq

/-- Why arguments ask for nothing. -/
inductive UsageError where
  | noCommand
  | unknownCommand (name : String)
  | unexpected (argument : String)
  | valueMissing (option : String)
  | badValue (option value : String)
  | repeated (option : String)
  | missing (option : String)
  deriving DecidableEq

/-- The wording of the cause. -/
def UsageError.message : UsageError → String
  | .noCommand => "a command is missing: merge or concat"
  | .unknownCommand name => "there is no command '" ++ name ++ "'"
  | .unexpected argument => "the argument '" ++ argument ++ "' is not expected"
  | .valueMissing option => "the option '" ++ option ++ "' needs a value"
  | .badValue option value =>
    "the option '" ++ option ++ "' cannot have the value '" ++ value ++ "'"
  | .repeated option => "the option '" ++ option ++ "' cannot be given twice"
  | .missing option => "the option '" ++ option ++ "' is missing"

/-! ## Options and their values -/

/-- Whether an argument looks like an option, so that it cannot be the value of one. -/
def CommandLine.looksLikeOption (argument : String) : Bool :=
  match argument.toList with
  | '-' :: _ :: _ => true
  | _ => false

/-- The name and the value of an argument that holds both. -/
def CommandLine.splitArgument (argument : String) : String × Option String :=
  match Text.splitFirst '=' argument.toList with
  | some (name, value) => (String.ofList name, some (String.ofList value))
  | none => (argument, none)

/-- The options among the arguments, each with its value. Two dashes may end the arguments. -/
def CommandLine.pairs (known : List String) :
    List String → Except UsageError (List (String × String))
  | [] => .ok []
  | ["--"] => .ok []
  | argument :: rest =>
    let (name, value) := CommandLine.splitArgument argument
    if !known.contains name then .error (.unexpected argument)
    else
      match value, rest with
      | some v, rest => do return (name, v) :: (← CommandLine.pairs known rest)
      | none, v :: rest =>
        if CommandLine.looksLikeOption v then .error (.valueMissing name)
        else do return (name, v) :: (← CommandLine.pairs known rest)
      | none, [] => .error (.valueMissing name)

/-- Every value of an option, read by `read`. -/
def CommandLine.all {α : Type} (read : String → Option α) (option : String)
    (given : List (String × String)) : Except UsageError (List α) :=
  (given.filter fun e => e.1 == option).mapM fun e =>
    match read e.2 with
    | some a => .ok a
    | none => .error (.badValue option e.2)

/-- The value of an option that may be given once. -/
def CommandLine.single? {α : Type} (read : String → Option α) (option : String)
    (given : List (String × String)) : Except UsageError (Option α) := do
  match ← CommandLine.all read option given with
  | [] => return none
  | [a] => return some a
  | _ => throw (.repeated option)

/-- The value of an option that must be given once. -/
def CommandLine.single {α : Type} (read : String → Option α) (option : String)
    (given : List (String × String)) : Except UsageError α := do
  match ← CommandLine.single? read option given with
  | some a => return a
  | none => throw (.missing option)

/-! ## Values -/

/-- A path is not empty. -/
def CommandLine.path? (value : String) : Option String :=
  if value.isEmpty then none else some value

/-- A process number and a text, with an equals sign between them. -/
def CommandLine.pidPair? (value : String) : Option (Pid × String) := do
  let (pid, text) ← Text.splitFirst '=' value.toList
  return (← (Pid.read pid).toOption, String.ofList text)

def CommandLine.seed? (value : String) : Option UInt64 := do
  return UInt64.ofNat (← (Text.readNumeral (2 ^ 64 - 1) value.toList).toOption)

/-! ## Commands -/

/-- The file that is read for the configuration unless another one is named. -/
def MergeRequest.standardConfig : String := "stackmerge.toml"

def MergeRequest.parse (arguments : List String) : Except UsageError MergeRequest := do
  let given ← CommandLine.pairs ["--perf", "--runtime", "--appid", "--container", "--metadata",
    "--out", "--config", "--seed", "--api-version"] arguments
  return {
    perf := ← CommandLine.single CommandLine.path? "--perf" given
    runtime := ← CommandLine.all CommandLine.pidPair? "--runtime" given
    appids := ← CommandLine.all CommandLine.pidPair? "--appid" given
    containers := ← CommandLine.all CommandLine.pidPair? "--container" given
    metadata := ← CommandLine.single? CommandLine.path? "--metadata" given
    out := ← CommandLine.single? CommandLine.path? "--out" given
    config := (← CommandLine.single? CommandLine.path? "--config" given).getD
      MergeRequest.standardConfig
    seed := ← CommandLine.single? CommandLine.seed? "--seed" given
    version := ← CommandLine.single? ApiVersion.ofName? "--api-version" given }

def ConcatRequest.parse (arguments : List String) : Except UsageError ConcatRequest := do
  let given ← CommandLine.pairs ["--input", "--metadata", "--out"] arguments
  return {
    input := ← CommandLine.single CommandLine.path? "--input" given
    metadata := ← CommandLine.single? CommandLine.path? "--metadata" given
    out := ← CommandLine.single? CommandLine.path? "--out" given }

/-- What the arguments ask for. -/
def Request.parse : List String → Except UsageError Request
  | [] => .error .noCommand
  | "merge" :: arguments => Request.merge <$> MergeRequest.parse arguments
  | "concat" :: arguments => Request.concat <$> ConcatRequest.parse arguments
  | name :: _ => .error (.unknownCommand name)

/-- The file that the result is written to. -/
def Request.out : Request → Option String
  | .merge r => r.out
  | .concat r => r.out

/-- The files that are read. -/
def Request.inputs : Request → List String
  | .merge r => [r.config, r.perf] ++ r.runtime.map (·.2) ++ r.metadata.toList
  | .concat r => r.metadata.toList ++ [r.input]

end FoldedStacks
