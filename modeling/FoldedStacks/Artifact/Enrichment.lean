-- SUMMARY: What is added to the stacks of a process, and the line of a stack.
import FoldedStacks.Artifact.Containers
import FoldedStacks.Artifact.MetadataTable
import FoldedStacks.Profile.Basic
import FoldedStacks.Settings.Options
import FoldedStacks.Text.Split

/-!
# Enrichment

What is added to every stack of a process: in front, the number of the application's metadata and
the name of the container; behind the root frame, the identifier of the application.
-/

namespace FoldedStacks

/-- What is added to the stacks of one process. The two fields include the semicolon behind them. -/
@[ext] structure Enrichment where
  /-- The frame with the identifier of the application. -/
  appid : Option String
  applicationField : String
  containerField : String
  deriving DecidableEq

/-- Nothing is added. -/
def Enrichment.none : Enrichment :=
  ⟨.none, "", ""⟩

instance : Inhabited Enrichment := ⟨Enrichment.none⟩

/-- What is shared by the processes of one pass: the client for container names, if there is one,
    and the table of the metadata seen so far. -/
structure Enrichment.Context (σ : Type := Containers) where
  containers : Option σ
  table : MetadataTable

variable {σ : Type} [ContainerClient σ]

/-- The container name of a process, if it is to be asked for. -/
def Enrichment.resolveContainer (o : Options) (pid : Pid) : Option σ → String × Option σ
  | .none => ("", .none)
  | some c =>
    if o.containerNames then
      let (name, c) := ContainerClient.resolve c pid
      (name, some c)
    else ("", some c)

/-- What is added to the stacks of a process. Its metadata is numbered in any case; frames with the
    number and the container name are only written by versions that have them. -/
def Enrichment.ofProfile (o : Options) (pid : Pid) (p : Profile) (ctx : Enrichment.Context σ) :
    Enrichment × Enrichment.Context σ :=
  let appid := p.appid.map ("appid: " ++ ·)
  let (number, table) := ctx.table.number p.appMetadata
  let applicationField :=
    if o.version.hasFrames && o.applicationMetadata then
      String.ofList (Text.numeral number) ++ ";"
    else ""
  if o.version.hasFrames then
    let (name, containers) := Enrichment.resolveContainer o pid ctx.containers
    (⟨appid, applicationField, name ++ ";"⟩, ⟨containers, table⟩)
  else (⟨appid, applicationField, ""⟩, ⟨ctx.containers, table⟩)

/-- A stack with a further frame behind its root frame. -/
def Enrichment.spliceFrame (frame stack : String) : String :=
  match Text.splitFirst ';' stack.toList with
  | some (root, others) => String.ofList root ++ ";" ++ frame ++ ";" ++ String.ofList others
  | .none => stack ++ ";" ++ frame

/-- The enriched text of a stack. -/
def Enrichment.stackText (e : Enrichment) (o : Options) (stack : String) : String :=
  let stack := match e.appid with
    | some frame => if o.applicationIdentifiers then Enrichment.spliceFrame frame stack else stack
    | .none => stack
  e.applicationField ++ e.containerField ++ stack

/-- The line of an artifact for a stack. -/
def Enrichment.line (e : Enrichment) (o : Options) (stack : String) (n : Count) : String :=
  e.stackText o stack ++ " " ++ String.ofList (Text.numeral n.val)

end FoldedStacks
