-- SUMMARY: Artifacts: a header line and the enriched stack lines of all processes, written in one pass.
import FoldedStacks.Artifact.Enrichment
import FoldedStacks.Artifact.Header
import FoldedStacks.Notice
import FoldedStacks.Text.Lines

/-!
# Artifacts

An artifact is a header line followed by one line for every stack of every process. The processes
stand in the order of their numbers, and the stacks of each in their own order.
-/

namespace FoldedStacks

structure Artifact where
  header : Header
  lines : List String

def Artifact.text (a : Artifact) : String :=
  Text.unlines (a.header.line :: a.lines)

/-- The lines of one process. -/
def Profile.lines (p : Profile) (o : Options) (e : Enrichment) : List String :=
  p.counts.entries.map fun s => e.line o s.1 s.2

variable {σ : Type} [ContainerClient σ]

/-- The lines of all processes, enriched one after the other. -/
def Artifact.linesOf (o : Options) :
    List (Pid × Profile) → Enrichment.Context σ → List String × Enrichment.Context σ
  | [], ctx => ([], ctx)
  | (pid, p) :: rest, ctx =>
    let (e, ctx) := Enrichment.ofProfile o pid p ctx
    let (lines, ctx) := Artifact.linesOf o rest ctx
    (p.lines o e ++ lines, ctx)

/-- What a pass leaves behind: the artifact, the client after it, and its notices. -/
structure Concatenation (σ : Type := Containers) where
  artifact : Artifact
  containers : Option σ
  notices : List Notice

/-- The containers as the header lists them. Listing them resets the client. -/
def Header.takeContainers (o : Options) : Option σ → List String × Bool × Option σ
  | some c =>
    if o.containerNames then
      (ContainerClient.resolvedNames c, true, some (ContainerClient.reset c))
    else ([], false, some c)
  | none => ([], false, none)

/-- Writes all profiles as one artifact. -/
def Profiles.concatenate (ps : Profiles) (o : Options) (containers : Option σ)
    (metadata : Metadata) (metrics : Metrics) : Concatenation σ :=
  let (lines, ctx) := Artifact.linesOf o ps.entries ⟨containers, .empty⟩
  let (names, enabled, containers) := Header.takeContainers o ctx.containers
  let mode := metadata.get? "profiling_mode"
  { artifact := {
      header := {
        containers := names
        containerNamesEnabled := enabled
        metadata
        metrics
        applicationMetadata := ctx.table.entries
        applicationMetadataEnabled := o.applicationMetadata
        profilingMode := mode.getD .null }
      lines }
    containers
    notices := if mode.isSome then [] else [.profilingModeMissing] }

end FoldedStacks
