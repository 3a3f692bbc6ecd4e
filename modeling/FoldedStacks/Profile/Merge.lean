-- SUMMARY: Merging runtime profiles into system-wide ones, process by process, with the notices and the failure of a merge.
import FoldedStacks.Artifact.Basic
import FoldedStacks.Stack.ErrorMarker
import FoldedStacks.Stack.Scaling

/-!
# Merging

The samples that the profiler of a runtime took of a process replace those of the system-wide
profile, scaled to their volume. Where such a profiler failed, its marker is put over the samples of
the system-wide profile instead.
-/

namespace FoldedStacks

/-- Why profiles cannot be merged. -/
inductive MergeError where
  /-- A runtime profile has stacks, but no sample is counted for them. -/
  | noSamples (pid : Pid)
  deriving DecidableEq

/-- The wording of the cause. -/
def MergeError.message : MergeError → String
  | .noSamples pid =>
    "runtime profile for pid " ++ Pid.numeral pid ++ " has stacks but no samples"

/-- The samples that the system-wide profile has for a process. -/
def Merge.systemTotal (system : Option Profile) : Count :=
  (system.map fun p => p.counts.total).getD .zero

/-- How much a runtime profile has to be scaled. -/
def Merge.ratio (system : Option Profile) (runtime : StackCounts) : Binary64 :=
  .ofNat (Merge.systemTotal system).val / .ofNat runtime.total.val

/-- Whether a runtime profile is a marker to be put over samples of the system-wide profile. -/
def Merge.attaches (system : Option Profile) (runtime : StackCounts) : Bool :=
  decide (0 < (Merge.systemTotal system).val) && runtime.isErrorMarker

/-- The stacks of a process that has a runtime profile. -/
def Merge.counts (system : Option Profile) (runtime : StackCounts) (ds : Draws) : StackCounts :=
  match system with
  | some p =>
    if Merge.attaches system runtime then ErrorMarker.attach p.counts runtime
    else runtime.scale (Merge.ratio system runtime) ds
  | none => runtime.scale (Merge.ratio system runtime) ds

/-- How many words the stacks of a process take from the stream of draws. -/
def Merge.drawsTaken (system : Option Profile) (runtime : StackCounts) : Nat :=
  if Merge.attaches system runtime then 0
  else runtime.drawsTaken (Merge.ratio system runtime)

/-- What is reported about a process. -/
def Merge.notice (system : Option Profile) (pid : Pid) (runtime : StackCounts) : Notice :=
  if Merge.attaches system runtime then .markerAttached pid (Merge.systemTotal system)
  else if system.isNone then .samplesDropped pid runtime.total
  else .samplesScaled pid (Merge.ratio system runtime)

/-- The merged profiles so far, and how many words have been drawn. -/
structure Merge.Progress where
  profiles : Profiles
  drawn : Nat
  notices : List Notice

/-- Merges the runtime profile of one process. Profiles without stacks change nothing. -/
def Merge.step (ds : Draws) (m : Merge.Progress) (e : Pid × Profile) :
    Except MergeError Merge.Progress :=
  let (pid, runtime) := e
  let found := m.profiles.get? pid
  if runtime.counts.isEmpty then .ok m
  else if runtime.counts.total = .zero then .error (.noSamples pid)
  else .ok {
    profiles := m.profiles.insert pid
      { runtime with counts := Merge.counts found runtime.counts (ds.after m.drawn) }
    drawn := m.drawn + Merge.drawsTaken found runtime.counts
    notices := m.notices ++ [Merge.notice found pid runtime.counts] }

/-- The system-wide profiles with runtime profiles merged into them, in the order of the
    processes. A merged profile takes the place of the system-wide one at once. -/
def Profiles.mergeAll (system runtime : Profiles) (ds : Draws) :
    Except MergeError Merge.Progress :=
  runtime.entries.foldlM (Merge.step ds) ⟨system, 0, []⟩

/-- Merges runtime profiles into the system-wide profiles and writes the artifact. -/
def Profiles.merge {σ : Type} [ContainerClient σ] (system runtime : Profiles) (ds : Draws)
    (o : Options) (containers : Option σ) (metadata : Metadata) (metrics : Metrics) :
    Except MergeError (Concatenation σ) := do
  let m ← system.mergeAll runtime ds
  let c := m.profiles.concatenate o containers metadata metrics
  return { c with notices := m.notices ++ c.notices }

end FoldedStacks
