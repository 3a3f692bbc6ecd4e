-- SUMMARY: What a pass does to its client: the names that it asks for, the ones that its header lists, and the client that it leaves behind.
import Mathlib
import FoldedStacks.Proofs.Enrichments

/-!
# The client of a pass

The stack lines, the list in the header and the reset are told by different options: names are only
asked for by versions that have frames, and the list and the reset belong to the names alone. Here
all three are told for a whole pass.
-/

namespace FoldedStacks

/-- Whether a pass asks its client for names. -/
def Options.asksNames (o : Options) : Bool :=
  o.version.hasFrames && o.containerNames

theorem Options.asksNames_iff {o : Options} :
    o.asksNames = true ↔ o.version = .v2 ∧ o.containerNames = true := by
  rw [Options.asksNames, Bool.and_eq_true]
  cases o.version <;> simp [ApiVersion.hasFrames]

/-! ## Any client -/

section Client

variable {σ : Type} [ContainerClient σ]

/-- The client behind the stack lines of a pass. -/
def Profiles.clientAfter (ps : Profiles) (o : Options) (c : σ) : σ :=
  if o.asksNames then ContainerClient.after c ps.keys else c

theorem Enrichment.containers_ofProfile_of_not_hasFrames {o : Options}
    (hframes : o.version.hasFrames = false) (pid : Pid) (p : Profile)
    (ctx : Enrichment.Context σ) :
    (Enrichment.ofProfile o pid p ctx).2.containers = ctx.containers := by
  simp only [Enrichment.ofProfile, hframes, Bool.false_eq_true, if_false]

theorem Enrichment.Context.containers_after_of_not_hasFrames {o : Options}
    (hframes : o.version.hasFrames = false) (es : List (Pid × Profile))
    (ctx : Enrichment.Context σ) : (ctx.after o es).containers = ctx.containers := by
  induction es generalizing ctx with
  | nil => rfl
  | cons e es ih =>
    exact (ih _).trans (Enrichment.containers_ofProfile_of_not_hasFrames hframes e.1 e.2 ctx)

/-- The client behind the stack lines, whatever the options are. -/
theorem Profiles.containers_after (ps : Profiles) (o : Options) (client : Option σ) :
    (Enrichment.Context.after ⟨client, .empty⟩ o ps.entries).containers =
      client.map (ps.clientAfter o) := by
  unfold Profiles.clientAfter Options.asksNames
  cases hframes : o.version.hasFrames with
  | false =>
    rw [Enrichment.Context.containers_after_of_not_hasFrames hframes]
    simp
  | true =>
    rw [Enrichment.Context.containers_after _ hframes]
    cases o.containerNames <;> simp [SortedMap.keys]

variable (ps : Profiles) (o : Options) (client : Option σ) (metadata : Metadata) (metrics : Metrics)

/-- The names that the header of a pass lists. -/
def Profiles.listedNames : List String :=
  match client with
  | some c =>
    if o.containerNames then ContainerClient.resolvedNames (ps.clientAfter o c) else []
  | none => []

/-- What becomes of the client behind the stack lines: the names that are listed, whether there are
    names at all, and the client that is left. -/
theorem Profiles.takeContainers_linesOf :
    Header.takeContainers o (Artifact.linesOf o ps.entries ⟨client, .empty⟩).2.containers =
      (ps.listedNames o client, client.isSome && o.containerNames,
        client.map fun c =>
          if o.containerNames then ContainerClient.reset (ps.clientAfter o c) else c) := by
  have hlines := Artifact.linesOf_eq o client (List.nil_append ps.entries).symm
  have hclient : (Artifact.linesOf o ps.entries ⟨client, .empty⟩).2.containers =
      client.map (ps.clientAfter o) :=
    (congrArg (fun r => r.2.containers) hlines).trans (ps.containers_after o client)
  rw [hclient]
  unfold Profiles.listedNames Profiles.clientAfter Options.asksNames
  cases client with
  | none => rfl
  | some c => cases hnames : o.containerNames <;> simp [Header.takeContainers, hnames]

theorem Profiles.containers_header :
    (ps.concatenate o client metadata metrics).artifact.header.containers =
      ps.listedNames o client :=
  congrArg (·.1) (ps.takeContainers_linesOf o client)

theorem Profiles.containerNamesEnabled_header :
    (ps.concatenate o client metadata metrics).artifact.header.containerNamesEnabled =
      (client.isSome && o.containerNames) :=
  congrArg (·.2.1) (ps.takeContainers_linesOf o client)

/-- The client that a pass leaves behind. -/
theorem Profiles.containers_concatenate :
    (ps.concatenate o client metadata metrics).containers =
      client.map fun c =>
        if o.containerNames then ContainerClient.reset (ps.clientAfter o c) else c :=
  congrArg (·.2.2) (ps.takeContainers_linesOf o client)

end Client

end FoldedStacks
