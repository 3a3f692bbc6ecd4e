-- SUMMARY: What a pass adds to the stacks of a process, told from that process and the smaller ones alone: the loop over the processes with its client and its table unrolled.
import Mathlib
import FoldedStacks.Artifact.Basic
import FoldedStacks.Proofs.Entries

/-!
# Enriching process by process

A pass asks its client and its table of metadata for one process after the other. What it adds to
the stacks of a process depends on the processes with smaller numbers: on the names that were asked
for, and on the documents that were entered.
-/

namespace FoldedStacks

/-! ## Description of the pass -/

/-- The table behind some documents. -/
def MetadataTable.after (t : MetadataTable) (ds : List (Option Document)) : MetadataTable :=
  ds.foldl (fun t d => (t.number d).2) t

/-- The processes with smaller numbers. -/
def Profiles.before (ps : Profiles) (pid : Pid) : List (Pid × Profile) :=
  ps.entries.filter fun e => decide (e.1 < pid)

/-- The number that a pass gives to the document of a process. -/
def Profiles.documentNumber (ps : Profiles) (pid : Pid) (p : Profile) : Nat :=
  ((MetadataTable.empty.after ((ps.before pid).map (·.2.appMetadata))).number p.appMetadata).1

section Client

variable {σ : Type} [ContainerClient σ]

/-- The client after it was asked about some processes. -/
def ContainerClient.after (c : σ) (pids : List Pid) : σ :=
  pids.foldl (fun c pid => (ContainerClient.resolve c pid).2) c

/-- The container name that a pass resolves for a process: what the client answers after it was
    asked about all smaller processes. Without a client, or with names off, it is empty. -/
def Profiles.containerName (ps : Profiles) (o : Options) (client : Option σ) (pid : Pid) : String :=
  match client with
  | some c =>
    if o.containerNames then
      (ContainerClient.resolve (ContainerClient.after c ((ps.before pid).map (·.1))) pid).1
    else ""
  | none => ""

/-- What a pass adds to the stacks of a process. -/
def Profiles.enrichment (ps : Profiles) (o : Options) (client : Option σ) (pid : Pid)
    (p : Profile) : Enrichment where
  appid := p.appid.map ("appid: " ++ ·)
  applicationField :=
    if o.version.hasFrames && o.applicationMetadata then
      String.ofList (Text.numeral (ps.documentNumber pid p)) ++ ";"
    else ""
  containerField := if o.version.hasFrames then ps.containerName o client pid ++ ";" else ""

/-- The samples of all processes under the texts that a pass writes for their stacks. -/
def Profiles.writtenSamples (ps : Profiles) (o : Options) (client : Option σ) :
    List (String × Count) :=
  ps.entries.flatMap fun e => e.2.counts.entries.map fun s =>
    ((ps.enrichment o client e.1 e.2).stackText o s.1, s.2)

/-! ## One process -/

/-- The context behind some processes. -/
def Enrichment.Context.after (ctx : Enrichment.Context σ) (o : Options)
    (es : List (Pid × Profile)) : Enrichment.Context σ :=
  es.foldl (fun ctx e => (Enrichment.ofProfile o e.1 e.2 ctx).2) ctx

section Step

variable (o : Options) (pid : Pid) (p : Profile) (ctx : Enrichment.Context σ)

theorem Enrichment.table_ofProfile :
    (Enrichment.ofProfile o pid p ctx).2.table = (ctx.table.number p.appMetadata).2 := by
  simp only [Enrichment.ofProfile]
  split <;> rfl

theorem Enrichment.containers_ofProfile (hframes : o.version.hasFrames = true) :
    (Enrichment.ofProfile o pid p ctx).2.containers =
      (Enrichment.resolveContainer o pid ctx.containers).2 := by
  simp only [Enrichment.ofProfile, hframes, if_true]

theorem Enrichment.fst_ofProfile :
    (Enrichment.ofProfile o pid p ctx).1 =
      { appid := p.appid.map ("appid: " ++ ·)
        applicationField :=
          if o.version.hasFrames && o.applicationMetadata then
            String.ofList (Text.numeral (ctx.table.number p.appMetadata).1) ++ ";"
          else ""
        containerField :=
          if o.version.hasFrames then
            (Enrichment.resolveContainer o pid ctx.containers).1 ++ ";"
          else "" } := by
  simp only [Enrichment.ofProfile]
  split <;> rfl

theorem Enrichment.fst_resolveContainer (client : Option σ) :
    (Enrichment.resolveContainer o pid client).1 =
      match client with
      | some c => if o.containerNames then (ContainerClient.resolve c pid).1 else ""
      | .none => "" := by
  unfold Enrichment.resolveContainer
  cases client with
  | none => rfl
  | some c => cases o.containerNames <;> rfl

theorem Enrichment.snd_resolveContainer (client : Option σ) :
    (Enrichment.resolveContainer o pid client).2 =
      if o.containerNames then client.map fun c => (ContainerClient.resolve c pid).2
      else client := by
  unfold Enrichment.resolveContainer
  cases client with
  | none => simp
  | some c => cases o.containerNames <;> rfl

end Step

/-! ## All processes -/

theorem Enrichment.Context.table_after (ctx : Enrichment.Context σ) (o : Options)
    (es : List (Pid × Profile)) :
    (ctx.after o es).table = ctx.table.after (es.map (·.2.appMetadata)) := by
  induction es generalizing ctx with
  | nil => rfl
  | cons e es ih =>
    refine (ih _).trans ?_
    rw [Enrichment.table_ofProfile]
    rfl

theorem Enrichment.Context.containers_after (ctx : Enrichment.Context σ) {o : Options}
    (hframes : o.version.hasFrames = true) (es : List (Pid × Profile)) :
    (ctx.after o es).containers =
      if o.containerNames then
        ctx.containers.map fun c => ContainerClient.after c (es.map (·.1))
      else ctx.containers := by
  induction es generalizing ctx with
  | nil => simp [Enrichment.Context.after, ContainerClient.after]
  | cons e es ih =>
    refine (ih _).trans ?_
    rw [Enrichment.containers_ofProfile o e.1 e.2 ctx hframes, Enrichment.snd_resolveContainer]
    cases o.containerNames with
    | false => rfl
    | true => cases ctx.containers <;> rfl

/-- The client's answer for a process, behind the smaller ones. -/
theorem Profiles.resolveContainer_eq (ps : Profiles) {o : Options} (client : Option σ) (pid : Pid)
    (table : MetadataTable) (hframes : o.version.hasFrames = true) :
    (Enrichment.resolveContainer o pid
      (Enrichment.Context.after ⟨client, table⟩ o (ps.before pid)).containers).1 =
      ps.containerName o client pid := by
  rw [Enrichment.Context.containers_after _ hframes, Enrichment.fst_resolveContainer]
  unfold Profiles.containerName
  cases client with
  | none => cases o.containerNames <;> rfl
  | some c => cases o.containerNames <;> rfl

theorem Profiles.ofProfile_eq (ps : Profiles) (o : Options) (client : Option σ) (pid : Pid)
    (p : Profile) :
    (Enrichment.ofProfile o pid p
      (Enrichment.Context.after ⟨client, .empty⟩ o (ps.before pid))).1 =
      ps.enrichment o client pid p := by
  rw [Enrichment.fst_ofProfile, Enrichment.Context.table_after]
  refine Enrichment.ext rfl rfl ?_
  simp only [Profiles.enrichment]
  split
  next hframes => rw [Profiles.resolveContainer_eq ps client pid .empty hframes]
  next => rfl

theorem Artifact.linesOf_eq {ps : Profiles} (o : Options) (client : Option σ)
    {before es : List (Pid × Profile)} (h : ps.entries = before ++ es) :
    Artifact.linesOf o es (Enrichment.Context.after ⟨client, .empty⟩ o before) =
      (es.flatMap fun e => e.2.lines o (ps.enrichment o client e.1 e.2),
        Enrichment.Context.after ⟨client, .empty⟩ o ps.entries) := by
  -- the processes before fix the client and the table that the next one meets
  induction es generalizing before with
  | nil => rw [h, List.append_nil]; rfl
  | cons e es ih =>
    have hbefore : ps.before e.1 = before := SortedMap.filter_lt h
    have hfst := ps.ofProfile_eq o client e.1 e.2
    rw [hbefore] at hfst
    have hsnd : (Enrichment.ofProfile o e.1 e.2
        (Enrichment.Context.after ⟨client, .empty⟩ o before)).2 =
        Enrichment.Context.after ⟨client, .empty⟩ o (before ++ [e]) := by
      simp only [Enrichment.Context.after, List.foldl_append, List.foldl_cons, List.foldl_nil]
    have hnext : ps.entries = (before ++ [e]) ++ es := by rw [h, List.append_assoc]; rfl
    rw [Artifact.linesOf]
    simp only [hfst, hsnd, ih hnext, List.flatMap_cons]

/-- The lines of an artifact, process by process. -/
theorem Profiles.lines_concatenate (ps : Profiles) (o : Options) (client : Option σ)
    (metadata : Metadata) (metrics : Metrics) :
    (ps.concatenate o client metadata metrics).artifact.lines =
      ps.entries.flatMap fun e => e.2.lines o (ps.enrichment o client e.1 e.2) := by
  have h := Artifact.linesOf_eq o client (List.nil_append ps.entries).symm
  exact congrArg Prod.fst h

/-- The header lists the table behind all processes. -/
theorem Profiles.applicationMetadata_concatenate (ps : Profiles) (o : Options) (client : Option σ)
    (metadata : Metadata) (metrics : Metrics) :
    (ps.concatenate o client metadata metrics).artifact.header.applicationMetadata =
      (MetadataTable.empty.after (ps.entries.map (·.2.appMetadata))).entries := by
  have h := Artifact.linesOf_eq o client (List.nil_append ps.entries).symm
  have htable : (Artifact.linesOf o ps.entries ⟨client, .empty⟩).2.table =
      MetadataTable.empty.after (ps.entries.map (·.2.appMetadata)) := by
    refine (congrArg (fun r => r.2.table) h).trans ?_
    exact Enrichment.Context.table_after _ o ps.entries
  exact congrArg MetadataTable.entries htable

end Client

end FoldedStacks
