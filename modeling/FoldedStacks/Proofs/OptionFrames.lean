-- SUMMARY: The version and the feature switches change nothing in an artifact but the frames in front of the stacks: under any two options the same stacks are listed in the same order, over the same table of documents.
import Mathlib
import FoldedStacks.Proofs.ArtifactIndex
import FoldedStacks.Proofs.ByteOrder

/-!
# Frames under different options

Options say which frames stand in front of a stack. Whatever they say, the documents are numbered,
and the client answers for its own frame only. So two artifacts of the same profiles are the same
list of lines, each with the frames of its own options in front.
-/

namespace FoldedStacks

/-! ## The stacks of an artifact -/

/-- A stack with samples in a process. -/
structure Profiles.Sampled where
  pid : Pid
  profile : Profile
  stack : String
  count : Count

/-- The stacks of all processes, in the order in which they are written. -/
def Profiles.sampled (ps : Profiles) : List Profiles.Sampled :=
  ps.entries.flatMap fun e => e.2.counts.entries.map fun s => ⟨e.1, e.2, s.1, s.2⟩

/-- In the order of the processes, and of the bytes of the stacks within a process. -/
def Profiles.Sampled.Before (x y : Profiles.Sampled) : Prop :=
  x.pid < y.pid ∨ x.pid = y.pid ∧ Text.bytes x.stack < Text.bytes y.stack

/-- Every stack of every process is written, and no other one. -/
theorem Profiles.mem_sampled_iff {ps : Profiles} {x : Profiles.Sampled} :
    x ∈ ps.sampled ↔
      ps.get? x.pid = some x.profile ∧ x.profile.counts.get? x.stack = some x.count := by
  rw [Profiles.sampled, List.mem_flatMap, SortedMap.get?_eq_some_iff, SortedMap.get?_eq_some_iff]
  constructor
  · rintro ⟨e, he, hx⟩
    obtain ⟨s, hs, rfl⟩ := List.mem_map.1 hx
    exact ⟨he, hs⟩
  · rintro ⟨he, hs⟩
    exact ⟨_, he, List.mem_map.2 ⟨_, hs, rfl⟩⟩

theorem Profiles.sampled_ordered (ps : Profiles) :
    ps.sampled.Pairwise Profiles.Sampled.Before := by
  refine List.pairwise_flatMap.2 ⟨fun e _ => ?_, ps.ascending.imp fun hlt x hx y hy => ?_⟩
  · exact List.pairwise_map.2 (e.2.counts.entries_byteOrder.imp fun hbytes => .inr ⟨rfl, hbytes⟩)
  · obtain ⟨-, -, rfl⟩ := List.mem_map.1 hx
    obtain ⟨-, -, rfl⟩ := List.mem_map.1 hy
    exact .inl (Std.compare_eq_lt.1 hlt)

/-! ## Frames and what stands behind them -/

/-- The frames that options put in front of a stack: the number of a document only if the version
    has frames and metadata is on, then the name of a container only if the version has frames. -/
def Options.frames (o : Options) (number : Nat) (name : String) : String :=
  match o.version with
  | .v1 => ""
  | .v2 =>
    (if o.applicationMetadata then String.ofList (Text.numeral number) ++ ";" else "") ++
      (name ++ ";")

/-- The line of a stack without the frames in front of it. -/
def Profiles.Sampled.bareLine (x : Profiles.Sampled) (identifiers : Bool) : String :=
  (match x.profile.appid with
    | some a =>
      if identifiers then Enrichment.spliceFrame ("appid: " ++ a) x.stack else x.stack
    | none => x.stack) ++ " " ++ String.ofList (Text.numeral x.count.val)

section Pass

variable {σ : Type} [ContainerClient σ]

/-- The frames that a pass writes in front of a stack. -/
def Profiles.frames (ps : Profiles) (o : Options) (client : Option σ) (x : Profiles.Sampled) :
    String :=
  o.frames (ps.documentNumber x.pid x.profile) (ps.containerName o client x.pid)

theorem Profiles.enrichment_fields (ps : Profiles) (o : Options) (client : Option σ)
    (x : Profiles.Sampled) :
    (ps.enrichment o client x.pid x.profile).applicationField ++
      (ps.enrichment o client x.pid x.profile).containerField = ps.frames o client x := by
  simp only [Profiles.enrichment, Profiles.frames, Options.frames]
  cases o.version with
  | v1 => rfl
  | v2 => simp only [ApiVersion.hasFrames, Bool.true_and, if_true]

/-- A line is its frames and the rest, which depends on the identifiers alone. -/
theorem Profiles.line_eq_frames_append (ps : Profiles) (o : Options) (client : Option σ)
    (x : Profiles.Sampled) :
    (ps.enrichment o client x.pid x.profile).line o x.stack x.count =
      ps.frames o client x ++ x.bareLine o.applicationIdentifiers := by
  have happid : (ps.enrichment o client x.pid x.profile).appid =
      x.profile.appid.map ("appid: " ++ ·) := rfl
  rw [← Profiles.enrichment_fields]
  simp only [Enrichment.line, Enrichment.stackText, Profiles.Sampled.bareLine, happid,
    String.append_assoc]
  cases x.profile.appid with
  | none => rfl
  | some a => rfl

theorem Profiles.lines_eq_map_sampled (ps : Profiles) (o : Options) (client : Option σ)
    (metadata : Metadata) (metrics : Metrics) :
    (ps.concatenate o client metadata metrics).artifact.lines =
      ps.sampled.map fun x => ps.frames o client x ++ x.bareLine o.applicationIdentifiers := by
  rw [ps.lines_concatenate, Profiles.sampled, List.map_flatMap]
  refine List.flatMap_congr fun e _ => ?_
  rw [Profile.lines, List.map_map]
  exact List.map_congr_left fun s _ => ps.line_eq_frames_append o client ⟨e.1, e.2, s.1, s.2⟩

/-- Two artifacts of the same profiles under options that agree on the identifiers have one table of
    documents and list the same stacks, by process and then by bytes. Each line is the same under
    both behind the frames that its own options put in front; the name there is empty without a
    client or with names off. -/
theorem Profiles.options_change_frames (ps : Profiles) {a b : Options}
    (hids : a.applicationIdentifiers = b.applicationIdentifiers) (client : Option σ)
    (metadata : Metadata) (metrics : Metrics) (ha : ps.LineFeedFree a client)
    (hb : ps.LineFeedFree b client) :
    let underA := (ps.concatenate a client metadata metrics).artifact
    let underB := (ps.concatenate b client metadata metrics).artifact
    underA.header.applicationMetadata = underB.header.applicationMetadata ∧
      ps.sampled.Pairwise Profiles.Sampled.Before ∧
      (∀ x, x ∈ ps.sampled ↔
        ps.get? x.pid = some x.profile ∧ x.profile.counts.get? x.stack = some x.count) ∧
      (∃ bare : Profiles.Sampled → String,
        Text.lines underA.text.toList = underA.header.line.toList ::
          ps.sampled.map (fun x => (ps.frames a client x ++ bare x).toList) ∧
        Text.lines underB.text.toList = underB.header.line.toList ::
          ps.sampled.map (fun x => (ps.frames b client x ++ bare x).toList)) ∧
      ∀ o : Options, (client = none ∨ o.containerNames = false) →
        ∀ pid, ps.containerName o client pid = "" := by
  intro underA underB
  refine ⟨?_, ps.sampled_ordered, fun x => Profiles.mem_sampled_iff,
    ⟨fun x => x.bareLine a.applicationIdentifiers, ?_, ?_⟩, fun o h => ps.containerName_of_off h⟩
  · rw [ps.applicationMetadata_concatenate, ps.applicationMetadata_concatenate]
  · rw [ha.lines_text metadata metrics, ps.lines_eq_map_sampled a client metadata metrics,
      List.map_map]
    rfl
  · rw [hb.lines_text metadata metrics, ps.lines_eq_map_sampled b client metadata metrics,
      List.map_map, hids]
    rfl

end Pass

/-- Both frames, and none of them. -/
theorem Profiles.options_change_frames_mixed :
    let bare : Options := ⟨.v1, true, true, true⟩
    let client := some (Containers.ofNames (.ofList [(9, "box 1")]))
    let full := (Profiles.mixed.concatenate .all client .empty .none).artifact
    let plain := (Profiles.mixed.concatenate bare client .empty .none).artifact
    full.lines = ["0;; 3", "0;;main;a b\x0d;c 2", "1;box 1;main;appid: web 4"] ∧
      plain.lines = [" 3", "main;a b\x0d;c 2", "main;appid: web 4"] ∧
      full.header.applicationMetadata = plain.header.applicationMetadata := by
  intro bare client full plain
  have hall : Profiles.mixed.LineFeedFree .all client := ⟨by decide, by decide, by decide⟩
  have hbare : Profiles.mixed.LineFeedFree bare client := ⟨by decide, by decide, by decide⟩
  obtain ⟨htable, -⟩ := Profiles.options_change_frames Profiles.mixed (a := .all) (b := bare) rfl
    client .empty .none hall hbare
  exact ⟨by decide, by decide, htable⟩

end FoldedStacks
