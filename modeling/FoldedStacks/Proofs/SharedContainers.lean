-- SUMMARY: Passes that share a table of container names: each starts from a table that has not been asked, lists its own names, and leaves nothing to the next one.
import Mathlib
import FoldedStacks.Profile.Merge
import FoldedStacks.Proofs.ContainerListing

/-!
# Passes with a shared client

Several passes may be given one table of container names, one after the other. Names are remembered
under one condition, and listed and forgotten under another one, so a pass could leave names behind.
It never does: what it asks for is forgotten again in the same pass.
-/

namespace FoldedStacks

/-! ## Passes -/

/-- The profiles of a pass: they are given, or merged from two sources. -/
inductive Pass.Source where
  | given (ps : Profiles)
  | merged (system runtime : Profiles) (ds : Draws)

structure Pass where
  source : Pass.Source
  options : Options
  metadata : Metadata
  metrics : Metrics

/-- The profiles that a pass writes, unless its merge fails. -/
def Pass.profiles (p : Pass) : Except MergeError Profiles :=
  match p.source with
  | .given ps => .ok ps
  | .merged system runtime ds => (system.mergeAll runtime ds).map (·.profiles)

/-- A computation on a shared client. What it has done to the client stays when it fails. -/
abbrev Pass.Session (σ : Type) := ExceptT MergeError (StateM σ)

section Client

variable {σ : Type} [ContainerClient σ]

/-- What a pass writes with a client of its own. -/
def Pass.concatenation (p : Pass) (client : Option σ) : Except MergeError (Concatenation σ) :=
  match p.source with
  | .given ps => .ok (ps.concatenate p.options client p.metadata p.metrics)
  | .merged system runtime ds => system.merge runtime ds p.options client p.metadata p.metrics

/-- Runs a pass on the shared client. -/
def Pass.run (p : Pass) : Pass.Session σ Artifact := do
  let c : σ ← get
  let written ← ExceptT.mk (pure (p.concatenation (some c)))
  set (written.containers.getD c)
  return written.artifact

/-- What a pass comes to, and the client behind it. -/
def Pass.outcome (p : Pass) (c : σ) : Except MergeError Artifact × σ :=
  (ExceptT.run p.run).run c

/-- Passes one after the other. One that fails does not stop those behind it. -/
def Pass.outcomes : List Pass → σ → List (Except MergeError Artifact × σ)
  | [], _ => []
  | p :: rest, c => p.outcome c :: Pass.outcomes rest (p.outcome c).2

/-! ## One pass -/

variable {p : Pass}

/-- The client is touched by a pass that does not fail only. -/
theorem Pass.outcome_eq (p : Pass) (c : σ) :
    p.outcome c = match p.concatenation (some c) with
      | .ok written => (.ok written.artifact, written.containers.getD c)
      | .error cause => (.error cause, c) := by
  have hread : p.outcome c = (ExceptT.run (do
      let written ← (ExceptT.mk (pure (p.concatenation (some c))) : Pass.Session σ _)
      set (written.containers.getD c)
      return written.artifact)).run c := rfl
  rw [hread]
  cases p.concatenation (some c) <;> rfl

/-- A pass fails as the merge of its profiles does. -/
theorem Pass.concatenation_of_error {cause : MergeError} (h : p.profiles = .error cause)
    (client : Option σ) : p.concatenation client = .error cause := by
  unfold Pass.profiles at h
  unfold Pass.concatenation
  cases hsource : p.source with
  | given ps => simp [hsource] at h
  | merged system runtime ds =>
    simp only [hsource] at h
    cases hmerge : system.mergeAll runtime ds with
    | ok m =>
      rw [hmerge] at h
      cases h
    | error cause' =>
      rw [hmerge] at h
      cases h
      simp only [Profiles.merge, hmerge]
      rfl

/-- A pass that does not fail writes its profiles. -/
theorem Pass.concatenation_of_ok {ps : Profiles} (h : p.profiles = .ok ps) (client : Option σ) :
    ∃ notices, p.concatenation client =
      .ok { ps.concatenate p.options client p.metadata p.metrics with notices } := by
  unfold Pass.profiles at h
  unfold Pass.concatenation
  cases hsource : p.source with
  | given ps' =>
    simp only [hsource] at h
    cases h
    exact ⟨_, rfl⟩
  | merged system runtime ds =>
    simp only [hsource] at h
    cases hmerge : system.mergeAll runtime ds with
    | ok m =>
      rw [hmerge] at h
      cases h
      simp only [Profiles.merge, hmerge]
      exact ⟨_, rfl⟩
    | error cause =>
      rw [hmerge] at h
      cases h

theorem Pass.outcome_of_error {cause : MergeError} (h : p.profiles = .error cause) (c : σ) :
    p.outcome c = (.error cause, c) := by
  rw [Pass.outcome_eq, Pass.concatenation_of_error h]

theorem Pass.outcome_of_ok {ps : Profiles} (h : p.profiles = .ok ps) (c : σ) :
    p.outcome c = (.ok (ps.concatenate p.options (some c) p.metadata p.metrics).artifact,
      if p.options.containerNames then ContainerClient.reset (ps.clientAfter p.options c)
      else c) := by
  have hleft := ps.containers_concatenate p.options (some c) p.metadata p.metrics
  obtain ⟨notices, hwritten⟩ := Pass.concatenation_of_ok h (some c)
  rw [Pass.outcome_eq, hwritten]
  simp only [hleft, Option.map_some, Option.getD_some]

/-- A pass on the shared client writes what it writes with a client of its own. -/
theorem Pass.fst_outcome (p : Pass) (c : σ) :
    (p.outcome c).1 = (p.concatenation (some c)).map (·.artifact) := by
  rw [Pass.outcome_eq]
  cases p.concatenation (some c) <;> rfl

end Client

/-! ## Tables of names -/

section Names

variable (c : Containers) (pids : List Pid)

theorem Containers.names_after : (ContainerClient.after c pids).names = c.names := by
  induction pids generalizing c with
  | nil => rfl
  | cons pid pids ih =>
    refine (ih _).trans ?_
    show (c.resolve pid).2.names = c.names
    unfold Containers.resolve
    dsimp only
    split <;> rfl

/-- Look-ups change no answer. -/
theorem Containers.nameOf_after (pid : Pid) :
    (ContainerClient.after c pids).nameOf pid = c.nameOf pid := by
  rw [Containers.nameOf, Containers.nameOf, Containers.names_after]

theorem Containers.mem_resolvedNames_resolve (pid : Pid) (n : String) :
    n ∈ (c.resolve pid).2.resolvedNames ↔ n ∈ c.resolvedNames ∨ n ≠ "" ∧ c.nameOf pid = n := by
  unfold Containers.resolve Containers.resolvedNames
  dsimp only
  by_cases hname : c.nameOf pid = ""
  · have hempty : (c.nameOf pid).isEmpty = true := by rw [hname]; rfl
    rw [if_pos hempty, hname]
    grind
  · have hempty : ¬ (c.nameOf pid).isEmpty = true := by simpa using hname
    rw [if_neg hempty, SortedMap.mem_keys_insert]
    grind

/-- The names that are remembered behind some look-ups. -/
theorem Containers.mem_resolvedNames_after (n : String) :
    n ∈ (ContainerClient.after c pids).resolvedNames ↔
      n ∈ c.resolvedNames ∨ n ≠ "" ∧ ∃ pid ∈ pids, c.nameOf pid = n := by
  induction pids generalizing c with
  | nil => simp [ContainerClient.after]
  | cons pid pids ih =>
    have hnames : ∀ pid', (c.resolve pid).2.nameOf pid' = c.nameOf pid' :=
      fun pid' => Containers.nameOf_after c [pid] pid'
    refine (ih (c.resolve pid).2).trans ?_
    rw [Containers.mem_resolvedNames_resolve]
    simp only [hnames, List.exists_mem_cons_iff]
    tauto

theorem Containers.resolvedNames_ascending : c.resolvedNames.Pairwise (· < ·) := by
  refine List.pairwise_map.2 (c.resolved.ascending.imp ?_)
  intro e e' h
  exact compareOfLessAndEq_eq_lt.1 h

end Names

/-- The names of the containers that some processes run in: each once, in ascending order, and none
    that is empty. -/
structure Containers.ListsNames (names : SortedMap Pid String) (pids : List Pid)
    (listed : List String) : Prop where
  ascending : listed.Pairwise (· < ·)
  mem_iff : ∀ n, n ∈ listed ↔ n ≠ "" ∧ ∃ pid ∈ pids, names.get? pid = some n

theorem Containers.nameOf_eq_iff {c : Containers} {pid : Pid} {n : String} (h : n ≠ "") :
    c.nameOf pid = n ↔ c.names.get? pid = some n := by
  unfold Containers.nameOf
  cases c.names.get? pid with
  | none => simp [Ne.symm h]
  | some n' => simp

/-- A table that has not been asked yet lists the names that it is asked for. -/
theorem Containers.listsNames_after (names : SortedMap Pid String) (pids : List Pid) :
    Containers.ListsNames names pids
      (ContainerClient.after (Containers.ofNames names) pids).resolvedNames where
  ascending := Containers.resolvedNames_ascending _
  mem_iff := by
    intro n
    have hfresh : n ∉ (Containers.ofNames names).resolvedNames := List.not_mem_nil
    rw [Containers.mem_resolvedNames_after, or_iff_right hfresh]
    refine and_congr_right fun hn => ?_
    simp only [Containers.nameOf_eq_iff hn]
    rfl

/-- What is asked for is forgotten by a reset, and nothing else. -/
theorem Containers.reset_after (names : SortedMap Pid String) (pids : List Pid) :
    Containers.reset (ContainerClient.after (Containers.ofNames names) pids) =
      Containers.ofNames names := by
  unfold Containers.reset Containers.ofNames
  rw [Containers.names_after]

theorem Profiles.reset_clientAfter (names : SortedMap Pid String) (ps : Profiles) (o : Options) :
    Containers.reset (ps.clientAfter o (Containers.ofNames names)) = Containers.ofNames names := by
  unfold Profiles.clientAfter
  split
  · exact Containers.reset_after names ps.keys
  · rfl

/-! ## Container fields -/

/-- The line has a name in its container field. In front of that field stands the number of a
    document, where those are written. -/
def Options.CarriesName (o : Options) (name line : String) : Prop :=
  ∃ number stack, line = number ++ name ++ ";" ++ stack ∧
    if o.applicationMetadata then ∃ i, number = String.ofList (Text.numeral i) ++ ";"
    else number = ""

theorem Profiles.carriesName_line {σ : Type} [ContainerClient σ] (ps : Profiles) {o : Options}
    (hversion : o.version = .v2) (client : Option σ) (e : Pid × Profile) (stack : String)
    (n : Count) :
    o.CarriesName (ps.containerName o client e.1)
      ((ps.enrichment o client e.1 e.2).line o stack n) := by
  have hframes : o.version.hasFrames = true := by rw [hversion]; rfl
  simp only [Enrichment.line, Enrichment.stackText, Profiles.enrichment, hframes, Bool.true_and,
    if_true]
  refine ⟨_, _, by simp only [String.append_assoc]; rfl, ?_⟩
  cases o.applicationMetadata with
  | false => rfl
  | true => exact ⟨_, rfl⟩

theorem Profiles.containerName_containers (ps : Profiles) (o : Options) (c : Containers)
    (pid : Pid) :
    ps.containerName o (some c) pid = if o.containerNames then c.nameOf pid else "" := by
  have hname := Containers.nameOf_after c ((ps.before pid).map (·.1)) pid
  exact ite_congr rfl (fun _ => hname) fun _ => rfl

/-! ## Passes one after the other -/

/-- What a pass writes with a table of names that nobody else asks. -/
structure Pass.Written (names : SortedMap Pid String) (o : Options) (ps : Profiles)
    (a : Artifact) : Prop where
  listed : o.version = .v2 → o.containerNames = true →
    Containers.ListsNames names ps.keys a.header.containers
  unlisted : ¬ (o.version = .v2 ∧ o.containerNames = true) → a.header.containers = []
  /-- The lines of a process have the name of its container, and one that is not empty is listed. -/
  fields : o.version = .v2 → ∃ blocks, a.lines = blocks.flatten ∧
    List.Forall₂ (fun e lines => lines.length = e.2.counts.entries.length ∧
      ∃ name, name = (if o.containerNames then (names.get? e.1).getD "" else "") ∧
        (name ≠ "" → name ∈ a.header.containers) ∧ ∀ line ∈ lines, o.CarriesName name line)
      ps.entries blocks

section Written

variable (names : SortedMap Pid String) (ps : Profiles) {o : Options}

theorem Profiles.listsNames_listedNames (hversion : o.version = .v2)
    (hnames : o.containerNames = true) :
    Containers.ListsNames names ps.keys (ps.listedNames o (some (Containers.ofNames names))) := by
  have hasks := Options.asksNames_iff.2 ⟨hversion, hnames⟩
  simp only [Profiles.listedNames, Profiles.clientAfter, hnames, hasks, if_true]
  exact Containers.listsNames_after names ps.keys

theorem Profiles.listedNames_of_not_asksNames (h : o.asksNames = false) :
    ps.listedNames o (some (Containers.ofNames names)) = [] := by
  simp only [Profiles.listedNames, Profiles.clientAfter, h, Bool.false_eq_true, if_false]
  exact ite_id _

/-- A name in a container field is listed. -/
theorem Profiles.containerName_mem_listedNames (hversion : o.version = .v2) {e : Pid × Profile}
    (he : e ∈ ps.entries)
    (hne : ps.containerName o (some (Containers.ofNames names)) e.1 ≠ "") :
    ps.containerName o (some (Containers.ofNames names)) e.1 ∈
      ps.listedNames o (some (Containers.ofNames names)) := by
  rw [Profiles.containerName_containers] at hne ⊢
  cases hnames : o.containerNames with
  | false => simp [hnames] at hne
  | true =>
    simp only [hnames, if_true] at hne ⊢
    exact ((ps.listsNames_listedNames names hversion hnames).mem_iff _).2
      ⟨hne, e.1, List.mem_map_of_mem he, (Containers.nameOf_eq_iff hne).1 rfl⟩

theorem Pass.written_concatenate (o : Options) (metadata : Metadata) (metrics : Metrics) :
    Pass.Written names o ps
      (ps.concatenate o (some (Containers.ofNames names)) metadata metrics).artifact := by
  constructor
  case listed =>
    intro hversion hnames
    rw [ps.containers_header]
    exact ps.listsNames_listedNames names hversion hnames
  case unlisted =>
    intro hnot
    rw [ps.containers_header]
    exact ps.listedNames_of_not_asksNames names
      (Bool.eq_false_iff.2 fun h => hnot (Options.asksNames_iff.1 h))
  case fields =>
    intro hversion
    rw [ps.containers_header, ps.lines_concatenate, List.flatMap_def]
    refine ⟨_, rfl, ?_⟩
    rw [List.forall₂_map_right_iff]
    refine List.forall₂_same.2 fun e he => ⟨List.length_map _, _,
      ps.containerName_containers o (Containers.ofNames names) e.1,
      ps.containerName_mem_listedNames names hversion he, ?_⟩
    intro line hline
    obtain ⟨s, -, rfl⟩ := List.mem_map.1 hline
    exact ps.carriesName_line hversion (some (Containers.ofNames names)) e s.1 s.2

end Written

/-- A pass among others is as if it were alone: it finds the table unasked and leaves it so. -/
structure Pass.Isolated (names : SortedMap Pid String) (p : Pass)
    (outcome : Except MergeError Artifact × Containers) : Prop where
  client : outcome.2 = .ofNames names
  alone : outcome.1 = (p.concatenation (some (Containers.ofNames names))).map (·.artifact)
  failed : ∀ cause, p.profiles = .error cause → outcome.1 = .error cause
  written : ∀ ps, p.profiles = .ok ps →
    ∃ a, outcome.1 = .ok a ∧ Pass.Written names p.options ps a

theorem Pass.isolated_outcome (names : SortedMap Pid String) (p : Pass) :
    Pass.Isolated names p (p.outcome (Containers.ofNames names)) := by
  refine ⟨?_, p.fst_outcome _, ?_, ?_⟩
  · cases hp : p.profiles with
    | error cause => rw [Pass.outcome_of_error hp]
    | ok ps =>
      rw [Pass.outcome_of_ok hp]
      exact (ite_congr rfl (fun _ => ps.reset_clientAfter names p.options) fun _ => rfl).trans
        (ite_id _)
  · intro cause hp
    rw [Pass.outcome_of_error hp]
  · intro ps hp
    rw [Pass.outcome_of_ok hp]
    exact ⟨_, rfl, Pass.written_concatenate names ps p.options p.metadata p.metrics⟩

/-- Passes that share a table of names do not leak into each other, whatever their options are and
    whether they fail. A failing pass leaves the table as it is, whatever was asked before. -/
theorem Pass.outcomes_isolated (names : SortedMap Pid String) (passes : List Pass) :
    List.Forall₂ (Pass.Isolated names) passes
        (Pass.outcomes passes (Containers.ofNames names)) ∧
      ∀ (p : Pass) (c : Containers) (cause : MergeError), p.profiles = .error cause →
        p.outcome c = (.error cause, c) := by
  refine ⟨?_, fun p c cause h => Pass.outcome_of_error h c⟩
  -- every pass hands on the table as it was at the start
  induction passes with
  | nil => exact .nil
  | cons p rest ih =>
    have hp := Pass.isolated_outcome names p
    refine .cons hp ?_
    rw [hp.client]
    exact ih

end FoldedStacks
