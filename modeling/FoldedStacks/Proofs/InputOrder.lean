-- SUMMARY: The order of the inputs does not matter: requests whose listings have the same lines in another order, and whose arguments are given in another order, are answered with the same artifact or the same failure.
import Mathlib
import FoldedStacks.CommandLine.Run
import FoldedStacks.Proofs.Accumulation
import FoldedStacks.Proofs.Lines

/-!
# The order of inputs

Merging reads its inputs into maps, and these do not depend on the order in which they were filled.
From there on everything goes by the order of the keys: the draws, the numbers of documents, the
names that are asked for and the lines of the artifact.
-/

namespace FoldedStacks

/-! ## Lines of listings -/

/-- The texts have the same lines, perhaps in another order. Blank lines stand for nothing in a
    listing and are not counted, so a line feed at the end makes no difference. -/
def Text.SameLines (t t' : String) : Prop :=
  ((Text.lines t.toList).filter fun l => !Text.allBlank l).Perm
    ((Text.lines t'.toList).filter fun l => !Text.allBlank l)

/-- Joining lines in another order makes a text with the same lines. -/
theorem Text.sameLines_unlines {ls ls' : List String} (h : ls.Perm ls')
    (hline : ∀ l ∈ ls, '\n' ∉ l.toList ∧ l.toList.getLast? ≠ some '\r') :
    Text.SameLines (Text.unlines ls) (Text.unlines ls') := by
  have hread : ∀ {ms : List String}, (∀ m ∈ ms, m ∈ ls) →
      (Text.lines (Text.unlines ms).toList).filter (fun l => !Text.allBlank l) =
        (ms.map String.toList).filter fun l => !Text.allBlank l := by
    intro ms hms
    obtain ⟨lost, hlost, hempty⟩ := Text.exists_lines_unlines fun m hm => hline m (hms m hm)
    have hblank : lost.filter (fun l => !Text.allBlank l) = [] := by
      apply List.filter_eq_nil_iff.2
      intro l hl
      simp [hempty l hl, Text.allBlank]
    simp [hlost, hblank]
  unfold Text.SameLines
  rw [hread fun _ hm => hm, hread fun m hm => h.mem_iff.2 hm]
  exact (h.map _).filter _

theorem Listing.samples_perm {t t' : String} (h : Text.SameLines t t') :
    (Listing.parse t).samples.Perm (Listing.parse t').samples := by
  have hskip : ∀ ls : List (List Char), ls.filterMap (fun l => (Listing.classify l).sample?) =
      (ls.filter fun l => !Text.allBlank l).filterMap fun l => (Listing.classify l).sample? := by
    intro ls
    rw [List.filterMap_filter]
    apply List.filterMap_congr
    intro l _
    by_cases hblank : Text.allBlank l = true
    · simp [Listing.classify, hblank, Listing.Line.sample?]
    · simp [hblank]
  simp only [Listing.parse]
  rw [hskip, hskip (Text.lines t'.toList)]
  exact List.Perm.filterMap _ h

theorem SystemListing.samples_perm {t t' : String} (h : Text.SameLines t t') :
    (SystemListing.parse t).samples.Perm (SystemListing.parse t').samples :=
  List.Perm.filterMap _ h

/-! ## Files of a request -/

/-- Both files can be read, and their texts have the same lines. -/
def File.SameLines (a b : Option ByteArray) : Prop :=
  ∃ t t', File.text a = .ok t ∧ File.text b = .ok t' ∧ Text.SameLines t t'

/-- A file of lines. -/
def File.ofLines (ls : List String) : Option ByteArray :=
  some (Text.unlines ls).toUTF8

theorem File.text_ofLines (ls : List String) : File.text (File.ofLines ls) = .ok (Text.unlines ls) := by
  have hread : String.fromUTF8? (Text.unlines ls).toUTF8 = some (Text.unlines ls) :=
    dif_pos (Text.unlines ls).isValidUTF8
  simp only [File.text, File.ofLines, hread]

theorem File.sameLines_ofLines {ls ls' : List String} (h : ls.Perm ls')
    (hline : ∀ l ∈ ls, '\n' ∉ l.toList ∧ l.toList.getLast? ≠ some '\r') :
    File.SameLines (File.ofLines ls) (File.ofLines ls') :=
  ⟨_, _, File.text_ofLines ls, File.text_ofLines ls', Text.sameLines_unlines h hline⟩

/-- The samples in a file that lists the stacks of one process. -/
def File.listedCounts (a : Option ByteArray) : StackCounts :=
  match File.text a with
  | .ok t => (Listing.parse t).counts none
  | .error _ => .empty

theorem File.SameLines.listedCounts_eq {a b : Option ByteArray} (h : File.SameLines a b) :
    File.listedCounts a = File.listedCounts b := by
  obtain ⟨t, t', ht, ht', hlines⟩ := h
  simp only [File.listedCounts, ht, ht']
  exact StackCounts.ofList_perm (Listing.samples_perm hlines)

/-- The profile of a process from the file that lists its stacks. -/
def CommandLine.listedProfile (contents : Contents) (appids : SortedMap Pid String)
    (e : Pid × String) : Pid × Profile :=
  (e.1, ⟨File.listedCounts (contents e.2), appids.get? e.1, none⟩)

theorem CommandLine.exists_mapM_runtimeProfile {contents : Contents}
    (appids : SortedMap Pid String) {es : List (Pid × String)}
    (h : ∀ e ∈ es, ∃ t, File.text (contents e.2) = .ok t) :
    ∃ read, es.mapM (CommandLine.runtimeProfile contents appids) = .ok read ∧
      read.map (·.1) = es.map (CommandLine.listedProfile contents appids) := by
  induction es with
  | nil => exact ⟨[], rfl, rfl⟩
  | cons e es ih =>
    obtain ⟨t, ht⟩ := h e (by simp)
    obtain ⟨read, hread, hfst⟩ := ih fun e' he' => h e' (List.mem_cons_of_mem e he')
    have hfirst : CommandLine.runtimeProfile contents appids e =
        .ok (CommandLine.listedProfile contents appids e, (Listing.parse t).notices) := by
      simp only [CommandLine.runtimeProfile, CommandLine.listedProfile, File.listedCounts, ht]
      rfl
    refine ⟨(CommandLine.listedProfile contents appids e, (Listing.parse t).notices) :: read, ?_,
      by simp [hfst]⟩
    rw [List.mapM_cons, hfirst, hread]
    rfl

/-! ## Requests -/

/-- Both requests are for the same merge, but the lines of the listings, the processes with runtime
    listings, the identifiers and the containers may be given in another order. -/
structure MergeRequest.Reordered (r : MergeRequest) (contents : Contents) (r' : MergeRequest)
    (contents' : Contents) : Prop where
  seed : r'.seed = r.seed
  version : r'.version = r.version
  config : contents' r'.config = contents r.config
  metadata : CommandLine.metadata contents' r'.metadata = CommandLine.metadata contents r.metadata
  perf : File.SameLines (contents r.perf) (contents' r'.perf)
  runtime : ∃ pairs : List ((Pid × String) × (Pid × String)),
    r.runtime.Perm (pairs.map (·.1)) ∧ r'.runtime = pairs.map (·.2) ∧
      ∀ p ∈ pairs, p.1.1 = p.2.1 ∧ File.SameLines (contents p.1.2) (contents' p.2.2)
  appids : r.appids.Perm r'.appids
  containers : r.containers.Perm r'.containers
  runtime_distinct : (r.runtime.map (·.1)).Nodup
  appids_distinct : (r.appids.map (·.1)).Nodup
  containers_distinct : (r.containers.map (·.1)).Nodup

section Reordered

variable {r r' : MergeRequest} {contents contents' : Contents}

/-- What a request with readable listings is answered with. -/
theorem MergeRequest.run_eq {t : String} (hperf : File.text (contents r.perf) = .ok t)
    (hruntime : ∀ e ∈ r.runtime, ∃ t, File.text (contents e.2) = .ok t) (entropy : UInt64) :
    (r.run contents entropy).map (·.text) = (do
      let config := (Config.loadOptional (contents r.config)).1
      let metadata ← CommandLine.metadata contents r.metadata
      let c ← (Profiles.merge (Profiles.ofCounts (SystemListing.parse t).counts)
        (.ofList (r.runtime.map (CommandLine.listedProfile contents (.ofList r.appids))))
        (.ofSeed ((r.seed.or config.scaleSeed).getD entropy)) (r.options config)
        (some (Containers.ofNames (.ofList r.containers))) metadata .none).mapError .merge
      return c.artifact.text) := by
  obtain ⟨read, hread, hfst⟩ :=
    CommandLine.exists_mapM_runtimeProfile (.ofList r.appids) hruntime
  simp only [MergeRequest.run, hperf, hread, ← hfst]
  cases CommandLine.metadata contents r.metadata with
  | error e => rfl
  | ok metadata =>
    simp only [Except.mapError, bind, Except.bind]
    generalize Profiles.merge (σ := Containers) _ _ _ _ _ _ _ = merged
    cases merged <;> rfl

theorem MergeRequest.Reordered.profiles_eq (h : r.Reordered contents r' contents') :
    SortedMap.ofList (r'.runtime.map (CommandLine.listedProfile contents' (.ofList r'.appids))) =
      SortedMap.ofList (r.runtime.map (CommandLine.listedProfile contents (.ofList r.appids))) := by
  obtain ⟨pairs, hperm, hruntime, hsame⟩ := h.runtime
  have hprofiles : (pairs.map (·.1)).map (CommandLine.listedProfile contents (.ofList r.appids)) =
      r'.runtime.map (CommandLine.listedProfile contents' (.ofList r'.appids)) := by
    rw [hruntime, ← SortedMap.ofList_perm h.appids h.appids_distinct, List.map_map, List.map_map]
    apply List.map_congr_left
    intro p hp
    obtain ⟨hpid, hlines⟩ := hsame p hp
    simp only [Function.comp_apply, CommandLine.listedProfile, hpid, hlines.listedCounts_eq]
  rw [← hprofiles]
  refine (SortedMap.ofList_perm (hperm.map _) ?_).symm
  rw [List.map_map]
  exact h.runtime_distinct

theorem MergeRequest.Reordered.readable (h : r.Reordered contents r' contents') :
    (∀ e ∈ r.runtime, ∃ t, File.text (contents e.2) = .ok t) ∧
      ∀ e ∈ r'.runtime, ∃ t, File.text (contents' e.2) = .ok t := by
  obtain ⟨pairs, hperm, hruntime, hsame⟩ := h.runtime
  constructor
  · intro e he
    obtain ⟨p, hp, rfl⟩ := List.mem_map.1 (hperm.mem_iff.1 he)
    obtain ⟨-, t, -, ht, -⟩ := hsame p hp
    exact ⟨t, ht⟩
  · intro e he
    rw [hruntime] at he
    obtain ⟨p, hp, rfl⟩ := List.mem_map.1 he
    obtain ⟨-, -, t, -, ht, -⟩ := hsame p hp
    exact ⟨t, ht⟩

/-- The order of the lines of the listings, of the runtime listings, of the identifiers and of the
    containers does not change the artifact, nor does it change whether and how a merge fails. -/
theorem MergeRequest.run_reordered (h : r.Reordered contents r' contents') (entropy : UInt64) :
    (r'.run contents' entropy).map (·.text) = (r.run contents entropy).map (·.text) := by
  obtain ⟨t, t', ht, ht', hlines⟩ := h.perf
  obtain ⟨hread, hread'⟩ := h.readable
  rw [MergeRequest.run_eq ht hread, MergeRequest.run_eq ht' hread', h.profiles_eq, h.config, h.seed,
    h.metadata, SystemListing.counts_perm (SystemListing.samples_perm hlines),
    SortedMap.ofList_perm h.containers h.containers_distinct]
  simp only [MergeRequest.options, h.version]

end Reordered

/-- Two processes whose listings, identifiers and containers are given in either order. -/
theorem MergeRequest.run_reordered_two_processes :
    let r : MergeRequest := ⟨"perf", [(7, "web"), (9, "db")], [(7, "w"), (9, "d")],
      [(7, "box"), (9, "rack")], none, none, "config", some 5, none⟩
    let r' := { r with
      runtime := r.runtime.reverse, appids := r.appids.reverse, containers := r.containers.reverse }
    let files (perf web : List String) : Contents := fun path =>
      if path = "perf" then File.ofLines perf
      else if path = "web" then File.ofLines web
      else if path = "db" then File.ofLines ["db;scan 4"]
      else none
    let contents := files ["java-7/8;run 60", "pg-9/9;scan 30", "java-7/7;run 1"] ["main;a 3", "", "b 5"]
    let shuffled := files ["java-7/7;run 1", "java-7/8;run 60", "pg-9/9;scan 30"] ["b 5", "main;a 3", ""]
    r.Reordered contents r' shuffled ∧
      (r'.run shuffled 0).map (·.text) = (r.run contents 0).map (·.text) := by
  intro r r' files contents shuffled
  have hperf : File.SameLines (contents "perf") (shuffled "perf") :=
    File.sameLines_ofLines (by decide) (by decide)
  have hweb : File.SameLines (contents "web") (shuffled "web") :=
    File.sameLines_ofLines (by decide) (by decide)
  have hdb : File.SameLines (contents "db") (shuffled "db") :=
    File.sameLines_ofLines (List.Perm.refl _) (by decide)
  have h : r.Reordered contents r' shuffled := by
    refine ⟨rfl, rfl, rfl, rfl, hperf, ⟨[((9, "db"), (9, "db")), ((7, "web"), (7, "web"))], ?_, rfl,
      ?_⟩, (List.reverse_perm _).symm, (List.reverse_perm _).symm, by decide, by decide, by decide⟩
    · exact (List.reverse_perm _).symm
    · simp [hweb, hdb]
  exact ⟨h, MergeRequest.run_reordered h 0⟩

end FoldedStacks
