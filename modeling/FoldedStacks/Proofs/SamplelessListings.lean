-- SUMMARY: When a merge request fails for want of samples: exactly when the listing that counts for a process has stacks and none of them has a sample.
import Mathlib
import FoldedStacks.Proofs.InputOrder
import FoldedStacks.Proofs.Merging

/-!
# Listings without samples

A merge refuses runtime profiles with stacks and no sample. The reader of listings does not keep
such profiles away from it: a line with the count zero enters its stack. Blank lines, comments and
lines that are rejected enter nothing, and a listing of such lines only is no obstacle.
-/

namespace FoldedStacks

/-! ## Listings -/

/-- Some line is read as a sample line, and every line that is read counts nothing. -/
structure Listing.Sampleless (text : String) : Prop where
  counted : ∃ line ∈ Text.lines text.toList, ∃ stack n, Listing.classify line = .sample stack n
  zero : ∀ line ∈ Text.lines text.toList, ∀ stack n,
    Listing.classify line = .sample stack n → n = .zero

theorem Listing.mem_samples_iff {text : String} {s : String × Count} :
    s ∈ (Listing.parse text).samples ↔
      ∃ line ∈ Text.lines text.toList, Listing.classify line = .sample s.1 s.2 := by
  have hsample : ∀ l : Listing.Line, l.sample? = some s ↔ l = .sample s.1 s.2 := by
    intro l
    cases l <;> simp [Listing.Line.sample?, Prod.ext_iff]
  simp only [Listing.parse, List.mem_filterMap, hsample]

theorem Listing.sampleless_iff {text : String} : Listing.Sampleless text ↔
    (Listing.parse text).samples ≠ [] ∧ ∀ s ∈ (Listing.parse text).samples, s.2 = .zero := by
  constructor
  · rintro ⟨⟨line, hline, stack, n, hclass⟩, hzero⟩
    have hmem : (stack, n) ∈ (Listing.parse text).samples :=
      Listing.mem_samples_iff.2 ⟨line, hline, hclass⟩
    refine ⟨List.ne_nil_of_mem hmem, ?_⟩
    intro s hs
    obtain ⟨line', hline', hclass'⟩ := Listing.mem_samples_iff.1 hs
    exact hzero line' hline' s.1 s.2 hclass'
  · rintro ⟨hne, hzero⟩
    obtain ⟨s, hs⟩ := List.exists_mem_of_ne_nil _ hne
    obtain ⟨line, hline, hclass⟩ := Listing.mem_samples_iff.1 hs
    refine ⟨⟨line, hline, s.1, s.2, hclass⟩, ?_⟩
    intro line' hline' stack n hclass'
    exact hzero (stack, n) (Listing.mem_samples_iff.2 ⟨line', hline', hclass'⟩)

instance : DecidablePred Listing.Sampleless := fun _ =>
  decidable_of_iff _ Listing.sampleless_iff.symm

/-- The profile that is read from a listing has no samples exactly when the listing has none. -/
theorem Profile.sampleless_iff {text : String} {p : Profile}
    (hp : p.counts = (Listing.parse text).counts none) :
    p.Sampleless ↔ Listing.Sampleless text := by
  rw [Profile.Sampleless, ← StackCounts.total_eq_zero_iff, hp, Listing.counts, Ne,
    StackCounts.ofList_eq_nil_iff, StackCounts.total_ofList, Count.sum_eq_zero_iff,
    List.forall_mem_map, Listing.sampleless_iff]

/-! ## Requests -/

/-- The listing that is given last for the process has stacks, and none of them has a sample. -/
def MergeRequest.Sampleless (r : MergeRequest) (contents : Contents) (pid : Pid) : Prop :=
  ∃ path text, Entries.last? r.runtime pid = some path ∧ File.text (contents path) = .ok text ∧
    Listing.Sampleless text

section Request

variable {r : MergeRequest} {contents : Contents}

/-- The runtime profiles that a request merges, when its listings can be read. -/
def MergeRequest.runtimeProfiles (r : MergeRequest) (contents : Contents) : Profiles :=
  .ofList (r.runtime.map (CommandLine.listedProfile contents (.ofList r.appids)))

theorem MergeRequest.get?_runtimeProfiles (r : MergeRequest) (contents : Contents) (pid : Pid) :
    (r.runtimeProfiles contents).get? pid = (Entries.last? r.runtime pid).map fun path =>
      ⟨File.listedCounts (contents path), (SortedMap.ofList r.appids).get? pid, none⟩ := by
  rw [MergeRequest.runtimeProfiles, SortedMap.get?_ofList,
    Entries.last?_map (f := CommandLine.listedProfile contents _) fun _ => rfl]
  rfl

/-- The processes without samples are those whose profiles a merge refuses. -/
theorem MergeRequest.sampleless_iff
    (hruntime : ∀ e ∈ r.runtime, ∃ t, File.text (contents e.2) = .ok t) (pid : Pid) :
    r.Sampleless contents pid ↔
      ∃ p, (r.runtimeProfiles contents).get? pid = some p ∧ p.Sampleless := by
  simp only [MergeRequest.get?_runtimeProfiles, Option.map_eq_some_iff, MergeRequest.Sampleless]
  constructor
  · rintro ⟨path, text, hpath, htext, hsampleless⟩
    refine ⟨_, ⟨path, hpath, rfl⟩, (Profile.sampleless_iff ?_).2 hsampleless⟩
    simp only [File.listedCounts, htext]
  · rintro ⟨p, ⟨path, hpath, rfl⟩, hsampleless⟩
    obtain ⟨text, htext⟩ := hruntime (pid, path) (Entries.mem_of_last? hpath)
    refine ⟨path, text, hpath, htext, (Profile.sampleless_iff ?_).1 hsampleless⟩
    simp only [File.listedCounts, htext]

/-- A request with readable files fails only as its merge fails. -/
theorem MergeRequest.run_of_readable (hperf : ∃ t, File.text (contents r.perf) = .ok t)
    (hruntime : ∀ e ∈ r.runtime, ∃ t, File.text (contents e.2) = .ok t)
    (hmetadata : ∃ m, CommandLine.metadata contents r.metadata = .ok m) (entropy : UInt64) :
    ∃ (system : Profiles) (ds : Draws),
      (∀ m, system.mergeAll (r.runtimeProfiles contents) ds = .ok m →
        ∃ result, r.run contents entropy = .ok result) ∧
      ∀ e, system.mergeAll (r.runtimeProfiles contents) ds = .error e →
        r.run contents entropy = .error (.merge e) := by
  obtain ⟨t, ht⟩ := hperf
  obtain ⟨metadata, hmetadata⟩ := hmetadata
  have hrun := MergeRequest.run_eq ht hruntime entropy
  let config := (Config.loadOptional (contents r.config)).1
  refine ⟨Profiles.ofCounts (SystemListing.parse t).counts,
    .ofSeed ((r.seed.or config.scaleSeed).getD entropy), ?_, ?_⟩
  · intro m hm
    rw [MergeRequest.runtimeProfiles] at hm
    simp only [hmetadata, bind, Except.bind, Profiles.merge, config, hm] at hrun
    cases h : r.run contents entropy with
    | ok result => exact ⟨result, rfl⟩
    | error e =>
      rw [h] at hrun
      cases hrun
  · intro e he
    rw [MergeRequest.runtimeProfiles] at he
    simp only [hmetadata, bind, Except.bind, Profiles.merge, config, he] at hrun
    cases h : r.run contents entropy with
    | ok result =>
      rw [h] at hrun
      cases hrun
    | error e' =>
      rw [h] at hrun
      cases hrun
      rfl

/-- A request with readable files fails exactly when a listing that counts for a process has stacks
    and no sample. It names the smallest such process. -/
theorem MergeRequest.run_sampleless (hperf : ∃ t, File.text (contents r.perf) = .ok t)
    (hruntime : ∀ e ∈ r.runtime, ∃ t, File.text (contents e.2) = .ok t)
    (hmetadata : ∃ m, CommandLine.metadata contents r.metadata = .ok m) (entropy : UInt64) :
    ((∃ pid, r.Sampleless contents pid) →
      ∃ pid, r.Sampleless contents pid ∧ (∀ q, r.Sampleless contents q → pid ≤ q) ∧
        r.run contents entropy = .error (.merge (.noSamples pid))) ∧
    ((∀ pid, ¬ r.Sampleless contents pid) →
      ∃ result, r.run contents entropy = .ok result) := by
  obtain ⟨system, ds, hok, herror⟩ :=
    MergeRequest.run_of_readable hperf hruntime hmetadata entropy
  have hsampleless := MergeRequest.sampleless_iff hruntime
  constructor
  · rintro ⟨pid, hpid⟩
    obtain ⟨p, hp, hbad⟩ := (hsampleless pid).1 hpid
    obtain ⟨least, p', hp', hbad', hleast, hmerge⟩ :=
      Profiles.mergeAll_eq_error system ds ⟨pid, p, hp, hbad⟩
    refine ⟨least, (hsampleless least).2 ⟨p', hp', hbad'⟩, fun q hq => ?_, herror _ hmerge⟩
    obtain ⟨s, hs, hsbad⟩ := (hsampleless q).1 hq
    exact hleast q s hs hsbad
  · intro hnone
    obtain ⟨m, hm, -⟩ := Profiles.mergeAll_of_samples system ds
      (Profiles.not_sampleless_of_mem fun pid p hp hbad =>
        hnone pid ((hsampleless pid).2 ⟨p, hp, hbad⟩))
    exact hok m hm

end Request

/-- A request for one process, with the lines of its listing. -/
def MergeRequest.ofListing (lines : List String) : MergeRequest × Contents :=
  (⟨"perf", [(1, "runtime")], [], [], none, none, "config", some 3, none⟩, fun path =>
    if path = "perf" then File.ofLines ["x-1/1;a 3"]
    else if path = "runtime" then File.ofLines lines
    else none)

theorem MergeRequest.readable_ofListing (lines : List String) :
    let (r, contents) := MergeRequest.ofListing lines
    ∀ e ∈ r.runtime, ∃ t, File.text (contents e.2) = .ok t := by
  intro e he
  rw [List.mem_singleton.1 he]
  exact ⟨_, File.text_ofLines _⟩

theorem MergeRequest.sampleless_ofListing_iff {lines : List String} {pid : Pid} :
    let (r, contents) := MergeRequest.ofListing lines
    r.Sampleless contents pid ↔ pid = 1 ∧ Listing.Sampleless (Text.unlines lines) := by
  constructor
  · rintro ⟨path, text, hpath, htext, hzero⟩
    cases List.mem_singleton.1 (Entries.mem_of_last? hpath)
    cases (File.text_ofLines lines).symm.trans htext
    exact ⟨rfl, hzero⟩
  · rintro ⟨rfl, hzero⟩
    exact ⟨"runtime", _, rfl, File.text_ofLines lines, hzero⟩

/-- The files can be read, and there is no artifact. -/
theorem MergeRequest.run_of_zero_count :
    let (r, contents) := MergeRequest.ofListing ["k 0"]
    (∃ t, File.text (contents r.perf) = .ok t) ∧
      (∀ e ∈ r.runtime, ∃ t, File.text (contents e.2) = .ok t) ∧
      CommandLine.metadata contents r.metadata = .ok .empty ∧
      r.run contents 0 = .error (.merge (.noSamples 1)) :=
  ⟨⟨_, File.text_ofLines _⟩, MergeRequest.readable_ofListing _, rfl, rfl⟩

/-- A listing with a blank line, a comment and a line without a count is no obstacle, and one whose
    lines count nothing is. -/
theorem MergeRequest.run_sampleless_one_listing :
    let (r, contents) := MergeRequest.ofListing ["", "# none", "main;a"]
    let (r', contents') := MergeRequest.ofListing ["main;a 0", "main;b 00"]
    (∃ result, r.run contents 5 = .ok result) ∧
      r'.run contents' 5 = .error (.merge (.noSamples 1)) := by
  constructor
  · refine (MergeRequest.run_sampleless ⟨_, File.text_ofLines _⟩
      (MergeRequest.readable_ofListing _) ⟨_, rfl⟩ 5).2 fun pid hpid => ?_
    exact absurd (MergeRequest.sampleless_ofListing_iff.1 hpid).2 (by decide)
  · obtain ⟨pid, hpid, -, herror⟩ := (MergeRequest.run_sampleless ⟨_, File.text_ofLines _⟩
      (MergeRequest.readable_ofListing ["main;a 0", "main;b 00"]) ⟨_, rfl⟩ 5).1
        ⟨1, MergeRequest.sampleless_ofListing_iff.2 ⟨rfl, by decide⟩⟩
    rw [(MergeRequest.sampleless_ofListing_iff.1 hpid).1] at herror
    exact herror

end FoldedStacks
