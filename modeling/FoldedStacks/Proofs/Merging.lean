-- SUMMARY: What a merge makes of every process, as a description that does not mention the loop: the invariant of a merge, its step and run lemmas, and the first process without samples.
import Mathlib
import FoldedStacks.Profile.Merge
import FoldedStacks.Proofs.Entries
import FoldedStacks.Proofs.Totals

/-!
# Merging process by process

A merge goes through the runtime profiles in the order of the processes. It reads the map that it
overwrites, and the position in the stream of draws depends on all processes before. Here the
outcome is told for each process alone: from its two profiles and from how many words the smaller
processes have drawn.
-/

namespace FoldedStacks

/-! ## Description of the outcome -/

/-- There are stacks, and none of them has a sample. -/
def Profile.Sampleless (p : Profile) : Prop :=
  p.counts.entries ≠ [] ∧ ∀ e ∈ p.counts.entries, e.2 = Count.zero

instance : DecidablePred Profile.Sampleless := fun p =>
  inferInstanceAs (Decidable (p.counts.entries ≠ [] ∧ ∀ e ∈ p.counts.entries, e.2 = Count.zero))

/-- How many words the merge of one process draws: one for each of its stacks, or none if it hangs
    samples below a marker or if the totals of the two profiles have the ratio one. -/
def Merge.wordsFor (system : Profiles) (e : Pid × Profile) : Nat :=
  let total := (system.get? e.1).elim 0 fun p => p.counts.total.val
  if (0 < total ∧ e.2.counts.isErrorMarker = true) ∨
      Binary64.ofNat total / Binary64.ofNat e.2.counts.total.val = .one then 0
  else e.2.counts.entries.length

/-- How many words a list of processes draws. -/
def Merge.wordsForAll (system : Profiles) (es : List (Pid × Profile)) : Nat :=
  (es.map (Merge.wordsFor system)).sum

/-- How many words are drawn before the merge of a process. -/
def Merge.drawnBefore (system runtime : Profiles) (pid : Pid) : Nat :=
  Merge.wordsForAll system (runtime.entries.filter fun e => decide (e.1 < pid))

/-- What a merge makes of every process. -/
structure Merge.Outcome (system runtime : Profiles) (ds : Draws) (merged : Profiles) : Prop where
  /-- The processes are those of the system-wide profiles and those with runtime stacks. -/
  keys : ∀ pid, (merged.get? pid).isSome ↔
    (system.get? pid).isSome ∨ ∃ r, runtime.get? pid = some r ∧ r.counts.entries ≠ []
  /-- Without runtime stacks the system-wide profile stays. -/
  kept : ∀ pid, (∀ r, runtime.get? pid = some r → r.counts.entries = []) →
    merged.get? pid = system.get? pid
  /-- A marker is put over the samples of the system-wide profile, if there are any. -/
  attached : ∀ pid r p, runtime.get? pid = some r → system.get? pid = some p →
    0 < p.counts.total.val → r.counts.isErrorMarker = true →
    merged.get? pid = some ⟨ErrorMarker.attach p.counts r.counts, r.appid, r.appMetadata⟩
  /-- All other runtime stacks are scaled, with the words behind those of the smaller processes. The
      ratio is the total of the system-wide profile, or zero if there is none, over the total of the
      runtime profile. -/
  scaled : ∀ pid r, runtime.get? pid = some r → r.counts.entries ≠ [] →
    (∀ p, system.get? pid = some p → 0 < p.counts.total.val → r.counts.isErrorMarker = false) →
    merged.get? pid = some ⟨r.counts.scale
      (Binary64.ofNat ((system.get? pid).elim 0 fun p => p.counts.total.val) /
        Binary64.ofNat r.counts.total.val)
      (ds.after (Merge.drawnBefore system runtime pid)), r.appid, r.appMetadata⟩

theorem Merge.wordsForAll_append (system : Profiles) (es es' : List (Pid × Profile)) :
    Merge.wordsForAll system (es ++ es') =
      Merge.wordsForAll system es + Merge.wordsForAll system es' := by
  simp [Merge.wordsForAll]

/-! ## One process -/

section Step

variable {ds : Draws} {m : Merge.Progress} {pid : Pid} {r : Profile}

theorem Merge.step_of_isEmpty (h : r.counts.entries = []) : Merge.step ds m (pid, r) = .ok m := by
  simp only [Merge.step, StackCounts.isEmpty_iff.2 h, if_true]

theorem Merge.step_of_sampleless (h : r.Sampleless) :
    Merge.step ds m (pid, r) = .error (.noSamples pid) := by
  have hne : ¬ r.counts.isEmpty = true := fun hc => h.1 (StackCounts.isEmpty_iff.1 hc)
  simp only [Merge.step, if_neg hne, if_pos (StackCounts.total_eq_zero_iff.2 h.2)]

theorem Merge.step_of_samples (hne : r.counts.entries ≠ []) (h : ¬ r.Sampleless) :
    Merge.step ds m (pid, r) = .ok {
      profiles := m.profiles.insert pid { r with
        counts := Merge.counts (m.profiles.get? pid) r.counts (ds.after m.drawn) }
      drawn := m.drawn + Merge.drawsTaken (m.profiles.get? pid) r.counts
      notices := m.notices ++ [Merge.notice (m.profiles.get? pid) pid r.counts] } := by
  have hne' : ¬ r.counts.isEmpty = true := fun hc => hne (StackCounts.isEmpty_iff.1 hc)
  have htotal : ¬ r.counts.total = Count.zero := fun hc =>
    h ⟨hne, StackCounts.total_eq_zero_iff.1 hc⟩
  simp only [Merge.step, if_neg hne', if_neg htotal]

end Step

theorem Merge.val_systemTotal (system : Option Profile) :
    (Merge.systemTotal system).val = system.elim 0 fun p => p.counts.total.val := by
  cases system <;> rfl

theorem Merge.ratio_eq (system : Option Profile) (r : StackCounts) :
    Merge.ratio system r = Binary64.ofNat (system.elim 0 fun p => p.counts.total.val) /
      Binary64.ofNat r.total.val := by
  rw [Merge.ratio, Merge.val_systemTotal]

theorem Merge.attaches_iff_total {system : Option Profile} {r : StackCounts} :
    Merge.attaches system r = true ↔
      0 < (system.elim 0 fun p => p.counts.total.val) ∧ r.isErrorMarker = true := by
  rw [Merge.attaches, Bool.and_eq_true, decide_eq_true_eq, Merge.val_systemTotal]

theorem Merge.drawsTaken_eq (system : Profiles) (e : Pid × Profile) :
    Merge.drawsTaken (system.get? e.1) e.2.counts = Merge.wordsFor system e := by
  simp only [Merge.drawsTaken, StackCounts.drawsTaken, Merge.wordsFor, SortedMap.size,
    Merge.attaches_iff_total, Merge.ratio_eq, ite_or]

theorem Merge.wordsFor_of_isEmpty {system : Profiles} {e : Pid × Profile}
    (h : e.2.counts.entries = []) : Merge.wordsFor system e = 0 := by
  simp [Merge.wordsFor, h]

/-! ## The invariant -/

/-- Where a merge stands behind the processes `done`. The map is overwritten for those of them that
    have stacks, each with what its own profiles and the processes before it determine. -/
structure Merge.Reached (system : Profiles) (ds : Draws) (done : List (Pid × Profile))
    (m : Merge.Progress) : Prop where
  drawn : m.drawn = Merge.wordsForAll system done
  kept : ∀ pid, (∀ e ∈ done, e.1 = pid → e.2.counts.entries = []) →
    m.profiles.get? pid = system.get? pid
  replaced : ∀ before e after, done = before ++ e :: after → e.2.counts.entries ≠ [] →
    m.profiles.get? e.1 = some { e.2 with
      counts := Merge.counts (system.get? e.1) e.2.counts
        (ds.after (Merge.wordsForAll system before)) }

theorem Merge.reached_start (system : Profiles) (ds : Draws) :
    Merge.Reached system ds [] ⟨system, 0, []⟩ where
  drawn := rfl
  kept := fun _ _ => rfl
  replaced := fun before e after h => by simp at h

/-- A process among `done ++ [e]` is one of `done`, or it is `e`. -/
private theorem split_concat {β : Type} {done before after : List β} {e e' : β}
    (h : done ++ [e] = before ++ e' :: after) :
    (before = done ∧ e' = e ∧ after = []) ∨ ∃ after', done = before ++ e' :: after' := by
  rcases List.eq_nil_or_concat after with rfl | ⟨after', x, rfl⟩
  · obtain ⟨hdone, he⟩ := List.append_inj' h rfl
    exact .inl ⟨hdone.symm, by simpa using he.symm, rfl⟩
  · refine .inr ⟨after', ?_⟩
    rw [List.concat_eq_append, ← List.cons_append, ← List.append_assoc] at h
    exact (List.append_inj' h rfl).1

theorem Merge.Reached.step {system : Profiles} {ds : Draws} {done : List (Pid × Profile)}
    {m : Merge.Progress} {e : Pid × Profile} (h : Merge.Reached system ds done m)
    (hnew : ∀ e' ∈ done, e'.1 ≠ e.1) (hsamples : ¬ e.2.Sampleless) :
    ∃ m', Merge.step ds m e = .ok m' ∧ Merge.Reached system ds (done ++ [e]) m' := by
  by_cases hempty : e.2.counts.entries = []
  case pos =>
    refine ⟨m, Merge.step_of_isEmpty hempty, ?_, ?_, ?_⟩
    · rw [Merge.wordsForAll_append, h.drawn]
      simp [Merge.wordsForAll, Merge.wordsFor_of_isEmpty hempty]
    · intro pid hpid
      exact h.kept pid fun e' he' => hpid e' (by simp [he'])
    · intro before e' after hsplit hne
      rcases split_concat hsplit with ⟨-, rfl, -⟩ | ⟨after', hdone⟩
      · exact absurd hempty hne
      · exact h.replaced before e' after' hdone hne
  case neg =>
    -- no process of `done` is `e`, so what the loop reads is the system-wide profile
    have hfound : m.profiles.get? e.1 = system.get? e.1 :=
      h.kept e.1 fun e' he' heq => absurd heq (hnew e' he')
    refine ⟨_, Merge.step_of_samples hempty hsamples, ?_, ?_, ?_⟩
    · rw [Merge.wordsForAll_append, hfound, Merge.drawsTaken_eq, h.drawn]
      simp [Merge.wordsForAll]
    · intro pid hpid
      have hne : pid ≠ e.1 := fun heq => hempty (hpid e (by simp) heq.symm)
      rw [SortedMap.get?_insert, if_neg hne]
      exact h.kept pid fun e' he' => hpid e' (by simp [he'])
    · intro before e' after hsplit hne
      rcases split_concat hsplit with ⟨rfl, rfl, -⟩ | ⟨after', hdone⟩
      · rw [SortedMap.get?_insert, if_pos rfl, hfound, h.drawn]
      · have he' : e'.1 ≠ e.1 := hnew e' (by simp [hdone])
        rw [SortedMap.get?_insert, if_neg he']
        exact h.replaced before e' after' hdone hne

/-! ## A whole merge -/

theorem Merge.Reached.run {system : Profiles} {ds : Draws} {done rest : List (Pid × Profile)}
    {m : Merge.Progress} (h : Merge.Reached system ds done m)
    (hasc : Entries.Ascending (done ++ rest)) (hsamples : ∀ e ∈ rest, ¬ e.2.Sampleless) :
    ∃ m', rest.foldlM (Merge.step ds) m = .ok m' ∧ Merge.Reached system ds (done ++ rest) m' := by
  -- a process is met once only, so no step overwrites what an earlier one has written
  induction rest generalizing done m with
  | nil => exact ⟨m, rfl, by simpa using h⟩
  | cons e rest ih =>
    obtain ⟨m₁, hstep, h₁⟩ := h.step (fun e' he' => hasc.key_ne_of_append he')
      (hsamples e (by simp))
    obtain ⟨m₂, hrun, h₂⟩ := ih h₁ (by simpa using hasc) fun e' he' => hsamples e' (by simp [he'])
    refine ⟨m₂, ?_, by simpa using h₂⟩
    rw [List.foldlM_cons, hstep]
    exact hrun

/-- A merge ends at the first process without samples. -/
theorem Merge.foldlM_step_of_sampleless {system : Profiles} {ds : Draws}
    {done before after : List (Pid × Profile)} {e : Pid × Profile} {m : Merge.Progress}
    (h : Merge.Reached system ds done m)
    (hasc : Entries.Ascending (done ++ (before ++ e :: after)))
    (hbefore : ∀ e' ∈ before, ¬ e'.2.Sampleless) (he : e.2.Sampleless) :
    (before ++ e :: after).foldlM (Merge.step ds) m = .error (.noSamples e.1) := by
  have hasc' : Entries.Ascending (done ++ before) := by
    rw [← List.append_assoc] at hasc
    exact (List.pairwise_append.1 hasc).1
  obtain ⟨m', hrun, -⟩ := h.run hasc' hbefore
  rw [List.foldlM_append, hrun]
  show (e :: after).foldlM (Merge.step ds) m' = _
  rw [List.foldlM_cons, Merge.step_of_sampleless he]
  rfl

theorem Profiles.mergeAll_of_samples (system : Profiles) {runtime : Profiles} (ds : Draws)
    (hsamples : ∀ e ∈ runtime.entries, ¬ e.2.Sampleless) :
    ∃ m, system.mergeAll runtime ds = .ok m ∧ Merge.Reached system ds runtime.entries m := by
  have hrun := (Merge.reached_start system ds).run (by simpa using runtime.ascending) hsamples
  rw [List.nil_append] at hrun
  exact hrun

theorem Profiles.mergeAll_of_sampleless (system : Profiles) {runtime : Profiles} (ds : Draws)
    {before after : List (Pid × Profile)} {e : Pid × Profile}
    (hsplit : runtime.entries = before ++ e :: after)
    (hbefore : ∀ e' ∈ before, ¬ e'.2.Sampleless) (he : e.2.Sampleless) :
    system.mergeAll runtime ds = .error (.noSamples e.1) := by
  rw [Profiles.mergeAll, hsplit]
  refine Merge.foldlM_step_of_sampleless (Merge.reached_start system ds) ?_ hbefore he
  rw [List.nil_append, ← hsplit]
  exact runtime.ascending

/-! ## From the invariant to the description -/

theorem Merge.attaches_iff {system : Option Profile} {r : StackCounts} :
    Merge.attaches system r = true ↔
      ∃ p, system = some p ∧ 0 < p.counts.total.val ∧ r.isErrorMarker = true := by
  rw [Merge.attaches_iff_total]
  cases system <;> simp

theorem Merge.counts_of_attaches {p : Profile} {r : StackCounts} {ds : Draws}
    (h : Merge.attaches (some p) r = true) :
    Merge.counts (some p) r ds = ErrorMarker.attach p.counts r := by
  simp only [Merge.counts, h, if_true]

theorem Merge.counts_of_not_attaches {system : Option Profile} {r : StackCounts} {ds : Draws}
    (h : ¬ Merge.attaches system r = true) :
    Merge.counts system r ds = r.scale (Merge.ratio system r) ds := by
  cases system with
  | none => rfl
  | some p => simp only [Merge.counts, if_neg h]

theorem StackCounts.entries_ne_nil_of_isErrorMarker {s : StackCounts}
    (h : s.isErrorMarker = true) : s.entries ≠ [] := by
  intro hnil
  simp [StackCounts.isErrorMarker, SortedMap.keys, hnil] at h

/-- The profile of a process with runtime stacks behind a whole merge. -/
theorem Merge.Reached.get?_eq {system runtime : Profiles} {ds : Draws} {m : Merge.Progress}
    (h : Merge.Reached system ds runtime.entries m) {pid : Pid} {r : Profile}
    (hr : runtime.get? pid = some r) (hne : r.counts.entries ≠ []) :
    m.profiles.get? pid = some { r with
      counts := Merge.counts (system.get? pid) r.counts
        (ds.after (Merge.drawnBefore system runtime pid)) } := by
  obtain ⟨before, after, hsplit⟩ :=
    List.append_of_mem (SortedMap.get?_eq_some_iff.1 hr)
  have hget := h.replaced before (pid, r) after hsplit hne
  rw [hget, Merge.drawnBefore, SortedMap.filter_lt hsplit]

theorem Merge.Reached.outcome {system runtime : Profiles} {ds : Draws} {m : Merge.Progress}
    (h : Merge.Reached system ds runtime.entries m) :
    Merge.Outcome system runtime ds m.profiles := by
  have hkept : ∀ pid, (∀ r, runtime.get? pid = some r → r.counts.entries = []) →
      m.profiles.get? pid = system.get? pid := by
    intro pid hpid
    refine h.kept pid fun e he heq => hpid e.2 ?_
    rw [← heq]
    exact SortedMap.get?_eq_some_iff.2 he
  constructor
  case keys =>
    intro pid
    by_cases hr : ∃ r, runtime.get? pid = some r ∧ r.counts.entries ≠ []
    · obtain ⟨r, hr, hne⟩ := hr
      rw [h.get?_eq hr hne]
      exact ⟨fun _ => .inr ⟨r, hr, hne⟩, fun _ => rfl⟩
    · rw [hkept pid fun r hget => Classical.byContradiction fun hne => hr ⟨r, hget, hne⟩]
      exact ⟨.inl, fun hor => hor.resolve_right hr⟩
  case kept => exact hkept
  case attached =>
    intro pid r p hr hp hpos hmarker
    have hattaches : Merge.attaches (some p) r.counts = true :=
      Merge.attaches_iff.2 ⟨p, rfl, hpos, hmarker⟩
    rw [h.get?_eq hr (StackCounts.entries_ne_nil_of_isErrorMarker hmarker), hp,
      Merge.counts_of_attaches hattaches]
  case scaled =>
    intro pid r hr hne hnot
    have hattaches : ¬ Merge.attaches (system.get? pid) r.counts = true := by
      rw [Merge.attaches_iff]
      rintro ⟨p, hp, hpos, hmarker⟩
      rw [hnot p hp hpos] at hmarker
      exact absurd hmarker (by decide)
    rw [h.get?_eq hr hne, Merge.counts_of_not_attaches hattaches, Merge.ratio_eq]

/-! ## Larger processes do not matter -/

section Agreement

variable {system system' runtime runtime' : Profiles} {pid : Pid}

theorem Merge.drawnBefore_congr
    (hsystem : ∀ q, q < pid → system'.get? q = system.get? q)
    (hruntime : ∀ q, q < pid → runtime'.get? q = runtime.get? q) :
    Merge.drawnBefore system' runtime' pid = Merge.drawnBefore system runtime pid := by
  have hentries := SortedMap.filter_entries_congr runtime' runtime
    (fun q => decide (q < pid)) fun q hq => hruntime q (of_decide_eq_true hq)
  unfold Merge.drawnBefore Merge.wordsForAll
  rw [hentries]
  congr 1
  apply List.map_congr_left
  intro e he
  have hlt : e.1 < pid := of_decide_eq_true (List.mem_filter.1 he).2
  unfold Merge.wordsFor
  rw [hsystem e.1 hlt]

theorem Merge.Reached.get?_congr {ds : Draws} {m m' : Merge.Progress}
    (h : Merge.Reached system ds runtime.entries m)
    (h' : Merge.Reached system' ds runtime'.entries m')
    (hsystem : ∀ q, q ≤ pid → system'.get? q = system.get? q)
    (hruntime : ∀ q, q ≤ pid → runtime'.get? q = runtime.get? q) :
    m'.profiles.get? pid = m.profiles.get? pid := by
  have hself : pid ≤ pid := UInt32.le_refl pid
  by_cases hr : ∃ r, runtime.get? pid = some r ∧ r.counts.entries ≠ []
  case pos =>
    obtain ⟨r, hr, hne⟩ := hr
    have hdrawn := Merge.drawnBefore_congr (fun q hq => hsystem q (UInt32.le_of_lt hq))
      fun q hq => hruntime q (UInt32.le_of_lt hq)
    rw [h.get?_eq hr hne, h'.get?_eq ((hruntime pid hself).trans hr) hne, hsystem pid hself, hdrawn]
  case neg =>
    have hnone : ∀ r, runtime.get? pid = some r → r.counts.entries = [] := fun r hget =>
      Classical.byContradiction fun hne => hr ⟨r, hget, hne⟩
    rw [h.outcome.kept pid hnone,
      h'.outcome.kept pid fun r hget => hnone r ((hruntime pid hself).symm.trans hget),
      hsystem pid hself]

end Agreement

/-! ## Main result -/

theorem Profiles.mergeAll_eq_error (system : Profiles) {runtime : Profiles} (ds : Draws)
    (h : ∃ pid r, runtime.get? pid = some r ∧ r.Sampleless) :
    ∃ pid r, runtime.get? pid = some r ∧ r.Sampleless ∧
      (∀ q s, runtime.get? q = some s → s.Sampleless → pid ≤ q) ∧
      system.mergeAll runtime ds = .error (.noSamples pid) := by
  obtain ⟨pid, r, hr, hbad⟩ := h
  have hexists : (runtime.entries.find? fun e => e.2.Sampleless).isSome = true :=
    List.find?_isSome.2 ⟨(pid, r), SortedMap.get?_eq_some_iff.1 hr, decide_eq_true hbad⟩
  obtain ⟨e, hfirst⟩ := Option.isSome_iff_exists.1 hexists
  obtain ⟨he, before, after, hsplit, hbefore⟩ := List.find?_eq_some_iff_append.1 hfirst
  simp only [decide_eq_true_eq, Bool.not_eq_true', decide_eq_false_iff_not] at he hbefore
  refine ⟨e.1, e.2, ?_, he, ?_, Profiles.mergeAll_of_sampleless system ds hsplit hbefore he⟩
  · exact SortedMap.get?_eq_some_iff.2 (by simp [hsplit])
  · intro q s hq hs
    refine UInt32.not_lt.1 fun hlt => hbefore (q, s) ?_ hs
    rw [← SortedMap.filter_lt hsplit, List.mem_filter]
    exact ⟨SortedMap.get?_eq_some_iff.1 hq, decide_eq_true hlt⟩

theorem Profiles.not_sampleless_of_mem {runtime : Profiles}
    (h : ∀ pid r, runtime.get? pid = some r → ¬ r.Sampleless) :
    ∀ e ∈ runtime.entries, ¬ e.2.Sampleless :=
  fun e he => h e.1 e.2 (SortedMap.get?_eq_some_iff.2 he)

/-- A merge that succeeds met no process without samples. -/
theorem Profiles.reached_of_mergeAll {system runtime : Profiles} {ds : Draws} {m : Merge.Progress}
    (h : system.mergeAll runtime ds = .ok m) : Merge.Reached system ds runtime.entries m := by
  by_cases hbad : ∃ pid r, runtime.get? pid = some r ∧ r.Sampleless
  case pos =>
    obtain ⟨pid, r, -, -, -, herror⟩ := Profiles.mergeAll_eq_error system ds hbad
    rw [herror] at h
    cases h
  case neg =>
    obtain ⟨m', hm', hreached⟩ := Profiles.mergeAll_of_samples system ds
      (Profiles.not_sampleless_of_mem fun pid r hr hs => hbad ⟨pid, r, hr, hs⟩)
    rw [h] at hm'
    cases hm'
    exact hreached

/-- Merging fails exactly for runtime profiles with stacks and no sample, naming the smallest such
    process. Otherwise it writes the artifact of the described outcome, in which a process never
    depends on a larger one. -/
theorem Profiles.merge_by_process {σ : Type} [ContainerClient σ] (system runtime : Profiles)
    (ds : Draws) (o : Options) (client : Option σ) (metadata : Metadata) (metrics : Metrics) :
    ((∃ pid r, runtime.get? pid = some r ∧ r.Sampleless) →
      ∃ pid r, runtime.get? pid = some r ∧ r.Sampleless ∧
        (∀ q s, runtime.get? q = some s → s.Sampleless → pid ≤ q) ∧
        system.merge runtime ds o client metadata metrics = .error (.noSamples pid)) ∧
    ((∀ pid r, runtime.get? pid = some r → ¬ r.Sampleless) →
      ∃ merged notices, Merge.Outcome system runtime ds merged ∧
        system.merge runtime ds o client metadata metrics =
          .ok { merged.concatenate o client metadata metrics with
            notices := notices ++ (merged.concatenate o client metadata metrics).notices }) ∧
    (∀ (system' runtime' : Profiles) (m m' : Merge.Progress) (pid : Pid),
      system.mergeAll runtime ds = .ok m → system'.mergeAll runtime' ds = .ok m' →
      (∀ q, q ≤ pid → system'.get? q = system.get? q) →
      (∀ q, q ≤ pid → runtime'.get? q = runtime.get? q) →
      m'.profiles.get? pid = m.profiles.get? pid) := by
  refine ⟨?_, ?_, ?_⟩
  · intro hbad
    obtain ⟨pid, r, hr, hs, hleast, herror⟩ := Profiles.mergeAll_eq_error system ds hbad
    refine ⟨pid, r, hr, hs, hleast, ?_⟩
    simp only [Profiles.merge, herror]
    rfl
  · intro hgood
    obtain ⟨m, hm, hreached⟩ := Profiles.mergeAll_of_samples system ds
      (Profiles.not_sampleless_of_mem hgood)
    refine ⟨m.profiles, m.notices, hreached.outcome, ?_⟩
    simp only [Profiles.merge, hm]
    rfl
  · intro system' runtime' m m' pid hm hm' hs hr
    exact (Profiles.reached_of_mergeAll hm).get?_congr (Profiles.reached_of_mergeAll hm') hs hr

/-- Halved counts, counts that stay, counts one and a half times as high, and a process without a
    system-wide profile. The words are all zero but for two of them: the third process begins behind
    the two words of the first one, as the second one takes none. -/
theorem Profiles.merge_by_process_of_ratios :
    let system : Profiles := .ofList [(1, .ofCounts (.ofList [("a", .ofNat 5)])),
      (2, .ofCounts (.ofList [("b", .ofNat 2)])), (3, .ofCounts (.ofList [("c", .ofNat 3)]))]
    let runtime : Profiles := .ofList [(1, .ofCounts (.ofList [("x", .ofNat 3), ("y", .ofNat 7)])),
      (2, .ofCounts (.ofList [("u", .ofNat 2)])),
      (3, .ofCounts (.ofList [("v", .ofNat 1), ("w", .ofNat 1)])),
      (4, .ofCounts (.ofList [("k", .ofNat 4)]))]
    let ds : Draws := fun i => if i = 1 ∨ i = 2 then 2 ^ 64 - 1 else 0
    ∃ merged : Profiles,
      (system.merge runtime ds .all (none : Option Containers) .empty .none).map (·.artifact) =
        .ok (merged.concatenate .all (none : Option Containers) .empty .none).artifact ∧
      (merged.get? 1).map (·.counts.entries) = some [("x", .ofNat 2), ("y", .ofNat 3)] ∧
      (merged.get? 2).map (·.counts.entries) = some [("u", .ofNat 2)] ∧
      (merged.get? 3).map (·.counts.entries) = some [("v", .ofNat 1), ("w", .ofNat 2)] ∧
      (merged.get? 4).map (·.counts.entries) = some [] := by
  intro system runtime ds
  have hsamples : ∀ e ∈ runtime.entries, ¬ e.2.Sampleless := by decide +kernel
  have hmarkers : ∀ e ∈ runtime.entries, e.2.counts.isErrorMarker = false := by decide +kernel
  obtain ⟨merged, notices, houtcome, hmerge⟩ := (Profiles.merge_by_process system runtime ds .all
    (none : Option Containers) .empty .none).2.1 fun pid r hr =>
      hsamples (pid, r) (SortedMap.get?_eq_some_iff.1 hr)
  have hscaled := fun pid r (hr : runtime.get? pid = some r) hne =>
    houtcome.scaled pid r hr hne fun _ _ _ =>
      hmarkers (pid, r) (SortedMap.get?_eq_some_iff.1 hr)
  refine ⟨merged, by rw [hmerge]; rfl, ?_, ?_, ?_, ?_⟩
  · rw [hscaled 1 _ rfl (by decide)]
    decide +kernel
  · rw [hscaled 2 _ rfl (by decide)]
    decide +kernel
  · rw [hscaled 3 _ rfl (by decide)]
    decide +kernel
  · rw [hscaled 4 _ rfl (by decide)]
    decide +kernel

end FoldedStacks
