-- SUMMARY: Which reports of failed profilers are recognised, whatever texts they are made of, and what a merge makes of those that are and of those that are not.
import Mathlib
import FoldedStacks.Proofs.AttachedSamples
import FoldedStacks.Proofs.MarkerSearch
import FoldedStacks.Proofs.Merging

/-!
# Reports of failed profilers

The report of a profiler that failed has what failed and the reason in its only stack, and both may
hold any of the signs that hold the frame together. A reason ends at the first closing bracket, so
one that begins with a bracket counts as none. Such a report is recognised only if another separator
in its stack has something else behind it; otherwise it is scaled like a stack that was sampled.
-/

namespace FoldedStacks

/-! ## Recognition -/

theorem ErrorMarker.closesReason_cons_iff {c : Char} {cs : List Char} :
    ErrorMarker.closesReason (c :: cs) = true ↔ c ≠ ']' ∧ ']' ∈ cs := by
  rw [ErrorMarker.closesReason, Text.splitFirst]
  by_cases hc : c = ']'
  · simp [hc]
  · rw [if_neg hc]
    cases hsplit : Text.splitFirst ']' cs with
    | none => simp [Text.splitFirst_eq_none_iff.1 hsplit]
    | some parts =>
      have hmem : ']' ∈ cs := by
        rw [(Text.splitFirst_eq_some_iff.1 hsplit).1]
        simp
      simp [hc, hmem]

/-- Behind the beginning of a marker frame there is a separator with something before it, and behind
    the separator another character than the closing bracket. -/
def ErrorMarker.GivesReason (stack : String) : Prop :=
  ∃ (root what behind : String) (c : Char),
    stack = root ++ ";[Profiling " ++ what ++ ": " ++ String.singleton c ++ behind ∧
      what ≠ "" ∧ c ≠ ']'

/-- A character that is not the last one of a text is followed by the last one. -/
private theorem mem_of_getLast? {c last : Char} {before behind : List Char}
    (h : (before ++ c :: behind).getLast? = some last) (hc : c ≠ last) : last ∈ behind := by
  rw [List.getLast?_append_of_ne_nil _ (List.cons_ne_nil c behind)] at h
  exact (List.mem_cons.1 (List.mem_of_getLast? h)).resolve_left (Ne.symm hc)

/-- A stack that ends with the closing bracket is a marker if it gives a reason. -/
theorem ErrorMarker.marks_iff_givesReason {stack : String}
    (hclosed : stack.toList.getLast? = some ']') :
    ErrorMarker.marks stack = true ↔ ErrorMarker.GivesReason stack := by
  rw [ErrorMarker.marks_iff]
  constructor
  · rintro ⟨root, what, reason, behind, hstack, hwhat, hreason, hbracket⟩
    obtain ⟨c, cs, hcs⟩ := List.exists_cons_of_ne_nil fun hnil =>
      hreason (String.toList_eq_nil_iff.1 hnil)
    have hc : c ≠ ']' := fun hc => hbracket (by rw [hcs, hc]; exact List.mem_cons_self)
    refine ⟨root, what, String.ofList cs ++ "]" ++ behind, c, ?_, hwhat, hc⟩
    simp [String.ext_iff, hstack, hcs]
  · rintro ⟨root, what, behind, c, rfl, hwhat, hc⟩
    have hlater : ']' ∈ behind.toList := by
      have hends : (root.toList ++ ";[Profiling ".toList ++ what.toList ++ ": ".toList ++
          c :: behind.toList).getLast? = some ']' := by
        rw [← hclosed]
        simp
      exact mem_of_getLast? hends hc
    obtain ⟨reason, rest, hrest, hreason, hbracket⟩ :=
      ErrorMarker.closesReason_iff.1 (ErrorMarker.closesReason_cons_iff.2 ⟨hc, hlater⟩)
    refine ⟨root, what, .ofList reason, .ofList rest, ?_, hwhat, ?_, by simpa using hbracket⟩
    · simp [String.ext_iff, ← hrest]
    · simpa [String.ext_iff] using hreason

theorem ErrorMarker.keys_counts (what reason comm : String) :
    (ErrorMarker.counts what reason comm).keys = [ErrorMarker.stack what reason comm] := rfl

theorem ErrorMarker.isErrorMarker_counts_iff (what reason comm : String) :
    (ErrorMarker.counts what reason comm).isErrorMarker = true ↔
      ErrorMarker.GivesReason (ErrorMarker.stack what reason comm) := by
  have hclosed : (ErrorMarker.stack what reason comm).toList.getLast? = some ']' := by
    rw [ErrorMarker.stack, String.toList_append]
    exact List.getLast?_concat
  exact ErrorMarker.marks_iff_givesReason hclosed

/-- A reason that does not begin with the closing bracket is found where it was put. -/
theorem ErrorMarker.givesReason_stack {what reason : String} (comm : String) (hwhat : what ≠ "")
    (hreason : reason ≠ "") (hhead : reason.toList.head? ≠ some ']') :
    ErrorMarker.GivesReason (ErrorMarker.stack what reason comm) := by
  obtain ⟨c, cs, hcs⟩ := List.exists_cons_of_ne_nil fun hnil =>
    hreason (String.toList_eq_nil_iff.1 hnil)
  have hc : c ≠ ']' := by
    rintro rfl
    exact hhead (by rw [hcs]; rfl)
  refine ⟨comm, what, String.ofList cs ++ "]", c, ?_, hwhat, hc⟩
  simp [ErrorMarker.stack, String.ext_iff, hcs]

/-! ## Merging a report -/

section Merged

variable {system runtime : Profiles} {pid : Pid} {r p : Profile} {what reason comm : String}

/-- A process whose runtime profile is a report, behind a merge. -/
theorem Profiles.mergeAll_report (ds : Draws)
    (hsamples : ∀ pid r, runtime.get? pid = some r → ¬ r.Sampleless)
    (hr : runtime.get? pid = some r) (hreport : r.counts = ErrorMarker.counts what reason comm)
    (hp : system.get? pid = some p) (hpos : 0 < p.counts.total.val) :
    ∃ m merged, system.mergeAll runtime ds = .ok m ∧
      m.profiles.get? pid = some ⟨merged, r.appid, r.appMetadata⟩ ∧
      (r.counts.isErrorMarker = true → merged = ErrorMarker.attach p.counts r.counts) ∧
      (r.counts.isErrorMarker = false →
        merged = r.counts.scale (Merge.ratio (some p) r.counts)
          (ds.after (Merge.drawnBefore system runtime pid))) := by
  obtain ⟨m, hm, hreached⟩ :=
    Profiles.mergeAll_of_samples system ds (Profiles.not_sampleless_of_mem hsamples)
  have hne : r.counts.entries ≠ [] := by
    rw [hreport]
    exact List.cons_ne_nil _ _
  cases hmarker : r.counts.isErrorMarker with
  | true =>
    refine ⟨m, _, hm, hreached.outcome.attached pid r p hr hp hpos hmarker, fun _ => rfl, ?_⟩
    intro hfalse
    cases hfalse
  | false =>
    have hget := hreached.outcome.scaled pid r hr hne fun _ _ _ => hmarker
    rw [hp] at hget
    refine ⟨m, _, hm, hget, ?_, fun _ => rfl⟩
    intro htrue
    cases htrue

end Merged

/-- A report with something that failed and a reason is recognised if the reason does not begin with
    the closing bracket, and in general exactly if a separator of its stack has another character
    than that behind it. Where the system-wide profile of the process has samples, a merge hangs them
    below the marker of such a report, each stack with its own entry and count. Every other report
    takes the place of those samples like a stack that was sampled. -/
theorem ErrorMarker.report_recognised (what reason comm : String) :
    (what ≠ "" → reason ≠ "" → reason.toList.head? ≠ some ']' →
      (ErrorMarker.counts what reason comm).isErrorMarker = true) ∧
    ((ErrorMarker.counts what reason comm).isErrorMarker = true ↔
      ErrorMarker.GivesReason (ErrorMarker.stack what reason comm)) ∧
    ∀ (system runtime : Profiles) (ds : Draws),
      (∀ pid r, runtime.get? pid = some r → ¬ r.Sampleless) →
      ∀ pid r p, runtime.get? pid = some r → r.counts = ErrorMarker.counts what reason comm →
        system.get? pid = some p → 0 < p.counts.total.val →
        ∃ m merged, system.mergeAll runtime ds = .ok m ∧
          m.profiles.get? pid = some ⟨merged, r.appid, r.appMetadata⟩ ∧
          (ErrorMarker.GivesReason (ErrorMarker.stack what reason comm) →
            Set.BijOn (StackCounts.rooted (ErrorMarker.stack what reason comm))
              {stack | stack ∈ p.counts.keys} {stack | stack ∈ merged.keys} ∧
            ∀ stack, merged.get?
              (StackCounts.rooted (ErrorMarker.stack what reason comm) stack) =
                p.counts.get? stack) ∧
          (¬ ErrorMarker.GivesReason (ErrorMarker.stack what reason comm) →
            merged = r.counts.scale (Merge.ratio (some p) r.counts)
              (ds.after (Merge.drawnBefore system runtime pid))) := by
  have hiff := ErrorMarker.isErrorMarker_counts_iff what reason comm
  refine ⟨?_, hiff, ?_⟩
  · intro hwhat hreason hhead
    exact hiff.2 (ErrorMarker.givesReason_stack comm hwhat hreason hhead)
  · intro system runtime ds hsamples pid r p hr hreport hp hpos
    obtain ⟨m, merged, hm, hget, hattached, hscaled⟩ :=
      Profiles.mergeAll_report ds hsamples hr hreport hp hpos
    have hkeys : r.counts.keys = [ErrorMarker.stack what reason comm] := by
      rw [hreport]
      exact ErrorMarker.keys_counts what reason comm
    rw [← hreport] at hiff
    refine ⟨m, merged, hm, hget, ?_, ?_⟩
    · intro hgives
      rw [hattached (hiff.2 hgives)]
      exact ⟨ErrorMarker.bijOn_attach_single hkeys, ErrorMarker.get?_attach_single hkeys⟩
    · intro hgives
      exact hscaled (Bool.eq_false_iff.2 fun hmarker => hgives (hiff.1 hmarker))

/-- A reason that holds the signs of the frame, above two sampled stacks. -/
theorem ErrorMarker.report_recognised_bracketed :
    let marker := "java;[Profiling error: [a]: ]; [Profiling b]"
    let system : Profiles :=
      .ofList [(1, .ofCounts (.ofList [("m", .ofNat 4), ("m;n", .ofNat 50)]))]
    let runtime : Profiles :=
      .ofList [(1, .ofCounts (ErrorMarker.counts "error" "[a]: ]; [Profiling b" "java"))]
    ∃ m merged, system.mergeAll runtime (fun _ => 0) = .ok m ∧ m.profiles.get? 1 = some merged ∧
      merged.counts.get? (StackCounts.rooted marker "m;n") = some (.ofNat 50) := by
  intro marker system runtime
  have hr : runtime.get? 1 =
      some (.ofCounts (ErrorMarker.counts "error" "[a]: ]; [Profiling b" "java")) := rfl
  have hsamples : ∀ pid r, runtime.get? pid = some r → ¬ r.Sampleless := by
    intro pid r hget hbad
    obtain ⟨rfl, rfl⟩ := List.mem_singleton.1 (SortedMap.get?_eq_some_iff.1 hget)
    exact absurd (hbad.2 (marker, .ofNat 1) (by decide)) (by decide)
  obtain ⟨hplain, hiff, hmerge⟩ :=
    ErrorMarker.report_recognised "error" "[a]: ]; [Profiling b" "java"
  have hgives := hiff.1 (hplain (by decide) (by decide) (by decide))
  obtain ⟨m, merged, hm, hget, hattached, -⟩ := hmerge system runtime (fun _ => 0) hsamples 1 _ _ hr
    rfl rfl (by decide +kernel)
  exact ⟨m, _, hm, hget, ((hattached hgives).2 "m;n").trans (by decide +kernel)⟩

/-- A reason that begins with the closing bracket: the report takes the place of three samples. -/
theorem ErrorMarker.report_not_recognised :
    let report := ErrorMarker.counts "error" "] unexpected token" "java"
    report.isErrorMarker = false ∧
      ∃ m, Profiles.mergeAll (.ofList [(1, .ofCounts (.ofList [("a", .ofNat 3)]))])
          (.ofList [(1, .ofCounts report)]) (fun _ => 0) = .ok m ∧
        (m.profiles.get? 1).map (·.counts.entries) =
          some [("java;[Profiling error: ] unexpected token]", .ofNat 3)] :=
  ⟨by decide +kernel, _, rfl, by decide +kernel⟩

end FoldedStacks
