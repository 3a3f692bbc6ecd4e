-- SUMMARY: Reissuing an artifact once more with the same metadata succeeds, tells the same time and writes the same text, but for a blank line at the end.
import Mathlib
import FoldedStacks.Proofs.ExactNumbers
import FoldedStacks.Proofs.ReadDepth
import FoldedStacks.Proofs.RepeatedOverride

/-!
# Reissuing twice

The first reissue puts the metadata over the header and trims the lines, and the second one finds
that done. What remains is how a text is read: a blank line at its end was written as a line feed
with nothing behind it, and that line feed opens no line.
-/

namespace FoldedStacks

/-! ## Times -/

/-- Metadata that hold the same string under a key, if any, tell the same time there. -/
theorem Metadata.timestamp?_eq_of_strings {m m' : Metadata} {k : String}
    (h : ∀ s, Entries.get? k m.members = some (.str s) ↔
      Entries.get? k m'.members = some (.str s)) :
    m.timestamp? k = m'.timestamp? k := by
  have hstring : ∀ (m : Metadata) s,
      (m.get? k).bind Document.string? = some s ↔ Entries.get? k m.members = some (.str s) := by
    intro m s
    rw [← m.value_get?]
    cases m.get? k with
    | none => simp
    | some d =>
      obtain ⟨v, hv⟩ := d
      cases v <;> simp [Document.string?]
  have htimestamp : ∀ m : Metadata,
      m.timestamp? k = ((m.get? k).bind Document.string?).bind Timestamp.parse? := by
    intro m
    rw [Option.bind_assoc]
    rfl
  have hsame : (m.get? k).bind Document.string? = (m'.get? k).bind Document.string? := by
    ext s
    rw [hstring, hstring, h]
  rw [htimestamp, htimestamp, hsame]

theorem Json.override_eq_str_iff {held : Option Json} {v : Json} {s : String} :
    Json.override held v = .str s ↔ v = .str s := by
  cases v with
  | obj incoming =>
    obtain ⟨members, hmembers⟩ := Json.exists_override_obj held incoming
    simp [hmembers]
  | _ => simp only [Json.override]

theorem Metadata.lookup_reread (m : Metadata) (k : String) :
    Entries.get? k m.reread.members =
      (Entries.get? k m.members).map fun v => v.reread.canonical := by
  have hasc : Entries.Ascending (Json.rereadMembers m.members) := by
    rw [Json.rereadMembers_eq_map]
    exact m.canonical.1.map Json.reread
  show Entries.get? k (Json.canonicalMembers (Json.rereadMembers m.members)) = _
  rw [Json.get?_canonicalMembers, hasc.last?_eq, Json.rereadMembers_eq_map, Entries.get?_map,
    Option.map_map]
  rfl

/-- A string is read back as it is, and nothing else is read back as a string. -/
theorem Metadata.lookup_reread_eq_str_iff {m : Metadata} {k s : String} :
    Entries.get? k m.reread.members = some (.str s) ↔ Entries.get? k m.members = some (.str s) := by
  rw [Metadata.lookup_reread]
  cases Entries.get? k m.members with
  | none => simp
  | some v => cases v <;> simp [Json.reread, Json.canonical]

/-- The time that a header tells is the same when it was written, read back and overridden again. -/
theorem Metadata.timestamp?_override_reread (base overrides : Metadata) {k inner k' : String}
    (hk : k' ≠ k) :
    (((base.override overrides).dropNested k inner).reread.override overrides).timestamp? k' =
      (base.override overrides).timestamp? k' := by
  apply Metadata.timestamp?_eq_of_strings
  intro s
  rw [Metadata.lookup_override]
  cases hv : Entries.get? k' overrides.members with
  | some v => simp only [Metadata.lookup_override, hv, Option.some.injEq, Json.override_eq_str_iff]
  | none =>
    show Entries.get? k' ((base.override overrides).dropNested k inner).reread.members = _ ↔ _
    rw [Metadata.lookup_reread_eq_str_iff, Metadata.lookup_dropNested]
    simp only [if_neg hk, Option.map_id']

/-! ## Reissuing again -/

/-- A header line tells the metadata that it was written from. -/
theorem Header.lineOf_render_injective {m m' : Metadata}
    (h : (Header.lineOf m.render).toList = (Header.lineOf m'.render).toList) : m = m' := by
  rw [Header.toList_lineOf, Header.toList_lineOf, List.cons.injEq, List.cons.injEq] at h
  have hvalue : Json.obj m.members = .obj m'.members := Json.render_injective h.2.2
  exact Metadata.ext (Json.obj.inj hvalue)

/-- The second of two reissues: it tells the same time, and writes the same text but for a line feed
    at the end, when the numbers in the header between them are read back as they are. -/
structure Reissue.Again (r r' : Reissue) (written : Metadata) : Prop where
  /-- The header is the first line of the first text. -/
  header : ∃ rest, Text.lines r.text.toList = (Header.lineOf written.render).toList :: rest
  startTime : r'.startTime = r.startTime
  endTime : r'.endTime = r.endTime
  text : (∀ x ∈ written.doubles, Json.Exact x) → r'.text.toList = Text.chopFeed r.text.toList

theorem Text.trimEnd_trimEnd (cs : List Char) :
    Text.trimEnd (Text.trimEnd cs) = Text.trimEnd cs := by
  cases hlast : (Text.trimEnd cs).getLast? with
  | none =>
    rw [List.getLast?_eq_none_iff.1 hlast]
    rfl
  | some c => exact Text.trimEnd_eq_self hlast (Text.isBlank_of_getLast?_trimEnd hlast)

/-- Trimming changes no line behind the header of a reissued text. -/
theorem Reissue.trimEnd_of_mem_lines (found obtained : Metadata) {lines rest : List (List Char)}
    {first : List Char} (h : ∀ line ∈ lines, '\n' ∉ line)
    (hlines : Text.lines (Reissue.ofParts found obtained lines).text.toList = first :: rest) :
    ∀ line ∈ rest, Text.trimEnd line = line := by
  intro line hline
  obtain ⟨json, lost, hlost, -⟩ := Reissue.lines_ofParts found obtained h
  rw [hlines, List.cons_append] at hlost
  have hmem : line ∈ lines.map Text.trimEnd := by
    rw [(List.cons.inj hlost).2]
    exact List.mem_append_left lost hline
  obtain ⟨line', -, rfl⟩ := List.mem_map.1 hmem
  exact Text.trimEnd_trimEnd line'

/-- A text that was reissued is reissued again with the same metadata, when these were read. -/
theorem Reissue.again {text : String} {obtained : Metadata} {r : Reissue}
    (h : Reissue.ofText text obtained = .ok r) (hdepth : obtained.depth ≤ Json.maxDepth) :
    ∃ written r', Reissue.ofText r.text obtained = .ok r' ∧ Reissue.Again r r' written := by
  obtain ⟨first, rest, found, hlines, hread, rfl⟩ := Reissue.ofText_eq_ok_iff.1 h
  let written := (found.override obtained).dropNested "run_arguments" "func"
  have hwritten : written.depth ≤ Json.maxDepth := by
    have hfound : found.depth ≤ 126 + 1 := Reissue.depth_le_of_readHeader hread
    exact Metadata.depth_dropNested_le (Metadata.depth_override_le hfound hdepth) _ _
  have hagain : Reissue.readHeader (Header.lineOf written.render).toList = .ok written.reread :=
    (Reissue.readHeader_lineOf written.members).1 hwritten
  have hfree : ∀ line ∈ rest, '\n' ∉ line := by
    intro line hline
    have hmem : line ∈ Text.lines text.toList := hlines ▸ List.mem_cons_of_mem first hline
    exact Text.lineFeed_not_mem_of_mem_lines hmem
  let lines := rest.map fun line => String.ofList (Text.trimEnd line)
  obtain ⟨rest', hlines'⟩ : ∃ rest', Text.lines (Text.unlines
      (Header.lineOf written.render :: lines)).toList =
        (Header.lineOf written.render).toList :: rest' :=
    Text.exists_lines_unlines_cons
      (Header.lineOf_isLine (Json.render_controlFree written.toDocument.value)) lines
  refine ⟨written, _, Reissue.ofText_eq_ok_iff.2 ⟨_, rest', _, hlines', hagain, rfl⟩, ?_⟩
  constructor
  case header => exact ⟨rest', hlines'⟩
  case startTime => exact Metadata.timestamp?_override_reread found obtained (by decide)
  case endTime => exact Metadata.timestamp?_override_reread found obtained (by decide)
  case text =>
    intro hexact
    have hheader : (written.reread.override obtained).dropNested "run_arguments" "func" =
        written := by
      rw [Metadata.reread_of_exact hexact]
      exact Metadata.dropNested_override_dropNested found obtained "run_arguments" "func"
    have htrimmed : (rest'.map fun line => String.ofList (Text.trimEnd line)) =
        rest'.map String.ofList := by
      refine List.map_congr_left fun line hline => ?_
      rw [Reissue.trimEnd_of_mem_lines found obtained hfree hlines' line hline]
    calc (Reissue.ofParts written.reread obtained rest').text.toList
        = (Text.unlines (Header.lineOf written.render :: rest'.map String.ofList)).toList := by
          rw [Reissue.ofParts, hheader, htrimmed]
      _ = (Text.unlines ((Text.lines (Text.unlines
            (Header.lineOf written.render :: lines)).toList).map String.ofList)).toList := by
          rw [hlines', List.map_cons, String.ofList_toList]
      _ = Text.chopFeed (Reissue.ofParts found obtained rest).text.toList :=
          Text.unlines_lines_unlines (Reissue.readable_lines written hfree)

/-- Metadata with a start and the arguments of a run, and members in front of them. -/
def Metadata.withStart (members : List (String × Json)) (arguments : List (String × Json)) :
    Metadata :=
  .ofMembers (members ++ [("run_arguments", .obj arguments),
    ("start_time", .str "1970-01-01T00:00:02Z")])

/-- Of two blank lines at the end, the second reissue keeps one. -/
theorem Reissue.again_blank_lines :
    let text := "# \x7b\"load\":0.75,\"start_time\":5\x7d\nmain 3 \n\n \n"
    let obtained := Metadata.withStart [] [("func", .str "main"), ("n", .null)]
    ∃ r r', Reissue.ofText text obtained = .ok r ∧ Reissue.ofText r.text obtained = .ok r' ∧
      r.text = r'.text ++ "\n" ∧ r'.startTime = some ⟨2000000000, 0⟩ := by
  intro text obtained
  let written := Metadata.withStart [("load", .num (.float .threeQuarters))] [("n", .null)]
  let lines := [Header.lineOf written.render, "main 3", "", ""]
  have hfirst : (Reissue.ofText text obtained).toOption.map (fun r => (r.startTime, r.text)) =
      some (some ⟨2000000000, 0⟩, Text.unlines lines) := by decide +kernel
  obtain ⟨r, hok, hstart, htext⟩ : ∃ r, Reissue.ofText text obtained = .ok r ∧
      r.startTime = some ⟨2000000000, 0⟩ ∧ r.text = Text.unlines lines := by
    cases hok : Reissue.ofText text obtained with
    | error e =>
      rw [hok] at hfirst
      cases hfirst
    | ok r =>
      rw [hok] at hfirst
      exact ⟨r, rfl, Prod.mk.inj (Option.some.inj hfirst)⟩
  obtain ⟨written', r', hr', hagain⟩ := Reissue.again hok (by decide)
  -- the header of the first text tells what was written
  have hwritten : written' = written := by
    obtain ⟨rest, hlines⟩ := hagain.header
    have hheader : Text.lines r.text.toList =
        (Header.lineOf written.render).toList :: ["main 3".toList, []] := by
      rw [htext]
      decide +kernel
    rw [hheader] at hlines
    exact (Header.lineOf_render_injective (List.cons.inj hlines).1).symm
  refine ⟨r, r', hok, hr', ?_, hagain.startTime.trans hstart⟩
  have hchop := hagain.text (by rw [hwritten]; decide +kernel)
  apply String.toList_injective
  rw [String.toList_append, hchop, htext]
  decide +kernel

end FoldedStacks
