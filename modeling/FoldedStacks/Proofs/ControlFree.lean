-- SUMMARY: No JSON text holds a control character, so a header is always one line, whatever its metadata and names hold.
import Mathlib
import FoldedStacks.Artifact.Header
import FoldedStacks.Proofs.Lines
import FoldedStacks.Proofs.Numerals

/-!
# Texts without control characters

Strings are the only part of a JSON text that is not fixed, and their control characters are
escaped. So no metadata and no container name can break a header line.
-/

namespace FoldedStacks

/-- No character of the text is a control character below the blank. -/
def Text.ControlFree (cs : List Char) : Prop :=
  ∀ c ∈ cs, 0x20 ≤ c.toNat

instance (cs : List Char) : Decidable (Text.ControlFree cs) :=
  List.decidableBAll _ cs

namespace Text.ControlFree

theorem nil : ControlFree [] := by simp [ControlFree]

theorem cons {c : Char} {cs : List Char} (hc : 0x20 ≤ c.toNat) (hcs : ControlFree cs) :
    ControlFree (c :: cs) := by
  intro d hd
  rcases List.mem_cons.1 hd with rfl | hd
  · exact hc
  · exact hcs d hd

theorem append {cs ds : List Char} (hcs : ControlFree cs) (hds : ControlFree ds) :
    ControlFree (cs ++ ds) := by
  intro c hc
  rcases List.mem_append.1 hc with hc | hc
  · exact hcs c hc
  · exact hds c hc

theorem of_isNumberChar {c : Char} (h : Text.isNumberChar c = true) : 0x20 ≤ c.toNat := by
  simp only [Text.isNumberChar, Bool.or_eq_true, beq_iff_eq] at h
  rcases h with (((h | rfl) | rfl) | rfl) | rfl
  · simp only [Char.isDigit, Bool.and_eq_true, decide_eq_true_eq] at h
    have hle : '0'.toNat ≤ c.toNat := h.1
    exact Nat.le_trans (by decide) hle
  all_goals decide

theorem numeral (n : Nat) : ControlFree (Text.numeral n) :=
  fun c hc => of_isNumberChar (Text.isNumberChar_numeral n c hc)

theorem not_mem {cs : List Char} {c : Char} (h : ControlFree cs) (hc : c.toNat < 0x20) : c ∉ cs :=
  fun hmem => absurd (h c hmem) (by omega)

/-- Without control characters a text is one line. -/
theorem isLine {cs : List Char} (h : ControlFree cs) (hne : cs ≠ []) : Text.IsLine cs where
  ne_nil := hne
  lineFeedFree := h.not_mem (by decide)
  no_return := fun hlast => h.not_mem (by decide) (List.mem_of_getLast? hlast)

end Text.ControlFree

/-! ## Strings and numbers -/

private theorem digitChar_controlFree {n : Nat} (h : n < 16) :
    0x20 ≤ (Nat.digitChar n).toNat := by
  have hall : ∀ k < 16, 0x20 ≤ (Nat.digitChar k).toNat := by decide
  exact hall n h

theorem Json.shortEscape?_controlFree {c e : Char} (h : Json.shortEscape? c = some e) :
    0x20 ≤ e.toNat := by
  unfold Json.shortEscape? at h
  repeat' split at h
  all_goals cases h <;> decide

theorem Json.renderChar_controlFree (c : Char) : Text.ControlFree (Json.renderChar c) := by
  rw [Json.renderChar]
  split
  next e he =>
    exact .cons (by decide) (.cons (Json.shortEscape?_controlFree he) .nil)
  next =>
    split
    next hc =>
      refine .cons (by decide) <| .cons (by decide) <| .cons (by decide) <| .cons (by decide) <|
        .cons (digitChar_controlFree ?_) <| .cons (digitChar_controlFree ?_) .nil <;> omega
    next hc => exact .cons (by omega) .nil

theorem Json.renderString_controlFree (s : String) : Text.ControlFree (Json.renderString s) := by
  refine .append (.cons (by decide) ?_) (.cons (by decide) .nil)
  intro c hc
  obtain ⟨d, -, hd⟩ := List.mem_flatMap.1 hc
  exact Json.renderChar_controlFree d c hd

theorem Json.renderInt_controlFree (i : Int) : Text.ControlFree (Json.renderInt i) := by
  rw [Json.renderInt]
  split
  · exact .cons (by decide) (.numeral _)
  · exact .numeral _

theorem Binary64.Finite.render_controlFree (x : Binary64.Finite) :
    Text.ControlFree x.render :=
  fun c hc => Text.ControlFree.of_isNumberChar (x.isNumberChar_render c hc)

/-! ## Values -/

theorem Json.commaSeparated_controlFree : ∀ {ts : List (List Char)},
    (∀ t ∈ ts, Text.ControlFree t) → Text.ControlFree (Json.commaSeparated ts)
  | [], _ => .nil
  | [t], h => by simpa [Json.commaSeparated] using h t (by simp)
  | t :: u :: rest, h =>
    .append (h t (by simp)) <| .cons (by decide) <|
      Json.commaSeparated_controlFree fun v hv => h v (List.mem_cons_of_mem t hv)

theorem Json.bracketed_controlFree {ts : List (List Char)} (h : ∀ t ∈ ts, Text.ControlFree t) :
    Text.ControlFree (Json.bracketed ts) :=
  .append (.cons (by decide) (Json.commaSeparated_controlFree h)) (by decide)

theorem Json.braced_controlFree {ts : List (List Char)} (h : ∀ t ∈ ts, Text.ControlFree t) :
    Text.ControlFree (Json.braced ts) :=
  .append (.cons (by decide) (Json.commaSeparated_controlFree h)) (by decide)

theorem Json.renderMember_controlFree (k : String) {value : List Char}
    (h : Text.ControlFree value) : Text.ControlFree (Json.renderMember k value) :=
  .append (Json.renderString_controlFree k) (.cons (by decide) h)

mutual

theorem Json.render_controlFree : ∀ v : Json, Text.ControlFree v.render
  | .null | .bool true | .bool false => by simp only [Json.render]; decide
  | .num (.int i _) => by
    simp only [Json.render, Json.Number.render]; exact Json.renderInt_controlFree i
  | .num (.float x) => by
    simp only [Json.render, Json.Number.render]; exact x.render_controlFree
  | .str s => by simp only [Json.render]; exact Json.renderString_controlFree s
  | .arr items => by
    simp only [Json.render]
    exact Json.bracketed_controlFree (Json.renderItems_controlFree items)
  | .obj members => by
    simp only [Json.render]
    exact Json.braced_controlFree (Json.renderMembers_controlFree members)

theorem Json.renderItems_controlFree : ∀ items : List Json,
    ∀ t ∈ Json.renderItems items, Text.ControlFree t
  | [] => by simp [Json.renderItems]
  | v :: rest => by
    intro t ht
    rcases List.mem_cons.1 ht with rfl | ht
    · exact Json.render_controlFree v
    · exact Json.renderItems_controlFree rest t ht

theorem Json.renderMembers_controlFree : ∀ members : List (String × Json),
    ∀ t ∈ Json.renderMembers members, Text.ControlFree t
  | [] => by simp [Json.renderMembers]
  | (k, v) :: rest => by
    intro t ht
    rcases List.mem_cons.1 ht with rfl | ht
    · exact Json.renderMember_controlFree k (Json.render_controlFree v)
    · exact Json.renderMembers_controlFree rest t ht

end

theorem Json.renderRecord_controlFree {fields : List (String × List Char)}
    (h : ∀ f ∈ fields, Text.ControlFree f.2) : Text.ControlFree (Json.renderRecord fields) := by
  apply Json.braced_controlFree
  intro t ht
  obtain ⟨f, hf, rfl⟩ := List.mem_map.1 ht
  exact Json.renderMember_controlFree f.1 (h f hf)

theorem Json.renderOption_controlFree {α : Type} {render : α → List Char}
    (h : ∀ a, Text.ControlFree (render a)) (a : Option α) :
    Text.ControlFree (Json.renderOption render a) := by
  cases a with
  | none => exact Json.render_controlFree .null
  | some a => exact h a

/-! ## Headers -/

theorem Metrics.render_controlFree (m : Metrics) : Text.ControlFree m.render := by
  have hvalue (x : Binary64) : Text.ControlFree (Metrics.renderValue x) := by
    cases x with
    | finite x => exact x.render_controlFree
    | nan | infinite => exact Json.render_controlFree .null
  apply Json.renderRecord_controlFree
  intro f hf
  simp only [List.mem_cons, List.not_mem_nil, or_false] at hf
  rcases hf with rfl | rfl <;> exact Json.renderOption_controlFree hvalue _

theorem MetadataTable.renderEntries_controlFree (entries : List (Option Document)) :
    Text.ControlFree (MetadataTable.renderEntries entries) := by
  apply Json.bracketed_controlFree
  intro t ht
  obtain ⟨d, -, rfl⟩ := List.mem_map.1 ht
  exact Json.renderOption_controlFree (fun d => Json.render_controlFree d.value) d

theorem Header.render_controlFree (h : Header) : Text.ControlFree h.render := by
  apply Json.renderRecord_controlFree
  intro f hf
  simp only [List.mem_cons, List.not_mem_nil, or_false] at hf
  rcases hf with rfl | rfl | rfl | rfl | rfl | rfl | rfl
  case inl =>
    apply Json.bracketed_controlFree
    intro t ht
    obtain ⟨name, -, rfl⟩ := List.mem_map.1 ht
    exact Json.renderString_controlFree name
  case inr.inl => exact Json.render_controlFree _
  case inr.inr.inl => exact Json.render_controlFree _
  case inr.inr.inr.inl => exact h.metrics.render_controlFree
  case inr.inr.inr.inr.inl => exact MetadataTable.renderEntries_controlFree _
  case inr.inr.inr.inr.inr.inl => exact Json.render_controlFree _
  case inr.inr.inr.inr.inr.inr => exact Json.render_controlFree _

theorem Header.toList_lineOf (json : List Char) :
    (Header.lineOf json).toList = '#' :: ' ' :: json := by
  simp [Header.lineOf]

theorem Header.lineOf_isLine {json : List Char} (h : Text.ControlFree json) :
    Text.IsLine (Header.lineOf json).toList := by
  rw [Header.toList_lineOf]
  exact (Text.ControlFree.cons (by decide) (.cons (by decide) h)).isLine (by simp)

theorem Header.toList_line (h : Header) : h.line.toList = '#' :: ' ' :: h.render :=
  Header.toList_lineOf h.render

/-- A header is one line, whatever is put into it. -/
theorem Header.line_isLine (h : Header) : Text.IsLine h.line.toList :=
  Header.lineOf_isLine h.render_controlFree

end FoldedStacks
