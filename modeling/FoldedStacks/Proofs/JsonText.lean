-- SUMMARY: A JSON text determines its value and ends with it: two written values in front of texts that may follow a value are the same value and the same texts.
import Mathlib
import FoldedStacks.Json.Printer
import FoldedStacks.Proofs.DecimalText
import FoldedStacks.Proofs.JsonStrings

/-!
# Texts of values

The first character of a text tells the kind of the value. Strings, arrays and objects end with
their closing character; a number ends in front of a comma or a closing bracket, which is what
stands behind a value in a larger text.
-/

namespace FoldedStacks

/-! ## Numbers -/

/-- What may stand behind a value: nothing, a comma or a closing bracket. -/
def Json.Delimited (s : List Char) : Prop :=
  ∀ c ∈ s.head?, c = ',' ∨ c = ']' ∨ c = '\x7d'

theorem Json.delimited_nil : Json.Delimited [] := by
  intro c hc
  cases hc

theorem Json.delimited_cons {c : Char} (h : c = ',' ∨ c = ']' ∨ c = '\x7d') (s : List Char) :
    Json.Delimited (c :: s) := by
  intro d hd
  cases hd
  exact h

theorem Json.renderInt_injective {i j : Int} (h : Json.renderInt i = Json.renderInt j) : i = j := by
  have hminus : ∀ n cs, Text.numeral n ≠ '-' :: cs := by
    intro n cs heq
    have hmem : '-' ∈ Text.numeral n := by rw [heq]; exact List.mem_cons_self
    exact Text.not_mem_numeral (by decide) hmem
  simp only [Json.renderInt] at h
  split at h <;> split at h
  · have hnat := Text.numeral_injective (List.cons.inj h).2
    omega
  · exact absurd h.symm (hminus _ _)
  · exact absurd h (hminus _ _)
  · have hnat := Text.numeral_injective h
    omega

theorem Json.not_mem_renderInt {c : Char} (hc : c.isDigit = false) (hminus : c ≠ '-') (i : Int) :
    c ∉ Json.renderInt i := by
  rw [Json.renderInt]
  split
  · intro hmem
    rcases List.mem_cons.1 hmem with heq | hmem
    · exact hminus heq
    · exact Text.not_mem_numeral hc hmem
  · exact Text.not_mem_numeral hc

theorem Binary64.Finite.render_marked (x : Binary64.Finite) : '.' ∈ x.render ∨ 'e' ∈ x.render := by
  simp only [Binary64.Finite.render]
  split
  · exact (Decimal.render_marked _).imp (List.mem_cons_of_mem _) (List.mem_cons_of_mem _)
  · exact Decimal.render_marked _

/-- An integer has no point and no exponent, and a double has one. -/
theorem Json.renderInt_ne_render (i : Int) (x : Binary64.Finite) : Json.renderInt i ≠ x.render := by
  intro heq
  rcases x.render_marked with hmem | hmem
  · rw [← heq] at hmem
    exact Json.not_mem_renderInt (by decide) (by decide) i hmem
  · rw [← heq] at hmem
    exact Json.not_mem_renderInt (by decide) (by decide) i hmem

theorem Json.Number.render_injective {m n : Json.Number} (h : m.render = n.render) : m = n := by
  cases m with
  | int i hi =>
    cases n with
    | int j hj =>
      have heq := Json.renderInt_injective h
      subst heq
      rfl
    | float y => exact absurd h (Json.renderInt_ne_render i y)
  | float x =>
    cases n with
    | int j hj => exact absurd h.symm (Json.renderInt_ne_render j x)
    | float y =>
      have heq := Binary64.Finite.render_injective h
      subst heq
      rfl

theorem Json.Number.isNumberChar_render (n : Json.Number) :
    ∀ c ∈ n.render, Text.isNumberChar c = true := by
  cases n with
  | int i hi =>
    simp only [Json.Number.render, Json.renderInt]
    split
    · exact List.forall_mem_cons.2 ⟨rfl, Text.isNumberChar_numeral _⟩
    · exact Text.isNumberChar_numeral _
  | float x => exact x.isNumberChar_render

/-- A number begins with a minus sign or a digit. -/
theorem Json.Number.render_head (n : Json.Number) :
    ∃ c cs, n.render = c :: cs ∧ (c.isDigit = true ∨ c = '-') := by
  cases n with
  | int i hi =>
    obtain ⟨c, cs, hcs, hc⟩ := Text.exists_numeral_eq_cons i.natAbs
    simp only [Json.Number.render, Json.renderInt, hcs]
    split
    · exact ⟨'-', _, rfl, .inr rfl⟩
    · exact ⟨c, cs, rfl, .inl hc⟩
  | float x =>
    obtain ⟨c, cs, hcs, hc⟩ := (x.shortest.stripZeros 400).render_head
    simp only [Json.Number.render, Binary64.Finite.render, hcs]
    split
    · exact ⟨'-', _, rfl, .inr rfl⟩
    · exact ⟨c, cs, rfl, .inl hc⟩

/-- What goes on with no number: its first character is none of a number. -/
def Json.Breaks (s : List Char) : Prop :=
  ∀ c ∈ s.head?, Text.isNumberChar c = false

theorem Json.Delimited.breaks {s : List Char} (h : Json.Delimited s) : Json.Breaks s := by
  intro c hc
  rcases h c hc with rfl | rfl | rfl <;> rfl

theorem Json.takeWhile_isNumberChar {cs s : List Char}
    (hcs : ∀ c ∈ cs, Text.isNumberChar c = true) (hs : Json.Breaks s) :
    (cs ++ s).takeWhile Text.isNumberChar = cs := by
  have hnil : s.takeWhile Text.isNumberChar = [] := by
    cases s with
    | nil => rfl
    | cons c s =>
      rw [List.takeWhile_cons, hs c rfl]
      rfl
  rw [List.takeWhile_append_of_pos hcs, hnil, List.append_nil]

theorem Json.Number.render_append_inj {m n : Json.Number} {s t : List Char}
    (hs : Json.Breaks s) (ht : Json.Breaks t) (h : m.render ++ s = n.render ++ t) :
    m = n ∧ s = t := by
  have hm := Json.takeWhile_isNumberChar m.isNumberChar_render hs
  have hn := Json.takeWhile_isNumberChar n.isNumberChar_render ht
  rw [h, hn] at hm
  rw [hm] at h
  exact ⟨Json.Number.render_injective hm.symm, List.append_cancel_left h⟩

/-! ## Kinds of values -/

/-- The kinds of values that a first character tells apart. -/
inductive Json.Kind where
  | null
  | true
  | false
  | number
  | string
  | array
  | object
  deriving DecidableEq

def Json.kind : Json → Json.Kind
  | .null => .null
  | .bool true => .true
  | .bool false => .false
  | .num _ => .number
  | .str _ => .string
  | .arr _ => .array
  | .obj _ => .object

/-- The kind of the values that begin with a character. -/
def Json.kindOf? (c : Char) : Option Json.Kind :=
  if c = 'n' then some .null
  else if c = 't' then some .true
  else if c = 'f' then some .false
  else if c = '\"' then some .string
  else if c = '[' then some .array
  else if c = '\x7b' then some .object
  else if c.isDigit || c == '-' then some .number
  else none

theorem Json.kindOf?_of_number {c : Char} (h : c.isDigit = true ∨ c = '-') :
    Json.kindOf? c = some .number := by
  rcases h with h | rfl
  · have hne : ∀ d : Char, d.isDigit = false → c ≠ d := by
      rintro d hd rfl
      rw [h] at hd
      cases hd
    simp only [Json.kindOf?, if_neg (hne _ (rfl : 'n'.isDigit = false)),
      if_neg (hne _ (rfl : 't'.isDigit = false)), if_neg (hne _ (rfl : 'f'.isDigit = false)),
      if_neg (hne _ (rfl : '\"'.isDigit = false)), if_neg (hne _ (rfl : '['.isDigit = false)),
      if_neg (hne _ (rfl : '\x7b'.isDigit = false)), h, Bool.true_or, if_true]
  · rfl

/-- The first character of a text tells the kind of its value. -/
theorem Json.render_head (v : Json) :
    ∃ c cs, v.render = c :: cs ∧ Json.kindOf? c = some v.kind := by
  cases v with
  | null => exact ⟨'n', ['u', 'l', 'l'], by simp only [Json.render], rfl⟩
  | bool b =>
    cases b with
    | true => exact ⟨'t', ['r', 'u', 'e'], by simp only [Json.render], rfl⟩
    | false => exact ⟨'f', ['a', 'l', 's', 'e'], by simp only [Json.render], rfl⟩
  | num n =>
    obtain ⟨c, cs, hcs, hc⟩ := n.render_head
    exact ⟨c, cs, by simp only [Json.render, hcs], Json.kindOf?_of_number hc⟩
  | str s =>
    refine ⟨'\"', s.toList.flatMap Json.renderChar ++ ['\"'], ?_, rfl⟩
    simp only [Json.render, Json.renderString, List.cons_append]
  | arr items =>
    refine ⟨'[', Json.commaSeparated (Json.renderItems items) ++ [']'], ?_, rfl⟩
    simp only [Json.render, Json.bracketed, List.cons_append]
  | obj members =>
    refine ⟨'\x7b', Json.commaSeparated (Json.renderMembers members) ++ ['\x7d'], ?_, rfl⟩
    simp only [Json.render, Json.braced, List.cons_append]

theorem Json.kind_eq_of_append {v w : Json} {s t : List Char}
    (h : v.render ++ s = w.render ++ t) : v.kind = w.kind := by
  obtain ⟨c, cs, hcs, hc⟩ := v.render_head
  obtain ⟨d, ds, hds, hd⟩ := w.render_head
  rw [hcs, hds] at h
  have hhead : c = d := (List.cons.inj h).1
  rw [hhead, hd] at hc
  exact (Option.some.inj hc).symm

/-- No value begins with a closing bracket. -/
theorem Json.render_append_ne {c : Char} (hc : Json.kindOf? c = none) (v : Json)
    (s t : List Char) : v.render ++ s ≠ c :: t := by
  intro h
  obtain ⟨d, ds, hds, hd⟩ := v.render_head
  rw [hds] at h
  have hhead : d = c := (List.cons.inj h).1
  rw [hhead, hc] at hd
  cases hd

/-! ## Sequences -/

/-- The elements of a sequence behind its first one, each with a comma before it. -/
def Json.continued : List (List Char) → List Char
  | [] => []
  | t :: ts => ',' :: (t ++ Json.continued ts)

theorem Json.commaSeparated_cons (t : List Char) (ts : List (List Char)) :
    Json.commaSeparated (t :: ts) = t ++ Json.continued ts := by
  induction ts generalizing t with
  | nil => simp only [Json.commaSeparated, Json.continued, List.append_nil]
  | cons u us ih => rw [Json.commaSeparated, ih, Json.continued]

theorem Json.delimited_continued (ts : List (List Char)) {c : Char}
    (h : c = ']' ∨ c = '\x7d') (s : List Char) : Json.Delimited (Json.continued ts ++ c :: s) := by
  cases ts with
  | nil => exact Json.delimited_cons (.inr h) s
  | cons t ts => exact Json.delimited_cons (.inl rfl) _

section Sequence

variable {α : Type} {render : α → List Char} {close : Char}

/-- The texts of elements tell the elements and where they end, one text at a time. -/
def Json.Separates (render : α → List Char) (a : α) : Prop :=
  ∀ b s t, Json.Delimited s → Json.Delimited t → render a ++ s = render b ++ t → a = b ∧ s = t

/-- The text of an element tells the element and where it ends, whatever follows. -/
def Json.EndsItself (render : α → List Char) (a : α) : Prop :=
  ∀ b s t, render a ++ s = render b ++ t → a = b ∧ s = t

theorem Json.EndsItself.separates {a : α} (h : Json.EndsItself render a) :
    Json.Separates render a :=
  fun b s t _ _ => h b s t

private theorem Json.continued_append_inj (hclose : close = ']' ∨ close = '\x7d') {as : List α}
    (has : ∀ a ∈ as, Json.Separates render a) (bs : List α) (s t : List Char)
    (h : Json.continued (as.map render) ++ close :: s =
      Json.continued (bs.map render) ++ close :: t) : as = bs ∧ s = t := by
  have hcomma : close ≠ ',' := by rcases hclose with rfl | rfl <;> decide
  induction as generalizing bs with
  | nil =>
    cases bs with
    | nil => exact ⟨rfl, (List.cons.inj h).2⟩
    | cons b bs => exact absurd (List.cons.inj h).1 hcomma
  | cons a as ih =>
    cases bs with
    | nil => exact absurd (List.cons.inj h).1.symm hcomma
    | cons b bs =>
      simp only [List.map_cons, Json.continued, List.cons_append, List.append_assoc] at h
      obtain ⟨rfl, hbehind⟩ := has a List.mem_cons_self b _ _
        (Json.delimited_continued _ hclose s) (Json.delimited_continued _ hclose t)
        (List.cons.inj h).2
      obtain ⟨rfl, hst⟩ := ih (fun u hu => has u (List.mem_cons_of_mem a hu)) bs hbehind
      exact ⟨rfl, hst⟩

/-- Elements with commas between them tell the elements and where they end, when each of them does
    and none begins with the closing character. -/
theorem Json.commaSeparated_append_inj (hclose : close = ']' ∨ close = '\x7d')
    (hopen : ∀ a s t, render a ++ s ≠ close :: t) {as : List α}
    (has : ∀ a ∈ as, Json.Separates render a) (bs : List α) (s t : List Char)
    (h : Json.commaSeparated (as.map render) ++ close :: s =
      Json.commaSeparated (bs.map render) ++ close :: t) : as = bs ∧ s = t := by
  cases as with
  | nil =>
    cases bs with
    | nil => exact ⟨rfl, (List.cons.inj h).2⟩
    | cons b bs =>
      rw [List.map_cons, Json.commaSeparated_cons, List.append_assoc] at h
      exact absurd h.symm (hopen b _ _)
  | cons a as =>
    cases bs with
    | nil =>
      rw [List.map_cons, Json.commaSeparated_cons, List.append_assoc] at h
      exact absurd h (hopen a _ _)
    | cons b bs =>
      -- behind the first elements both texts go on with a comma, or both close
      simp only [List.map_cons, Json.commaSeparated_cons, List.append_assoc] at h
      obtain ⟨rfl, hbehind⟩ := has a List.mem_cons_self b _ _
        (Json.delimited_continued _ hclose s) (Json.delimited_continued _ hclose t) h
      obtain ⟨rfl, hst⟩ := Json.continued_append_inj hclose
        (fun u hu => has u (List.mem_cons_of_mem a hu)) bs s t hbehind
      exact ⟨rfl, hst⟩

end Sequence

/-! ## Values -/

theorem Json.renderItems_eq_map (items : List Json) :
    Json.renderItems items = items.map Json.render := by
  induction items with
  | nil => rfl
  | cons v items ih => rw [Json.renderItems, ih, List.map_cons]

/-- The text of a member of an object. -/
def Json.memberText (m : String × Json) : List Char :=
  Json.renderMember m.1 m.2.render

theorem Json.renderMembers_eq_map (members : List (String × Json)) :
    Json.renderMembers members = members.map Json.memberText := by
  induction members with
  | nil => rfl
  | cons m members ih => rw [Json.renderMembers, ih, List.map_cons]; rfl

theorem Json.num_append_inj {n : Json.Number} {w : Json} {s t : List Char}
    (hs : Json.Breaks s) (ht : Json.Breaks t)
    (h : (Json.num n).render ++ s = w.render ++ t) : Json.num n = w ∧ s = t := by
  have hkind := Json.kind_eq_of_append h
  cases w with
  | num m =>
    simp only [Json.render] at h
    obtain ⟨rfl, hst⟩ := Json.Number.render_append_inj hs ht h
    exact ⟨rfl, hst⟩
  | bool b => cases b <;> cases hkind
  | _ => cases hkind

theorem Json.endsItself_str (a : String) : Json.EndsItself Json.render (.str a) := by
  intro w s t h
  have hkind := Json.kind_eq_of_append h
  cases w with
  | str b =>
    simp only [Json.render] at h
    obtain ⟨rfl, hst⟩ := Json.renderString_append_inj h
    exact ⟨rfl, hst⟩
  | bool b => cases b <;> cases hkind
  | _ => cases hkind

theorem Json.endsItself_arr {items : List Json}
    (hitems : ∀ v ∈ items, Json.Separates Json.render v) :
    Json.EndsItself Json.render (.arr items) := by
  intro w s t h
  have hkind := Json.kind_eq_of_append h
  cases w with
  | arr items' =>
    simp only [Json.render, Json.bracketed, Json.renderItems_eq_map, List.append_assoc,
      List.cons_append, List.nil_append] at h
    obtain ⟨rfl, hst⟩ := Json.commaSeparated_append_inj (.inl rfl)
      (fun v => Json.render_append_ne rfl v) hitems items' s t (List.cons.inj h).2
    exact ⟨rfl, hst⟩
  | bool b => cases b <;> cases hkind
  | _ => cases hkind

theorem Json.separates_memberText {m : String × Json} (h : Json.Separates Json.render m.2) :
    Json.Separates Json.memberText m := by
  intro m' s t hs ht heq
  simp only [Json.memberText, Json.renderMember, List.append_assoc] at heq
  obtain ⟨hkey, hrest⟩ := Json.renderString_append_inj heq
  obtain ⟨hvalue, hst⟩ := h m'.2 s t hs ht (List.cons.inj hrest).2
  exact ⟨Prod.ext hkey hvalue, hst⟩

theorem Json.endsItself_obj {members : List (String × Json)}
    (hmembers : ∀ m ∈ members, Json.Separates Json.render m.2) :
    Json.EndsItself Json.render (.obj members) := by
  intro w s t h
  have hkind := Json.kind_eq_of_append h
  cases w with
  | obj members' =>
    have hopen : ∀ (m : String × Json) (s t : List Char), Json.memberText m ++ s ≠ '\x7d' :: t := by
      intro m s t heq
      exact absurd (List.cons.inj heq).1 (by decide)
    simp only [Json.render, Json.braced, Json.renderMembers_eq_map, List.append_assoc,
      List.cons_append, List.nil_append] at h
    obtain ⟨rfl, hst⟩ := Json.commaSeparated_append_inj (.inr rfl) hopen
      (fun m hm => Json.separates_memberText (hmembers m hm)) members' s t (List.cons.inj h).2
    exact ⟨rfl, hst⟩
  | bool b => cases b <;> cases hkind
  | _ => cases hkind

/-- The values that are told by their first character alone. -/
theorem Json.endsItself_constant {v : Json} (hv : ∀ w : Json, v.kind = w.kind → v = w) :
    Json.EndsItself Json.render v := by
  intro w s t h
  obtain rfl := hv w (Json.kind_eq_of_append h)
  exact ⟨rfl, List.append_cancel_left h⟩

theorem Json.exists_num {v : Json} (h : v.kind = .number) : ∃ n, v = .num n := by
  cases v with
  | num n => exact ⟨n, rfl⟩
  | bool b => cases b <;> cases h
  | _ => cases h

/-- Only a number needs to be told from what follows. -/
theorem Json.separates_of_endsItself {v : Json}
    (h : v.kind ≠ .number → Json.EndsItself Json.render v) : Json.Separates Json.render v := by
  by_cases hkind : v.kind = .number
  · obtain ⟨n, rfl⟩ := Json.exists_num hkind
    exact fun w s t hs ht => Json.num_append_inj hs.breaks ht.breaks
  · exact (h hkind).separates

mutual

/-- The text of a value that is no number tells the value and where it ends. -/
theorem Json.endsItself : ∀ v : Json, v.kind ≠ .number → Json.EndsItself Json.render v
  | .null, _ => Json.endsItself_constant fun w hw => by
    cases w with
    | null => rfl
    | bool b => cases b <;> cases hw
    | _ => cases hw
  | .bool true, _ => Json.endsItself_constant fun w hw => by
    cases w with
    | bool b => cases b <;> first | rfl | cases hw
    | _ => cases hw
  | .bool false, _ => Json.endsItself_constant fun w hw => by
    cases w with
    | bool b => cases b <;> first | rfl | cases hw
    | _ => cases hw
  | .num _, h => absurd rfl h
  | .str s, _ => Json.endsItself_str s
  | .arr items, _ => Json.endsItself_arr (Json.separates_items items)
  | .obj members, _ => Json.endsItself_obj (Json.separates_members members)

theorem Json.separates_items : ∀ items : List Json,
    ∀ v ∈ items, Json.Separates Json.render v
  | [] => fun v hv => absurd hv List.not_mem_nil
  | u :: items => fun v hv => by
    rcases List.mem_cons.1 hv with heq | hv
    · rw [heq]
      exact Json.separates_of_endsItself (Json.endsItself u)
    · exact Json.separates_items items v hv

theorem Json.separates_members : ∀ members : List (String × Json),
    ∀ m ∈ members, Json.Separates Json.render m.2
  | [] => fun m hm => absurd hm List.not_mem_nil
  | (k, v) :: members => fun m hm => by
    rcases List.mem_cons.1 hm with heq | hm
    · rw [heq]
      exact Json.separates_of_endsItself (Json.endsItself v)
    · exact Json.separates_members members m hm

end

/-- A text in front of what goes on with no number tells the value and where it ends; only a number
    needs that. -/
theorem Json.render_append_inj {v w : Json} {s t : List Char}
    (hbreaks : v.kind = .number → Json.Breaks s ∧ Json.Breaks t)
    (h : v.render ++ s = w.render ++ t) : v = w ∧ s = t := by
  by_cases hkind : v.kind = .number
  · obtain ⟨hs, ht⟩ := hbreaks hkind
    obtain ⟨n, rfl⟩ := Json.exists_num hkind
    exact Json.num_append_inj hs ht h
  · exact Json.endsItself v hkind w s t h

/-- A JSON text determines its value. -/
theorem Json.render_injective {v w : Json} (h : v.render = w.render) : v = w := by
  have hnil : Json.Breaks [] := Json.delimited_nil.breaks
  have happend : v.render ++ [] = w.render ++ [] := by rw [h]
  exact (Json.render_append_inj (fun _ => ⟨hnil, hnil⟩) happend).1

end FoldedStacks
