-- SUMMARY: Written values are read: the reader takes the text of a value to its end when the value is not nested too deep, and calls it malformed otherwise.
import Mathlib
import FoldedStacks.Json.Parser
import FoldedStacks.Proofs.NumberTexts

/-!
# Reading written values

The writer has no limit on nesting, and the reader has one. Up to that limit a written value is read
to its end, with every number as the reader takes its text. Past it the text is malformed.
-/

namespace FoldedStacks

/-! ## Depth -/

mutual

/-- How many arrays and objects are nested in a value. -/
def Json.depth : Json → Nat
  | .arr items => Json.itemsDepth items + 1
  | .obj members => Json.membersDepth members + 1
  | _ => 0

def Json.itemsDepth : List Json → Nat
  | [] => 0
  | v :: rest => max v.depth (Json.itemsDepth rest)

def Json.membersDepth : List (String × Json) → Nat
  | [] => 0
  | (_, v) :: rest => max v.depth (Json.membersDepth rest)

end

theorem Json.itemsDepth_le_iff {items : List Json} {n : Nat} :
    Json.itemsDepth items ≤ n ↔ ∀ v ∈ items, v.depth ≤ n := by
  induction items with
  | nil => simp [Json.itemsDepth]
  | cons v rest ih => simp [Json.itemsDepth, ih]

theorem Json.membersDepth_le_iff {members : List (String × Json)} {n : Nat} :
    Json.membersDepth members ≤ n ↔ ∀ m ∈ members, m.2.depth ≤ n := by
  induction members with
  | nil => simp [Json.membersDepth]
  | cons m rest ih => simp [Json.membersDepth, ih]

/-! ## Values as they are read back -/

mutual

/-- A value with every number as the reader takes its text. -/
def Json.reread : Json → Json
  | .num n => .num n.reread
  | .arr items => .arr (Json.rereadItems items)
  | .obj members => .obj (Json.rereadMembers members)
  | v => v

def Json.rereadItems : List Json → List Json
  | [] => []
  | v :: rest => v.reread :: Json.rereadItems rest

def Json.rereadMembers : List (String × Json) → List (String × Json)
  | [] => []
  | (k, v) :: rest => (k, v.reread) :: Json.rereadMembers rest

end

theorem Json.rereadItems_eq_map (items : List Json) :
    Json.rereadItems items = items.map Json.reread := by
  induction items with
  | nil => rfl
  | cons v rest ih => rw [Json.rereadItems, ih, List.map_cons]

theorem Json.rereadMembers_eq_map (members : List (String × Json)) :
    Json.rereadMembers members = members.map fun m => (m.1, m.2.reread) := by
  induction members with
  | nil => rfl
  | cons m rest ih => rw [Json.rereadMembers, ih, List.map_cons]

/-! ## Readers on written texts -/

/-- In front of what may follow a value, the reader takes the text for `a` and stops at its end when
    the text `fits`, and calls it malformed when it does not. -/
structure Json.Takes {α : Type} (r : Json.Reader α) (text : List Char) (fits : Prop) (a : α) :
    Prop where
  of_fits : fits → ∀ s, Json.Delimited s → r (text ++ s) = .ok (a, s)
  of_not_fits : ¬ fits → ∀ s, Json.Delimited s → r (text ++ s) = .error .malformed

section Takes

variable {α β : Type} {r : Json.Reader α} {text : List Char} {fits fits' : Prop} {a : α}

theorem Json.Takes.congr (h : Json.Takes r text fits a) (hfits : fits' ↔ fits) :
    Json.Takes r text fits' a where
  of_fits := fun hf => h.of_fits (hfits.1 hf)
  of_not_fits := fun hf => h.of_not_fits (hfits.not.1 hf)

/-- A text that always fits. -/
theorem Json.Takes.of_ok (h : ∀ s, Json.Delimited s → r (text ++ s) = .ok (a, s)) :
    Json.Takes r text True a where
  of_fits := fun _ => h
  of_not_fits := fun hf => absurd trivial hf

theorem Json.Takes.map (h : Json.Takes r text fits a) (f : α → β) :
    Json.Takes (do return f (← r)) text fits (f a) where
  of_fits := fun hf s hs => by
    rw [Json.Reader.bind_of_ok (h.of_fits hf s hs), Json.Reader.pure_apply]
  of_not_fits := fun hf s hs => Json.Reader.bind_of_error (h.of_not_fits hf s hs)

/-- One text behind another, where the second one begins with what may follow a value. -/
theorem Json.Takes.bind {next : α → Json.Reader β} {text' : List Char} {b : β}
    (h : Json.Takes r text fits a) (hnext : Json.Takes (next a) text' fits' b)
    (hdelimited : ∀ s, Json.Delimited (text' ++ s)) :
    Json.Takes (r >>= next) (text ++ text') (fits ∧ fits') b := by
  constructor
  case of_fits =>
    intro hf s hs
    rw [List.append_assoc, Json.Reader.bind_of_ok (h.of_fits hf.1 _ (hdelimited s))]
    exact hnext.of_fits hf.2 s hs
  case of_not_fits =>
    intro hnot s hs
    rw [List.append_assoc]
    by_cases hf : fits
    · rw [Json.Reader.bind_of_ok (h.of_fits hf _ (hdelimited s))]
      exact hnext.of_not_fits (fun hf' => hnot ⟨hf, hf'⟩) s hs
    · exact Json.Reader.bind_of_error (h.of_not_fits hf _ (hdelimited s))

/-- A reader whose first steps are taken is as good as the reader of what is left, which may depend
    on how much follows. -/
theorem Json.Takes.of_steps {r' : Json.Reader α} {text' : List Char}
    {rest : List Char → Json.Reader α} (h : ∀ s, Json.Takes (rest s) text fits a)
    (hstep : ∀ s, r' (text' ++ s) = rest s (text ++ s)) : Json.Takes r' text' fits a where
  of_fits := fun hf s hs => by rw [hstep, (h s).of_fits hf s hs]
  of_not_fits := fun hf s hs => by rw [hstep, (h s).of_not_fits hf s hs]

theorem Json.Takes.of_step {r' : Json.Reader α} {text' : List Char} (h : Json.Takes r text fits a)
    (hstep : ∀ s, r' (text' ++ s) = r (text ++ s)) : Json.Takes r' text' fits a :=
  .of_steps (fun _ => h) hstep

end Takes

theorem Json.peek_cons {c : Char} (h : Json.isSpace c = false) (cs : List Char) :
    Json.peek (c :: cs) = .ok (c, c :: cs) := by
  have hdrop : (c :: cs).dropWhile Json.isSpace = c :: cs := by
    rw [List.dropWhile_cons, h]
    rfl
  have hpeek : Json.peek? (c :: cs) = .ok (some c, c :: cs) := by
    unfold Json.peek?
    rw [hdrop]
    rfl
  rw [Json.peek, Json.Reader.bind_of_ok hpeek]
  rfl

theorem Json.advance_cons (c : Char) (cs : List Char) : Json.advance (c :: cs) = .ok ((), cs) := rfl

theorem Json.expectWord_append (w s : List Char) : Json.expectWord w (w ++ s) = .ok ((), s) := by
  induction w with
  | nil => rfl
  | cons c w ih => simpa [Json.expectWord] using ih

theorem Json.expectColon_cons (cs : List Char) : Json.expectColon (':' :: cs) = .ok ((), cs) := by
  rw [Json.expectColon, Json.Reader.bind_of_ok (Json.peek_cons rfl cs)]
  exact Json.advance_cons ':' cs

theorem Json.readKey_renderString (k : String) (s : List Char) :
    Json.readKey (Json.renderString k ++ s) = .ok (k, s) := by
  have hpeek : Json.peek (Json.renderString k ++ s) = .ok ('\"', Json.renderString k ++ s) :=
    Json.peek_cons rfl _
  rw [Json.readKey, Json.Reader.bind_of_ok hpeek]
  exact Json.readString_renderString k s

/-! ## Sequences -/

section Sequence

variable {σ α : Type} {render : α → List Char} {close : Char} {element : σ → Json.Reader σ}
  {fits : α → Prop} {next : σ → α → σ}

/-- Elements behind one another: each is read from the state that those before it lead to. -/
def Json.ReadInTurn (element : σ → Json.Reader σ) (render : α → List Char) (fits : α → Prop)
    (next : σ → α → σ) (st : σ) (as : List α) : Prop :=
  ∀ before a after, as = before ++ a :: after →
    Json.Takes (element (before.foldl next st)) (render a) (fits a) (next (before.foldl next st) a)

theorem Json.ReadInTurn.head {st : σ} {a : α} {as : List α}
    (h : Json.ReadInTurn element render fits next st (a :: as)) :
    Json.Takes (element st) (render a) (fits a) (next st a) :=
  h [] a as rfl

theorem Json.ReadInTurn.tail {st : σ} {a : α} {as : List α}
    (h : Json.ReadInTurn element render fits next st (a :: as)) :
    Json.ReadInTurn element render fits next (next st a) as :=
  fun before b after has => h (a :: before) b after (by rw [has, List.cons_append])

theorem Json.length_le_continued (ts : List (List Char)) :
    ts.length ≤ (Json.continued ts).length := by
  induction ts with
  | nil => exact Nat.le_refl 0
  | cons t ts ih =>
    simp only [Json.continued, List.length_cons, List.length_append]
    omega

private theorem Json.readElements_takes (hclose : close = ']' ∨ close = '\x7d') (as : List α)
    (a : α) (st : σ) (fuel : Nat) (hfuel : as.length < fuel)
    (h : Json.ReadInTurn element render fits next st (a :: as)) :
    Json.Takes (Json.readElements close element fuel st)
      (render a ++ (Json.continued (as.map render) ++ [close])) (∀ b ∈ a :: as, fits b)
      ((a :: as).foldl next st) := by
  have hcomma : close ≠ ',' := by rcases hclose with rfl | rfl <;> decide
  have hspace : Json.isSpace close = false := by rcases hclose with rfl | rfl <;> rfl
  induction as generalizing a st fuel with
  | nil =>
    obtain ⟨fuel, rfl⟩ : ∃ n, fuel = n + 1 := ⟨fuel - 1, by omega⟩
    rw [Json.readElements]
    refine (h.head.bind (.of_ok fun s _ => ?_) ?_).congr (by simp)
    · rw [List.map_nil, Json.continued, List.nil_append, List.singleton_append,
        Json.Reader.bind_of_ok (Json.peek_cons hspace s)]
      simp only [if_neg hcomma, if_true]
      rw [Json.Reader.bind_of_ok (Json.advance_cons close s)]
      rfl
    · exact fun s => Json.delimited_cons (.inr hclose) s
  | cons b as ih =>
    -- behind the first element a comma comes, and then the others
    obtain ⟨fuel, rfl⟩ : ∃ n, fuel = n + 1 := ⟨fuel - 1, by omega⟩
    have hlater := ih b (next st a) fuel (by simpa using hfuel) h.tail
    have htext : Json.continued ((b :: as).map render) ++ [close] =
        ',' :: (render b ++ (Json.continued (as.map render) ++ [close])) := by
      simp [Json.continued]
    rw [Json.readElements, htext]
    refine (h.head.bind (hlater.of_step fun s => ?_) ?_).congr List.forall_mem_cons
    · rw [List.cons_append, Json.Reader.bind_of_ok (Json.peek_cons rfl _)]
      simp only [if_true]
      rw [Json.Reader.bind_of_ok (Json.advance_cons ',' _)]
    · exact fun s => Json.delimited_cons (.inl rfl) _

/-- Elements with commas between them are read one after the other, up to and with the closing
    character, unless one of them does not fit. -/
theorem Json.readSequence_takes (hclose : close = ']' ∨ close = '\x7d') {as : List α}
    (hhead : ∀ a ∈ as, ∃ c cs, render a = c :: cs ∧ c ≠ close ∧ Json.isSpace c = false) (st : σ)
    (h : Json.ReadInTurn element render fits next st as) :
    Json.Takes (Json.readSequence close element st)
      (Json.commaSeparated (as.map render) ++ [close]) (∀ a ∈ as, fits a) (as.foldl next st) := by
  have hspace : Json.isSpace close = false := by rcases hclose with rfl | rfl <;> rfl
  cases as with
  | nil =>
    refine Json.Takes.congr (.of_ok fun s _ => ?_) (iff_true_intro (by simp))
    rw [Json.readSequence, List.map_nil, Json.commaSeparated, List.nil_append,
      List.singleton_append, Json.Reader.bind_of_ok (Json.peek_cons hspace s)]
    simp only [if_true]
    rw [Json.Reader.bind_of_ok (Json.advance_cons close s)]
    rfl
  | cons a as =>
    obtain ⟨c, cs, hcs, hne, hc⟩ := hhead a List.mem_cons_self
    have hfirst (t : List Char) : Json.readSequence close element st (render a ++ t) =
        Json.readElements close element ((render a ++ t).length + 1) st (render a ++ t) := by
      have hpeek : Json.peek (render a ++ t) = .ok (c, render a ++ t) := by
        rw [hcs]
        exact Json.peek_cons hc _
      rw [Json.readSequence, Json.Reader.bind_of_ok hpeek]
      simp only [if_neg hne]
      rw [Json.Reader.bind_of_ok (Json.Reader.get_apply _)]
    -- no more elements are left than the text has characters
    have hfuel (s : List Char) : as.length <
        (render a ++ (Json.continued (as.map render) ++ ([close] ++ s))).length + 1 := by
      have hlength := Json.length_le_continued (as.map render)
      rw [List.length_map] at hlength
      simp only [List.length_append]
      omega
    refine .of_steps (fun s => Json.readElements_takes hclose as a st _ (hfuel s) h) fun s => ?_
    simp only [List.map_cons, Json.commaSeparated_cons, List.append_assoc]
    exact hfirst _

end Sequence

section Lists

variable {α β : Type} {render : α → List Char} {fits : α → Prop} {f : α → β}

theorem Json.readItems_takes (item : Json.Reader β) {as : List α}
    (hhead : ∀ a ∈ as, ∃ c cs, render a = c :: cs ∧ c ≠ ']' ∧ Json.isSpace c = false)
    (h : ∀ a ∈ as, Json.Takes item (render a) (fits a) (f a)) :
    Json.Takes (Json.readItems item) (Json.commaSeparated (as.map render) ++ [']'])
      (∀ a ∈ as, fits a) (as.map f) := by
  have hturn : Json.ReadInTurn (fun items => do return (← item) :: items) render fits
      (fun items a => f a :: items) [] as := by
    rintro before a after rfl
    exact (h a (by simp)).map _
  have hread := (Json.readSequence_takes (.inl rfl) hhead [] hturn).map List.reverse
  rw [List.foldl_flip_cons_eq_append, List.append_nil, List.reverse_reverse] at hread
  exact hread

/-- A member is its key, a colon and its value. -/
theorem Json.member_takes {value : Json.Reader β} {text : List Char} {fits : Prop} {b : β}
    (h : Json.Takes value text fits b) (k : String) (f : String → β → α) :
    Json.Takes (do
      let k ← Json.readKey
      Json.expectColon
      let v ← value
      return f k v) (Json.renderMember k text) fits (f k b) := by
  refine (h.map (f k)).of_step fun s => ?_
  rw [Json.renderMember, List.append_assoc, Json.Reader.bind_of_ok (Json.readKey_renderString k _),
    List.cons_append, Json.Reader.bind_of_ok (Json.expectColon_cons _)]

theorem Json.readMembers_takes {value : Json.Reader Json} {members : List (String × Json)}
    (fits : Json → Prop) (f : Json → Json)
    (h : ∀ m ∈ members, Json.Takes value m.2.render (fits m.2) (f m.2)) :
    Json.Takes (Json.readMembers value) (Json.commaSeparated (Json.renderMembers members) ++ ['\x7d'])
      (∀ m ∈ members, fits m.2) (members.map fun m => (m.1, f m.2)) := by
  have hhead : ∀ m ∈ members, ∃ c cs, Json.memberText m = c :: cs ∧ c ≠ '\x7d' ∧
      Json.isSpace c = false := fun m _ => ⟨'\"', _, rfl, by decide, rfl⟩
  have hturn : Json.ReadInTurn
      (fun members => do
        let k ← Json.readKey
        Json.expectColon
        let v ← value
        return (k, v) :: members)
      Json.memberText (fun m => fits m.2) (fun st m => (m.1, f m.2) :: st) [] members := by
    rintro before m after rfl
    exact Json.member_takes (h m (by simp)) m.1 _
  have hread := (Json.readSequence_takes (.inr rfl) hhead [] hturn).map List.reverse
  rw [List.foldl_flip_cons_eq_append, List.append_nil, List.reverse_reverse,
    ← Json.renderMembers_eq_map] at hread
  exact hread

end Lists

/-! ## Values -/

/-- Nothing that begins a value is a space. -/
theorem Json.isSpace_of_kindOf? {c : Char} {k : Json.Kind} (h : Json.kindOf? c = some k) :
    Json.isSpace c = false := by
  refine Bool.eq_false_iff.2 fun hspace => ?_
  simp only [Json.isSpace, Bool.or_eq_true, beq_iff_eq] at hspace
  rcases hspace with ((rfl | rfl) | rfl) | rfl <;> cases h

theorem Json.render_first (v : Json) {close : Char} (hclose : Json.kindOf? close = none) :
    ∃ c cs, v.render = c :: cs ∧ c ≠ close ∧ Json.isSpace c = false := by
  obtain ⟨c, cs, hcs, hc⟩ := v.render_head
  refine ⟨c, cs, hcs, ?_, Json.isSpace_of_kindOf? hc⟩
  rintro rfl
  rw [hclose] at hc
  cases hc

/-- A value without parts. -/
def Json.isScalar : Json → Bool
  | .arr _ | .obj _ => false
  | _ => true

theorem Json.word_takes (w : List Char) (v : Json) :
    Json.Takes (do Json.expectWord w; return v) w True v :=
  .of_ok fun s _ => by
    rw [Json.Reader.bind_of_ok (Json.expectWord_append w s), Json.Reader.pure_apply]

/-- A character that begins a number begins no other scalar. -/
theorem Json.readScalar_of_number {c : Char} (hc : c.isDigit = true ∨ c = '-') :
    Json.readScalar c = (do return .num (← Json.readNumber)) := by
  have hother {x : Char} (hx : x.isDigit = false) (hminus : x ≠ '-') : c ≠ x := by
    rintro rfl
    rcases hc with hc | hc
    · rw [hx] at hc
      cases hc
    · exact hminus hc
  rw [Json.readScalar, if_neg (hother rfl (by decide)), if_neg (hother rfl (by decide)),
    if_neg (hother rfl (by decide)), if_neg (hother rfl (by decide)), if_pos hc.symm]

/-- A scalar is read as it is, but for a number, whatever is left to nest. -/
theorem Json.readScalar_takes {v : Json} (hv : v.isScalar = true) {c : Char} {cs : List Char}
    (hcs : v.render = c :: cs) : Json.Takes (Json.readScalar c) v.render True v.reread := by
  cases v with
  | null =>
    simp only [Json.render] at hcs ⊢
    cases hcs
    exact Json.word_takes _ .null
  | bool b =>
    cases b with
    | true =>
      simp only [Json.render] at hcs ⊢
      cases hcs
      exact Json.word_takes _ (.bool true)
    | false =>
      simp only [Json.render] at hcs ⊢
      cases hcs
      exact Json.word_takes _ (.bool false)
  | num n =>
    obtain ⟨d, ds, hds, hd⟩ := n.render_head
    simp only [Json.render] at hcs ⊢
    obtain rfl : d = c := by
      rw [hds] at hcs
      exact (List.cons.inj hcs).1
    rw [Json.readScalar_of_number hd, Json.reread]
    exact (Json.Takes.of_ok fun s hs => Json.readNumber_render n hs).map Json.num
  | str t =>
    simp only [Json.render] at hcs ⊢
    cases hcs
    exact (Json.Takes.of_ok fun s _ => Json.readString_renderString t s).map Json.str
  | arr items => cases hv
  | obj members => cases hv

/-- A scalar opens nothing. -/
theorem Json.opens_of_isScalar {v : Json} (hv : v.isScalar = true) {c : Char} {cs : List Char}
    (hcs : v.render = c :: cs) : Json.opens c = false := by
  obtain ⟨d, ds, hds, hd⟩ := v.render_head
  obtain rfl : d = c := by
    rw [hds] at hcs
    exact (List.cons.inj hcs).1
  refine Bool.eq_false_iff.2 fun hopens => ?_
  simp only [Json.opens, Bool.or_eq_true, beq_iff_eq] at hopens
  rcases hopens with rfl | rfl
  · cases v with
    | bool b => cases b <;> cases hd
    | arr items => cases hv
    | _ => cases hd
  · cases v with
    | bool b => cases b <;> cases hd
    | obj members => cases hv
    | _ => cases hd

theorem Json.readValue_takes_scalar {v : Json} (hv : v.isScalar = true) (levels : Nat) :
    Json.Takes (Json.readValue levels) v.render (v.depth ≤ levels) v.reread := by
  obtain ⟨c, cs, hcs, hc⟩ := v.render_head
  have hdepth : v.depth = 0 := by
    cases v with
    | arr items => cases hv
    | obj members => cases hv
    | _ => simp only [Json.depth]
  have hopens := Json.opens_of_isScalar hv hcs
  refine ((Json.readScalar_takes hv hcs).of_step fun s => ?_).congr (iff_true_intro (by omega))
  have hpeek : Json.peek (v.render ++ s) = .ok (c, v.render ++ s) := by
    rw [hcs]
    exact Json.peek_cons (Json.isSpace_of_kindOf? hc) _
  cases levels with
  | zero =>
    rw [Json.readValue, Json.Reader.bind_of_ok hpeek]
    simp only [hopens, Bool.false_eq_true, if_false]
  | succ levels =>
    simp only [Json.opens, Bool.or_eq_false_iff, beq_eq_false_iff_ne] at hopens
    rw [Json.readValue, Json.Reader.bind_of_ok hpeek]
    simp only [if_neg hopens.1, if_neg hopens.2]

/-- No array and no object is read when nothing may be nested. -/
theorem Json.readValue_zero_takes {c : Char} (hc : Json.opens c = true) (cs : List Char) (v : Json) :
    Json.Takes (Json.readValue 0) (c :: cs) False v where
  of_fits := False.elim
  of_not_fits := fun _ s _ => by
    have hspace : Json.isSpace c = false := by
      simp only [Json.opens, Bool.or_eq_true, beq_iff_eq] at hc
      rcases hc with rfl | rfl <;> rfl
    rw [Json.readValue, List.cons_append, Json.Reader.bind_of_ok (Json.peek_cons hspace _)]
    simp only [hc, if_true]
    rfl

mutual

/-- A written value is read to its end when it is not nested too deep. -/
theorem Json.readValue_takes : ∀ (v : Json) (levels : Nat),
    Json.Takes (Json.readValue levels) v.render (v.depth ≤ levels) v.reread
  | .null, levels => Json.readValue_takes_scalar rfl levels
  | .bool _, levels => Json.readValue_takes_scalar rfl levels
  | .num _, levels => Json.readValue_takes_scalar rfl levels
  | .str _, levels => Json.readValue_takes_scalar rfl levels
  | .arr items, 0 => by
    rw [Json.render, Json.bracketed, List.cons_append]
    exact (Json.readValue_zero_takes rfl _ _).congr (by simp [Json.depth])
  | .arr items, levels + 1 => by
    have hitems := (Json.readItems_takes (Json.readValue levels)
      (fun v _ => v.render_first rfl) (Json.readValue_takes_items items levels)).map Json.arr
    rw [← Json.renderItems_eq_map, ← Json.rereadItems_eq_map] at hitems
    rw [Json.reread]
    refine (hitems.of_step fun s => ?_).congr ?_
    · rw [Json.render, Json.bracketed, List.cons_append, List.cons_append, Json.readValue,
        Json.Reader.bind_of_ok (Json.peek_cons rfl _)]
      simp only [if_true]
      rw [Json.Reader.bind_of_ok (Json.advance_cons '[' _)]
    · rw [Json.depth, Nat.add_le_add_iff_right, Json.itemsDepth_le_iff]
  | .obj members, 0 => by
    rw [Json.render, Json.braced, List.cons_append]
    exact (Json.readValue_zero_takes rfl _ _).congr (by simp [Json.depth])
  | .obj members, levels + 1 => by
    have hmembers := (Json.readMembers_takes (fun v => v.depth ≤ levels) Json.reread
      (Json.readValue_takes_members members levels)).map Json.obj
    rw [← Json.rereadMembers_eq_map] at hmembers
    rw [Json.reread]
    refine (hmembers.of_step fun s => ?_).congr ?_
    · rw [Json.render, Json.braced, List.cons_append, List.cons_append, Json.readValue,
        Json.Reader.bind_of_ok (Json.peek_cons rfl _)]
      simp only [if_neg (by decide : ¬ '\x7b' = '['), if_true]
      rw [Json.Reader.bind_of_ok (Json.advance_cons '\x7b' _)]
    · rw [Json.depth, Nat.add_le_add_iff_right, Json.membersDepth_le_iff]

theorem Json.readValue_takes_items : ∀ (items : List Json) (levels : Nat), ∀ v ∈ items,
    Json.Takes (Json.readValue levels) v.render (v.depth ≤ levels) v.reread
  | [], _ => fun v hv => absurd hv List.not_mem_nil
  | u :: items, levels => fun v hv => by
    rcases List.mem_cons.1 hv with heq | hv
    · rw [heq]
      exact Json.readValue_takes u levels
    · exact Json.readValue_takes_items items levels v hv

theorem Json.readValue_takes_members : ∀ (members : List (String × Json)) (levels : Nat),
    ∀ m ∈ members,
      Json.Takes (Json.readValue levels) m.2.render (m.2.depth ≤ levels) m.2.reread
  | [], _ => fun m hm => absurd hm List.not_mem_nil
  | (k, v) :: members, levels => fun m hm => by
    rcases List.mem_cons.1 hm with heq | hm
    · rw [heq]
      exact Json.readValue_takes v levels
    · exact Json.readValue_takes_members members levels m hm

end

/-! ## Whole texts -/

/-- A whole text is read when it fits, and is malformed otherwise. -/
theorem Json.Takes.readAll {α : Type} {r : Json.Reader α} {text : List Char} {fits : Prop} {a : α}
    (h : Json.Takes r text fits a) :
    (fits → r.readAll text = .ok a) ∧ (¬ fits → r.readAll text = .error .malformed) := by
  have hend : Json.expectEnd [] = .ok ((), []) := rfl
  constructor
  · intro hf
    have hread := h.of_fits hf [] Json.delimited_nil
    rw [List.append_nil] at hread
    rw [Json.Reader.readAll, Json.Reader.bind_of_ok hread, Json.Reader.bind_of_ok hend]
    rfl
  · intro hf
    have hread := h.of_not_fits hf [] Json.delimited_nil
    rw [List.append_nil] at hread
    rw [Json.Reader.readAll, Json.Reader.bind_of_error hread]

end FoldedStacks
