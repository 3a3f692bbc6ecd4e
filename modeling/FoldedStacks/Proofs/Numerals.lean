-- SUMMARY: Decimal numerals read back: which texts are numerals, the digits of a number determine it, a count is read from its own numeral, and which characters numbers are written with.
import Mathlib
import FoldedStacks.Binary64.Decimal
import FoldedStacks.Count
import FoldedStacks.Pid

/-!
# Reading numerals back

A text is read as a number exactly when it is a numeral of it: one digit or more, perhaps behind a
plus sign, and no number past the limit of the reader. The written numeral of a number is one.
-/

namespace FoldedStacks

/-- Every character of a numeral is a digit. -/
theorem Text.isDigit_of_mem_numeral {n : Nat} {c : Char} (h : c ∈ Text.numeral n) :
    c.isDigit = true :=
  Nat.isDigit_of_mem_toDigits (by decide) (by decide) h

theorem Text.not_mem_numeral {n : Nat} {c : Char} (h : c.isDigit = false) :
    c ∉ Text.numeral n := by
  intro hmem
  rw [Text.isDigit_of_mem_numeral hmem] at h
  exact absurd h (by decide)

theorem Text.numeral_ne_nil (n : Nat) : Text.numeral n ≠ [] :=
  Nat.toDigits_ne_nil

theorem Text.exists_numeral_eq_cons (n : Nat) :
    ∃ c cs, Text.numeral n = c :: cs ∧ c.isDigit = true := by
  cases h : Text.numeral n with
  | nil => exact absurd h (Text.numeral_ne_nil n)
  | cons c cs =>
    exact ⟨c, cs, rfl, Text.isDigit_of_mem_numeral (n := n) (by rw [h]; exact List.mem_cons_self)⟩

theorem Text.ofDigitChars_numeral (n : Nat) : Nat.ofDigitChars 10 (Text.numeral n) 0 = n :=
  Nat.ofDigitChars_ten_toDigits

theorem Text.numeral_injective {m n : Nat} (h : Text.numeral m = Text.numeral n) : m = n := by
  rw [← Text.ofDigitChars_numeral m, h, Text.ofDigitChars_numeral]

theorem Text.digit?_of_isDigit {c : Char} (h : c.isDigit = true) :
    Text.digit? c = some (c.toNat - '0'.toNat) := by
  have hle : '0' ≤ c ∧ c ≤ '9' := by
    simp only [Char.isDigit, Bool.and_eq_true, decide_eq_true_eq] at h
    exact h
  simp only [Text.digit?, if_pos hle]

theorem Text.digit?_eq_none {c : Char} (h : ¬ c.isDigit = true) : Text.digit? c = none := by
  have hrange : ¬ ('0' ≤ c ∧ c ≤ '9') := by
    intro hle
    apply h
    rw [Char.isDigit, Bool.and_eq_true, decide_eq_true_eq, decide_eq_true_eq]
    exact hle
  exact if_neg hrange

/-- Reading on never makes the value smaller. -/
theorem Text.le_ofDigitChars (acc : Nat) (ds : List Char) : acc ≤ Nat.ofDigitChars 10 ds acc := by
  induction ds generalizing acc with
  | nil => simp
  | cons c ds ih =>
    rw [Nat.ofDigitChars_cons]
    exact Nat.le_trans (by omega) (ih _)

/-- Digits are read as their value, up to the limit, and nothing else is. -/
theorem Text.readDigits_eq_ok_iff {limit acc n : Nat} {ds : List Char} (hacc : acc ≤ limit) :
    Text.readDigits limit acc ds = .ok n ↔
      (∀ c ∈ ds, c.isDigit = true) ∧ Nat.ofDigitChars 10 ds acc = n ∧ n ≤ limit := by
  induction ds generalizing acc with
  | nil =>
    rw [Text.readDigits, Except.ok.injEq, Nat.ofDigitChars_nil]
    constructor
    · rintro rfl
      exact ⟨List.forall_mem_nil _, rfl, hacc⟩
    · exact fun h => h.2.1
  | cons c ds ih =>
    rw [Text.readDigits, List.forall_mem_cons, Nat.ofDigitChars_cons]
    by_cases hc : c.isDigit = true
    case neg => simp [Text.digit?_eq_none hc, hc]
    case pos =>
      rw [Text.digit?_of_isDigit hc]
      dsimp only
      split
      next hle =>
        rw [ih hle]
        simp [hc]
      next hgt =>
        -- the value of the digits so far is past the limit already
        refine iff_of_false (by simp) ?_
        rintro ⟨-, rfl, hle⟩
        exact hgt (Nat.le_trans (Text.le_ofDigitChars _ ds) hle)

/-! ## Texts that are numerals -/

/-- The text writes the number `n` in decimal digits, perhaps behind a plus sign. -/
def Text.Denotes (cs : List Char) (n : Nat) : Prop :=
  ∃ ds, (cs = ds ∨ cs = '+' :: ds) ∧ ds ≠ [] ∧ (∀ c ∈ ds, c.isDigit = true) ∧
    Nat.ofDigitChars 10 ds 0 = n

theorem Text.denotes_plus_iff {cs : List Char} {n : Nat} :
    Text.Denotes ('+' :: cs) n ↔
      cs ≠ [] ∧ (∀ c ∈ cs, c.isDigit = true) ∧ Nat.ofDigitChars 10 cs 0 = n := by
  constructor
  · rintro ⟨ds, rfl | hds, hne, hdigits, hvalue⟩
    · exact absurd (hdigits '+' List.mem_cons_self) (by decide)
    · obtain rfl := (List.cons.inj hds).2
      exact ⟨hne, hdigits, hvalue⟩
  · rintro ⟨hne, hdigits, hvalue⟩
    exact ⟨cs, .inr rfl, hne, hdigits, hvalue⟩

theorem Text.denotes_iff_of_head {c : Char} {cs : List Char} (hc : c ≠ '+') {n : Nat} :
    Text.Denotes (c :: cs) n ↔
      (∀ d ∈ c :: cs, d.isDigit = true) ∧ Nat.ofDigitChars 10 (c :: cs) 0 = n := by
  constructor
  · rintro ⟨ds, rfl | hds, -, hdigits, hvalue⟩
    · exact ⟨hdigits, hvalue⟩
    · exact absurd (List.cons.inj hds).1 hc
  · rintro ⟨hdigits, hvalue⟩
    exact ⟨c :: cs, .inl rfl, List.cons_ne_nil c cs, hdigits, hvalue⟩

/-- The texts that are read are the numerals of the numbers up to the limit. -/
theorem Text.readNumeral_eq_ok_iff {limit n : Nat} {cs : List Char} :
    Text.readNumeral limit cs = .ok n ↔ Text.Denotes cs n ∧ n ≤ limit := by
  unfold Text.readNumeral
  split
  next => simp [Text.Denotes]
  next => simp [Text.denotes_plus_iff]
  next cs hne =>
    have hcs : cs ≠ [] := fun heq => hne (by rw [heq])
    rw [Text.readDigits_eq_ok_iff (Nat.zero_le limit), Text.denotes_plus_iff]
    simp only [ne_eq, hcs, not_false_eq_true, true_and, and_assoc]
  next hne _ hplus =>
    obtain ⟨c, ds, rfl⟩ := List.exists_cons_of_ne_nil hne
    have hc : c ≠ '+' := fun heq => hplus ds (by rw [heq])
    rw [Text.readDigits_eq_ok_iff (Nat.zero_le limit), Text.denotes_iff_of_head hc, and_assoc]

theorem Text.denotes_numeral (n : Nat) : Text.Denotes (Text.numeral n) n :=
  ⟨Text.numeral n, .inl rfl, Text.numeral_ne_nil n, fun _ hc => Text.isDigit_of_mem_numeral hc,
    Text.ofDigitChars_numeral n⟩

/-- A numeral ends in a digit. -/
theorem Text.Denotes.exists_getLast? {cs : List Char} {n : Nat} (h : Text.Denotes cs n) :
    ∃ c, cs.getLast? = some c ∧ c.isDigit = true := by
  obtain ⟨ds, hcs, hne, hdigits, -⟩ := h
  have hlast : ds.getLast? = some (ds.getLast hne) := List.getLast?_eq_some_getLast hne
  refine ⟨ds.getLast hne, ?_, hdigits _ (List.getLast_mem hne)⟩
  rcases hcs with rfl | rfl
  · exact hlast
  · rw [List.getLast?_cons, hlast]
    rfl

theorem Count.read_eq_ok_iff {cs : List Char} {n : Count} :
    Count.read cs = .ok n ↔ Text.Denotes cs n.val := by
  have hread : Count.read cs = .ok n ↔ Text.readNumeral Count.limit cs = .ok n.val := by
    unfold Count.read
    cases h : Text.readNumeral Count.limit cs with
    | error cause => simp [Except.map]
    | ok m =>
      have hval : (Count.ofNat m).val = m := Nat.min_eq_left (Text.readNumeral_le h)
      simp only [Except.map, Except.ok.injEq, Count.ext_iff, hval]
  rw [hread, Text.readNumeral_eq_ok_iff, and_iff_left n.val_le_limit]

theorem Pid.read_eq_ok_iff {cs : List Char} {pid : Pid} :
    Pid.read cs = .ok pid ↔ Text.Denotes cs pid.toNat := by
  have hread : Pid.read cs = .ok pid ↔ Text.readNumeral (2 ^ 32 - 1) cs = .ok pid.toNat := by
    unfold Pid.read
    cases h : Text.readNumeral (2 ^ 32 - 1) cs with
    | error cause => simp [Except.map]
    | ok m =>
      have hlt : m < 2 ^ 32 := by have := Text.readNumeral_le h; omega
      have hval : (UInt32.ofNat m).toNat = m := UInt32.toNat_ofNat_of_lt' hlt
      simp only [Except.map, Except.ok.injEq, ← UInt32.toNat_inj, hval]
  have hle : pid.toNat ≤ 2 ^ 32 - 1 := by have := pid.toNat_lt; omega
  rw [hread, Text.readNumeral_eq_ok_iff, and_iff_left hle]

theorem Count.read_numeral (n : Count) : Count.read (Text.numeral n.val) = .ok n :=
  Count.read_eq_ok_iff.2 (Text.denotes_numeral n.val)

/-! ## Characters of numbers -/

/-- The characters that numbers are written with, integers and doubles. -/
def Text.isNumberChar (c : Char) : Bool :=
  c.isDigit || c == '.' || c == 'e' || c == '-' || c == '+'

theorem Text.isNumberChar_of_isDigit {c : Char} (h : c.isDigit = true) :
    Text.isNumberChar c = true := by
  simp only [Text.isNumberChar, h, Bool.true_or]

theorem Text.isNumberChar_numeral (n : Nat) : ∀ c ∈ Text.numeral n, Text.isNumberChar c = true :=
  fun _ hc => Text.isNumberChar_of_isDigit (Text.isDigit_of_mem_numeral hc)

theorem Decimal.isNumberChar_render (d : Decimal) : ∀ c ∈ d.render, Text.isNumberChar c = true := by
  have hdigits := Text.isNumberChar_numeral d.digits
  have hzeros : ∀ n, ∀ c ∈ List.replicate n '0', Text.isNumberChar c = true := by
    intro n c hc
    rw [List.eq_of_mem_replicate hc]
    rfl
  have htake : ∀ n, ∀ c ∈ (Text.numeral d.digits).take n, Text.isNumberChar c = true :=
    fun n c hc => hdigits c (List.mem_of_mem_take hc)
  have hdrop : ∀ n, ∀ c ∈ (Text.numeral d.digits).drop n, Text.isNumberChar c = true :=
    fun n c hc => hdigits c (List.mem_of_mem_drop hc)
  have hexp : ∀ (e : Int) (n : Nat), ∀ c ∈ 'e' :: (if e < 0 then ['-'] else ['+']) ++
      Text.numeral n, Text.isNumberChar c = true := by
    intro e n
    refine List.forall_mem_append.2 ⟨List.forall_mem_cons.2 ⟨rfl, ?_⟩, Text.isNumberChar_numeral n⟩
    split <;> exact List.all_eq_true.1 rfl
  simp only [Decimal.render]
  split
  next => exact List.all_eq_true.1 rfl
  split
  next =>
    exact List.forall_mem_append.2
      ⟨List.forall_mem_append.2 ⟨hdigits, hzeros _⟩, List.all_eq_true.1 rfl⟩
  split
  next => exact List.forall_mem_append.2 ⟨htake _, List.forall_mem_cons.2 ⟨rfl, hdrop _⟩⟩
  split
  next =>
    exact List.forall_mem_append.2
      ⟨List.forall_mem_append.2 ⟨List.all_eq_true.1 rfl, hzeros _⟩, hdigits⟩
  next =>
    rw [List.append_assoc]
    refine List.forall_mem_append.2 ⟨List.forall_mem_append.2 ⟨htake _, ?_⟩, hexp _ _⟩
    split
    · exact List.forall_mem_nil _
    · exact List.forall_mem_cons.2 ⟨rfl, hdrop _⟩

theorem Binary64.Finite.isNumberChar_render (x : Binary64.Finite) :
    ∀ c ∈ x.render, Text.isNumberChar c = true := by
  simp only [Binary64.Finite.render]
  split
  · exact List.forall_mem_cons.2 ⟨rfl, Decimal.isNumberChar_render _⟩
  · exact Decimal.isNumberChar_render _

end FoldedStacks
