-- SUMMARY: Written numbers are read: every number text is taken to its end and never past the range of the doubles, and integers are read as themselves.
import Mathlib
import FoldedStacks.Json.Literal
import FoldedStacks.Proofs.JsonText
import FoldedStacks.Proofs.RoundingOrder

/-!
# Reading written numbers

A number is written as digits, with a fraction and an exponent where they are needed. The reader takes
these parts one after the other. A double is not always read as itself, but it is always read as a
double: no written text is too large for the reader.
-/

namespace FoldedStacks

/-! ## Steps of a reader -/

section Steps

variable {α β : Type}

/-- A reader goes on where the one before it stopped. -/
theorem Json.Reader.bind_of_ok {r : Json.Reader α} {f : α → Json.Reader β} {cs rest : List Char}
    {a : α} (h : r cs = .ok (a, rest)) : (r >>= f) cs = f a rest := by
  rw [Json.Reader.bind_apply, h]

/-- A reader that fails is the end of the reading. -/
theorem Json.Reader.bind_of_error {r : Json.Reader α} {f : α → Json.Reader β} {cs : List Char}
    {e : Json.ReadError} (h : r cs = .error e) : (r >>= f) cs = .error e := by
  rw [Json.Reader.bind_apply, h]

theorem Json.Reader.get_apply (cs : List Char) : (get : Json.Reader (List Char)) cs = .ok (cs, cs) :=
  rfl

theorem Json.Reader.set_apply (rest cs : List Char) :
    (set rest : Json.Reader PUnit) cs = .ok ((), rest) := rfl

end Steps

/-! ## Parts of a number -/

/-- A number without its sign, as the digits in front of the point, those behind it, and the exponent
    of ten. -/
structure Json.NumberParts where
  whole : List Char
  fraction : Option (List Char)
  exponent : Option Int
  whole_digits : ∀ c ∈ whole, c.isDigit = true
  whole_ne_nil : whole ≠ []
  /-- Zero stands alone in front of the point. -/
  whole_zero : whole.head? = some '0' → whole.length = 1
  whole_lt : Nat.ofDigitChars 10 whole 0 < 2 ^ 64
  fraction_digits : ∀ ds, fraction = some ds → ds ≠ [] ∧ ∀ c ∈ ds, c.isDigit = true

def Json.fractionText : Option (List Char) → List Char
  | none => []
  | some ds => '.' :: ds

def Json.exponentText : Option Int → List Char
  | none => []
  | some e => 'e' :: ((if e < 0 then ['-'] else ['+']) ++ Text.numeral e.natAbs)

def Json.NumberParts.text (p : Json.NumberParts) : List Char :=
  p.whole ++ (Json.fractionText p.fraction ++ Json.exponentText p.exponent)

/-- All digits, those behind the point included. -/
def Json.NumberParts.digits (p : Json.NumberParts) : List Char :=
  p.whole ++ p.fraction.getD []

def Json.NumberParts.decimal (p : Json.NumberParts) : Decimal :=
  ⟨Nat.ofDigitChars 10 p.digits 0, p.exponent.getD 0 - (p.fraction.getD []).length⟩

/-- What the reader makes of the parts. -/
def Json.NumberParts.literal (p : Json.NumberParts) (negative : Bool) : Json.Literal :=
  let read := Json.appendDigits (Nat.ofDigitChars 10 p.whole 0) (p.fraction.getD [])
  { negative
    significand := read.1
    exponent := p.exponent.getD 0 + read.2 - (p.fraction.getD []).length
    integral := p.fraction.isNone && p.exponent.isNone }

/-! ## Digits up to 64 bits -/

theorem Json.appendDigits_of_lt {n : Nat} {ds : List Char}
    (h : Nat.ofDigitChars 10 ds n < 2 ^ 64) :
    Json.appendDigits n ds = (Nat.ofDigitChars 10 ds n, 0) := by
  induction ds generalizing n with
  | nil => rfl
  | cons c ds ih =>
    rw [Nat.ofDigitChars_cons] at h ⊢
    have hnext : 10 * n + (c.toNat - '0'.toNat) < 2 ^ 64 :=
      lt_of_le_of_lt (Text.le_ofDigitChars _ ds) h
    rw [Json.appendDigits]
    simp only [if_pos hnext]
    exact ih h

/-- The digits that are kept fit 64 bits, and zeros in place of the others make no larger number. -/
theorem Json.appendDigits_spec {n : Nat} (hn : n < 2 ^ 64) (ds : List Char) :
    (Json.appendDigits n ds).1 < 2 ^ 64 ∧
      (Json.appendDigits n ds).1 * 10 ^ (Json.appendDigits n ds).2 ≤ Nat.ofDigitChars 10 ds n := by
  induction ds generalizing n with
  | nil => exact ⟨hn, by simp [Json.appendDigits]⟩
  | cons c ds ih =>
    rw [Json.appendDigits]
    split
    next hnext =>
      rw [Nat.ofDigitChars_cons]
      exact ih hnext
    next =>
      refine ⟨hn, ?_⟩
      rw [Nat.ofDigitChars_eq_ofDigitChars_zero, Nat.mul_comm, List.length_cons]
      exact Nat.le_add_right _ _

/-! ## Reading the parts -/

/-- No digit comes next. -/
def Json.NoDigit (s : List Char) : Prop :=
  ∀ c ∈ s.head?, c.isDigit = false

theorem Json.Delimited.noDigit {s : List Char} (h : Json.Delimited s) : Json.NoDigit s := by
  intro c hc
  rcases h c hc with rfl | rfl | rfl <;> rfl

theorem Json.noDigit_cons {c : Char} (h : c.isDigit = false) (s : List Char) :
    Json.NoDigit (c :: s) := by
  intro d hd
  cases hd
  exact h

theorem Json.readDigits_append (atEnd : Json.ReadError) {ds s : List Char}
    (hds : ∀ c ∈ ds, c.isDigit = true) (hne : ds ≠ []) (hs : Json.NoDigit s) :
    Json.readDigits atEnd (ds ++ s) = .ok (ds, s) := by
  have htake : s.takeWhile Char.isDigit = [] := by
    cases s with
    | nil => rfl
    | cons c s => rw [List.takeWhile_cons, hs c rfl]; rfl
  have hdrop : s.dropWhile Char.isDigit = s := by
    cases s with
    | nil => rfl
    | cons c s => rw [List.dropWhile_cons, hs c rfl]; rfl
  have hempty : ds.isEmpty = false := by
    rw [List.isEmpty_eq_false_iff]
    exact hne
  unfold Json.readDigits
  split
  next heq => exact absurd (List.append_eq_nil_iff.1 heq).1 hne
  next =>
    simp only [List.takeWhile_append_of_pos hds, List.dropWhile_append_of_pos hds, htake, hdrop,
      List.append_nil, hempty, Bool.false_eq_true, if_false]

theorem Json.readWhole_append (atEnd : Json.ReadError) {ds s : List Char}
    (hds : ∀ c ∈ ds, c.isDigit = true) (hne : ds ≠ []) (hzero : ds.head? = some '0' → ds.length = 1)
    (hs : Json.NoDigit s) : Json.readWhole atEnd (ds ++ s) = .ok (ds, s) := by
  have hplain : ¬ (ds.head? = some '0' ∧ ds.length ≠ 1) := fun h => h.2 (hzero h.1)
  rw [Json.readWhole, Json.Reader.bind_apply, Json.readDigits_append atEnd hds hne hs]
  simp only [if_neg hplain, Json.Reader.pure_apply]

theorem Json.readFraction_append (atEnd : Json.ReadError) {fraction : Option (List Char)}
    {s : List Char} (hds : ∀ ds, fraction = some ds → ds ≠ [] ∧ ∀ c ∈ ds, c.isDigit = true)
    (hs : Json.NoDigit s) (hpoint : s.head? ≠ some '.') :
    Json.readFraction atEnd (Json.fractionText fraction ++ s) = .ok (fraction, s) := by
  rw [Json.readFraction, Json.Reader.bind_of_ok (Json.Reader.get_apply _)]
  cases fraction with
  | none =>
    rw [Json.fractionText, List.nil_append]
    split
    next => exact absurd rfl hpoint
    next => rfl
  | some ds =>
    obtain ⟨hne, hdigits⟩ := hds ds rfl
    simp only [Json.fractionText, List.cons_append]
    rw [Json.Reader.bind_of_ok (Json.Reader.set_apply _ _),
      Json.Reader.bind_of_ok (Json.readDigits_append atEnd hdigits hne hs), Json.Reader.pure_apply]

theorem Json.readExponent_append (atEnd : Json.ReadError) (exponent : Option Int) {s : List Char}
    (hs : Json.Delimited s) :
    Json.readExponent atEnd (Json.exponentText exponent ++ s) = .ok (exponent, s) := by
  rw [Json.readExponent, Json.Reader.bind_of_ok (Json.Reader.get_apply _)]
  cases exponent with
  | none =>
    rw [Json.exponentText, List.nil_append]
    cases s with
    | nil => rfl
    | cons c s =>
      have hc : ¬ (c = 'e' ∨ c = 'E') := by
        rcases hs c rfl with rfl | rfl | rfl <;> decide
      simp only [if_neg hc, Json.Reader.pure_apply]
  | some e =>
    have hread : Json.readDigits atEnd (Text.numeral e.natAbs ++ s) =
        .ok (Text.numeral e.natAbs, s) :=
      Json.readDigits_append atEnd (fun c hc => Text.isDigit_of_mem_numeral hc)
        (Text.numeral_ne_nil _) hs.noDigit
    by_cases he : e < 0
    · have hvalue : -((e.natAbs : ℕ) : ℤ) = e := by omega
      simp only [Json.exponentText, if_pos he, List.cons_append, List.nil_append, true_or, if_true]
      rw [Json.Reader.bind_of_ok (Json.Reader.set_apply _ _), Json.Reader.bind_of_ok hread,
        Json.Reader.pure_apply, Text.ofDigitChars_numeral, hvalue]
    · have hvalue : ((e.natAbs : ℕ) : ℤ) = e := by omega
      simp only [Json.exponentText, if_neg he, List.cons_append, List.nil_append, true_or, if_true]
      rw [Json.Reader.bind_of_ok (Json.Reader.set_apply _ _), Json.Reader.bind_of_ok hread,
        Json.Reader.pure_apply, Text.ofDigitChars_numeral]
      simp only [Bool.false_eq_true, if_false, hvalue]

/-- The text of a number, with its sign. -/
def Json.NumberParts.signedText (p : Json.NumberParts) (negative : Bool) : List Char :=
  if negative then '-' :: p.text else p.text

theorem Json.NumberParts.text_head (p : Json.NumberParts) :
    ∃ c cs, p.text = c :: cs ∧ c.isDigit = true := by
  obtain ⟨c, cs, hwhole⟩ := List.exists_cons_of_ne_nil p.whole_ne_nil
  refine ⟨c, _, by rw [Json.NumberParts.text, hwhole, List.cons_append], ?_⟩
  exact p.whole_digits c (by rw [hwhole]; exact List.mem_cons_self)

/-- What stands behind the digits of a number begins with no digit. -/
theorem Json.NumberParts.noDigit_behind (p : Json.NumberParts) {s : List Char}
    (hs : Json.Delimited s) :
    Json.NoDigit (Json.exponentText p.exponent ++ s) ∧
      (Json.exponentText p.exponent ++ s).head? ≠ some '.' ∧
      Json.NoDigit (Json.fractionText p.fraction ++ (Json.exponentText p.exponent ++ s)) := by
  have hexponent : Json.NoDigit (Json.exponentText p.exponent ++ s) ∧
      (Json.exponentText p.exponent ++ s).head? ≠ some '.' := by
    cases p.exponent with
    | none =>
      refine ⟨hs.noDigit, ?_⟩
      intro hpoint
      rcases hs '.' hpoint with h | h | h <;> cases h
    | some e => exact ⟨Json.noDigit_cons rfl _, by simp [Json.exponentText]⟩
  refine ⟨hexponent.1, hexponent.2, ?_⟩
  cases p.fraction with
  | none => exact hexponent.1
  | some ds => exact Json.noDigit_cons rfl _

/-- The reader takes a written number to its end. -/
theorem Json.NumberParts.readLiteral_append (p : Json.NumberParts) (negative : Bool)
    (atEnd : Json.ReadError) {s : List Char} (hs : Json.Delimited s) :
    Json.readLiteral atEnd (p.signedText negative ++ s) = .ok (p.literal negative, s) := by
  -- behind the sign the parts follow one another
  have hparts {β : Type} (f : List Char → Option (List Char) → Option Int → Json.Reader β) :
      (do
        let whole ← Json.readWhole atEnd
        let fraction ← Json.readFraction atEnd
        let exponent ← Json.readExponent atEnd
        f whole fraction exponent : Json.Reader β) (p.text ++ s) =
      f p.whole p.fraction p.exponent s := by
    obtain ⟨hexponent, hpoint, hfraction⟩ := p.noDigit_behind hs
    rw [Json.NumberParts.text, List.append_assoc, List.append_assoc,
      Json.Reader.bind_of_ok
        (Json.readWhole_append atEnd p.whole_digits p.whole_ne_nil p.whole_zero hfraction),
      Json.Reader.bind_of_ok (Json.readFraction_append atEnd p.fraction_digits hexponent hpoint),
      Json.Reader.bind_of_ok (Json.readExponent_append atEnd p.exponent hs)]
  have hdigits := Json.appendDigits_of_lt p.whole_lt
  rw [Json.readLiteral, Json.Reader.bind_of_ok (Json.Reader.get_apply _)]
  cases negative with
  | true =>
    have hsign : Json.advance ('-' :: (p.text ++ s)) = .ok ((), p.text ++ s) := rfl
    simp only [Json.NumberParts.signedText, if_true, List.cons_append, List.head?_cons, BEq.rfl]
    rw [Json.Reader.bind_of_ok hsign, hparts]
    simp only [hdigits, Json.Reader.pure_apply, Json.NumberParts.literal, Nat.cast_zero, add_zero]
  | false =>
    have hminus : ((p.text ++ s).head? == some '-') = false := by
      obtain ⟨c, cs, hcs, hc⟩ := p.text_head
      rw [hcs, List.cons_append, List.head?_cons, beq_eq_false_iff_ne]
      rintro ⟨⟩
      cases hc
    simp only [Json.NumberParts.signedText, Bool.false_eq_true, if_false, hminus]
    rw [hparts]
    simp only [hdigits, Json.Reader.pure_apply, Json.NumberParts.literal, Nat.cast_zero, add_zero]

/-! ## Integers -/

/-- Only the numeral of zero begins with zero. -/
theorem Text.eq_zero_of_head?_numeral {n : Nat} (h : (Text.numeral n).head? = some '0') : n = 0 := by
  induction n using Nat.strongRecOn with
  | ind n ih =>
    unfold Text.numeral at h
    rcases Nat.lt_or_ge n 10 with hlt | hge
    · rw [Nat.toDigits_of_lt_base hlt, List.head?_cons, Option.some.injEq] at h
      have hall : ∀ k < 10, Nat.digitChar k = '0' → k = 0 := by decide
      exact hall n hlt h
    · -- the digits of the tenth come first
      rw [Nat.toDigits_of_base_le (by norm_num) hge, List.head?_append_of_ne_nil _
        Nat.toDigits_ne_nil] at h
      have htenth := ih (n / 10) (Nat.div_lt_self (by omega) (by norm_num)) h
      omega

theorem Text.length_numeral_of_zero {n : Nat} (h : (Text.numeral n).head? = some '0') :
    (Text.numeral n).length = 1 := by
  rw [Text.eq_zero_of_head?_numeral h]
  rfl

/-- The parts of an integer are its digits. -/
def Json.NumberParts.ofNat (n : Nat) (h : n < 2 ^ 64) : Json.NumberParts where
  whole := Text.numeral n
  fraction := none
  exponent := none
  whole_digits := fun _ hc => Text.isDigit_of_mem_numeral hc
  whole_ne_nil := Text.numeral_ne_nil n
  whole_zero := Text.length_numeral_of_zero
  whole_lt := by rw [Text.ofDigitChars_numeral]; exact h
  fraction_digits := by simp

theorem Json.renderInt_eq_signedText (i : Int) (h : i.natAbs < 2 ^ 64) :
    Json.renderInt i = (Json.NumberParts.ofNat i.natAbs h).signedText (decide (i < 0)) := by
  unfold Json.renderInt Json.NumberParts.signedText Json.NumberParts.text
  simp only [Json.NumberParts.ofNat, Json.fractionText, Json.exponentText, List.append_nil,
    decide_eq_true_eq]

theorem Json.NumberParts.literal_ofNat (n : Nat) (h : n < 2 ^ 64) (negative : Bool) :
    (Json.NumberParts.ofNat n h).literal negative = ⟨negative, n, 0, true⟩ := by
  simp [Json.NumberParts.literal, Json.NumberParts.ofNat, Json.appendDigits,
    Text.ofDigitChars_numeral]

/-- An integer is read as itself. -/
theorem Json.readNumber_renderInt {i : Int} (h : -2 ^ 63 ≤ i ∧ i < 2 ^ 64) {s : List Char}
    (hs : Json.Delimited s) : Json.readNumber (Json.renderInt i ++ s) = .ok (.int i h, s) := by
  have habs : i.natAbs < 2 ^ 64 := by omega
  have hvalue : (if decide (i < 0) = true then -(i.natAbs : ℤ) else (i.natAbs : ℤ)) = i := by
    simp only [decide_eq_true_eq]
    split <;> omega
  have hzero : ¬ (decide (i < 0) = true ∧ i.natAbs = 0) := by
    simp only [decide_eq_true_eq]
    omega
  rw [Json.readNumber, Json.renderInt_eq_signedText i habs,
    Json.Reader.bind_of_ok (Json.NumberParts.readLiteral_append _ _ _ hs),
    Json.NumberParts.literal_ofNat]
  simp only [Json.Literal.toNumber?, hvalue, hzero, h, not_false_eq_true, and_self, dite_true,
    Json.Reader.pure_apply]

/-! ## Doubles -/

theorem Json.NumberParts.not_mem_text_of_digits {p : Json.NumberParts} {c : Char}
    (hc : c.isDigit = false) : c ∉ p.whole ∧ ∀ ds, p.fraction = some ds → c ∉ ds :=
  ⟨Decimal.not_mem_digits hc p.whole_digits, fun ds hds =>
    Decimal.not_mem_digits hc (p.fraction_digits ds hds).2⟩

/-- The parts stand for the decimal that a reader of decimals finds in their text. -/
theorem Json.NumberParts.ofText_text (p : Json.NumberParts) :
    Decimal.ofText p.text = p.decimal := by
  have hpoint (e : Int) : Decimal.ofPoint (p.whole ++ Json.fractionText p.fraction) e =
      ⟨Nat.ofDigitChars 10 p.digits 0, e - (p.fraction.getD []).length⟩ := by
    have hwhole := (p.not_mem_text_of_digits (c := '.') rfl).1
    unfold Json.NumberParts.digits
    cases p.fraction with
    | none =>
      simp only [Json.fractionText, List.append_nil, Decimal.ofPoint_of_not_mem e hwhole,
        Option.getD_none, List.length_nil, Nat.cast_zero, sub_zero]
    | some ds => exact Decimal.ofPoint_append e hwhole
  have hmark : 'e' ∉ p.whole ++ Json.fractionText p.fraction := by
    obtain ⟨hwhole, hfraction⟩ := p.not_mem_text_of_digits (c := 'e') rfl
    rw [List.mem_append]
    rintro (hin | hin)
    · exact hwhole hin
    · cases hf : p.fraction with
      | none =>
        rw [hf] at hin
        exact absurd hin List.not_mem_nil
      | some ds =>
        rw [hf] at hin
        exact hfraction ds hf ((List.mem_cons.1 hin).resolve_left (by decide))
  unfold Json.NumberParts.text Json.NumberParts.decimal
  rw [← List.append_assoc]
  cases p.exponent with
  | none =>
    rw [Json.exponentText, List.append_nil, Decimal.ofText_of_not_mem hmark, hpoint]
    rfl
  | some e =>
    rw [Json.exponentText, Decimal.ofText_append hmark, Decimal.exponentOf_signed, hpoint]
    rfl

theorem Text.ofDigitChars_lt {ds : List Char} (hds : ∀ c ∈ ds, c.isDigit = true) (n : Nat) :
    Nat.ofDigitChars 10 ds n < (n + 1) * 10 ^ ds.length := by
  induction ds generalizing n with
  | nil => simp
  | cons c ds ih =>
    have hc : c.toNat - '0'.toNat ≤ 9 := by
      have hdigit := hds c List.mem_cons_self
      simp only [Char.isDigit, Bool.and_eq_true, decide_eq_true_eq] at hdigit
      have hle : c.toNat ≤ '9'.toNat := hdigit.2
      have hnine : '9'.toNat = 0x39 := rfl
      have hzero : '0'.toNat = 0x30 := rfl
      omega
    rw [Nat.ofDigitChars_cons, List.length_cons, Nat.pow_succ', ← Nat.mul_assoc]
    refine lt_of_lt_of_le (ih (fun d hd => hds d (List.mem_cons_of_mem c hd)) _) ?_
    exact Nat.mul_le_mul_right _ (by omega)

/-- Parts with at most sixteen digits in front of the point. -/
def Json.NumberParts.ofShort (whole : List Char) (fraction : Option (List Char))
    (exponent : Option Int) (hdigits : ∀ c ∈ whole, c.isDigit = true) (hne : whole ≠ [])
    (hzero : whole.head? = some '0' → whole.length = 1) (hlength : whole.length ≤ 16)
    (hfraction : ∀ ds, fraction = some ds → ds ≠ [] ∧ ∀ c ∈ ds, c.isDigit = true) :
    Json.NumberParts where
  whole := whole
  fraction := fraction
  exponent := exponent
  whole_digits := hdigits
  whole_ne_nil := hne
  whole_zero := hzero
  whole_lt := by
    refine lt_of_lt_of_le (Text.ofDigitChars_lt hdigits 0) ?_
    rw [Nat.zero_add, Nat.one_mul]
    exact le_trans (Nat.pow_le_pow_right (n := 10) (by norm_num) hlength) (by norm_num)
  fraction_digits := hfraction

section Layouts

variable {d : Decimal}

theorem Text.head?_numeral_ne_zero (h : d.digits ≠ 0) : (Text.numeral d.digits).head? ≠ some '0' :=
  fun hhead => h (Text.eq_zero_of_head?_numeral hhead)

/-- Digits on both sides of a point are the parts of a number. -/
theorem Json.NumberParts.exists_pointed {ws ds : List Char} (hws : ∀ c ∈ ws, c.isDigit = true)
    (hne : ws ≠ []) (hzero : ws.head? = some '0' → ws.length = 1) (hlength : ws.length ≤ 16)
    (hds : ∀ c ∈ ds, c.isDigit = true) (hdsne : ds ≠ []) :
    ∃ p : Json.NumberParts, p.text = ws ++ '.' :: ds ∧
      (p.fraction.isSome || p.exponent.isSome) = true := by
  have hfraction : ∀ ds', some ds = some ds' → ds' ≠ [] ∧ ∀ c ∈ ds', c.isDigit = true := by
    rintro ds' ⟨⟩
    exact ⟨hdsne, hds⟩
  refine ⟨.ofShort ws (some ds) none hws hne hzero hlength hfraction, ?_, rfl⟩
  simp only [Json.NumberParts.text, Json.NumberParts.ofShort, Json.fractionText, Json.exponentText,
    List.append_nil]

/-- Zeros up to the point, and one behind it. -/
theorem Decimal.exists_parts_integer (hne : d.digits ≠ 0) {k : Nat}
    (hk : (Text.numeral d.digits).length + k ≤ 16) :
    ∃ p : Json.NumberParts, p.text = Text.numeral d.digits ++ List.replicate k '0' ++ ['.', '0'] ∧
      (p.fraction.isSome || p.exponent.isSome) = true := by
  apply Json.NumberParts.exists_pointed
  case hws => exact List.forall_mem_append.2 ⟨fun _ hc => Text.isDigit_of_mem_numeral hc,
    fun _ hc => Text.isDigit_of_mem_zeros hc⟩
  case hne => simp [Text.numeral_ne_nil]
  case hzero =>
    intro hfirst
    rw [List.head?_append_of_ne_nil _ (Text.numeral_ne_nil _)] at hfirst
    exact absurd hfirst (Text.head?_numeral_ne_zero hne)
  case hlength =>
    rw [List.length_append, List.length_replicate]
    exact hk
  case hds => simp
  case hdsne => simp

/-- The point stands inside the digits. -/
theorem Decimal.exists_parts_inside (hne : d.digits ≠ 0) {k : Nat} (hpos : 0 < k) (hk : k ≤ 16)
    (hlt : k < (Text.numeral d.digits).length) :
    ∃ p : Json.NumberParts,
      p.text = (Text.numeral d.digits).take k ++ '.' :: (Text.numeral d.digits).drop k ∧
      (p.fraction.isSome || p.exponent.isSome) = true := by
  have hlength : ((Text.numeral d.digits).take k).length = k := by
    rw [List.length_take, min_eq_left hlt.le]
  apply Json.NumberParts.exists_pointed
  case hws => exact fun c hc => Text.isDigit_of_mem_numeral (List.mem_of_mem_take hc)
  case hne => exact List.ne_nil_of_length_pos (hpos.trans_eq hlength.symm)
  case hzero =>
    intro hfirst
    rw [List.head?_take, if_neg hpos.ne'] at hfirst
    exact absurd hfirst (Text.head?_numeral_ne_zero hne)
  case hlength => exact hlength.trans_le hk
  case hds => exact fun c hc => Text.isDigit_of_mem_numeral (List.mem_of_mem_drop hc)
  case hdsne =>
    apply List.ne_nil_of_length_pos
    rw [List.length_drop]
    exact Nat.sub_pos_of_lt hlt

/-- Zeros between the point and the digits. -/
theorem Decimal.exists_parts_below (d : Decimal) (k : Nat) :
    ∃ p : Json.NumberParts,
      p.text = ['0', '.'] ++ List.replicate k '0' ++ Text.numeral d.digits ∧
      (p.fraction.isSome || p.exponent.isSome) = true := by
  have hdigits : ∀ c ∈ List.replicate k '0' ++ Text.numeral d.digits, c.isDigit = true :=
    List.forall_mem_append.2 ⟨fun _ hc => Text.isDigit_of_mem_zeros hc,
      fun _ hc => Text.isDigit_of_mem_numeral hc⟩
  have hzero : ∀ c ∈ ['0'], c.isDigit = true := by simp
  exact Json.NumberParts.exists_pointed hzero (List.cons_ne_nil _ _) (fun _ => rfl) (by simp) hdigits
    (by simp [Text.numeral_ne_nil])

/-- The leading digit is followed by an exponent. -/
theorem Decimal.exists_parts_scientific (d : Decimal) (e : Int) :
    ∃ p : Json.NumberParts, p.text = (Text.numeral d.digits).take 1 ++
      (if (Text.numeral d.digits).length = 1 then [] else '.' :: (Text.numeral d.digits).drop 1) ++
        'e' :: (if e < 0 then ['-'] else ['+']) ++ Text.numeral e.natAbs ∧
      (p.fraction.isSome || p.exponent.isSome) = true := by
  have hpos : 0 < (Text.numeral d.digits).length :=
    List.length_pos_iff.2 (Text.numeral_ne_nil _)
  have hone : ((Text.numeral d.digits).take 1).length = 1 := by
    rw [List.length_take, min_eq_left hpos]
  have hfraction : ∀ ds, (if (Text.numeral d.digits).length = 1 then none
      else some ((Text.numeral d.digits).drop 1)) = some ds →
        ds ≠ [] ∧ ∀ c ∈ ds, c.isDigit = true := by
    intro ds hds
    split at hds
    · cases hds
    next hmore =>
      cases hds
      refine ⟨List.ne_nil_of_length_pos ?_, fun c hc =>
        Text.isDigit_of_mem_numeral (List.mem_of_mem_drop hc)⟩
      rw [List.length_drop]
      omega
  refine ⟨.ofShort ((Text.numeral d.digits).take 1) _ (some e)
    (fun c hc => Text.isDigit_of_mem_numeral (List.mem_of_mem_take hc))
    (List.ne_nil_of_length_pos (Nat.one_pos.trans_eq hone.symm)) (fun _ => hone)
    (hone.trans_le (by norm_num)) hfraction, ?_, Bool.or_true _⟩
  simp only [Json.NumberParts.text, Json.NumberParts.ofShort, List.append_assoc]
  split <;> rfl

/-- Every layout of a decimal is made of the parts of a number, and shows a point or an exponent. -/
theorem Decimal.exists_parts (d : Decimal) :
    ∃ p : Json.NumberParts, p.text = d.render ∧ (p.fraction.isSome || p.exponent.isSome) = true := by
  simp only [Decimal.render]
  split
  next hzero =>
    have hparts := d.exists_parts_below 0
    rw [hzero] at hparts
    exact hparts
  next hne =>
    split
    next hpoint => exact Decimal.exists_parts_integer hne (by omega)
    split
    next hpoint => exact Decimal.exists_parts_inside hne (by omega) (by omega) (by omega)
    split
    next => exact d.exists_parts_below _
    next => exact d.exists_parts_scientific _

end Layouts

/-! ## No text is too large -/

/-- The largest double. -/
def Binary64.Finite.largest (negative : Bool) : Binary64.Finite :=
  ⟨negative, 2 ^ 53 - 1, 971, by decide⟩

theorem Binary64.Finite.eq_largest_of_le {x : Binary64.Finite} {negative : Bool}
    (h : (Binary64.Finite.largest negative).magnitude ≤ x.magnitude) :
    x = Binary64.Finite.largest x.negative := by
  obtain ⟨hlt, -, hmax, -⟩ := x.canonical
  rw [Binary64.Finite.magnitude, Binary64.Finite.magnitude, Binary64.scaled_eq,
    Binary64.scaled_eq] at h
  have hsignificand : (x.significand : ℚ) ≤ ((2 ^ 53 - 1 : ℕ) : ℚ) := by
    exact_mod_cast Nat.le_sub_one_of_lt hlt
  have hexponent : x.exponent = 971 := by
    by_contra hne
    have hstep : (2 : ℚ) * (2 : ℚ) ^ x.exponent ≤ (2 : ℚ) ^ (971 : ℤ) := by
      rw [mul_comm, ← zpow_add_one₀ two_ne_zero]
      exact zpow_le_zpow_right₀ (by norm_num) (by omega)
    have hpos : (0 : ℚ) < (2 : ℚ) ^ x.exponent := zpow_pos two_pos x.exponent
    have hlarge : ((2 ^ 53 - 1 : ℕ) : ℚ) * (2 * (2 : ℚ) ^ x.exponent) ≤
        ((2 ^ 53 - 1 : ℕ) : ℚ) * (2 : ℚ) ^ x.exponent :=
      ((mul_le_mul_of_nonneg_left hstep (Nat.cast_nonneg _)).trans h).trans
        (mul_le_mul_of_nonneg_right hsignificand hpos.le)
    have hfactor : (0 : ℚ) < ((2 ^ 53 - 1 : ℕ) : ℚ) := by norm_num
    nlinarith [mul_pos hfactor hpos]
  rw [hexponent] at h
  have hge : 2 ^ 53 - 1 ≤ x.significand := by
    exact_mod_cast le_of_mul_le_mul_right h (zpow_pos two_pos 971)
  exact Binary64.Finite.ext rfl (by show x.significand = 2 ^ 53 - 1; omega) hexponent

/-- The shortest decimal of every double but the largest one is below `belowLargest`, which is read as
    the largest double. -/
theorem Binary64.Finite.value_shortest_lt {x : Binary64.Finite}
    (hx : x ≠ Binary64.Finite.largest x.negative) :
    x.shortest.value < Binary64.belowLargest := by
  by_contra hge
  rw [not_lt] at hge
  have hone : (1 : ℚ) ≤ x.shortest.value := by
    refine le_trans ?_ hge
    exact_mod_cast (by decide +kernel : 1 ≤ Binary64.belowLargest)
  have hdigits : x.shortest.digits ≠ 0 := by
    intro hzero
    rw [Decimal.value_eq_zero_iff.2 hzero] at hone
    exact absurd hone (by norm_num)
  have hlog : 0 ≤ Int.log 10 x.shortest.value :=
    (Int.zpow_le_iff_le_log (by decide) (lt_of_lt_of_le one_pos hone)).1 (by simpa using hone)
  rw [Decimal.log_value (Nat.pos_of_ne_zero hdigits)] at hlog
  have hread := x.readsBack_shortest
  simp only [Binary64.Finite.readsBack, Binary64.ofDecimal, if_neg hdigits, decide_eq_true_eq]
    at hread
  split at hread
  · cases hread
  rw [if_neg (by omega)] at hread
  -- what is at least `belowLargest` is rounded to at least the largest double
  have hlargest : Binary64.nearest false Binary64.belowLargest 1 =
      .finite (Binary64.Finite.largest false) := by decide +kernel
  have hle : (Binary64.belowLargest : ℚ) / (1 : ℕ) ≤
      ((x.shortest.digits * 10 ^ x.shortest.exponent.toNat : ℕ) : ℚ) /
        ((10 ^ (-x.shortest.exponent).toNat : ℕ) : ℚ) := by
    rw [← Decimal.value_eq_div, Nat.cast_one, div_one]
    exact hge
  obtain ⟨y, hy, hyx⟩ := Binary64.nearest_atMost false one_pos (by positivity) hle hread
  rw [hlargest, Binary64.finite.injEq] at hy
  rw [← hy] at hyx
  exact hx (Binary64.Finite.eq_largest_of_le (x := x) hyx)

/-! ## Reading doubles -/

theorem Json.NumberParts.literal_spec (p : Json.NumberParts) (negative : Bool) :
    (p.literal negative).significand < 2 ^ 64 ∧
      ((p.literal negative).significand : ℚ) * (10 : ℚ) ^ (p.literal negative).exponent ≤
        p.decimal.value := by
  obtain ⟨hlt, hle⟩ := Json.appendDigits_spec p.whole_lt (p.fraction.getD [])
  refine ⟨hlt, ?_⟩
  rw [← Nat.ofDigitChars_append] at hle
  simp only [Json.NumberParts.literal, Json.NumberParts.decimal, Decimal.value,
    Json.NumberParts.digits]
  have hle' := (Nat.cast_le (α := ℚ)).2 hle
  push_cast at hle'
  have hexponent (e len : ℤ) (left : ℕ) : (10 : ℚ) ^ (e + left - len) =
      (10 : ℚ) ^ left * (10 : ℚ) ^ (e - len) := by
    rw [show e + left - len = e - len + left by ring]
    exact zpow_add_natCast (by norm_num) _ _
  rw [hexponent, ← mul_assoc]
  exact mul_le_mul_of_nonneg_right hle' (by positivity)

theorem Json.readNumber_signedText (p : Json.NumberParts) (negative : Bool) {s : List Char}
    (hs : Json.Delimited s) :
    Json.readNumber (p.signedText negative ++ s) =
      match (p.literal negative).toNumber? with
      | some n => .ok (n, s)
      | none => .error .malformed := by
  rw [Json.readNumber, Json.Reader.bind_of_ok (p.readLiteral_append negative .truncated hs)]
  cases (p.literal negative).toNumber? <;> rfl

/-- What shows a point or an exponent is a double, if it is not too large. -/
theorem Json.NumberParts.toNumber?_literal {p : Json.NumberParts}
    (h : (p.fraction.isSome || p.exponent.isSome) = true) (negative : Bool) :
    (p.literal negative).toNumber? =
      (p.literal negative).toBinary64.finite?.map Json.Number.float := by
  have hintegral : (p.literal negative).integral = false := by
    simp only [Json.NumberParts.literal]
    cases hfraction : p.fraction <;> cases hexponent : p.exponent <;>
      simp [hfraction, hexponent] at h ⊢
  simp only [Json.Literal.toNumber?, hintegral, Bool.false_eq_true, false_and, dite_false]
  cases (p.literal negative).toBinary64 <;> rfl

theorem Binary64.Finite.exists_parts (x : Binary64.Finite) :
    ∃ p : Json.NumberParts, x.render = p.signedText x.negative ∧
      (p.fraction.isSome || p.exponent.isSome) = true ∧ p.decimal.value = x.shortest.value := by
  obtain ⟨p, htext, hmarked⟩ := (x.shortest.stripZeros 400).exists_parts
  refine ⟨p, ?_, hmarked, ?_⟩
  · simp only [Binary64.Finite.render, Json.NumberParts.signedText, htext]
  · rw [← p.ofText_text, htext, Decimal.value_ofText_render, Decimal.value_stripZeros]

/-- The text of the largest double is not too large. -/
theorem Json.exists_readNumber_largest (negative : Bool) :
    ∃ n rest, Json.readNumber (Binary64.Finite.largest negative).render = .ok (n, rest) := by
  have hread : (Json.readNumber (Binary64.Finite.largest negative).render).isOk = true := by
    cases negative <;> decide +kernel
  cases h : Json.readNumber (Binary64.Finite.largest negative).render with
  | ok r => exact ⟨r.1, r.2, rfl⟩
  | error e =>
    rw [h] at hread
    cases hread

/-- A double is read as a double. -/
theorem Json.exists_readNumber_render (x : Binary64.Finite) :
    ∃ y, ∀ s, Json.Delimited s → Json.readNumber (x.render ++ s) = .ok (.float y, s) := by
  obtain ⟨p, htext, hmarked, hvalue⟩ := x.exists_parts
  obtain ⟨hlt, hle⟩ := p.literal_spec x.negative
  have hnumber := Json.NumberParts.toNumber?_literal hmarked x.negative
  suffices hfinite : ∃ y, (p.literal x.negative).toBinary64 = .finite y by
    obtain ⟨y, hy⟩ := hfinite
    refine ⟨y, fun s hs => ?_⟩
    rw [htext, Json.readNumber_signedText p x.negative hs, hnumber, hy]
    rfl
  by_cases hx : x = Binary64.Finite.largest x.negative
  · obtain ⟨n, rest, hread⟩ := Json.exists_readNumber_largest x.negative
    have happend := Json.readNumber_signedText p x.negative Json.delimited_nil
    rw [List.append_nil, ← htext] at happend
    rw [← hx, happend, hnumber] at hread
    cases hfin : (p.literal x.negative).toBinary64.finite? with
    | none =>
      rw [hfin] at hread
      cases hread
    | some y => exact ⟨y, Binary64.finite?_eq_some_iff.1 hfin⟩
  · have hbound := Binary64.Finite.value_shortest_lt hx
    rw [← hvalue] at hbound
    refine Binary64.exists_shiftTen _ hlt fun k hk => ?_
    rw [hk, zpow_natCast] at hle
    exact_mod_cast (hle.trans hbound.le)

/-- What the reader makes of the text of a number. -/
def Json.Number.reread (n : Json.Number) : Json.Number :=
  match Json.readNumber n.render with
  | .ok (m, _) => m
  | .error _ => n

/-- Every written number is read, and the reader stops at its end. -/
theorem Json.readNumber_render (n : Json.Number) {s : List Char} (hs : Json.Delimited s) :
    Json.readNumber (n.render ++ s) = .ok (n.reread, s) := by
  suffices hread : ∃ m, ∀ s, Json.Delimited s → Json.readNumber (n.render ++ s) = .ok (m, s) by
    obtain ⟨m, hm⟩ := hread
    have hall := hm [] Json.delimited_nil
    rw [List.append_nil] at hall
    rw [hm s hs, Json.Number.reread, hall]
  cases n with
  | int i hi => exact ⟨.int i hi, fun s hs => Json.readNumber_renderInt hi hs⟩
  | float x =>
    obtain ⟨y, hy⟩ := Json.exists_readNumber_render x
    exact ⟨.float y, hy⟩

/-- An integer is read as itself. -/
theorem Json.Number.reread_int (i : Int) (hi : -2 ^ 63 ≤ i ∧ i < 2 ^ 64) :
    (Json.Number.int i hi).reread = .int i hi := by
  have hread := Json.readNumber_render (.int i hi) Json.delimited_nil
  rw [Json.Number.render, Json.readNumber_renderInt hi Json.delimited_nil, Except.ok.injEq,
    Prod.mk.injEq] at hread
  exact hread.1.symm

end FoldedStacks
