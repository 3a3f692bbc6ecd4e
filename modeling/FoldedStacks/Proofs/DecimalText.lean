-- SUMMARY: The text of a double determines the double: a reader of decimal texts, and that the writer's layouts keep the value.
import Mathlib
import FoldedStacks.Proofs.DecimalValues
import FoldedStacks.Text.Split

/-!
# Texts of doubles

A decimal is written in one of five layouts. One reader undoes them all: it takes the digits on both
sides of the point together and counts those behind it.
-/

namespace FoldedStacks

/-! ## A reader of decimal texts -/

/-- The exponent behind the `e`. -/
def Decimal.exponentOf : List Char → Int
  | '-' :: ds => -(Nat.ofDigitChars 10 ds 0 : Int)
  | '+' :: ds => Nat.ofDigitChars 10 ds 0
  | ds => Nat.ofDigitChars 10 ds 0

/-- Digits with or without a point, times `10^e`. -/
def Decimal.ofPoint (cs : List Char) (e : Int) : Decimal :=
  match Text.splitFirst '.' cs with
  | some (whole, part) => ⟨Nat.ofDigitChars 10 (whole ++ part) 0, e - part.length⟩
  | none => ⟨Nat.ofDigitChars 10 cs 0, e⟩

/-- The decimal that a text stands for. -/
def Decimal.ofText (cs : List Char) : Decimal :=
  match Text.splitFirst 'e' cs with
  | some (digits, e) => .ofPoint digits (Decimal.exponentOf e)
  | none => .ofPoint cs 0

theorem Decimal.ofPoint_append {whole part : List Char} (e : Int) (h : '.' ∉ whole) :
    Decimal.ofPoint (whole ++ '.' :: part) e =
      ⟨Nat.ofDigitChars 10 (whole ++ part) 0, e - part.length⟩ := by
  simp only [Decimal.ofPoint, Text.splitFirst_eq_some_iff.2 ⟨rfl, h⟩]

theorem Decimal.ofPoint_of_not_mem {cs : List Char} (e : Int) (h : '.' ∉ cs) :
    Decimal.ofPoint cs e = ⟨Nat.ofDigitChars 10 cs 0, e⟩ := by
  simp only [Decimal.ofPoint, Text.splitFirst_eq_none_iff.2 h]

theorem Decimal.ofText_append {digits e : List Char} (h : 'e' ∉ digits) :
    Decimal.ofText (digits ++ 'e' :: e) = .ofPoint digits (Decimal.exponentOf e) := by
  simp only [Decimal.ofText, Text.splitFirst_eq_some_iff.2 ⟨rfl, h⟩]

theorem Decimal.ofText_of_not_mem {cs : List Char} (h : 'e' ∉ cs) :
    Decimal.ofText cs = .ofPoint cs 0 := by
  simp only [Decimal.ofText, Text.splitFirst_eq_none_iff.2 h]

/-! ## The layouts -/

section Layouts

variable {d : Decimal}

theorem Decimal.not_mem_digits {c : Char} {cs : List Char} (hc : c.isDigit = false)
    (h : ∀ x ∈ cs, x.isDigit = true) : c ∉ cs := by
  intro hmem
  rw [h c hmem] at hc
  cases hc

theorem Decimal.not_mem_pointed {whole part : List Char} (hwhole : ∀ x ∈ whole, x.isDigit = true)
    (hpart : ∀ x ∈ part, x.isDigit = true) : 'e' ∉ whole ++ '.' :: part := by
  rw [List.mem_append, List.mem_cons]
  rintro (hin | hin | hin)
  · exact Decimal.not_mem_digits (by decide) hwhole hin
  · exact absurd hin (by decide)
  · exact Decimal.not_mem_digits (by decide) hpart hin

/-- Digits with a point among them are taken together. -/
theorem Decimal.ofText_pointed {whole part : List Char} (hwhole : ∀ x ∈ whole, x.isDigit = true)
    (hpart : ∀ x ∈ part, x.isDigit = true) :
    Decimal.ofText (whole ++ '.' :: part) =
      ⟨Nat.ofDigitChars 10 (whole ++ part) 0, 0 - part.length⟩ := by
  rw [Decimal.ofText_of_not_mem (Decimal.not_mem_pointed hwhole hpart),
    Decimal.ofPoint_append 0 (Decimal.not_mem_digits (by decide) hwhole)]

theorem Text.isDigit_of_mem_zeros {n : Nat} {c : Char} (h : c ∈ List.replicate n '0') :
    c.isDigit = true := by
  rw [List.eq_of_mem_replicate h]
  rfl

/-- An integer: zeros behind the digits, then `.0`. -/
theorem Decimal.value_ofText_integer (h : 0 ≤ d.exponent) :
    (Decimal.ofText (Text.numeral d.digits ++ List.replicate d.exponent.toNat '0' ++
      ['.', '0'])).value = d.value := by
  have hwhole : ∀ x ∈ Text.numeral d.digits ++ List.replicate d.exponent.toNat '0',
      x.isDigit = true := by
    intro x hx
    rcases List.mem_append.1 hx with hx | hx
    · exact Text.isDigit_of_mem_numeral hx
    · exact Text.isDigit_of_mem_zeros hx
  have hpart : ∀ x ∈ ['0'], x.isDigit = true := by
    intro x hx
    exact Text.isDigit_of_mem_zeros (n := 1) hx
  obtain ⟨k, hk⟩ := Int.eq_ofNat_of_zero_le h
  -- the zero behind the point multiplies the digits by ten and takes one off the exponent
  rw [Decimal.ofText_pointed hwhole hpart]
  simp only [hk, Int.toNat_natCast, Nat.ofDigitChars_append, Text.ofDigitChars_numeral,
    Nat.ofDigitChars_replicate_zero, Nat.ofDigitChars_cons, Nat.ofDigitChars_nil, Decimal.value]
  simp
  ring

/-- The point inside the digits. -/
theorem Decimal.value_ofText_point {p : Nat} (hp : (Text.numeral d.digits).length + d.exponent = p)
    (hle : p ≤ (Text.numeral d.digits).length) :
    (Decimal.ofText ((Text.numeral d.digits).take p ++ '.' :: (Text.numeral d.digits).drop p)).value =
      d.value := by
  have htake : ∀ x ∈ (Text.numeral d.digits).take p, x.isDigit = true := by
    intro x hx
    exact Text.isDigit_of_mem_numeral (List.mem_of_mem_take hx)
  have hdrop : ∀ x ∈ (Text.numeral d.digits).drop p, x.isDigit = true := by
    intro x hx
    exact Text.isDigit_of_mem_numeral (List.mem_of_mem_drop hx)
  have hexp : (0 : Int) - ((Text.numeral d.digits).drop p).length = d.exponent := by
    rw [List.length_drop]
    omega
  rw [Decimal.ofText_pointed htake hdrop, hexp, List.take_append_drop, Text.ofDigitChars_numeral]

/-- Zeros between the point and the digits. -/
theorem Decimal.value_ofText_fraction {k : Nat}
    (hk : (Text.numeral d.digits).length + d.exponent = -(k : Int)) :
    (Decimal.ofText (['0', '.'] ++ List.replicate k '0' ++ Text.numeral d.digits)).value =
      d.value := by
  have hpart : ∀ x ∈ List.replicate k '0' ++ Text.numeral d.digits, x.isDigit = true := by
    intro x hx
    rcases List.mem_append.1 hx with hx | hx
    · exact Text.isDigit_of_mem_zeros hx
    · exact Text.isDigit_of_mem_numeral hx
  have hwhole : ∀ x ∈ ['0'], x.isDigit = true := by
    intro x hx
    exact Text.isDigit_of_mem_zeros (n := 1) hx
  have htext : ['0', '.'] ++ List.replicate k '0' ++ Text.numeral d.digits =
      ['0'] ++ '.' :: (List.replicate k '0' ++ Text.numeral d.digits) := by simp
  have hexp : (0 : Int) - (List.replicate k '0' ++ Text.numeral d.digits).length = d.exponent := by
    rw [List.length_append, List.length_replicate]
    omega
  have hvalue : Nat.ofDigitChars 10 (['0'] ++ (List.replicate k '0' ++ Text.numeral d.digits)) 0 =
      d.digits := by
    rw [Nat.ofDigitChars_append, Nat.ofDigitChars_append]
    simp [Nat.ofDigitChars_cons, Text.ofDigitChars_numeral]
  rw [htext, Decimal.ofText_pointed hwhole hpart, hexp, hvalue]

theorem Decimal.exponentOf_signed (e : Int) :
    Decimal.exponentOf ((if e < 0 then ['-'] else ['+']) ++ Text.numeral e.natAbs) = e := by
  split
  · simp only [List.cons_append, List.nil_append, Decimal.exponentOf, Text.ofDigitChars_numeral]
    omega
  · simp only [List.cons_append, List.nil_append, Decimal.exponentOf, Text.ofDigitChars_numeral]
    omega

/-- The leading digit, the others behind the point, and an exponent. -/
theorem Decimal.value_ofText_scientific (e : Int)
    (he : e = (Text.numeral d.digits).length + d.exponent - 1) :
    (Decimal.ofText ((Text.numeral d.digits).take 1 ++
      (if (Text.numeral d.digits).length = 1 then [] else '.' :: (Text.numeral d.digits).drop 1) ++
      'e' :: (if e < 0 then ['-'] else ['+']) ++ Text.numeral e.natAbs)).value = d.value := by
  have htake : ∀ x ∈ (Text.numeral d.digits).take 1, x.isDigit = true := fun x hx =>
    Text.isDigit_of_mem_numeral (List.mem_of_mem_take hx)
  have hdrop : ∀ x ∈ (Text.numeral d.digits).drop 1, x.isDigit = true := fun x hx =>
    Text.isDigit_of_mem_numeral (List.mem_of_mem_drop hx)
  have hlength : 0 < (Text.numeral d.digits).length :=
    List.length_pos_iff.2 (Text.numeral_ne_nil _)
  rw [List.append_assoc, List.cons_append]
  split
  next hone =>
    rw [List.append_nil, Decimal.ofText_append (Decimal.not_mem_digits (by decide) htake),
      Decimal.exponentOf_signed,
      Decimal.ofPoint_of_not_mem _ (Decimal.not_mem_digits (by decide) htake),
      List.take_of_length_le (by omega), Text.ofDigitChars_numeral]
    rw [show e = d.exponent by omega]
  next hmore =>
    have hexp : e - ((Text.numeral d.digits).drop 1).length = d.exponent := by
      rw [List.length_drop]
      omega
    rw [Decimal.ofText_append (Decimal.not_mem_pointed htake hdrop), Decimal.exponentOf_signed,
      Decimal.ofPoint_append _ (Decimal.not_mem_digits (by decide) htake), hexp,
      List.take_append_drop, Text.ofDigitChars_numeral]

/-- Written and read back, a decimal keeps its value. -/
theorem Decimal.value_ofText_render (d : Decimal) : (Decimal.ofText d.render).value = d.value := by
  simp only [Decimal.render]
  split
  next hzero =>
    have htext : Decimal.ofText ['0', '.', '0'] = ⟨0, -1⟩ := by decide
    rw [htext, Decimal.value_eq_zero_iff.2 rfl, Decimal.value_eq_zero_iff.2 hzero]
  split
  next h => exact Decimal.value_ofText_integer h.1
  split
  next hnot h => exact Decimal.value_ofText_point (by omega) (by omega)
  split
  next h => exact Decimal.value_ofText_fraction (by omega)
  next => exact Decimal.value_ofText_scientific _ rfl

end Layouts

/-! ## Doubles -/

/-- A decimal begins with a digit and has a point or an exponent. -/
theorem Decimal.render_head (d : Decimal) : ∃ c cs, d.render = c :: cs ∧ c.isDigit = true := by
  obtain ⟨c, cs, hcs, hc⟩ := Text.exists_numeral_eq_cons d.digits
  simp only [Decimal.render, hcs]
  split
  next => exact ⟨'0', ['.', '0'], rfl, rfl⟩
  split
  next => exact ⟨c, _, rfl, hc⟩
  split
  next hpoint =>
    obtain ⟨p, hp⟩ : ∃ p : Nat, ((c :: cs).length + d.exponent : Int).toNat = p + 1 :=
      ⟨((c :: cs).length + d.exponent : Int).toNat - 1, by omega⟩
    rw [hp, List.take_succ_cons]
    exact ⟨c, _, rfl, hc⟩
  split
  next => exact ⟨'0', _, rfl, rfl⟩
  next => exact ⟨c, _, rfl, hc⟩

theorem Decimal.render_marked (d : Decimal) : '.' ∈ d.render ∨ 'e' ∈ d.render := by
  simp only [Decimal.render]
  split
  next => exact .inl (by simp)
  split
  next => exact .inl (by simp)
  split
  next => exact .inl (by simp)
  split
  next => exact .inl (by simp)
  next => exact .inr (by simp)

/-- The text of a double determines the double. -/
theorem Binary64.Finite.render_injective {x y : Binary64.Finite} (h : x.render = y.render) :
    x = y := by
  -- a minus sign is no digit, so the first characters tell the signs
  have hminus : ∀ d : Decimal, ∀ cs, d.render ≠ '-' :: cs := by
    intro d cs heq
    obtain ⟨c, cs', hcs, hc⟩ := d.render_head
    rw [hcs] at heq
    cases heq
    exact absurd hc (by decide)
  have htexts : x.negative = y.negative ∧
      (x.shortest.stripZeros 400).render = (y.shortest.stripZeros 400).render := by
    simp only [Binary64.Finite.render] at h
    cases hx : x.negative <;> cases hy : y.negative <;> simp only [hx, hy, if_true] at h
    · exact ⟨rfl, h⟩
    · exact absurd h (hminus _ _)
    · exact absurd h.symm (hminus _ _)
    · exact ⟨rfl, (List.cons.inj h).2⟩
  refine Binary64.Finite.eq_of_value_eq htexts.1 ?_
  rw [← Decimal.value_ofText_render, htexts.2, Decimal.value_ofText_render]

end FoldedStacks
