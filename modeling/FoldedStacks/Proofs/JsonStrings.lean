-- SUMMARY: Strings survive writing and reading: the reader takes a written string back, up to its closing quote and no further.
import Mathlib
import FoldedStacks.Json.Printer
import FoldedStacks.Json.Quoted

/-!
# Written strings

What is written for a character is read back as that character, in front of any text. So a written
string tells its characters and where it ends.
-/

namespace FoldedStacks

/-! ## One character -/

/-- The characters that are complete, in front of those that are read later. -/
def Json.readFurther (done : List Char) (later : Except Json.ReadError (List Char × List Char)) :
    Except Json.ReadError (List Char × List Char) :=
  later.map fun r => (done ++ r.1, r.2)

@[simp] theorem Json.readFurther_ok (done later rest : List Char) :
    Json.readFurther done (.ok (later, rest)) = .ok (done ++ later, rest) := rfl

theorem Json.readFurther_nil (later : Except Json.ReadError (List Char × List Char)) :
    Json.readFurther [] later = later := by
  cases later <;> rfl

/-- A character inside a string is read, and the rest of the string behind it. -/
theorem Json.readStringFrom_step {skipping : Bool} {state state' : Json.StringState} {c : Char}
    {rest done : List Char} (hquote : state = .plain → c ≠ '\"')
    (h : Json.stringStep skipping c rest state = .ok (done, state')) :
    Json.readStringFrom skipping state (c :: rest) =
      Json.readFurther done (Json.readStringFrom skipping state' rest) := by
  rw [Json.readStringFrom]
  · simp only [h]
    cases Json.readStringFrom skipping state' rest <;> rfl
  · exact fun hstate hc => hquote hstate hc

theorem Json.unescape?_of_shortEscape? {c e : Char} (h : Json.shortEscape? c = some e) :
    Json.unescape? e = some c := by
  unfold Json.shortEscape? at h
  split_ifs at h <;> cases h <;> subst_vars <;> rfl

theorem Json.hexDigit?_digitChar {n : Nat} (h : n < 16) :
    Json.hexDigit? (Nat.digitChar n) = some n := by
  have hall : ∀ k < 16, Json.hexDigit? (Nat.digitChar k) = some k := by decide
  exact hall n h

theorem Json.roomForUnit_of_ascii {a b c d : Char} (ha : a.utf8Size = 1) (hb : b.utf8Size = 1)
    (hc : c.utf8Size = 1) (hd : d.utf8Size = 1) (rest : List Char) :
    Json.roomForUnit (a :: b :: c :: d :: rest) = true := by
  simp [Json.roomForUnit, ha, hb, hc, hd]

theorem Json.utf8Size_digitChar {n : Nat} (h : n < 16) : (Nat.digitChar n).utf8Size = 1 := by
  have hall : ∀ k < 16, (Nat.digitChar k).utf8Size = 1 := by decide
  exact hall n h

/-- A control character is read from its four hexadecimal digits. -/
theorem Json.readStringFrom_control {c : Char} (hc : c.toNat < 0x20) (rest : List Char) :
    Json.readStringFrom false .plain
      ('\\' :: 'u' :: '0' :: '0' :: Nat.digitChar (c.toNat / 16) ::
        Nat.digitChar (c.toNat % 16) :: rest) =
      Json.readFurther [c] (Json.readStringFrom false .plain rest) := by
  have hroom := Json.roomForUnit_of_ascii (a := '0') (b := '0') rfl rfl
    (Json.utf8Size_digitChar (n := c.toNat / 16) (by omega))
    (Json.utf8Size_digitChar (n := c.toNat % 16) (by omega)) rest
  have hunit : 16 * (c.toNat / 16) + c.toNat % 16 = c.toNat := by omega
  have hread : Json.unitRead false c.toNat none = .ok ([c], .plain) := by
    have hlow : Json.isLowSurrogate c.toNat = false := by
      simp only [Json.isLowSurrogate, Bool.and_eq_false_iff, decide_eq_false_iff_not]
      omega
    have hhigh : Json.isHighSurrogate c.toNat = false := by
      simp only [Json.isHighSurrogate, Bool.and_eq_false_iff, decide_eq_false_iff_not]
      omega
    simp [Json.unitRead, hlow, hhigh]
  have hu : Json.stringStep false 'u' ('0' :: '0' :: Nat.digitChar (c.toNat / 16) ::
      Nat.digitChar (c.toNat % 16) :: rest) .escape = .ok ([], .hex 3 0 none) := by
    simp [Json.stringStep, hroom]
  have hfirst : Json.stringStep false (Nat.digitChar (c.toNat / 16))
      (Nat.digitChar (c.toNat % 16) :: rest) (.hex 1 0 none) =
        .ok ([], .hex 0 (c.toNat / 16) none) := by
    simp [Json.stringStep, Json.hexDigit?_digitChar (n := c.toNat / 16) (by omega)]
  have hsecond : Json.stringStep false (Nat.digitChar (c.toNat % 16)) rest
      (.hex 0 (c.toNat / 16) none) = .ok ([c], .plain) := by
    simp [Json.stringStep, Json.hexDigit?_digitChar (n := c.toNat % 16) (by omega), hunit, hread]
  have hzero : ∀ left behind, Json.stringStep false '0' behind (.hex (left + 1) 0 none) =
      .ok ([], .hex left 0 none) := fun _ _ => rfl
  -- the backslash, the `u` and the two zeros complete no character
  rw [Json.readStringFrom_step (fun _ => by decide) (by rfl), Json.readFurther_nil,
    Json.readStringFrom_step (fun h => by cases h) hu, Json.readFurther_nil,
    Json.readStringFrom_step (fun h => by cases h) (hzero 2 _), Json.readFurther_nil,
    Json.readStringFrom_step (fun h => by cases h) (hzero 1 _), Json.readFurther_nil,
    Json.readStringFrom_step (fun h => by cases h) hfirst, Json.readFurther_nil,
    Json.readStringFrom_step (fun h => by cases h) hsecond]

/-- What is written for a character is read as that character. -/
theorem Json.readStringFrom_renderChar (c : Char) (rest : List Char) :
    Json.readStringFrom false .plain (Json.renderChar c ++ rest) =
      Json.readFurther [c] (Json.readStringFrom false .plain rest) := by
  rw [Json.renderChar]
  split
  next e he =>
    have hread := Json.unescape?_of_shortEscape? he
    have hne : e ≠ 'u' := by
      rintro rfl
      cases hread
    have hescape : Json.stringStep false e rest .escape = .ok ([c], .plain) := by
      simp only [Json.stringStep, if_neg hne, hread]
    rw [List.cons_append, List.cons_append, List.nil_append,
      Json.readStringFrom_step (fun _ => by decide) (by rfl), Json.readFurther_nil,
      Json.readStringFrom_step (fun h => by cases h) hescape]
  next hnone =>
    have hquote : c ≠ '\"' := by rintro rfl; cases hnone
    have hbackslash : c ≠ '\\' := by rintro rfl; cases hnone
    split
    next hc => exact Json.readStringFrom_control hc rest
    next hc =>
      have hplain : Json.stringStep false c rest .plain = .ok ([c], .plain) := by
        simp only [Json.stringStep, if_neg hbackslash, if_neg hc]
      rw [List.singleton_append, Json.readStringFrom_step (fun _ => hquote) hplain]

/-! ## Whole strings -/

theorem Json.readStringFrom_chars (cs rest : List Char) :
    Json.readStringFrom false .plain (cs.flatMap Json.renderChar ++ '\"' :: rest) =
      .ok (cs, rest) := by
  induction cs with
  | nil => rfl
  | cons c cs ih =>
    rw [List.flatMap_cons, List.append_assoc, Json.readStringFrom_renderChar, ih,
      Json.readFurther_ok, List.singleton_append]

/-- A written string is read back, whatever stands behind it. -/
theorem Json.readString_renderString (s : String) (rest : List Char) :
    Json.readString (Json.renderString s ++ rest) = .ok (s, rest) := by
  have hbody : (Json.renderString s ++ rest).tail =
      s.toList.flatMap Json.renderChar ++ '\"' :: rest := by
    simp [Json.renderString]
  rw [Json.readString, Json.Reader.bind_apply, Json.advance]
  simp only [Json.Reader.bind_apply, hbody, Json.readStringFrom_chars, Json.Reader.pure_apply,
    String.ofList_toList]

/-- A written string tells its characters and where it ends. -/
theorem Json.renderString_append_inj {a b : String} {s t : List Char}
    (h : Json.renderString a ++ s = Json.renderString b ++ t) : a = b ∧ s = t := by
  have hread := Json.readString_renderString a s
  rw [h, Json.readString_renderString, Except.ok.injEq, Prod.mk.injEq] at hread
  exact ⟨hread.1.symm, hread.2.symm⟩

end FoldedStacks
