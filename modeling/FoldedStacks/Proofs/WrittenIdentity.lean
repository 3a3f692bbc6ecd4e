-- SUMMARY: Identity texts are written into a buffer piece by piece: what is written does not depend on the buffer, tells the document, and ends where it ends.
import Mathlib
import FoldedStacks.Proofs.DocumentEquality
import FoldedStacks.Proofs.DoubleScaling

/-!
# Writing identity texts

The identity text of a document is written by going through it once, each piece at the end of one
buffer. Numbers are looked at as integers of 64 bits first, and as doubles only if they are neither.
What is put behind the buffer is the identity text as it is defined, and that text is faithful: it
tells the document, also where more text follows that cannot belong to it.
-/

namespace FoldedStacks

/-! ## Numbers -/

/-- The number as a signed integer of 64 bits. -/
def Json.Number.signed? : Json.Number → Option Int
  | .int i _ => if i < 2 ^ 63 then some i else none
  | .float _ => none

/-- The number as an unsigned integer of 64 bits. -/
def Json.Number.unsigned? : Json.Number → Option Int
  | .int i _ => if 0 ≤ i then some i else none
  | .float _ => none

/-- The number as a double. -/
def Json.Number.double : Json.Number → Binary64
  | .int i _ => .nearestRat (decide (i < 0)) i
  | .float x => .finite x

def Binary64.abs : Binary64 → Binary64
  | .nan => .nan
  | .infinite _ => .infinite false
  | .finite x => .finite { x with negative := false }

/-- The integer part of a double as a signed integer of 64 bits: the nearest one where there is
    none, and zero for NaN. -/
def Binary64.toSigned : Binary64 → Int
  | .nan => 0
  | .infinite negative => if negative then -2 ^ 63 else 2 ^ 63 - 1
  | .finite x => max (-2 ^ 63) (min (Binary64.truncated x.toRat) (2 ^ 63 - 1))

/-- Whether a double is an integer below the limit, tested in doubles. -/
def Binary64.limited (x : Binary64) : Bool :=
  x.fract.isZero && x.abs.below (.ofNat Json.Number.integerLimit.toNat)

/-- The text of a number in an identity text, by the first form that it has. -/
def Json.Number.identityInDoubles (n : Json.Number) : List Char :=
  match n.signed?, n.unsigned? with
  | some i, _ => Json.renderInt i
  | none, some i => Json.renderInt i
  | none, none => if n.double.limited then Json.renderInt n.double.toSigned else n.render

theorem Binary64.Finite.isZero_iff {x : Binary64.Finite} :
    (Binary64.finite x).isZero = true ↔ x.toRat = 0 := by
  rw [Binary64.isZero, beq_iff_eq, ← Binary64.Finite.magnitude_eq_zero_iff, ← x.abs_toRat,
    abs_eq_zero]

theorem Binary64.Finite.toRat_abs (x : Binary64.Finite) :
    Binary64.Finite.toRat { x with negative := false } = |x.toRat| := by
  rw [Binary64.Finite.toRat_of_not_negative rfl, x.abs_toRat]
  rfl

/-- The limit is a double. -/
theorem Binary64.exists_integerLimit :
    ∃ y, Binary64.ofNat Json.Number.integerLimit.toNat = .finite y ∧
      y.toRat = Json.Number.integerLimit := by
  refine ⟨⟨false, 8984375000000000, 10, by decide⟩, by decide +kernel, by decide +kernel⟩

/-- The doubles that pass the test are the integers below the limit. -/
theorem Binary64.Finite.limited_iff {x : Binary64.Finite} :
    (Binary64.finite x).limited = true ↔ ∃ i, (Json.Number.float x).Spells i := by
  obtain ⟨f, hf, hfvalue⟩ := Binary64.exists_fract x
  obtain ⟨limit, hlimit, hlimitValue⟩ := Binary64.exists_integerLimit
  have hbelow : ∀ i : ℤ, x.toRat = i →
      ((Binary64.finite x).abs.below (.finite limit) = true ↔ Json.Number.Limited i) := by
    intro i hi
    rw [Binary64.abs, Binary64.below, decide_eq_true_eq, x.toRat_abs, hlimitValue, hi,
      Json.Number.Limited, Int.natCast_natAbs]
    exact_mod_cast Iff.rfl
  rw [Binary64.limited, hf, hlimit, Bool.and_eq_true, Binary64.Finite.isZero_iff, hfvalue,
    sub_eq_zero]
  constructor
  · rintro ⟨hi, hlt⟩
    exact ⟨_, hi, (hbelow _ hi).1 hlt⟩
  · rintro ⟨i, hi, hlt⟩
    exact ⟨by rw [hi, Binary64.truncated_intCast], (hbelow i hi).2 hlt⟩

/-- Below the limit an integer has 64 bits. -/
theorem Binary64.Finite.toSigned_of_spells {x : Binary64.Finite} {i : Int}
    (h : (Json.Number.float x).Spells i) : (Binary64.finite x).toSigned = i := by
  obtain ⟨hi, hrange⟩ := h
  have hlimit : Json.Number.integerLimit = 9200000000000000000 := rfl
  rw [Json.Number.Limited, hlimit] at hrange
  rw [Binary64.toSigned, hi, Binary64.truncated_intCast]
  omega

/-- The first form that a number has gives its identity text. -/
theorem Json.Number.identityInDoubles_eq (n : Json.Number) : n.identityInDoubles = n.identity := by
  cases n with
  | int i hi =>
    by_cases hsigned : i < 2 ^ 63
    · simp only [Json.Number.identityInDoubles, Json.Number.signed?, if_pos hsigned,
        Json.Number.identity]
    · have hunsigned : 0 ≤ i := by omega
      simp only [Json.Number.identityInDoubles, Json.Number.signed?, Json.Number.unsigned?,
        if_neg hsigned, if_pos hunsigned, Json.Number.identity]
  | float x =>
    have htext : (Json.Number.float x).identityInDoubles =
        if (Json.Number.float x).double.limited then
          Json.renderInt (Json.Number.float x).double.toSigned
        else (Json.Number.float x).render := rfl
    rw [htext, Json.Number.identity_eq]
    by_cases hlimited : (Json.Number.float x).double.limited = true
    case pos =>
      obtain ⟨i, hi⟩ := Binary64.Finite.limited_iff.1 hlimited
      obtain ⟨_, hnormal⟩ := Json.Number.normal_eq_int_iff.2 hi
      have hsigned : (Json.Number.float x).double.toSigned = i :=
        Binary64.Finite.toSigned_of_spells hi
      rw [if_pos hlimited, hsigned, hnormal, Json.Number.render]
    case neg =>
      have hspells : ¬ ∃ i, (Json.Number.float x).Spells i := fun h =>
        hlimited (Binary64.Finite.limited_iff.2 h)
      rw [if_neg hlimited, (Json.Number.float x).normal_cases.resolve_left hspells]

/-! ## The writer -/

/-- Puts a comma in front of all elements but the first one. -/
def Json.writeComma (index : Nat) (out : String) : String :=
  if 0 < index then out.push ',' else out

mutual

/-- Writes the identity text of a value at the end of a buffer. -/
def Json.writeIdentity : Json → String → String
  | .num n, out => out ++ String.ofList n.identityInDoubles
  | .arr items, out => (Json.writeItems items 0 (out.push '[')).push ']'
  | .obj members, out => (Json.writeMembers members 0 (out.push '\x7b')).push '\x7d'
  | v, out => out ++ String.ofList v.render

def Json.writeItems : List Json → Nat → String → String
  | [], _, out => out
  | v :: rest, i, out => Json.writeItems rest (i + 1) (v.writeIdentity (Json.writeComma i out))

def Json.writeMembers : List (String × Json) → Nat → String → String
  | [], _, out => out
  | (k, v) :: rest, i, out =>
    let key := (Json.writeComma i out ++ String.ofList (Json.renderString k)).push ':'
    Json.writeMembers rest (i + 1) (v.writeIdentity key)

end

/-- The texts from an element on, as they stand behind the elements before it. -/
def Json.textsFrom (index : Nat) (texts : List (List Char)) : List Char :=
  if 0 < index then Json.continued texts else Json.commaSeparated texts

theorem Json.textsFrom_nil (i : Nat) : Json.textsFrom i [] = [] := by
  rw [Json.textsFrom]
  split <;> rfl

/-- The comma belongs to the element behind it. -/
theorem Json.toList_writeComma_append (i : Nat) (out : String) (t : List Char)
    (ts : List (List Char)) :
    (Json.writeComma i out).toList ++ t ++ Json.textsFrom (i + 1) ts =
      out.toList ++ Json.textsFrom i (t :: ts) := by
  rw [Json.writeComma, Json.textsFrom, Json.textsFrom, if_pos i.succ_pos]
  by_cases hi : 0 < i
  · rw [if_pos hi, if_pos hi, String.toList_push, Json.continued]
    simp only [List.append_assoc, List.cons_append, List.nil_append]
  · rw [if_neg hi, if_neg hi, Json.commaSeparated_cons, List.append_assoc]

mutual

/-- What the writer puts behind the buffer is the identity text. -/
theorem Json.toList_writeIdentity : ∀ (v : Json) (out : String),
    (v.writeIdentity out).toList = out.toList ++ v.identity
  | .null, out | .bool _, out | .str _, out => by
    simp only [Json.writeIdentity, Json.identity, String.toList_append, String.toList_ofList]
  | .num n, out => by
    simp only [Json.writeIdentity, Json.identity, String.toList_append, String.toList_ofList,
      Json.Number.identityInDoubles_eq]
  | .arr items, out => by
    simp only [Json.writeIdentity, Json.identity, Json.bracketed, String.toList_push,
      Json.toList_writeItems items, Json.textsFrom, lt_irrefl, if_false, List.append_assoc,
      List.cons_append, List.nil_append]
  | .obj members, out => by
    simp only [Json.writeIdentity, Json.identity, Json.braced, String.toList_push,
      Json.toList_writeMembers members, Json.textsFrom, lt_irrefl, if_false, List.append_assoc,
      List.cons_append, List.nil_append]

theorem Json.toList_writeItems : ∀ (items : List Json) (i : Nat) (out : String),
    (Json.writeItems items i out).toList =
      out.toList ++ Json.textsFrom i (Json.identityItems items)
  | [], i, out => by
    rw [Json.writeItems, Json.identityItems, Json.textsFrom_nil, List.append_nil]
  | v :: rest, i, out => by
    rw [Json.writeItems, Json.toList_writeItems rest, Json.toList_writeIdentity v,
      Json.toList_writeComma_append, Json.identityItems]

theorem Json.toList_writeMembers : ∀ (members : List (String × Json)) (i : Nat) (out : String),
    (Json.writeMembers members i out).toList =
      out.toList ++ Json.textsFrom i (Json.identityMembers members)
  | [], i, out => by
    rw [Json.writeMembers, Json.identityMembers, Json.textsFrom_nil, List.append_nil]
  | (k, v) :: rest, i, out => by
    rw [Json.writeMembers, Json.toList_writeMembers rest, Json.toList_writeIdentity v,
      Json.identityMembers, ← Json.toList_writeComma_append]
    simp only [String.toList_push, String.toList_append, String.toList_ofList, Json.renderMember,
      List.append_assoc, List.cons_append, List.nil_append]

end

/-! ## Documents -/

/-- Writes what a document is looked up by at the end of a buffer. -/
def Document.writeIdentity (d : Document) (out : String) : String :=
  d.value.writeIdentity out

theorem Document.writeIdentity_eq (d : Document) (out : String) :
    d.writeIdentity out = out ++ MetadataTable.key d := by
  rw [← String.toList_inj, Document.writeIdentity, Json.toList_writeIdentity, String.toList_append,
    MetadataTable.key, String.toList_ofList, Document.identity]

/-- The identity text that the document of a value is given. -/
def Json.writtenIdentity (v : Json) : String :=
  (Document.ofJson v).writeIdentity ""

theorem Json.toList_writtenIdentity (v : Json) : v.writtenIdentity.toList = v.content.render := by
  rw [Json.writtenIdentity, Document.writeIdentity, Json.toList_writeIdentity, Json.identity_eq]
  rfl

theorem Json.kind_content (v : Json) : v.content.kind = v.kind := by
  cases v with
  | bool b => cases b <;> rfl
  | _ => rfl

/-- Written identity texts are faithful and end where they end. For all values: what is put behind
    a buffer is what is written into an empty one; two texts are equal exactly if the values are
    alike, in any order of the members of objects and any spelling of an integer below the limit; a
    string has the text of no value but itself; and texts in front of other texts tell the value
    and what stands behind it. Only behind a number it matters what that is. -/
theorem Document.writeIdentity_faithful (v w : Json) :
    (∀ out, (Document.ofJson v).writeIdentity out = out ++ v.writtenIdentity) ∧
      (v.writtenIdentity = w.writtenIdentity ↔ Json.Alike Json.Number.Same v w) ∧
      (∀ c, (Json.str c).writtenIdentity = w.writtenIdentity ↔ w = .str c) ∧
      ∀ s t : String,
        (v.kind = .number → Json.Breaks s.toList ∧ Json.Breaks t.toList) →
          (v.writtenIdentity ++ s = w.writtenIdentity ++ t ↔
            Json.Alike Json.Number.Same v w ∧ s = t) := by
  have htext : ∀ v w : Json, v.writtenIdentity = w.writtenIdentity ↔
      Json.Alike Json.Number.Same v w := by
    intro v w
    rw [← String.toList_inj, Json.toList_writtenIdentity, Json.toList_writtenIdentity,
      ← Json.content_eq_iff]
    exact ⟨Json.render_injective, congrArg Json.render⟩
  refine ⟨?buffer, htext v w, ?strings, ?behind⟩
  case buffer =>
    intro out
    rw [Json.writtenIdentity, Document.writeIdentity_eq, Document.writeIdentity_eq,
      String.empty_append]
  case strings =>
    intro c
    rw [htext]
    constructor
    · intro h
      cases h
      rfl
    · rintro rfl
      exact .str c
  case behind =>
    intro s t hbreaks
    rw [← v.kind_content] at hbreaks
    constructor
    · intro h
      rw [← String.toList_inj, String.toList_append, String.toList_append,
        Json.toList_writtenIdentity, Json.toList_writtenIdentity] at h
      obtain ⟨hcontent, hst⟩ := Json.render_append_inj hbreaks h
      exact ⟨Json.content_eq_iff.1 hcontent, String.toList_inj.1 hst⟩
    · rintro ⟨halike, rfl⟩
      rw [(htext v w).2 halike]

/-- The number 2 is one number in both spellings, in front of a colon too, and `3 * 2^62` is not; quotes
    and commas in a string make no second string. -/
theorem Document.writeIdentity_faithful_two :
    let two := Json.num (.int 2 (by decide))
    let double := Json.num (.float ⟨false, 2 ^ 52, -51, by decide⟩)
    two.writtenIdentity ++ ":" = double.writtenIdentity ++ ":" ∧
      (Json.num (.int (3 * 2 ^ 62) (by decide))).writtenIdentity ≠
        (Json.num (.float ⟨false, 3 * 2 ^ 51, 11, by decide⟩)).writtenIdentity ∧
      (Json.arr [.str "a\",\"b"]).writtenIdentity ≠
        (Json.arr [.str "a", .str "b"]).writtenIdentity := by
  intro two double
  refine ⟨?spellings, ?limit, ?quotes⟩
  case spellings =>
    have hcolon : Json.Breaks ":".toList := by
      intro c hc
      cases hc
      rfl
    have hsame : Json.Alike Json.Number.Same two double :=
      .num (.inr ⟨2, rfl, by decide +kernel, by decide⟩)
    exact ((Document.writeIdentity_faithful two double).2.2.2 ":" ":"
      fun _ => ⟨hcolon, hcolon⟩).2 ⟨hsame, rfl⟩
  case limit =>
    intro h
    cases (Document.writeIdentity_faithful _ _).2.1.1 h with
    | num hsame =>
      rcases hsame with heq | ⟨i, rfl, -, hlimited⟩
      · cases heq
      · exact absurd hlimited (by decide)
  case quotes =>
    intro h
    cases (Document.writeIdentity_faithful _ _).2.1.1 h with
    | arr hitems =>
      cases hitems with
      | cons _ hrest => cases hrest

end FoldedStacks
