-- SUMMARY: Texts stand in the order of their UTF-8 bytes, so the stacks of a table are listed in byte order.
import Mathlib
import FoldedStacks.Stack.Counts

/-!
# Byte order

The keys of a table are compared character by character. UTF-8 is made so that this is the order of
the encoded bytes: of two characters the one with the smaller number has the smaller byte at the
first place where their encodings differ.
-/

namespace FoldedStacks

/-- The bytes of a text in UTF-8. -/
def Text.bytes (s : String) : List UInt8 :=
  s.toUTF8.data.toList

theorem Text.bytes_eq (s : String) : Text.bytes s = s.toList.flatMap String.utf8EncodeChar := by
  rw [Text.bytes, String.toUTF8_eq_toByteArray, ← String.utf8Encode_toList, List.utf8Encode,
    List.toList_data_toByteArray]

/-! ## Characters -/

/-- Written in digits of six bits, a smaller number is smaller at the first digit that differs. -/
private theorem first_digit_lt {m n : Nat} (h : m < n) :
    m / 262144 < n / 262144 ∨ m / 262144 = n / 262144 ∧ m / 4096 % 64 < n / 4096 % 64 ∨
      m / 4096 = n / 4096 ∧ m / 64 % 64 < n / 64 % 64 ∨ m / 64 = n / 64 ∧ m % 64 < n % 64 := by
  omega

/-- The order of two characters is decided within their encodings, whatever stands behind. -/
theorem Text.encoded_lt {c d : Char} (h : c < d) (behind behind' : List UInt8) :
    String.utf8EncodeChar c ++ behind < String.utf8EncodeChar d ++ behind' := by
  have hlt : c.val.toNat < d.val.toNat := h
  have hd : d.val.toNat < 1114112 := by
    rcases d.valid with hlow | ⟨-, hhigh⟩ <;> omega
  have hdigit := first_digit_lt hlt
  unfold String.utf8EncodeChar
  dsimp only
  -- a shorter encoding has a smaller first byte; the bytes of encodings of one length are the digits
  split_ifs <;>
    simp (disch := omega) only [List.cons_append, List.nil_append, List.cons_lt_cons_iff,
      UInt8.lt_iff_toNat_lt, ← UInt8.toNat_inj, UInt8.toNat_ofNat', Nat.mod_eq_of_lt] <;> omega

/-! ## Texts -/

private theorem Text.flatMap_encoded_lt {cs ds : List Char} (h : cs < ds) :
    cs.flatMap String.utf8EncodeChar < ds.flatMap String.utf8EncodeChar := by
  induction h with
  | @nil d ds =>
    obtain ⟨b, bs, hb⟩ := List.exists_cons_of_ne_nil (String.utf8EncodeChar_ne_nil (c := d))
    rw [List.flatMap_nil, List.flatMap_cons, hb]
    exact List.nil_lt_cons _ _
  | rel h => exact Text.encoded_lt h _ _
  | cons _ ih => exact List.append_left_lt ih

theorem Text.lt_iff_bytes_lt (s t : String) : s < t ↔ Text.bytes s < Text.bytes t := by
  have hbytes : ∀ {s t : String}, s < t → Text.bytes s < Text.bytes t := by
    intro s t h
    rw [Text.bytes_eq, Text.bytes_eq]
    exact Text.flatMap_encoded_lt h
  refine ⟨hbytes, fun h => ?_⟩
  rcases lt_trichotomy s t with hst | rfl | hts
  · exact hst
  · exact absurd h (List.lt_irrefl _)
  · exact absurd h (List.lt_asymm (hbytes hts))

/-- The stacks of a table are listed in byte order, each of them once. -/
theorem StackCounts.entries_byteOrder (s : StackCounts) :
    s.entries.Pairwise fun e e' => Text.bytes e.1 < Text.bytes e'.1 :=
  s.ascending.imp fun h => (Text.lt_iff_bytes_lt _ _).1 (compareOfLessAndEq_eq_lt.1 h)

end FoldedStacks
