-- SUMMARY: Decimal numerals: writing one, and reading one up to a limit.
/-!
# Decimal numerals

Unsigned decimal numerals: reading one up to a limit, with the cause when it is refused, and
writing one. A leading plus sign and leading zeros are read; they are never written.
-/

namespace FoldedStacks

/-- Why a text is not a numeral up to the limit. -/
inductive NumeralError where
  | empty
  | badDigit
  | tooLarge
  deriving DecidableEq, Repr

/-- The wording of the cause. -/
def NumeralError.message : NumeralError → String
  | .empty => "cannot parse integer from empty string"
  | .badDigit => "invalid digit found in string"
  | .tooLarge => "number too large to fit in target type"

/-- The value of an ASCII digit. -/
def Text.digit? (c : Char) : Option Nat :=
  if '0' ≤ c ∧ c ≤ '9' then some (c.toNat - '0'.toNat) else none

/-- Reads on from the value `acc` of the digits so far. The first character that is no digit or
    takes the value past `limit` decides the cause. -/
def Text.readDigits (limit : Nat) : Nat → List Char → Except NumeralError Nat
  | acc, [] => .ok acc
  | acc, c :: cs =>
    match Text.digit? c with
    | none => .error .badDigit
    | some d =>
      if 10 * acc + d ≤ limit then Text.readDigits limit (10 * acc + d) cs else .error .tooLarge

/-- Reads a whole text as a numeral of at most `limit`. -/
def Text.readNumeral (limit : Nat) : List Char → Except NumeralError Nat
  | [] => .error .empty
  | ['+'] => .error .badDigit
  | '+' :: cs => Text.readDigits limit 0 cs
  | cs => Text.readDigits limit 0 cs

/-- The digits of a number, most significant first. -/
def Text.numeral (n : Nat) : List Char :=
  Nat.toDigits 10 n

theorem Text.readDigits_le {limit : Nat} {acc n : Nat} {cs : List Char} (hacc : acc ≤ limit)
    (h : Text.readDigits limit acc cs = .ok n) : n ≤ limit := by
  induction cs generalizing acc with
  | nil => simp only [Text.readDigits, Except.ok.injEq] at h; omega
  | cons c cs ih =>
    rw [Text.readDigits] at h
    split at h
    · simp at h
    · split at h
      next hle => exact ih hle h
      · simp at h

/-- What is read stays within the limit. -/
theorem Text.readNumeral_le {limit n : Nat} {cs : List Char}
    (h : Text.readNumeral limit cs = .ok n) : n ≤ limit := by
  unfold Text.readNumeral at h
  split at h
  · simp at h
  · simp at h
  · exact Text.readDigits_le (Nat.zero_le _) h
  · exact Text.readDigits_le (Nat.zero_le _) h

end FoldedStacks
