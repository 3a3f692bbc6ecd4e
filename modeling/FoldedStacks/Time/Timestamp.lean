-- SUMMARY: The reader of points in time.
import FoldedStacks.Binary64.Rounding
import FoldedStacks.Text.Numeral
import FoldedStacks.Text.Reader
import FoldedStacks.Time.Calendar

/-!
# Timestamps

Points in time in the notations of ISO 8601: a date of the calendar, of the year or of the week,
then `T` and a time of day, then an offset from UTC, which is zero when it is left out. In the
extended notation the parts of a date and of a time are separated, in the basic notation they are
not. The last part of a time may have a decimal fraction.
-/

namespace FoldedStacks

/-- A point in time. -/
structure Timestamp where
  /-- Nanoseconds since 1970 began, in UTC. -/
  unixNanos : Int
  /-- Seconds that the clock of the place is ahead of UTC. -/
  offsetSeconds : Int
  deriving DecidableEq, Repr

/-! ## Signs -/

/-- A sign: whether it is a minus. -/
def Timestamp.sign : Text.Reader Bool := do
  if ← Text.takes '+' then return false
  Text.expect '-'
  return true

def Timestamp.signed (negative : Bool) (n : Nat) : Int :=
  if negative then -(n : Int) else n

/-! ## Dates -/

/-- Whether timestamps may be in a year. -/
def Timestamp.hasYear (year : Int) : Bool :=
  year.natAbs ≤ 9999

/-- A year: four digits, or a sign and six digits. -/
def Timestamp.year : Text.Reader Int := do
  let y ← match ← Text.optional Timestamp.sign with
    | some negative => Timestamp.signed negative <$> Text.fixedDigits 6
    | none => (Nat.cast : Nat → Int) <$> Text.fixedDigits 4
  if Timestamp.hasYear y then return y else failure

/-- The separator between parts, which only the extended notation has. -/
def Timestamp.dash (extended : Bool) : Text.Reader Unit :=
  if extended then Text.expect '-' else pure ()

/-- A month and a day of the month. The day may turn out not to exist. -/
def Timestamp.monthDay (extended : Bool) : Text.Reader (Nat × Nat) := do
  let month ← Text.fixedDigits 2
  if month = 0 ∨ 12 < month then failure
  Timestamp.dash extended
  let day ← Text.fixedDigits 2
  if day = 0 then failure
  return (month, day)

/-- A day of the year. -/
def Timestamp.ordinal : Text.Reader Nat := do
  let n ← Text.fixedDigits 3
  if n = 0 then failure else return n

/-- A week and a day of the week. -/
def Timestamp.week (extended : Bool) : Text.Reader (Nat × Nat) := do
  Text.expect 'W'
  let week ← Text.fixedDigits 2
  Timestamp.dash extended
  return (week, ← Text.fixedDigits 1)

/-- A date, and whether it is in the extended notation. A day of a week may lie behind the year of
    the week, but not behind the last year. -/
def Timestamp.date : Text.Reader (Int × Bool) := do
  let year ← Timestamp.year
  let extended ← Text.takes '-'
  let day? ← match ← Text.optional (Timestamp.monthDay extended) with
    | some (month, day) => pure (Calendar.ofMonthDay? year month day)
    | none => match ← Text.optional Timestamp.ordinal with
      | some n => pure (Calendar.ofOrdinal? year n)
      | none => do
        let (week, weekday) ← Timestamp.week extended
        pure (Calendar.ofWeek? year week weekday)
  match day? with
  | some day => if Timestamp.hasYear (Calendar.yearOf day) then return (day, extended) else failure
  | none => failure

/-! ## Times of day -/

structure Timestamp.Clock where
  hour : Nat
  minute : Nat
  /-- The number 60 stands for a leap second. -/
  second : Nat
  nanosecond : Nat

/-- The digits of a fraction added up from left to right, each divided by its power of ten. -/
def Timestamp.fractionSum (sum divisor : Binary64) : List Nat → Binary64
  | [] => sum
  | d :: ds =>
    let divisor := divisor * .ofNat 10
    Timestamp.fractionSum (sum + .ofNat d / divisor) divisor ds

/-- The fraction with given digits. -/
def Timestamp.fractionOf : List Nat → Binary64
  | [] => .ofNat 0
  | d :: ds => Timestamp.fractionSum (.ofNat d / .ofNat 10) (.ofNat 10) ds

/-- The digits of a fraction behind its point or comma; there must be one. -/
def Timestamp.fraction : Text.Reader Binary64 := do
  return Timestamp.fractionOf ((← Text.someOf Char.isDigit).filterMap Text.digit?)

/-- A part of a time: two digits, then the fraction, if there is one. -/
def Timestamp.part : Text.Reader (Nat × Option Binary64) := do
  let n ← Text.fixedDigits 2
  match ← Text.optional (Text.oneOf fun c => c == '.' || c == ',') with
  | some _ => return (n, some (← Timestamp.fraction))
  | none => return (n, none)

/-- A fraction of a unit as a whole number of smaller units, of which `count` make up the unit. -/
def Timestamp.units (fraction : Binary64) (count : Nat) : Nat :=
  (fraction * .ofNat count).toNatUpTo (2 ^ 32 - 1)

/-- What is left of a fraction of a unit above full multiples of `multiple` smaller units. -/
def Timestamp.unitsModulo (fraction : Binary64) (count multiple : Nat) : Nat :=
  (Binary64.remainder (fraction * .ofNat count) (.ofNat multiple)).toNatUpTo (2 ^ 32 - 1)

def Timestamp.nanosPerSecond : Nat := 10 ^ 9

/-- The time at a fraction of an hour. -/
def Timestamp.atHourFraction (hour : Nat) (f : Binary64) : Timestamp.Clock :=
  { hour
    minute := Timestamp.units f 60
    second := Timestamp.unitsModulo f 3600 60
    nanosecond :=
      Timestamp.unitsModulo f (3600 * Timestamp.nanosPerSecond) Timestamp.nanosPerSecond }

/-- The time at a fraction of a minute. -/
def Timestamp.atMinuteFraction (hour minute : Nat) (f : Binary64) : Timestamp.Clock :=
  { hour
    minute
    second := Timestamp.units f 60
    nanosecond := Timestamp.unitsModulo f (60 * Timestamp.nanosPerSecond) Timestamp.nanosPerSecond }

/-- The time at a fraction of a second, which is rounded to nanoseconds. -/
def Timestamp.atSecondFraction (hour minute second : Nat) (f : Binary64) : Timestamp.Clock :=
  { hour
    minute
    second
    nanosecond := (f * .ofNat Timestamp.nanosPerSecond).roundUpTo (2 ^ 32 - 1) }

/-- The seconds of a time whose hour and minute are read. In the extended notation a colon stands
    before them. -/
def Timestamp.seconds (extended : Bool) (hour minute : Nat) : Text.Reader Timestamp.Clock := do
  if extended then
    if !(← Text.takes ':') then return ⟨hour, minute, 0, 0⟩
    match ← Timestamp.part with
    | (second, some f) => return Timestamp.atSecondFraction hour minute second f
    | (second, none) => return ⟨hour, minute, second, 0⟩
  else
    match ← Text.optional Timestamp.part with
    | some (second, some f) => return Timestamp.atSecondFraction hour minute second f
    | some (second, none) => return ⟨hour, minute, second, 0⟩
    | none => return ⟨hour, minute, 0, 0⟩

/-- A time of day. A fraction ends it. The extended notation needs minutes, and may leave out the
    colon before them. -/
def Timestamp.clock (extended : Bool) : Text.Reader Timestamp.Clock := do
  Text.expect 'T'
  match ← Timestamp.part with
  | (hour, some f) => return Timestamp.atHourFraction hour f
  | (hour, none) =>
    if extended then
      let _ ← Text.takes ':'
    match ← Text.optional Timestamp.part with
    | some (minute, some f) => return Timestamp.atMinuteFraction hour minute f
    | some (minute, none) => Timestamp.seconds extended hour minute
    | none => if extended then failure else return ⟨hour, 0, 0, 0⟩

/-- Whether all parts of a time are in their ranges. -/
def Timestamp.Clock.valid (t : Timestamp.Clock) : Bool :=
  t.hour ≤ 23 && t.minute ≤ 59 && t.second ≤ 60 && t.nanosecond < Timestamp.nanosPerSecond

/-! ## Offsets -/

/-- An offset from UTC, in seconds. -/
def Timestamp.offset (extended : Bool) : Text.Reader Int := do
  if ← Text.takes 'Z' then return 0
  let negative ← Timestamp.sign
  let hours ← Text.fixedDigits 2
  if extended then
    let _ ← Text.takes ':'
  let minutes := (← Text.optional (Text.fixedDigits 2)).getD 0
  if hours ≤ 25 ∧ minutes ≤ 59 then
    return Timestamp.signed negative (3600 * hours + 60 * minutes)
  else failure

/-! ## Whole timestamps -/

/-- Seconds since 1970 began, in UTC. -/
def Timestamp.unixSeconds (day : Int) (t : Timestamp.Clock) (offset : Int) : Int :=
  (day - Calendar.unixEpoch) * 86400 + (3600 * t.hour + 60 * t.minute + t.second : Nat) - offset

/-- Whether a second may be followed by a leap second: it is the last one of a month in UTC. -/
def Timestamp.endsMonth (unixSeconds : Int) : Bool :=
  let day := unixSeconds / 86400 + Calendar.unixEpoch
  unixSeconds % 86400 == 86399 && Calendar.isMonthEnd day && Timestamp.hasYear (Calendar.yearOf day)

/-- The point in time with given parts. A leap second needs an offset and must stand where one can
    be; it is taken for the last nanosecond of the second before it. -/
def Timestamp.ofParts (day : Int) (t : Timestamp.Clock) (offset : Option Int) : Option Timestamp :=
  if !t.valid then none
  else if t.second = 60 then do
    let offset ← offset
    let seconds := Timestamp.unixSeconds day { t with second := 59 } offset
    if Timestamp.endsMonth seconds then
      return ⟨seconds * Timestamp.nanosPerSecond + (Timestamp.nanosPerSecond - 1), offset⟩
    else none
  else
    let offset := offset.getD 0
    some ⟨Timestamp.unixSeconds day t offset * Timestamp.nanosPerSecond + t.nanosecond, offset⟩

/-- Reads a whole text as a timestamp. -/
def Timestamp.parse? (text : String) : Option Timestamp := do
  let ((day, extended), cs) ← Timestamp.date text.toList
  let (t, cs) ← Timestamp.clock extended cs
  match cs with
  | [] => Timestamp.ofParts day t none
  | _ =>
    let (offset, cs) ← Timestamp.offset extended cs
    if cs.isEmpty then Timestamp.ofParts day t (some offset) else none

end FoldedStacks
