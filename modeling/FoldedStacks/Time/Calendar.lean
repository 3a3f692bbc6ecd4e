-- SUMMARY: The calendar: days, years and weeks.
/-!
# The calendar

Days of the proleptic Gregorian calendar, counted from 1 January of year 1. Years run on below
year 1 with 0 and negative numbers.
-/

namespace FoldedStacks

def Calendar.isLeap (year : Int) : Bool :=
  year % 4 == 0 && (year % 100 != 0 || year % 400 == 0)

def Calendar.yearLength (year : Int) : Nat :=
  if Calendar.isLeap year then 366 else 365

/-- The number of days before 1 January of a year. -/
def Calendar.yearStart (year : Int) : Int :=
  let y := year - 1
  365 * y + y / 4 - y / 100 + y / 400

/-- The year of a day. -/
def Calendar.yearOf (day : Int) : Int :=
  let guess := 400 * day / 146097 + 1
  if Calendar.yearStart (guess + 1) ≤ day then guess + 1
  else if day < Calendar.yearStart guess then guess - 1
  else guess

/-- 1 January 1970. -/
def Calendar.unixEpoch : Int :=
  Calendar.yearStart 1970

/-- The lengths of the months of a year. -/
def Calendar.monthLengths (year : Int) : List Nat :=
  [31, if Calendar.isLeap year then 29 else 28, 31, 30, 31, 30, 31, 31, 30, 31, 30, 31]

/-- The number of days in the first months of a year. -/
def Calendar.daysInMonths (year : Int) (months : Nat) : Nat :=
  ((Calendar.monthLengths year).take months).foldl (· + ·) 0

/-- The number of days in a year up to and including each of its months. -/
def Calendar.monthEnds (year : Int) : List Nat :=
  (List.range 12).map fun i => Calendar.daysInMonths year (i + 1)

/-- Whether a day is the last one of its month. -/
def Calendar.isMonthEnd (day : Int) : Bool :=
  let year := Calendar.yearOf day
  (Calendar.monthEnds year).any fun (n : Nat) => day + 1 - Calendar.yearStart year == (n : Int)

/-- A day by its month and its number in the month, both counted from 1. -/
def Calendar.ofMonthDay? (year : Int) (month day : Nat) : Option Int :=
  match month with
  | 0 => none
  | m + 1 =>
    match (Calendar.monthLengths year)[m]? with
    | none => none
    | some length =>
      if 1 ≤ day ∧ day ≤ length then
        some (Calendar.yearStart year + Calendar.daysInMonths year m + day - 1)
      else none

/-- A day by its number in the year, counted from 1. -/
def Calendar.ofOrdinal? (year : Int) (ordinal : Nat) : Option Int :=
  if 1 ≤ ordinal ∧ ordinal ≤ Calendar.yearLength year then
    some (Calendar.yearStart year + ordinal - 1)
  else none

/-- The number of a day in its week, counted from 0 on Monday. -/
def Calendar.weekday (day : Int) : Int :=
  day % 7

/-- The Monday of the first week of a year, which is the week of 4 January. -/
def Calendar.firstMonday (year : Int) : Int :=
  let day := Calendar.yearStart year + 3
  day - Calendar.weekday day

/-- A day by its week and its number in the week, both counted from 1. -/
def Calendar.ofWeek? (year : Int) (week weekday : Nat) : Option Int :=
  let monday := Calendar.firstMonday year + 7 * (week - 1 : Int)
  if 1 ≤ week ∧ monday < Calendar.firstMonday (year + 1) ∧ 1 ≤ weekday ∧ weekday ≤ 7 then
    some (monday + weekday - 1)
  else none

end FoldedStacks
