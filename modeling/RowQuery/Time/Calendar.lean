/-!
# The calendar

Days are numbered from the first of January of the year one, a Monday, in the
Gregorian calendar extended to all years. A day is found from its month and
day, from its place in the year, or from its week; `Calendar.monthDay` goes
back from a day number to year, month and day.

Only years within `Calendar.yearLimit` of the year zero have days.
-/

namespace RowQuery

namespace Calendar

/-- Years with a larger magnitude are refused. -/
def yearLimit : Nat := 9999

def isLeap (year : Int) : Bool :=
  year % 4 == 0 && (year % 100 != 0 || year % 400 == 0)

def daysInYear (year : Int) : Nat := if isLeap year then 366 else 365

def monthLengths (year : Int) : List Nat :=
  [31, if isLeap year then 29 else 28, 31, 30, 31, 30, 31, 31, 30, 31, 30, 31]

/-- The number of days of one month, counted from one. -/
def daysInMonth (year : Int) (month : Nat) : Nat :=
  ((monthLengths year)[month - 1]?).getD 0

def daysBeforeMonth (year : Int) (month : Nat) : Nat :=
  ((monthLengths year).take (month - 1)).foldl (· + ·) 0

/-- The number of the first day of a year. -/
def yearStart (year : Int) : Int :=
  let past := year - 1
  365 * past + past / 4 - past / 100 + past / 400

/-- The number of the first of January 1970. -/
def epochDay : Int := 719162

/-- The weekday of a day, Monday being zero. -/
def weekday (day : Int) : Int := day % 7

def yearInRange (year : Int) : Bool := year.natAbs ≤ yearLimit

/-- The day with a month and a day of the month, both counted from one. -/
def ofMonthDay? (year : Int) (month day : Nat) : Option Int :=
  if yearInRange year ∧ 1 ≤ month ∧ month ≤ 12 ∧ 1 ≤ day ∧ day ≤ daysInMonth year month then
    some (yearStart year + daysBeforeMonth year month + (day - 1 : Nat))
  else none

/-- The day with a place in its year, counted from one. -/
def ofOrdinal? (year : Int) (ordinal : Nat) : Option Int :=
  if yearInRange year ∧ 1 ≤ ordinal ∧ ordinal ≤ daysInYear year then
    some (yearStart year + (ordinal - 1 : Nat))
  else none

/-- The Monday of the first week of a year: the week of the fourth of
January. -/
def firstMonday (year : Int) : Int :=
  let fourth := yearStart year + 3
  fourth - weekday fourth

def weeksInYear (year : Int) : Nat :=
  ((firstMonday (year + 1) - firstMonday year) / 7).toNat

/-- The year, the place in it counted from zero, of a day. Cycles of 400, 100
and 4 years and of one year are taken off in turn; the last day of a long cycle
belongs to its last part. -/
def yearDay (day : Int) : Int × Nat :=
  let cycles400 := day / 146097
  let rest := (day % 146097).toNat
  let cycles100 := min (rest / 36524) 3
  let rest := rest - cycles100 * 36524
  let cycles4 := rest / 1461
  let rest := rest % 1461
  let years := min (rest / 365) 3
  (cycles400 * 400 + (cycles100 * 100 + cycles4 * 4 + years : Nat) + 1, rest - years * 365)

/-- Finds the month that holds a place in the year, given the lengths of the
months from `month` on. -/
def findMonth (month : Nat) : (lengths : List Nat) → (rest : Nat) → Nat × Nat
  | [], rest => (month, rest + 1)
  | length :: lengths, rest =>
      if rest < length then (month, rest + 1) else findMonth (month + 1) lengths (rest - length)

def monthDay (day : Int) : Int × Nat × Nat :=
  let (year, place) := yearDay day
  (year, findMonth 1 (monthLengths year) place)

/-- The day of a weekday of a week, both counted from one. -/
def ofWeek? (year : Int) (week weekday : Nat) : Option Int :=
  if yearInRange year ∧ 1 ≤ week ∧ week ≤ weeksInYear year ∧ 1 ≤ weekday ∧ weekday ≤ 7 then
    let day := firstMonday year + (7 * (week - 1) + (weekday - 1) : Nat)
    if yearInRange (yearDay day).1 then some day else none
  else none

end Calendar

end RowQuery
