import RowQuery.Number.Double
import RowQuery.Time.Instant

/-!
# Reading instants

`Instant.parse?` tries four readings of a whole text and takes the first that
succeeds:

1. the internet form, a date, any one ASCII character, a time and an offset;
2. the standard form with a date, a time and an offset;
3. the standard form with a date and a time, read as UTC whatever offset
   follows;
4. the standard form with a date, which stands for midnight UTC whatever time
   and offset follow.

The standard form has dates by month, by day of the year and by week, an
extended variant with separators and a basic one without, and a fraction on the
last part of the time. Second 60 is accepted by the first two readings at the
end of a month in UTC, in a year that the calendar has, and stands for the last
nanosecond before it.
-/

namespace RowQuery

namespace Instant

/-! ## Digits -/

def digits? (count : Nat) (cs : List Char) : Option (Nat × List Char) :=
  if cs.length < count then none
  else (readNat? (cs.take count)).map (·, cs.drop count)

def ranged? (count low high : Nat) (cs : List Char) : Option (Nat × List Char) :=
  match digits? count cs with
  | some (n, rest) => if low ≤ n ∧ n ≤ high then some (n, rest) else none
  | none => none

def char? (c : Char) : List Char → Option (List Char)
  | d :: rest => if c = d then some rest else none
  | [] => none

/-- Reads a sign; true for minus. -/
def sign? : List Char → Option (Bool × List Char)
  | '+' :: rest => some (false, rest)
  | '-' :: rest => some (true, rest)
  | _ => none

/-! ## The time of day -/

/-- A time of day as written; the second may be 60. -/
structure TimeOfDay where
  hour : Nat
  minute : Nat
  second : Nat
  nanos : Nat
deriving Repr, DecidableEq

def TimeOfDay.of? (hour minute second nanos : Nat) : Option TimeOfDay :=
  if hour ≤ 23 ∧ minute ≤ 59 ∧ second ≤ 60 ∧ nanos < nanosPerSecond then
    some { hour, minute, second, nanos }
  else none

def TimeOfDay.seconds (t : TimeOfDay) : Nat := (t.hour * 60 + t.minute) * 60 + t.second

/-- A local date and time with its offset. Second 60 has to end a month in UTC,
in a year of the calendar, and counts as the last nanosecond before it. -/
def ofReading? (day : Int) (time : TimeOfDay) (offset : Int) : Option Instant :=
  if time.second = 60 then
    let t := ofLocal day (time.seconds - 1) (nanosPerSecond - 1) offset
    let utc : Instant := { t with offset := 0 }
    let (year, _) := Calendar.yearDay utc.localDay
    let (_, _, nextDay) := Calendar.monthDay (utc.localDay + 1)
    if Calendar.yearInRange year ∧ utc.localNanos + 1 = secondsPerDay * nanosPerSecond
        ∧ nextDay = 1 then some t
    else none
  else some (ofLocal day time.seconds time.nanos offset)

/-! ## The internet form -/

/-- The digits of a fraction of a second as nanoseconds; digits after the ninth
are dropped. -/
def nanosOfDigits (digits : List Char) : Nat :=
  let nine := (digits ++ List.replicate 9 '0').take 9
  (readNat? nine).getD 0

def internetFraction? : List Char → Option (Nat × List Char)
  | '.' :: rest =>
      let digits := rest.takeWhile isDigit
      if digits = [] then none else some (nanosOfDigits digits, rest.drop digits.length)
  | cs => some (0, cs)

/-- Reads `Z` or an offset below a day. -/
def internetOffset? (cs : List Char) : Option (Int × List Char) :=
  match cs with
  | 'Z' :: rest => some (0, rest)
  | 'z' :: rest => some (0, rest)
  | _ => do
      let (negative, rest) ← sign? cs
      let (hours, rest) ← ranged? 2 0 23 rest
      let rest ← char? ':' rest
      let (minutes, rest) ← ranged? 2 0 59 rest
      let seconds : Int := (hours * 60 + minutes) * 60
      return (if negative then -seconds else seconds, rest)

/-- The first reading. -/
def internet? (cs : List Char) : Option Instant := do
  let (year, cs) ← digits? 4 cs
  let cs ← char? '-' cs
  let (month, cs) ← digits? 2 cs
  let cs ← char? '-' cs
  let (day, cs) ← digits? 2 cs
  let date ← Calendar.ofMonthDay? year month day
  let (separator, cs) ← cs.head?.map (·, cs.tail)
  if 128 ≤ separator.toNat then none
  let (hour, cs) ← digits? 2 cs
  let cs ← char? ':' cs
  let (minute, cs) ← digits? 2 cs
  let cs ← char? ':' cs
  let (second, cs) ← digits? 2 cs
  let (nanos, cs) ← internetFraction? cs
  let time ← TimeOfDay.of? hour minute second nanos
  let (offset, cs) ← internetOffset? cs
  if cs = [] then ofReading? date time offset else none

/-! ## The standard form -/

/-- Reads a year: four digits, or a sign and six. -/
def year? (cs : List Char) : Option (Int × List Char) :=
  match sign? cs with
  | some (negative, rest) =>
      (digits? 6 rest).map fun (n, rest) => (if negative then -n else (n : Int), rest)
  | none => (digits? 4 cs).map fun (n, rest) => ((n : Int), rest)

/-- Reads the separator of the extended variant, and nothing in the basic
one. -/
def dash? (extended : Bool) (cs : List Char) : Option (List Char) :=
  if extended then char? '-' cs else some cs

def monthDay? (extended : Bool) (cs : List Char) : Option ((Nat × Nat) × List Char) := do
  let (month, cs) ← ranged? 2 1 12 cs
  let cs ← dash? extended cs
  let (day, cs) ← ranged? 2 1 31 cs
  return ((month, day), cs)

def weekDay? (extended : Bool) (cs : List Char) : Option ((Nat × Nat) × List Char) := do
  let cs ← char? 'W' cs
  let (week, cs) ← ranged? 2 1 53 cs
  let cs ← dash? extended cs
  let (weekday, cs) ← ranged? 1 1 7 cs
  return ((week, weekday), cs)

inductive DateParts where
  | monthDay (month day : Nat)
  | ordinal (day : Nat)
  | week (week weekday : Nat)
deriving Repr, DecidableEq

/-- The day that the parts name in a year. -/
def DateParts.day? (year : Int) : DateParts → Option Int
  | .monthDay m d => Calendar.ofMonthDay? year m d
  | .ordinal d => Calendar.ofOrdinal? year d
  | .week w d => Calendar.ofWeek? year w d

/-- Reads the parts of a date after its year. The first form that can be read
is kept, also if it names no day. -/
def dateParts? (extended : Bool) (cs : List Char) : Option (DateParts × List Char) :=
  match monthDay? extended cs with
  | some ((month, day), rest) => some (.monthDay month day, rest)
  | none =>
      match ranged? 3 1 366 cs with
      | some (day, rest) => some (.ordinal day, rest)
      | none => (weekDay? extended cs).map fun ((week, day), rest) => (.week week day, rest)

/-- A fraction: the sum of its digits over powers of ten, each step rounded. -/
def fractionOfDigits (digits : List Char) : Double :=
  let ten := (Double.ofNat? 10).getD (Double.zero false)
  let step (sum : Double) (power : Option Double) (c : Char) : Double × Option Double :=
    match power with
    | none => (sum, none)
    | some p =>
        let digit := (Double.ofNat? ((digit? c).getD 0)).getD (Double.zero false)
        (((digit.div? p).bind sum.addMagnitudes?).getD sum, p.mul? ten)
  (digits.foldl (fun state c => step state.1 state.2 c) (Double.zero false, some ten)).1

/-- Reads two digits and an optional fraction after a point or a comma. -/
def part? (cs : List Char) : Option ((Nat × Option Double) × List Char) :=
  match digits? 2 cs with
  | none => none
  | some (n, rest) =>
      match rest with
      | c :: places =>
          if c = '.' ∨ c = ',' then
            let digits := places.takeWhile isDigit
            if digits = [] then none
            else some ((n, some (fractionOfDigits digits)), places.drop digits.length)
          else some ((n, none), rest)
      | [] => some ((n, none), rest)

def timesNat (fraction : Double) (n : Nat) : Double :=
  (((Double.ofNat? n).bind fraction.mul?)).getD (Double.zero false)

def ofHourFraction? (hour : Nat) (fraction : Double) : Option TimeOfDay :=
  TimeOfDay.of? hour (timesNat fraction 60).wholePart
    ((timesNat fraction 3600).wholeModulo 60)
    ((timesNat fraction (3600 * nanosPerSecond)).wholeModulo nanosPerSecond)

def ofMinuteFraction? (hour minute : Nat) (fraction : Double) : Option TimeOfDay :=
  TimeOfDay.of? hour minute (timesNat fraction 60).wholePart
    ((timesNat fraction (60 * nanosPerSecond)).wholeModulo nanosPerSecond)

def ofSecondFraction? (hour minute second : Nat) (fraction : Option Double) :
    Option TimeOfDay :=
  let nanos := fraction.map fun f => (timesNat f nanosPerSecond).nearestWhole
  TimeOfDay.of? hour minute second (nanos.getD 0)

/-- Reads the seconds, which the basic variant may omit. -/
def second? (extended : Bool) (hour minute : Nat) (cs : List Char) :
    Option (TimeOfDay × List Char) :=
  match part? cs with
  | some ((second, fraction), rest) =>
      (ofSecondFraction? hour minute second fraction).map (·, rest)
  | none => if extended then none else (TimeOfDay.of? hour minute 0 0).map (·, cs)

/-- Reads the minutes, which the basic variant may omit, and what follows
them. The extended variant reads seconds only after a colon. -/
def minute? (extended : Bool) (hour : Nat) (cs : List Char) : Option (TimeOfDay × List Char) :=
  match part? cs with
  | some ((minute, some fraction), rest) =>
      (ofMinuteFraction? hour minute fraction).map (·, rest)
  | some ((minute, none), rest) =>
      if extended then
        match char? ':' rest with
        | some rest => second? extended hour minute rest
        | none => (TimeOfDay.of? hour minute 0 0).map (·, rest)
      else second? extended hour minute rest
  | none => if extended then none else (TimeOfDay.of? hour 0 0 0).map (·, cs)

/-- Reads a time of day after its `T`. Only the extended variant may have a
colon after the hour. -/
def time? (extended : Bool) (cs : List Char) : Option (TimeOfDay × List Char) := do
  let cs ← char? 'T' cs
  let ((hour, fraction), cs) ← part? cs
  match fraction with
  | some f => (ofHourFraction? hour f).map (·, cs)
  | none =>
      match char? ':' cs with
      | some rest => if extended then minute? extended hour rest else none
      | none => minute? extended hour cs

/-- Reads `Z` or an offset of up to 25 hours, the minutes of which may be
left out. -/
def offset? (extended : Bool) (cs : List Char) : Option (Int × List Char) :=
  match cs with
  | 'Z' :: rest => some (0, rest)
  | _ => do
      let (negative, rest) ← sign? cs
      let (hours, rest) ← ranged? 2 0 25 rest
      let rest := if extended then (char? ':' rest).getD rest else rest
      let (minutes, rest) := (ranged? 2 0 59 rest).getD (0, rest)
      let seconds : Int := (hours * 60 + minutes) * 60
      return (if negative then -seconds else seconds, rest)

/-- What the standard form says: a day, and a time and an offset where they
could be read. -/
structure StandardForm where
  day : Int
  time : Option TimeOfDay
  offset : Option Int
deriving Repr

def standardForm? (cs : List Char) : Option StandardForm := do
  let (year, cs) ← year? cs
  let extended := (char? '-' cs).isSome
  let (parts, cs) ← dateParts? extended ((char? '-' cs).getD cs)
  let day ← parts.day? year
  match time? extended cs with
  | none => if cs = [] then some { day, time := none, offset := none } else none
  | some (time, cs) =>
      match offset? extended cs with
      | none => if cs = [] then some { day, time := some time, offset := none } else none
      | some (offset, cs) =>
          if cs = [] then some { day, time := some time, offset := some offset } else none

/-- Reads the standard form as an instant: with its offset, as UTC if that
fails, and as midnight UTC if the time fails too. -/
def standard? (cs : List Char) : Option Instant := do
  let form ← standardForm? cs
  let midnight := ofLocal form.day 0 0 0
  match form.time with
  | none => some midnight
  | some time =>
      match form.offset.bind (ofReading? form.day time) with
      | some t => some t
      | none =>
          if time.second = 60 then some midnight
          else some (ofLocal form.day time.seconds time.nanos 0)

/-- Reads an instant, by the first of the four readings that succeeds. -/
def parse? (s : String) : Option Instant :=
  match internet? s.toList with
  | some t => some t
  | none => standard? s.toList

end Instant

end RowQuery
