import RowQuery.Text.Digits
import RowQuery.Time.Calendar

/-!
# Instants

An instant is a moment, counted in nanoseconds from the start of 1970 in UTC,
and the offset from UTC of the clock on which it was read. Instants compare by
moment alone; the offset decides only how an instant is written.

`Instant.text?` writes the local date and time with the offset. Most instants
have the short form, in which a fraction is written only where it is not zero
and offset zero is `Z`; a clock a day or more away from UTC takes the long form
with nine places, and a local year outside `0000` to `9999` has no text.
-/

namespace RowQuery

/-- A moment, and the clock on which it was read. -/
structure Instant where
  /-- Nanoseconds since the start of 1970 in UTC. -/
  unixNanos : Int
  /-- Seconds by which the clock is ahead of UTC. -/
  offset : Int
deriving Repr, DecidableEq

namespace Instant

def nanosPerSecond : Nat := 1000000000

def secondsPerDay : Nat := 86400

def compare (a b : Instant) : Ordering := Ord.compare a.unixNanos b.unixNanos

def sameMoment (a b : Instant) : Bool := a.unixNanos == b.unixNanos

def ofLocal (day : Int) (seconds nanos : Nat) (offset : Int) : Instant :=
  { unixNanos :=
      ((day - Calendar.epochDay) * secondsPerDay + seconds - offset) * nanosPerSecond + nanos
    offset }

def localDay (t : Instant) : Int :=
  (t.unixNanos + t.offset * nanosPerSecond) / (secondsPerDay * nanosPerSecond)
    + Calendar.epochDay

/-- The local time of day, in nanoseconds since midnight. -/
def localNanos (t : Instant) : Nat :=
  ((t.unixNanos + t.offset * nanosPerSecond) % (secondsPerDay * nanosPerSecond)).toNat

/-! ## Writing -/

def dropLastZeros (digits : List Char) : List Char :=
  (digits.reverse.dropWhile (· = '0')).reverse

def dateChars (t : Instant) : List Char :=
  let (year, month, day) := Calendar.monthDay t.localDay
  paddedDigits 4 year.natAbs ++ '-' :: paddedDigits 2 month ++ '-' :: paddedDigits 2 day

def timeChars (t : Instant) : List Char :=
  let seconds := t.localNanos / nanosPerSecond
  paddedDigits 2 (seconds / 3600) ++ ':' :: paddedDigits 2 (seconds / 60 % 60) ++ ':' ::
    paddedDigits 2 (seconds % 60)

def fractionChars (t : Instant) : List Char := paddedDigits 9 (t.localNanos % nanosPerSecond)

/-- The offset as sign, hours and minutes. -/
def offsetChars (t : Instant) : List Char :=
  let minutes := t.offset.natAbs / 60
  (if t.offset < 0 then '-' else '+') :: paddedDigits 2 (minutes / 60)
    ++ ':' :: paddedDigits 2 (minutes % 60)

/-- The short form: no zeros at the end of the fraction, `Z` for offset zero. -/
def shortChars (t : Instant) : List Char :=
  let fraction := dropLastZeros t.fractionChars
  t.dateChars ++ 'T' :: t.timeChars
    ++ (if fraction = [] then [] else '.' :: fraction)
    ++ (if t.offset = 0 then ['Z'] else t.offsetChars)

/-- The long form: nine places of a second. -/
def longChars (t : Instant) : List Char :=
  t.dateChars ++ 'T' :: t.timeChars ++ '.' :: t.fractionChars ++ t.offsetChars

/-- The text of an instant, if its local year has four digits. -/
def text? (t : Instant) : Option String :=
  let year := (Calendar.monthDay t.localDay).1
  if year < 0 ∨ 9999 < year then none
  else if t.offset.natAbs / 3600 ≤ 23 then some (String.ofList t.shortChars)
  else some (String.ofList t.longChars)

end Instant

end RowQuery
