import RowQuery.Number.Double
import RowQuery.Text.Digits

/-!
# Shortest decimal text of a double

A magnitude stands for every real number nearer to it than to its neighbours.
`Double.shortest` looks for the coarsest decimal grid that has a point in that
interval; the point nearest to the magnitude, with a tie going to the even
digit, gives the fewest digits that read back.

`Double.text` lays those digits out: positional in a middle range and scientific
outside it.
-/

namespace RowQuery

namespace Double

/-- The reals that round to one magnitude, and the magnitude itself, in half
units. -/
structure Interval where
  low : Nat
  value : Nat
  high : Nat
  closed : Bool
deriving Repr

def intervalAt (place : Nat) : Interval :=
  { low := unitsAt (place - 1) + unitsAt place
    value := 2 * unitsAt place
    high := unitsAt place + unitsAt (place + 1)
    closed := significandAt place % 2 == 0 }

/-- The interval in smaller units, `factor` times as many. -/
def Interval.scale (i : Interval) (factor : Nat) : Interval :=
  { i with low := i.low * factor, value := i.value * factor, high := i.high * factor }

def Interval.contains (i : Interval) (n : Nat) : Bool :=
  if i.closed then i.low ≤ n && n ≤ i.high else i.low < n && n < i.high

/-- The multiple of `step` in the interval nearest to its value, as the
multiplier. -/
def Interval.multiple? (i : Interval) (step : Nat) : Option Nat :=
  let below := i.value / step
  let rest := i.value % step
  match i.contains (below * step), i.contains ((below + 1) * step) with
  | false, false => none
  | true, false => some below
  | false, true => some (below + 1)
  | true, true =>
      if 2 * rest < step ∨ (2 * rest = step ∧ below % 2 = 0) then some below
      else some (below + 1)

/-- The multiple of `10 ^ exponent` in an interval of half units. -/
def Interval.onGrid? (i : Interval) : (exponent : Int) → Option Nat
  | .ofNat k => i.multiple? (2 * one * Nat.pow 10 k)
  | .negSucc k => (i.scale (Nat.pow 10 (k + 1))).multiple? (2 * one)

/-- The finest grid exponent tried: every interval is wider than it. -/
def finestGrid : Int := -324

/-- Tries the grids from `finestGrid + steps` downward. -/
def searchGrid (i : Interval) : (steps : Nat) → Nat × Int
  | 0 => ((i.onGrid? finestGrid).getD 0, finestGrid)
  | steps + 1 =>
      match i.onGrid? (finestGrid + (steps + 1)) with
      | some n => (n, finestGrid + (steps + 1))
      | none => searchGrid i steps

/-- The shortest decimal `n * 10 ^ e` of a magnitude, as `(n, e)`. -/
def shortest (d : Double) : Nat × Int :=
  if d.place = 0 then (0, 0) else searchGrid (intervalAt d.place) 633

/-! ## Layout -/

/-- Positional text of `n * 10 ^ exponent`, without a point if there are no
places after it. -/
def positionalDigits (digits : List Char) (exponent : Int) : List Char :=
  if 0 ≤ exponent then digits ++ List.replicate exponent.toNat '0'
  else
    let places := exponent.natAbs
    if places < digits.length then
      digits.take (digits.length - places) ++ '.' :: digits.drop (digits.length - places)
    else '0' :: '.' :: (List.replicate (places - digits.length) '0' ++ digits)

def withPoint (digits : List Char) : List Char :=
  if digits.contains '.' then digits else digits ++ ['.', '0']

/-- Scientific text: one digit, the point and the others if there are any, and
an exponent that always has its sign. -/
def scientificDigits (digits : List Char) (power : Int) : List Char :=
  let mantissa :=
    match digits with
    | first :: second :: rest => first :: '.' :: second :: rest
    | short => short
  mantissa ++ 'e' :: (if power < 0 then '-' else '+') :: digitsOf power.natAbs

/-- Text as in a document: positional from `1e-5` up to, not including,
`1e16`, and scientific outside. -/
def text (d : Double) : String :=
  let (n, e) := d.shortest
  let digits := digitsOf n
  let power := e + digits.length - 1
  if n = 0 ∨ (-5 ≤ power ∧ power < 16) then
    signedText d.negative (withPoint (positionalDigits digits e))
  else signedText d.negative (scientificDigits digits power)

end Double

end RowQuery
