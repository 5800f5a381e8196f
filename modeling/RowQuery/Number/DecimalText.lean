import RowQuery.Number.Decimal
import RowQuery.Number.Shortest

/-!
# Decimal text

`Decimal.text` writes every place of the scale. `Decimal.ofText?` reads a
decimal:

* `Decimal.ofPositional?` reads digits and a point, and rounds off, half up, what
  does not fit;
* `Decimal.ofScientific?` reads such a part and a power of ten. It rounds off
  places past the last one, and loses nothing before the point.

`Decimal.ofDouble?` gives a double its decimal of about fifteen digits.
-/

namespace RowQuery

namespace Decimal

/-! ## Writing -/

/-- The text of a decimal: its sign and all its places. -/
def text (d : Decimal) : String :=
  signedText d.negative (Double.positionalDigits (digitsOf d.coefficient) (-d.scale))

/-! ## Reading -/

/-- A coefficient without its last places, rounded half up. -/
def roundPlaces (coefficient places : Nat) : Nat :=
  (2 * coefficient + Nat.pow 10 places) / (2 * Nat.pow 10 places)

/-- Ends a coefficient at the first digit that does not fit, rounding half up.
If rounding up leaves the range, the last place is given up too. -/
def roundOff (coefficient scale digit : Nat) : Option (Nat × Nat) :=
  if digit < 5 then some (coefficient, scale)
  else if coefficient + 1 < coefficientLimit then some (coefficient + 1, scale)
  else if scale = 0 then none
  else some ((coefficient + 5) / 10, scale - 1)

/-- A coefficient is long if it was at least this before its last digit. -/
def longLimit : Nat := 0xFFFFFFFFFFFFFFFF / 10 - 255

/-- Reads the digits of an unsigned decimal. `point` says whether the point
has been read, `seen` whether any digit has. What follows the first digit that
does not fit is not read.

Underscores may stand after a digit. After the last place, one is passed over if
the coefficient is long, and otherwise ends the number without rounding. -/
def readDigits (coefficient scale : Nat) (point seen : Bool) :
    List Char → Option (Nat × Nat)
  | [] => if seen then some (coefficient, scale) else none
  | c :: rest =>
      let full := point && maxScale ≤ scale
      match digit? c with
      | some d =>
          let next := coefficient * 10 + d
          if full then roundOff coefficient scale d
          else if coefficientLimit ≤ next then
            if point then roundOff coefficient scale d else none
          else readDigits next (if point then scale + 1 else scale) point true rest
      | none =>
          if c = '.' ∧ ¬ point then readDigits coefficient scale true seen rest
          else if c = '_' ∧ seen then
            if full && coefficient / 10 < longLimit then some (coefficient, scale)
            else readDigits coefficient scale point seen rest
          else none

/-- Reads positional text, such as `-12.50`. Zero has no sign. -/
def ofPositional? (cs : List Char) : Option Decimal := do
  let (negative, digits) :=
    match cs with
    | '-' :: rest => (true, rest)
    | '+' :: rest => (false, rest)
    | _ => (false, cs)
  let (coefficient, scale) ← readDigits 0 0 false false digits
  of? (negative && coefficient ≠ 0) coefficient scale

/-- Splits text at the first exponent mark. -/
def splitExponent : List Char → Option (List Char × List Char)
  | [] => none
  | c :: rest =>
      if c = 'e' ∨ c = 'E' then some ([], rest)
      else (splitExponent rest).map fun (mantissa, exponent) => (c :: mantissa, exponent)

/-- Multiplies a decimal by a power of ten. Places are used up first; what is
left is multiplied into the coefficient, for at most 28 powers. -/
def scaleUp? (d : Decimal) (power : Nat) : Option Decimal :=
  if power ≤ d.scale then of? d.negative d.coefficient (d.scale - power)
  else if maxScale < power then none
  else of? d.negative (d.coefficient * Nat.pow 10 (power - d.scale)) 0

/-- Divides a decimal by at most 28 powers of ten by giving it more places.
Those past the last one are rounded off, and zero keeps the sign. -/
def scaleDown? (d : Decimal) (power : Nat) : Option Decimal :=
  if maxScale < power then none
  else
    let excess := d.scale + power - maxScale
    of? d.negative (roundPlaces d.coefficient excess) (d.scale + power - excess)

/-- Reads a natural number that may have a plus sign. -/
def readPower? : List Char → Option Nat
  | '+' :: digits => readNat? digits
  | digits => readNat? digits

/-- Reads the two parts of scientific text, such as `1.5` and `-7`. -/
def ofScientific? (mantissa exponent : List Char) : Option Decimal := do
  let d ← ofPositional? mantissa
  match exponent with
  | '-' :: power => d.scaleDown? (← readPower? power)
  | power => d.scaleUp? (← readPower? power)

/-- Reads a decimal: scientific text if it has an exponent mark, and positional
text otherwise. -/
def ofText? (s : String) : Option Decimal :=
  match splitExponent s.toList with
  | some (mantissa, exponent) => ofScientific? mantissa exponent
  | none => ofPositional? s.toList

/-! ## From a double -/

/-- Turns `m / 2 ^ fives` into `m' * 10 ^ e'`, multiplying by five while the
coefficient has room for it and halving otherwise. -/
def absorbHalves : (fives : Nat) → (m : Nat) → (exponent : Int) → Nat × Int
  | 0, m, e => (m, e)
  | k + 1, m, e =>
      if m % 2 = 0 then absorbHalves k (m / 2) (e + 1)
      else if m * 5 < coefficientLimit then absorbHalves k (m * 5) e
      else absorbHalves k (m / 2) (e + 1)

/-- Turns `m * 2 ^ twos` into `m' * 10 ^ e'`, doubling while the coefficient
has room for it and dividing by five otherwise. -/
def absorbDoubles : (twos : Nat) → (m : Nat) → (exponent : Int) → Nat × Int
  | 0, m, e => (m, e)
  | k + 1, m, e =>
      if m < coefficientLimit / 2 then absorbDoubles k (m * 2) (e - 1)
      else absorbDoubles k (m / 5) e

/-- Drops the digits in excess one by one, each with its rounding. Nothing is left
once the digits run out. -/
def limitPlaces (m : Nat) : (excess : Nat) → Nat
  | 0 => m
  | k + 1 => if m / 10 = 0 then 0 else limitPlaces (roundPlaces m 1) k

/-- Drops places while the coefficient has more than 52 bits. -/
def limitBits (m : Nat) : (places : Nat) → Nat × Nat
  | 0 => (m, 0)
  | k + 1 => if 0x10000000000000 ≤ m then limitBits (roundPlaces m 1) k else (m, k + 1)

/-- Drops places that hold a zero. -/
def dropZeros (m : Nat) : (places : Nat) → Nat × Nat
  | 0 => (m, 0)
  | k + 1 => if m % 10 = 0 then dropZeros (m / 10) k else (m, k + 1)

/-- The decimal of a double: its leading digits, as many as 52 bits hold,
without trailing zeros. There is none from `2 ^ 96` on. -/
def ofDouble? (d : Double) : Option Decimal :=
  if coefficientLimit * Double.one ≤ d.units then none
  else
    let m := Double.significandAt d.place
    let power : Int := Double.shiftAt d.place - 1074
    let (m, e) :=
      if power < 0 then absorbHalves power.natAbs m power
      else absorbDoubles power.natAbs m power
    let m := m * Nat.pow 10 e.toNat
    let places := (-e).toNat
    let m := limitPlaces m (places - maxScale)
    let (m, places) := limitBits m (if m = 0 then 0 else min places maxScale)
    let (m, places) := dropZeros m places
    of? d.negative m places

end Decimal

end RowQuery
