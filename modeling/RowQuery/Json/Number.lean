import RowQuery.Json.Basic
import RowQuery.Number.DecimalText

/-!
# Json number text

`JsonNumber.read?` reads one number from the front of a text. A number without
point and exponent that a 64-bit word holds is exact. Any other number is a
double: its digits are gathered into a 64-bit significand as far as they fit,
and the significand is scaled by a power of ten with one rounded operation.
Negative zero is a double, and a number too large for a double is refused.

`JsonNumber.text` writes whole numbers digit by digit and doubles in the
fewest digits.
-/

namespace RowQuery

namespace JsonNumber

/-- The largest significand that is gathered from digits. -/
def significandLimit : Nat := 0x10000000000000000

/-- Gathers digits as long as the significand stays below the limit. Gives the
significand and the number of digits left out. -/
def gather (significand : Nat) : List Char → Nat × Nat
  | [] => (significand, 0)
  | c :: rest =>
      let next := significand * 10 + (digit? c).getD 0
      if next < significandLimit then gather next rest else (significand, rest.length + 1)

/-- The largest power of ten that one multiplication or division takes. -/
def largestPower : Nat := 308

/-- A power of ten up to `largestPower`, rounded. -/
def powerOfTen (k : Nat) : Double :=
  (Double.ofNat? (Nat.pow 10 k)).getD (Double.zero false)

/-- Divides by the largest power several times, or until zero is reached. -/
def divideByLargest : (steps : Nat) → Double → Option Double
  | 0, d => some d
  | steps + 1, d =>
      if d.place = 0 then some d
      else
        match d.div? (powerOfTen largestPower) with
        | some smaller => divideByLargest steps smaller
        | none => none

/-- Divides by a power of ten, in steps of the largest one and a last one. -/
def divideByPower (d : Double) (power : Nat) : Option Double := do
  let steps := (power - 1) / largestPower
  let smaller ← divideByLargest steps d
  smaller.div? (powerOfTen (power - steps * largestPower))

/-- Multiplies by a power of ten. Past the largest power only zero has a
product. -/
def multiplyByPower (d : Double) (power : Nat) : Option Double :=
  if power ≤ largestPower then d.mul? (powerOfTen power)
  else if d.place = 0 then some d
  else none

/-- The double for a gathered significand and a power of ten. -/
def scaled? (negative : Bool) (significand : Nat) (power : Int) : Option Double := do
  let d ← Double.ofNat? significand
  let magnitude ←
    if 0 ≤ power then multiplyByPower d power.natAbs else divideByPower d power.natAbs
  return { magnitude with negative }

/-- The exponent after an exponent mark: an optional sign and at least one
digit. -/
def readExponent? (cs : List Char) : Option (Int × List Char) :=
  let (negative, rest) :=
    match cs with
    | '-' :: rest => (true, rest)
    | '+' :: rest => (false, rest)
    | _ => (false, cs)
  let (digits, rest) := spanDigits rest
  (readNat? digits).map fun n => (if negative then -n else (n : Int), rest)

def finish? (negative : Bool) (significand : Nat) (power : Int) (cs : List Char) :
    Option (JsonNumber × List Char) :=
  match cs with
  | c :: rest =>
      if c = 'e' ∨ c = 'E' then do
        let (exponent, rest) ← readExponent? rest
        let d ← scaled? negative significand (power + exponent)
        return (.double d, rest)
      else do return (.double (← scaled? negative significand power), cs)
  | [] => do return (.double (← scaled? negative significand power), cs)

def ofDigits? (negative : Bool) (significand leftOut : Nat) : Option JsonNumber :=
  let n : Int := if negative then -significand else significand
  if h : -0x8000000000000000 ≤ n ∧ n < 0x10000000000000000 then
    if leftOut = 0 ∧ ¬ (negative ∧ significand = 0) then some (.whole n h)
    else (scaled? negative significand leftOut).map .double
  else (scaled? negative significand leftOut).map .double

/-- Reads a number without its sign. The first digit is zero only if it is the
only one before the point. -/
def readUnsigned? (negative : Bool) (cs : List Char) : Option (JsonNumber × List Char) :=
  let (digits, rest) := spanDigits cs
  if digits = [] ∨ (digits.head? = some '0' ∧ digits.length ≠ 1) then none
  else
    let (significand, leftOut) := gather 0 digits
    match rest with
    | '.' :: rest =>
        let (places, rest) := spanDigits rest
        if places = [] then none
        else
          let (significand, unread) := gather significand places
          finish? negative significand (leftOut - (places.length - unread : Nat)) rest
    | c :: _ =>
        if c = 'e' ∨ c = 'E' then finish? negative significand leftOut rest
        else (ofDigits? negative significand leftOut).map (·, rest)
    | [] => (ofDigits? negative significand leftOut).map (·, rest)

def read? : List Char → Option (JsonNumber × List Char)
  | '-' :: rest => readUnsigned? true rest
  | cs => readUnsigned? false cs

def ofText? (s : String) : Option JsonNumber :=
  match read? s.toList with
  | some (n, []) => some n
  | _ => none

def text : JsonNumber → String
  | .whole n _ => intText n
  | .double d => d.text

end JsonNumber

end RowQuery
