/-!
# Binary floating-point numbers, exactly

A finite 64-bit floating-point number is its sign and the place of its
magnitude in the ascending list of all representable magnitudes. Every
magnitude is a whole number of *units* of `2 ^ -1074`, so sums of the
library's arithmetic are comparisons and divisions of natural numbers:

* `Double.units` is the exact magnitude,
* `Double.ofRatio` rounds a quotient to the nearest magnitude, ties to the
  even significand, with no answer past the largest one,
* `Double.ofNat?`, `Double.mul?`, `Double.div?` and `Double.addMagnitudes?` are
  rounded once,
* `Double.wholePart`, `Double.wholeModulo` and `Double.nearestWhole` are exact.
-/

namespace RowQuery

/-- One more than the place of the largest finite magnitude. There are `2 ^ 52`
magnitudes to an exponent. -/
def Double.placeLimit : Nat := 2047 * 0x10000000000000

/-- A finite binary floating-point number of 64 bits. -/
structure Double where
  /-- Whether the number carries a minus sign; zero may carry one. -/
  negative : Bool
  /-- How many representable magnitudes are smaller. -/
  place : Nat
  place_lt : place < Double.placeLimit
deriving Repr, DecidableEq

namespace Double

def zero (negative : Bool) : Double := ⟨negative, 0, by decide⟩

/-- How many places to the left the significand of a magnitude stands. -/
def shiftAt (place : Nat) : Nat := place / 0x10000000000000 - 1

/-- The significand of a magnitude, below `2 ^ 53`. -/
def significandAt (place : Nat) : Nat :=
  if place < 0x10000000000000 then place else 0x10000000000000 + place % 0x10000000000000

/-- The magnitude at a place, in units of `2 ^ -1074`. -/
def unitsAt (place : Nat) : Nat := significandAt place <<< shiftAt place

def units (d : Double) : Nat := unitsAt d.place

/-- The number of units in one. -/
def one : Nat := 1 <<< 1074

/-- Equality as numbers: the two zeros are equal. -/
def numEq (a b : Double) : Bool :=
  a.place == b.place && (a.negative == b.negative || a.place == 0)

/-- The place nearest to `num / den`, ties to the even significand. The
answer may lie past the last finite magnitude. -/
def nearestPlace (num den : Nat) : Nat :=
  let scaled := num * one
  let shift := (scaled / den).log2 - 52
  let step := den <<< shift
  let quotient := scaled / step
  let rest := scaled % step
  let rounded :=
    if 2 * rest > step ∨ (2 * rest = step ∧ quotient % 2 = 1) then quotient + 1 else quotient
  shift * 0x10000000000000 + rounded

/-- The number nearest to `num / den`, or nothing if it is too large. -/
def ofRatio (negative : Bool) (num den : Nat) : Option Double :=
  let place := nearestPlace num den
  if h : place < placeLimit then some ⟨negative, place, h⟩ else none

def ofNat? (n : Nat) : Option Double := ofRatio false n 1

/-- The product, rounded once. -/
def mul? (a b : Double) : Option Double :=
  ofRatio (a.negative != b.negative) (a.units * b.units) (one * one)

/-- The quotient, rounded once. -/
def div? (a b : Double) : Option Double :=
  ofRatio (a.negative != b.negative) a.units b.units

def addMagnitudes? (a b : Double) : Option Double := ofRatio false (a.units + b.units) one

/-- The whole part of a magnitude. -/
def wholePart (d : Double) : Nat := d.units / one

/-- The whole part of what a magnitude leaves when divided by a whole number. -/
def wholeModulo (d : Double) (n : Nat) : Nat := d.units % (n * one) / one

/-- The whole number nearest to a magnitude, a half going up. -/
def nearestWhole (d : Double) : Nat := (2 * d.units + one) / (2 * one)

/-- The number that a 64-bit pattern stands for, unless it is an infinity or
no number at all. -/
def ofBits? (bits : UInt64) : Option Double :=
  let place := bits.toNat % 0x8000000000000000
  if h : place < placeLimit then some ⟨decide (0x8000000000000000 ≤ bits.toNat), place, h⟩ else none

end Double

end RowQuery
