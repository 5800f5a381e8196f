/-!
# Decimals

A decimal is a sign and a coefficient of at most 96 bits over a power of ten,
the scale, of at most 28. The scale, and the sign of zero, are part of the text
of a decimal and not of its value: `Decimal.compare` is the order of the values,
`Decimal.numEq` their equality.
-/

namespace RowQuery

def Decimal.maxScale : Nat := 28

/-- One more than the largest coefficient. -/
def Decimal.coefficientLimit : Nat := 0x1000000000000000000000000

/-- The number `coefficient / 10 ^ scale`, with its sign. -/
structure Decimal where
  /-- Whether the number carries a minus sign; zero may carry one. -/
  negative : Bool
  coefficient : Nat
  scale : Nat
  coefficient_lt : coefficient < Decimal.coefficientLimit
  scale_le : scale ≤ Decimal.maxScale
deriving Repr, DecidableEq

namespace Decimal

/-- The decimal with a given sign, coefficient and scale, if they are in
range. -/
def of? (negative : Bool) (coefficient scale : Nat) : Option Decimal :=
  if h : coefficient < coefficientLimit ∧ scale ≤ maxScale then
    some ⟨negative, coefficient, scale, h.1, h.2⟩
  else none

def ofInt (n : Int) (h : n.natAbs < coefficientLimit) : Decimal :=
  ⟨n < 0, n.natAbs, 0, h, Nat.zero_le _⟩

def ofInt64 (n : Int64) : Decimal :=
  ofInt n.toInt (by
    have h1 := n.le_toInt
    have h2 := n.toInt_lt
    unfold coefficientLimit
    omega)

def ofUInt64 (n : UInt64) : Decimal :=
  ofInt n.toNat (by
    have h := n.toNat_lt
    unfold coefficientLimit
    omega)

def signed (d : Decimal) : Int := if d.negative then -d.coefficient else d.coefficient

def compare (a b : Decimal) : Ordering :=
  Ord.compare (a.signed * Nat.pow 10 b.scale) (b.signed * Nat.pow 10 a.scale)

def numEq (a b : Decimal) : Bool :=
  a.signed * Nat.pow 10 b.scale == b.signed * Nat.pow 10 a.scale

def isWhole (d : Decimal) : Bool := d.coefficient % Nat.pow 10 d.scale == 0

/-- The value as a machine integer, if it is a whole number in range. -/
def toInt64? (d : Decimal) : Option Int64 :=
  let whole := d.signed / Nat.pow 10 d.scale
  if d.isWhole ∧ -0x8000000000000000 ≤ whole ∧ whole < 0x8000000000000000 then
    some (Int64.ofInt whole)
  else
    none

end Decimal

end RowQuery
