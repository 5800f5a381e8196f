/-!
# Decimal digits

Whole numbers as text and back: `digitsOf` writes a natural number, `intText`
an integer, `readNat?` reads a run of digits. `spanDigits` cuts the digits off
the front of a text.
-/

namespace RowQuery

def digitsOf (n : Nat) : List Char := Nat.toDigits 10 n

def paddedDigits (width n : Nat) : List Char :=
  let digits := digitsOf n
  List.replicate (width - digits.length) '0' ++ digits

/-- A text with a minus sign in front if the number is negative. -/
def signedText (negative : Bool) (digits : List Char) : String :=
  String.ofList (if negative then '-' :: digits else digits)

def intText (n : Int) : String := signedText (n < 0) (digitsOf n.natAbs)

def natText (n : Nat) : String := String.ofList (digitsOf n)

def digit? (c : Char) : Option Nat :=
  if '0' ≤ c ∧ c ≤ '9' then some (c.toNat - '0'.toNat) else none

def isDigit (c : Char) : Bool := (digit? c).isSome

/-- The digits at the front of a text, and what follows them. -/
def spanDigits (cs : List Char) : List Char × List Char :=
  (cs.takeWhile isDigit, cs.dropWhile isDigit)

/-- Reads digits into a number, from the value of the digits before them. -/
def readDigitsFrom (n : Nat) : List Char → Option Nat
  | [] => some n
  | c :: rest =>
      match digit? c with
      | some d => readDigitsFrom (n * 10 + d) rest
      | none => none

/-- Reads a text of digits only, at least one. -/
def readNat? : List Char → Option Nat
  | [] => none
  | cs => readDigitsFrom 0 cs

def hexDigit? (c : Char) : Option Nat :=
  if '0' ≤ c ∧ c ≤ '9' then some (c.toNat - '0'.toNat)
  else if 'a' ≤ c ∧ c ≤ 'f' then some (c.toNat - 'a'.toNat + 10)
  else if 'A' ≤ c ∧ c ≤ 'F' then some (c.toNat - 'A'.toNat + 10)
  else none

def readHex? : List Char → Option Nat
  | [] => none
  | cs => cs.foldl (fun n c => n.bind fun n => (hexDigit? c).map (n * 16 + ·)) (some 0)

end RowQuery
