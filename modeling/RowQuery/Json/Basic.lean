import RowQuery.Number.Double
import RowQuery.Text.Order

/-!
# Json values

A document is a tree. Numbers are whole numbers of at most 64 bits, kept
exactly, or doubles. The entries of an object are kept in the byte order of
their keys; `Json.get?` and `Json.insert` go by key, and `Json.SortedKeys` says
that a tree has that order everywhere.

`Json.same` is equality of documents: the two zeros among the doubles are one
number, a whole number is never a double.
-/

namespace RowQuery

inductive JsonNumber where
  /-- A whole number that a signed or an unsigned 64-bit word holds. -/
  | whole (n : Int) (inRange : -0x8000000000000000 ≤ n ∧ n < 0x10000000000000000)
  | double (d : Double)
deriving Repr, DecidableEq

namespace JsonNumber

/-- Equality of numbers within one representation. -/
def same : JsonNumber → JsonNumber → Bool
  | .whole a _, .whole b _ => a == b
  | .double a, .double b => a.numEq b
  | _, _ => false

def ofInt64 (n : Int64) : JsonNumber :=
  .whole n.toInt (by
    have h1 := n.le_toInt
    have h2 := n.toInt_lt
    omega)

def ofUInt64 (n : UInt64) : JsonNumber :=
  .whole n.toNat (by
    have h := n.toNat_lt
    omega)

def ofUInt32 (n : UInt32) : JsonNumber := ofUInt64 n.toUInt64

end JsonNumber

inductive Json where
  | null
  | bool (b : Bool)
  | number (n : JsonNumber)
  | string (s : String)
  | array (items : List Json)
  | object (entries : List (String × Json))
deriving Repr

namespace Json

def get? (key : String) : Json → Option Json
  | .object entries => findKey key entries
  | _ => none

def isObject : Json → Bool
  | .object _ => true
  | _ => false

mutual

/-- Equality of documents. -/
def same : Json → Json → Bool
  | .null, .null => true
  | .bool a, .bool b => a == b
  | .number a, .number b => a.same b
  | .string a, .string b => a == b
  | .array as, .array bs => sameItems as bs
  | .object as, .object bs => sameEntries as bs
  | _, _ => false

def sameItems : List Json → List Json → Bool
  | [], [] => true
  | a :: as, b :: bs => a.same b && sameItems as bs
  | _, _ => false

/-- Equality of entries, one by one in key order. -/
def sameEntries : List (String × Json) → List (String × Json) → Bool
  | [], [] => true
  | (k, a) :: as, (l, b) :: bs => k == l && a.same b && sameEntries as bs
  | _, _ => false

end

mutual

/-- Every object lists its entries in strictly ascending key order. -/
def SortedKeys : Json → Prop
  | .array items => SortedItems items
  | .object entries => SortedEntries entries
  | _ => True

def SortedItems : List Json → Prop
  | [] => True
  | item :: rest => item.SortedKeys ∧ SortedItems rest

def SortedEntries : List (String × Json) → Prop
  | [] => True
  | (key, value) :: rest =>
      (∀ entry ∈ rest, compareText key entry.1 = .lt) ∧ value.SortedKeys ∧ SortedEntries rest

end

end Json

end RowQuery
