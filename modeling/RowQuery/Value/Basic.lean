import RowQuery.Json.Basic
import RowQuery.Number.Decimal
import RowQuery.Query.Operator
import RowQuery.Time.Instant

/-!
# Values and filters

A `Value` is a literal of a query or the content of a cell. A `Filter` is a
boolean tree whose leaves name a field, an operator and a value. The two are
one mutual definition: the operand of a quantifier is a value that holds a
filter.

`Value.same` and `Filter.same` are equality as data. Decimals are the same if
they have the same value, instants if they are the same moment, whatever their
scale or offset; an integer is never the same as a decimal.
-/

namespace RowQuery

mutual

/-- A literal, or the content of a cell. -/
inductive Value where
  | null
  | bool (b : Bool)
  | int (n : Int64)
  | decimal (d : Decimal)
  | text (s : String)
  | instant (t : Instant)
  /-- The elements of a sequence; no document holds such a value. -/
  | list (items : List Value)
  /-- A document that is not looked into. -/
  | raw (document : Json)
  /-- The body of a quantifier. -/
  | filter (body : Filter)
deriving Repr

/-- A boolean tree over leaves. -/
inductive Filter where
  | and (children : List Filter)
  | or (children : List Filter)
  | not (child : Filter)
  /-- What is asked about the field under `key`. -/
  | leaf (key : String) (operator : Operator) (value : Value)
deriving Repr

end

/-! ## Kinds -/

inductive Value.Kind where
  | null
  | bool
  | int
  | decimal
  | text
  | instant
  | list
  | raw
  | filter
deriving Repr, DecidableEq

namespace Value.Kind

def label : Value.Kind → String
  | .null => "Null"
  | .bool => "Bool"
  | .int => "Int"
  | .decimal => "Decimal"
  | .text => "Text"
  | .instant => "Instant"
  | .list => "List"
  | .raw => "Raw"
  | .filter => "Filter"

/-- The place of a kind in the order of all values. The two numeric kinds
share one. -/
def rank : Value.Kind → Nat
  | .null => 0
  | .bool => 1
  | .int | .decimal => 2
  | .text => 3
  | .instant => 4
  | .list => 5
  | .raw => 6
  | .filter => 7

end Value.Kind

namespace Value

def kind : Value → Value.Kind
  | .null => .null
  | .bool _ => .bool
  | .int _ => .int
  | .decimal _ => .decimal
  | .text _ => .text
  | .instant _ => .instant
  | .list _ => .list
  | .raw _ => .raw
  | .filter _ => .filter

def rank (v : Value) : Nat := v.kind.rank

def isNull : Value → Bool
  | .null => true
  | _ => false

def isNumeric : Value → Bool
  | .int _ | .decimal _ => true
  | _ => false

def asText? : Value → Option String
  | .text s => some s
  | _ => none

def asFilter? : Value → Option Filter
  | .filter f => some f
  | _ => none

end Value

/-! ## Operands -/

mutual

/-- A value, and behind a filter the operands of its leaves. -/
def Value.operands : Value → List Value
  | .filter body => .filter body :: body.operands
  | v => [v]

def Filter.operands : Filter → List Value
  | .and children => Filter.operandsAll children
  | .or children => Filter.operandsAll children
  | .not child => child.operands
  | .leaf _ _ value => value.operands

def Filter.operandsAll : List Filter → List Value
  | [] => []
  | f :: rest => f.operands ++ Filter.operandsAll rest

end

/-! ## Depth -/

mutual

/-- How many bodies of quantifiers stand inside each other in a value. -/
def Value.depth : Value → Nat
  | .filter body => body.depth + 1
  | .list items => Value.depthOfAll items
  | _ => 0

def Value.depthOfAll : List Value → Nat
  | [] => 0
  | v :: rest => max v.depth (Value.depthOfAll rest)

def Filter.depth : Filter → Nat
  | .and children => Filter.depthOfAll children
  | .or children => Filter.depthOfAll children
  | .not child => child.depth
  | .leaf _ _ value => value.depth

def Filter.depthOfAll : List Filter → Nat
  | [] => 0
  | f :: rest => max f.depth (Filter.depthOfAll rest)

end

/-! ## Equality as data -/

mutual

/-- Equality of values as data. -/
def Value.same : Value → Value → Bool
  | .null, .null => true
  | .bool a, .bool b => a == b
  | .int a, .int b => a == b
  | .decimal a, .decimal b => a.numEq b
  | .text a, .text b => a == b
  | .instant a, .instant b => a.sameMoment b
  | .list as, .list bs => Value.sameAll as bs
  | .raw a, .raw b => a.same b
  | .filter a, .filter b => a.same b
  | _, _ => false

def Value.sameAll : List Value → List Value → Bool
  | [], [] => true
  | a :: as, b :: bs => a.same b && Value.sameAll as bs
  | _, _ => false

def Filter.same : Filter → Filter → Bool
  | .and as, .and bs => Filter.sameAll as bs
  | .or as, .or bs => Filter.sameAll as bs
  | .not a, .not b => a.same b
  | .leaf k o v, .leaf l p w => k == l && o == p && v.same w
  | _, _ => false

def Filter.sameAll : List Filter → List Filter → Bool
  | [], [] => true
  | a :: as, b :: bs => a.same b && Filter.sameAll as bs
  | _, _ => false

end

end RowQuery
