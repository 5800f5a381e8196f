/-!
# Field types

The static type of a field: a scalar type, or lists of a type. `raw` is a json
document that is not looked into.
-/

namespace RowQuery

/-- The static type of a field. -/
inductive DataType where
  | bool
  | int
  | decimal
  | text
  | instant
  | raw
  | list (element : DataType)
deriving Repr, DecidableEq

namespace DataType

def element? : DataType → Option DataType
  | .list element => some element
  | _ => none

def isText : DataType → Bool
  | .text => true
  | _ => false

def isNumeric : DataType → Bool
  | .int | .decimal => true
  | _ => false

/-- How many lists stand around the innermost type. -/
def depth : DataType → Nat
  | .list element => element.depth + 1
  | _ => 0

def name : DataType → String
  | .bool => "Bool"
  | .int => "Int"
  | .decimal => "Decimal"
  | .text => "Text"
  | .instant => "Instant"
  | .raw => "Raw"
  | .list element => "List<" ++ element.name ++ ">"

end DataType

end RowQuery
