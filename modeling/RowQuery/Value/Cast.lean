import RowQuery.Schema.DataType
import RowQuery.Value.Wire

/-!
# Values and field types

`DataType.accepts` says when a literal may be compared with a field of a
type. `Value.castTo?` converts a literal to a type without loss, or not at all:
numbers between the two numeric types, lists element by element, and anything
but a filter into a document.
-/

namespace RowQuery

mutual

/-- Whether a literal may be compared with a field of a type. -/
def DataType.accepts : DataType → Value → Bool
  | _, .null => true
  | .bool, .bool _ => true
  | .int, .int _ => true
  | .int, .decimal _ => true
  | .decimal, .int _ => true
  | .decimal, .decimal _ => true
  | .text, .text _ => true
  | .instant, .instant _ => true
  | .raw, .raw _ => true
  | .list element, .list items => element.acceptsAll items
  | _, _ => false

def DataType.acceptsAll (type : DataType) : List Value → Bool
  | [] => true
  | v :: rest => type.accepts v && type.acceptsAll rest

end

mutual

/-- The value as one of a type, if that loses nothing. -/
def Value.castTo? : Value → DataType → Option Value
  | .null, _ => some .null
  | .bool b, .bool => some (.bool b)
  | .int n, .int => some (.int n)
  | .int n, .decimal => some (.decimal (.ofInt64 n))
  | .decimal d, .decimal => some (.decimal d)
  | .decimal d, .int => d.toInt64?.map .int
  | .text s, .text => some (.text s)
  | .instant t, .instant => some (.instant t)
  | .raw document, .raw => some (.raw document)
  | .list items, .list element => (Value.castAll? items element).map .list
  | .filter _, _ => none
  | v, .raw => some (.raw v.toJson)
  | _, _ => none

def Value.castAll? : List Value → DataType → Option (List Value)
  | [], _ => some []
  | v :: rest, type =>
      match v.castTo? type, Value.castAll? rest type with
      | some w, some ws => some (w :: ws)
      | _, _ => none

end

end RowQuery
