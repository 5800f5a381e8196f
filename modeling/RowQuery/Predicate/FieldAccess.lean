import RowQuery.Predicate.Reading
import RowQuery.Schema.DataType

/-!
# How fields are read

A field of a row is read as one value, as a sequence whose elements are taken
on demand, or as a snapshot for which all elements are taken first. Inside the
body of a quantifier there is one field, the element itself.
-/

namespace RowQuery

/-- The name of the element inside the body of a quantifier. -/
def elementKey : String := "value"

inductive SnapshotForm where
  | list
  | array
deriving Repr, DecidableEq

/-- How a field is read. -/
inductive FieldAccess where
  | member (name : String) (slot : Nat) (type : DataType)
  /-- Elements, taken on demand. -/
  | sequence (name : String) (slot : Nat) (element : DataType)
  /-- The element of the enclosing quantifier. -/
  | element (type : DataType)
  | snapshot (form : SnapshotForm) (source : FieldAccess)
deriving Repr, DecidableEq

namespace FieldAccess

def type : FieldAccess → DataType
  | .member _ _ t => t
  | .sequence _ _ t => .list t
  | .element t => t
  | .snapshot _ source => source.type

def elementType? (field : FieldAccess) : Option DataType := field.type.element?

/-- The field without its outermost snapshot, so that elements are taken on
demand. -/
def onDemand : FieldAccess → FieldAccess
  | .snapshot _ source => source
  | field => field

/-- Reads everything; a sequence becomes a list. -/
def read (view : RowView) : FieldAccess → Reading Value
  | .member _ slot _ => view.whole slot
  | .sequence _ slot _ => (Elements.collect (view.elements slot)).map .list
  | .element _ => .free (view.current.getD .null)
  | .snapshot _ source => source.read view

/-- The elements of what is read. A single value has itself as its element, and
null has none. -/
def elements (view : RowView) : FieldAccess → Elements
  | .member _ slot _ => (view.whole slot).andThen Elements.ofValue
  | .sequence _ slot _ => view.elements slot
  | .element _ => Elements.ofValue (view.current.getD .null)
  | .snapshot _ source => Elements.snapshot (source.elements view)

def display : FieldAccess → String
  | .member name _ _ => name
  | .sequence name _ _ => name
  | .element _ => elementKey
  | .snapshot .list source => source.display ++ ".to_list()"
  | .snapshot .array source => source.display ++ ".to_array()"

end FieldAccess

end RowQuery
