import RowQuery.Number.DecimalText
import RowQuery.Schema.DataType
import RowQuery.Value.Basic

/-!
# Types of row fields

`AsValue` gives a type its field type and turns its members into values.
Integers of every width are integers; an unsigned one past the largest signed
one becomes the decimal of the same value. A floating-point number becomes its
decimal, or null if it has none. A missing option is null.
-/

namespace RowQuery

/-- A type that a field of a row may have. -/
class AsValue (α : Type) where
  dataType : DataType
  toValue : α → Value

def Value.ofUInt64 (n : UInt64) : Value :=
  if n.toNat < 0x8000000000000000 then .int n.toInt64 else .decimal (.ofUInt64 n)

def Value.ofFloat (x : Float) : Value :=
  match (Double.ofBits? x.toBits).bind Decimal.ofDouble? with
  | some d => .decimal d
  | none => .null

instance : AsValue Bool := ⟨.bool, .bool⟩

instance : AsValue Int8 := ⟨.int, fun n => .int n.toInt64⟩

instance : AsValue Int16 := ⟨.int, fun n => .int n.toInt64⟩

instance : AsValue Int32 := ⟨.int, fun n => .int n.toInt64⟩

instance : AsValue Int64 := ⟨.int, .int⟩

instance : AsValue UInt8 := ⟨.int, fun n => .int n.toUInt64.toInt64⟩

instance : AsValue UInt16 := ⟨.int, fun n => .int n.toUInt64.toInt64⟩

instance : AsValue UInt32 := ⟨.int, fun n => .int n.toUInt64.toInt64⟩

instance : AsValue UInt64 := ⟨.int, .ofUInt64⟩

instance : AsValue USize := ⟨.int, fun n => .ofUInt64 n.toUInt64⟩

instance : AsValue Float := ⟨.decimal, .ofFloat⟩

instance : AsValue Decimal := ⟨.decimal, .decimal⟩

instance : AsValue String := ⟨.text, .text⟩

instance : AsValue Instant := ⟨.instant, .instant⟩

instance : AsValue Json := ⟨.raw, .raw⟩

instance {α : Type} [kind : AsValue α] : AsValue (Option α) where
  dataType := kind.dataType
  toValue
    | some a => kind.toValue a
    | none => .null

instance {α : Type} [kind : AsValue α] : AsValue (List α) where
  dataType := .list kind.dataType
  toValue items := .list (items.map kind.toValue)

end RowQuery
