import RowQuery.Json.Number
import RowQuery.Number.DecimalText
import RowQuery.Time.InstantParser
import RowQuery.Value.Basic

/-!
# Values in documents

`Value.ofJson` gives a document the value that it most likely stands for: whole
numbers of 64 bits are integers, other numbers decimals where a decimal reaches
their power of ten, texts that can be read as instants are instants, and arrays and
objects stay documents. `Value.toJson` and `Filter.toJson` write values and
filters back.
-/

namespace RowQuery

/-- The value of a number. Its text is read as a decimal; a number that no
decimal holds stays a document. -/
def Value.ofJsonNumber (n : JsonNumber) : Value :=
  match n with
  | .whole i _ =>
      if i < 0x8000000000000000 then .int (Int64.ofInt i)
      else
        match Decimal.of? (i < 0) i.natAbs 0 with
        | some d => .decimal d
        | none => .raw (.number n)
  | .double d =>
      match Decimal.ofText? d.text with
      | some d => .decimal d
      | none => .raw (.number n)

def Value.ofJson : Json → Value
  | .null => .null
  | .bool b => .bool b
  | .number n => .ofJsonNumber n
  | .string s =>
      match Instant.parse? s with
      | some t => .instant t
      | none => .text s
  | document => .raw document

/-- A decimal as a document: its text, read as a number. -/
def Decimal.toJson (d : Decimal) : Json :=
  match JsonNumber.ofText? d.text with
  | some n => .number n
  | none => .string d.text

/-- An instant as a document; null if it has no text. -/
def Instant.toJson (t : Instant) : Json :=
  match t.text? with
  | some s => .string s
  | none => .null

mutual

def Value.toJson : Value → Json
  | .null => .null
  | .bool b => .bool b
  | .int n => .number (.ofInt64 n)
  | .decimal d => d.toJson
  | .text s => .string s
  | .instant t => t.toJson
  | .list items => .array (Value.toJsonAll items)
  | .raw document => document
  | .filter f => f.toJson

def Value.toJsonAll : List Value → List Json
  | [] => []
  | v :: rest => v.toJson :: Value.toJsonAll rest

/-- A filter as a document: an object with one key. -/
def Filter.toJson : Filter → Json
  | .and children => .object [("and", .array (Filter.toJsonAll children))]
  | .or children => .object [("or", .array (Filter.toJsonAll children))]
  | .not child => .object [("not", child.toJson)]
  | .leaf key operator value =>
      .object [("where", .object
        [("key", .string key), ("operator", .string operator.wireName),
          ("value", value.toJson)])]

def Filter.toJsonAll : List Filter → List Json
  | [] => []
  | f :: rest => f.toJson :: Filter.toJsonAll rest

end

end RowQuery
