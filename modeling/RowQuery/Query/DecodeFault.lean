import RowQuery.Json.Number
import RowQuery.Query.Operator
import RowQuery.Query.Basic
import RowQuery.Text.Quoted

/-!
# What is wrong with a document

`DecodeFault` lists the faults for which a document is not a query, and
`DecodeFault.message` is the text for each.
-/

namespace RowQuery

/-- What a place of a document should hold. -/
inductive Expected where
  | query
  | filter
  | operation
  | order
  | page
  | sequence
  | string
  | integer
  | choice
  | nothing
deriving Repr, DecidableEq

def Expected.words : Expected → String
  | .query => "struct SearchQuery"
  | .filter => "struct WireFilter"
  | .operation => "struct WireOperation"
  | .order => "struct OrderSpec"
  | .page => "struct WirePage"
  | .sequence => "a sequence"
  | .string => "a string"
  | .integer => "i64"
  | .choice => "string or map"
  | .nothing => "unit"

def Json.words : Json → String
  | .null => "null"
  | .bool b => "boolean `" ++ (if b then "true" else "false") ++ "`"
  | .number (.whole n _) => "integer `" ++ intText n ++ "`"
  | .number (.double d) => "floating point `" ++ d.text ++ "`"
  | .string s => "string " ++ quotedText s
  | .array _ => "sequence"
  | .object _ => "map"

/-- A fault for which a document is not a query. -/
inductive DecodeFault where
  | malformed
  | missingField (name : String)
  | wrongType (found : Json) (expected : Expected)
  | largeInteger (n : Int)
  /-- A choice written as an object without exactly one key. -/
  | notSingleKey
  /-- An array that ends before a place that has no default. -/
  | tooShort (length : Nat) (expected : Expected) (places : Nat)
  | tooLong (length : Nat)
  | unknownOperator (name : String)
  | unknownDirection (name : String)
  /-- A filter without any of its four keys. -/
  | noFilterKey
  /-- A filter with more than one of its four keys. -/
  | manyFilterKeys
  | pageNumberRange (number : Int)
  | pageSizeRange (size : Int)
  | pageNumberZero
  | pageSizeZero
deriving Repr

def backquoted (name : String) : String := "`" ++ name ++ "`"

/-- The four keys of a filter, as messages list them. -/
def filterKeyList : String :=
  String.intercalate ", " (["and", "or", "not", "where"].map backquoted)

def DecodeFault.message : DecodeFault → String
  | .malformed => "malformed JSON"
  | .missingField name => "missing field " ++ backquoted name
  | .wrongType found expected =>
      "invalid type: " ++ found.words ++ ", expected " ++ expected.words
  | .largeInteger n => "invalid value: integer `" ++ intText n ++ "`, expected i64"
  | .notSingleKey => "invalid value: map, expected map with a single key"
  | .tooShort length expected places =>
      "invalid length " ++ natText length ++ ", expected " ++ expected.words ++ " with "
        ++ natText places ++ " elements"
  | .tooLong length =>
      "invalid length " ++ natText length ++ ", expected fewer elements in array"
  | .unknownOperator name =>
      "unknown variant " ++ backquoted name ++ ", expected one of "
        ++ String.intercalate ", " (Operator.values.map fun o => backquoted o.wireName)
  | .unknownDirection name =>
      "unknown variant " ++ backquoted name ++ ", expected `Asc` or `Desc`"
  | .noFilterKey => "filter has none of the keys " ++ filterKeyList
  | .manyFilterKeys => "filter must carry exactly one of the keys " ++ filterKeyList
  | .pageNumberRange n => "page number " ++ intText n ++ " is out of range"
  | .pageSizeRange n => "page size " ++ intText n ++ " is out of range"
  | .pageNumberZero => "page number must be positive"
  | .pageSizeZero => "page size must be positive"

/-- A page with a number and a size, which have to be positive. -/
def Page.of (number size : UInt32) : Except DecodeFault Page :=
  if hn : 0 < number then
    if hs : 0 < size then .ok ⟨number, size, hn, hs⟩ else .error .pageSizeZero
  else .error .pageNumberZero

end RowQuery
