import RowQuery.Query.Decode

/-!
# The grammar of queries

The rules for what may stand at each place of a document for it to be a query.
A decoder takes two things besides: a part that is written by position, as an
array, and a choice that is written as an object with its name as the only key.
`Json.Plain` says that a document has neither at any place that is read.
-/

namespace RowQuery

/-- What a part of a document is read as. -/
inductive Place where
  | query
  | filter
  | operation
  | operator
  | order
  | direction
  | page
deriving Repr, DecidableEq

namespace Json

/-! ## The grammar -/

/-- Nothing stands under a key, or null. -/
def Vacant (key : String) (entries : List (String × Json)) : Prop :=
  ∀ document, findKey key entries = some document → document = .null

/-- Of the keys of a filter, none but `key` holds anything. -/
def Alone (key : String) (entries : List (String × Json)) : Prop :=
  ∀ other ∈ ["and", "or", "not", "where"], other ≠ key → Vacant other entries

/-- A whole number that is a page number or a page size. -/
def IsCount (document : Json) : Prop :=
  ∃ n h, document = .number (.whole n h) ∧ 1 ≤ n ∧ n < 0x100000000

/-- What may stand at a place. Entries under other keys than those named may be
anything. -/
inductive WellFormed : Place → Json → Prop
  | query {entries : List (String × Json)}
      (hfilter : ∀ filter, findKey "filter" entries = some filter → filter ≠ .null →
        WellFormed .filter filter)
      (horder : ∀ order, findKey "order" entries = some order → order ≠ .null →
        WellFormed .order order)
      (hpage : ∀ page, findKey "page" entries = some page → page ≠ .null →
        WellFormed .page page) :
      WellFormed .query (.object entries)
  | and {entries : List (String × Json)} {items : List Json} (halone : Alone "and" entries)
      (hand : findKey "and" entries = some (.array items))
      (hitems : ∀ item ∈ items, WellFormed .filter item) :
      WellFormed .filter (.object entries)
  | or {entries : List (String × Json)} {items : List Json} (halone : Alone "or" entries)
      (hor : findKey "or" entries = some (.array items))
      (hitems : ∀ item ∈ items, WellFormed .filter item) :
      WellFormed .filter (.object entries)
  | not {entries : List (String × Json)} {child : Json} (halone : Alone "not" entries)
      (hnot : findKey "not" entries = some child) (hchild : WellFormed .filter child) :
      WellFormed .filter (.object entries)
  | leaf {entries : List (String × Json)} {operation : Json} (halone : Alone "where" entries)
      (hwhere : findKey "where" entries = some operation)
      (hoperation : WellFormed .operation operation) :
      WellFormed .filter (.object entries)
  /-- Any value is an operand, but an object is one of a quantifier only as a filter. -/
  | operation {entries : List (String × Json)} {key : String} {operator : Operator}
      (hkey : findKey "key" entries = some (.string key))
      (hoperator : findKey "operator" entries = some (.string operator.wireName))
      (hbody : operator.isQuantifier = true → ∀ body,
        findKey "value" entries = some (.object body) → WellFormed .filter (.object body)) :
      WellFormed .operation (.object entries)
  | operator (operator : Operator) : WellFormed .operator (.string operator.wireName)
  | order {entries : List (String × Json)} {key : String}
      (hby : findKey "by" entries = some (.string key))
      (hdir : ∀ direction, findKey "dir" entries = some direction →
        WellFormed .direction direction)
      (hthen : ∀ rest, findKey "then" entries = some rest → rest ≠ .null →
        WellFormed .order rest) :
      WellFormed .order (.object entries)
  | direction (direction : Direction) : WellFormed .direction (.string direction.wireName)
  | page {entries : List (String × Json)}
      (hnum : ∀ number, findKey "num" entries = some number → number.IsCount)
      (hsize : ∀ size, findKey "size" entries = some size → size.IsCount) :
      WellFormed .page (.object entries)

/-! ## Plain documents -/

/-- The parts of a document that are read when it stands at a place, and the
places that they stand at. -/
inductive Part : Place → Json → Place → Json → Prop
  | filter {entries : List (String × Json)} {part : Json}
      (hpart : findKey "filter" entries = some part) :
      Part .query (.object entries) .filter part
  | order {entries : List (String × Json)} {part : Json}
      (hpart : findKey "order" entries = some part) :
      Part .query (.object entries) .order part
  | page {entries : List (String × Json)} {part : Json}
      (hpart : findKey "page" entries = some part) :
      Part .query (.object entries) .page part
  | inAnd {entries : List (String × Json)} {items : List Json} {part : Json}
      (hand : findKey "and" entries = some (.array items)) (hpart : part ∈ items) :
      Part .filter (.object entries) .filter part
  | inOr {entries : List (String × Json)} {items : List Json} {part : Json}
      (hor : findKey "or" entries = some (.array items)) (hpart : part ∈ items) :
      Part .filter (.object entries) .filter part
  | inNot {entries : List (String × Json)} {part : Json}
      (hpart : findKey "not" entries = some part) :
      Part .filter (.object entries) .filter part
  | operation {entries : List (String × Json)} {part : Json}
      (hpart : findKey "where" entries = some part) :
      Part .filter (.object entries) .operation part
  | operator {entries : List (String × Json)} {part : Json}
      (hpart : findKey "operator" entries = some part) :
      Part .operation (.object entries) .operator part
  | body {entries body : List (String × Json)} {operator : Operator}
      (hoperator : findKey "operator" entries = some (.string operator.wireName))
      (hquantifier : operator.isQuantifier = true)
      (hpart : findKey "value" entries = some (.object body)) :
      Part .operation (.object entries) .filter (.object body)
  | direction {entries : List (String × Json)} {part : Json}
      (hpart : findKey "dir" entries = some part) :
      Part .order (.object entries) .direction part
  | rest {entries : List (String × Json)} {part : Json}
      (hpart : findKey "then" entries = some part) :
      Part .order (.object entries) .order part

/-- A choice is not written as an object, and no other part as an array. -/
def ByName (document : Json) : Place → Prop
  | .operator | .direction => ∀ entries, document ≠ .object entries
  | _ => ∀ items, document ≠ .array items

/-- Documents in which all that is read is written by name. -/
inductive Plain : Place → Json → Prop
  | of {place : Place} {document : Json} (hform : document.ByName place)
      (hparts : ∀ other part, Part place document other part → Plain other part) :
      Plain place document

end Json

end RowQuery
