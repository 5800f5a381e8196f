import RowQuery.Json.Parser
import RowQuery.Query.DecodeFault
import RowQuery.Value.Wire

/-!
# Queries from documents

`Query.ofJson` decodes a document, `Query.ofText` a text. Every part of a query
may be written as an object or, by position, as an array. The entries of an
object are visited in key order and the first fault found is the answer; fields
that are missing are reported after those that are there. Entries under other
keys are ignored.

A filter has exactly one of the keys `and`, `or`, `not` and `where`, null
counting as missing. Under the quantifiers an object is the filter for the
elements; any other operand is a plain value.
-/

namespace RowQuery

/-! ## Leaves of a document -/

def decodeString : Json → Except DecodeFault String
  | .string s => .ok s
  | found => .error (.wrongType found .string)

def decodeInteger : Json → Except DecodeFault Int
  | .number (.whole n _) => if n < 0x8000000000000000 then .ok n else .error (.largeInteger n)
  | found => .error (.wrongType found .integer)

/-- The name of a choice: a string, or the only key of an object that holds
null. -/
def decodeChoice {α : Type} (known : String → Except DecodeFault α) :
    Json → Except DecodeFault α
  | .string name => known name
  | .object [(name, payload)] =>
      match known name, payload with
      | .error e, _ => .error e
      | .ok choice, .null => .ok choice
      | .ok _, found => .error (.wrongType found .nothing)
  | .object _ => .error .notSingleKey
  | found => .error (.wrongType found .choice)

def decodeOperator : Json → Except DecodeFault Operator :=
  decodeChoice fun name =>
    match Operator.ofWireName? name with
    | some operator => .ok operator
    | none => .error (.unknownOperator name)

def decodeDirection : Json → Except DecodeFault Direction :=
  decodeChoice fun name =>
    match Direction.ofWireName? name with
    | some direction => .ok direction
    | none => .error (.unknownDirection name)

/-- Fails if an array has more items than places. -/
def checkLength (places : Nat) (items : List Json) : Except DecodeFault Unit :=
  if places < items.length then .error (.tooLong items.length) else .ok ()

/-- The answer for a field without default: what was found, or its absence. -/
def required {α : Type} (name : String) : Option α → Except DecodeFault α
  | some a => .ok a
  | none => .error (.missingField name)

/-- Null, or what the document is decoded to. -/
def optionally {α : Type} (document : Json) (decoded : Except DecodeFault α) :
    Except DecodeFault (Option α) :=
  match document with
  | .null => .ok none
  | _ => decoded.map some

/-! ## Filters -/

/-- What the four keys of a filter hold. -/
structure FilterParts where
  and : Option (List Filter)
  or : Option (List Filter)
  not : Option Filter
  leaf : Option Filter
deriving Repr

def FilterParts.empty : FilterParts := { and := none, or := none, not := none, leaf := none }

/-- The filter, if exactly one key holds something. -/
def FilterParts.filter : FilterParts → Except DecodeFault Filter
  | ⟨some children, none, none, none⟩ => .ok (.and children)
  | ⟨none, some children, none, none⟩ => .ok (.or children)
  | ⟨none, none, some child, none⟩ => .ok (.not child)
  | ⟨none, none, none, some leaf⟩ => .ok leaf
  | ⟨none, none, none, none⟩ => .error .noFilterKey
  | _ => .error .manyFilterKeys

/-- An operand, and what it is when read as the filter for elements. -/
structure Operand where
  document : Json
  body : Except DecodeFault Filter

/-- The operand where none is written. -/
def Operand.missing : Operand :=
  { document := .null, body := .error (.wrongType .null .filter) }

def Operand.value (operand : Operand) (operator : Operator) : Except DecodeFault Value :=
  if operator.isQuantifier && operand.document.isObject then operand.body.map .filter
  else .ok (.ofJson operand.document)

/-- What the keys of an operation hold. -/
structure OperationParts where
  key : Option String
  operator : Option Operator
  operand : Option Operand

def OperationParts.empty : OperationParts := { key := none, operator := none, operand := none }

def leafOf (key : String) (operator : Operator) (operand : Operand) :
    Except DecodeFault Filter :=
  (operand.value operator).map (.leaf key operator)

/-- The leaf, if key and operator are there. -/
def OperationParts.leaf (parts : OperationParts) : Except DecodeFault Filter := do
  let key ← required "key" parts.key
  let operator ← required "operator" parts.operator
  leafOf key operator (parts.operand.getD .missing)

mutual

def Filter.ofJson : Json → Except DecodeFault Filter
  | .object entries =>
      match filterEntries .empty entries with
      | .ok parts => parts.filter
      | .error e => .error e
  | .array items =>
      match filterItems items with
      | .ok parts =>
          match checkLength 4 items with
          | .ok () => parts.filter
          | .error e => .error e
      | .error e => .error e
  | found => .error (.wrongType found .filter)

def filterEntries (parts : FilterParts) :
    List (String × Json) → Except DecodeFault FilterParts
  | [] => .ok parts
  | (key, document) :: rest =>
      if key = "and" then
        match optionalChildren document with
        | .ok and => filterEntries { parts with and } rest
        | .error e => .error e
      else if key = "or" then
        match optionalChildren document with
        | .ok or => filterEntries { parts with or } rest
        | .error e => .error e
      else if key = "not" then
        match optionally document (Filter.ofJson document) with
        | .ok not => filterEntries { parts with not } rest
        | .error e => .error e
      else if key = "where" then
        match optionalLeaf document with
        | .ok leaf => filterEntries { parts with leaf } rest
        | .error e => .error e
      else filterEntries parts rest

def filterItems : List Json → Except DecodeFault FilterParts
  | a :: o :: n :: w :: _ => do
      let and ← optionalChildren a
      let or ← optionalChildren o
      let not ← optionally n (Filter.ofJson n)
      let leaf ← optionalLeaf w
      return { and, or, not, leaf }
  | [a, o, n] => do
      let _ ← optionalChildren a
      let _ ← optionalChildren o
      let _ ← optionally n (Filter.ofJson n)
      .error (.tooShort 3 .filter 4)
  | [a, o] => do
      let _ ← optionalChildren a
      let _ ← optionalChildren o
      .error (.tooShort 2 .filter 4)
  | [a] => do
      let _ ← optionalChildren a
      .error (.tooShort 1 .filter 4)
  | [] => .error (.tooShort 0 .filter 4)

/-- Null, or a list of filters. -/
def optionalChildren : Json → Except DecodeFault (Option (List Filter))
  | .null => .ok none
  | .array items => (Filter.ofJsonAll items).map some
  | found => .error (.wrongType found .sequence)

def Filter.ofJsonAll : List Json → Except DecodeFault (List Filter)
  | [] => .ok []
  | document :: rest => do
      let f ← Filter.ofJson document
      let fs ← Filter.ofJsonAll rest
      return f :: fs

def optionalLeaf : Json → Except DecodeFault (Option Filter)
  | .null => .ok none
  | .object entries =>
      match operationEntries .empty entries with
      | .ok parts => parts.leaf.map some
      | .error e => .error e
  | .array items =>
      match operationItems items with
      | .ok (key, operator, operand) =>
          match checkLength 3 items with
          | .ok () => (leafOf key operator operand).map some
          | .error e => .error e
      | .error e => .error e
  | found => .error (.wrongType found .operation)

def operationEntries (parts : OperationParts) :
    List (String × Json) → Except DecodeFault OperationParts
  | [] => .ok parts
  | (key, document) :: rest =>
      if key = "key" then
        match decodeString document with
        | .ok name => operationEntries { parts with key := some name } rest
        | .error e => .error e
      else if key = "operator" then
        match decodeOperator document with
        | .ok operator => operationEntries { parts with operator := some operator } rest
        | .error e => .error e
      else if key = "value" then
        operationEntries
          { parts with operand := some { document, body := Filter.ofJson document } } rest
      else operationEntries parts rest

def operationItems : List Json → Except DecodeFault (String × Operator × Operand)
  | k :: o :: v :: _ => do
      let key ← decodeString k
      let operator ← decodeOperator o
      return (key, operator, { document := v, body := Filter.ofJson v })
  | [k, o] => do
      let key ← decodeString k
      let operator ← decodeOperator o
      return (key, operator, .missing)
  | [k] => do
      let _ ← decodeString k
      .error (.tooShort 1 .operation 3)
  | [] => .error (.tooShort 0 .operation 3)

end

/-! ## Orders -/

/-- What the keys of an order link hold. -/
structure OrderParts where
  key : Option String
  direction : Direction
  rest : Option Order
deriving Repr

def OrderParts.empty : OrderParts := { key := none, direction := .asc, rest := none }

/-- A chain from a link and the chain behind it. -/
def Order.ofLink (link : OrderLink) : Option Order → Order
  | none => .last link
  | some rest => .next link rest

def OrderParts.order (parts : OrderParts) : Except DecodeFault Order :=
  (required "by" parts.key).map fun key =>
    .ofLink { key, direction := parts.direction } parts.rest

mutual

def Order.ofJson : Json → Except DecodeFault Order
  | .object entries =>
      match orderEntries .empty entries with
      | .ok parts => parts.order
      | .error e => .error e
  | .array items =>
      match orderItems items with
      | .ok parts =>
          match checkLength 3 items with
          | .ok () => parts.order
          | .error e => .error e
      | .error e => .error e
  | found => .error (.wrongType found .order)

def orderEntries (parts : OrderParts) : List (String × Json) → Except DecodeFault OrderParts
  | [] => .ok parts
  | (key, document) :: rest =>
      if key = "by" then
        match decodeString document with
        | .ok name => orderEntries { parts with key := some name } rest
        | .error e => .error e
      else if key = "dir" then
        match decodeDirection document with
        | .ok direction => orderEntries { parts with direction } rest
        | .error e => .error e
      else if key = "then" then
        match optionally document (Order.ofJson document) with
        | .ok order => orderEntries { parts with rest := order } rest
        | .error e => .error e
      else orderEntries parts rest

def orderItems : List Json → Except DecodeFault OrderParts
  | k :: d :: t :: _ => do
      let key ← decodeString k
      let direction ← decodeDirection d
      let rest ← optionally t (Order.ofJson t)
      return { key := some key, direction, rest }
  | [k, d] => do
      let key ← decodeString k
      let direction ← decodeDirection d
      return { key := some key, direction, rest := none }
  | [k] => do
      let key ← decodeString k
      return { key := some key, direction := .asc, rest := none }
  | [] => .error (.tooShort 0 .order 3)

end

/-! ## Pages -/

/-- An integer as an unsigned word of 32 bits. -/
def wordOf? (n : Int) : Option UInt32 :=
  if 0 ≤ n ∧ n < 0x100000000 then some (UInt32.ofNat n.toNat) else none

def Page.ofIntegers (number size : Int) : Except DecodeFault Page := do
  let some n := wordOf? number | .error (.pageNumberRange number)
  let some s := wordOf? size | .error (.pageSizeRange size)
  Page.of n s

def pageEntries (number size : Int) : List (String × Json) → Except DecodeFault (Int × Int)
  | [] => .ok (number, size)
  | (key, document) :: rest => do
      if key = "num" then
        pageEntries (← decodeInteger document) size rest
      else if key = "size" then
        pageEntries number (← decodeInteger document) rest
      else pageEntries number size rest

def pageItems : List Json → Except DecodeFault (Int × Int)
  | n :: s :: _ => do
      let number ← decodeInteger n
      let size ← decodeInteger s
      return (number, size)
  | [n] => do return (← decodeInteger n, Page.defaultSize.toNat)
  | [] => .ok (1, Page.defaultSize.toNat)

/-- Null, or a page. An object without a size takes `size`. -/
def optionalPage (size : UInt32) : Json → Except DecodeFault (Option Page)
  | .null => .ok none
  | .object entries => do
      let (number, size) ← pageEntries 1 size.toNat entries
      return some (← Page.ofIntegers number size)
  | .array items => do
      let (number, size) ← pageItems items
      checkLength 2 items
      return some (← Page.ofIntegers number size)
  | found => .error (.wrongType found .page)

/-! ## Queries -/

def queryEntries (size : UInt32) (query : Query) :
    List (String × Json) → Except DecodeFault Query
  | [] => .ok query
  | (key, document) :: rest => do
      if key = "filter" then
        let filter ← optionally document (Filter.ofJson document)
        queryEntries size { query with filter } rest
      else if key = "order" then
        let order ← optionally document (Order.ofJson document)
        queryEntries size { query with order } rest
      else if key = "page" then
        let page ← optionalPage size document
        queryEntries size { query with page } rest
      else queryEntries size query rest

/-- A query written as an array. Its page does not take the configured size. -/
def queryItems : List Json → Except DecodeFault Query
  | f :: o :: p :: _ => do
      let filter ← optionally f (Filter.ofJson f)
      let order ← optionally o (Order.ofJson o)
      let page ← optionalPage Page.defaultSize p
      return { filter, order, page }
  | [f, o] => do
      let filter ← optionally f (Filter.ofJson f)
      let order ← optionally o (Order.ofJson o)
      return { filter, order, page := none }
  | [f] => do
      let filter ← optionally f (Filter.ofJson f)
      return { filter, order := none, page := none }
  | [] => .ok .everything

/-- The query of a document. A page written as an object without a size takes
`size`. -/
def Query.ofJson (size : UInt32) : Json → Except DecodeFault Query
  | .object entries => queryEntries size .everything entries
  | .array items => do
      let query ← queryItems items
      checkLength 3 items
      return query
  | found => .error (.wrongType found .query)

def Query.ofText (size : UInt32) (text : String) : Except DecodeFault Query :=
  match Json.parse? text with
  | some document => Query.ofJson size document
  | none => .error .malformed

end RowQuery
