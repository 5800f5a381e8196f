import RowQuery.Value.Basic

/-!
# Queries

A query has an optional filter, an optional order and an optional page.

An order is a chain of links, the first link deciding and each later one
breaking the ties that are left. `Order.append` puts one chain behind another.

A page is a window of rows given by a page number, counted from one, and a page
size, both positive. `Page.skip` and `Page.take` are the window in rows, in
64-bit arithmetic.
-/

namespace RowQuery

/-! ## Orders -/

inductive Direction where
  | asc
  | desc
deriving Repr, DecidableEq

namespace Direction

/-- The outcome of an ascending comparison, seen in a direction. -/
def apply : Direction → Ordering → Ordering
  | .asc, o => o
  | .desc, o => o.swap

def name : Direction → String
  | .asc => "asc"
  | .desc => "desc"

def wireName : Direction → String
  | .asc => "Asc"
  | .desc => "Desc"

def ofWireName? (name : String) : Option Direction :=
  [asc, desc].find? fun direction => direction.wireName == name

end Direction

/-- One link of an order: a key and a direction. -/
structure OrderLink where
  key : String
  direction : Direction
deriving Repr, DecidableEq

/-- A chain of order links, the deciding one first. -/
inductive Order where
  | last (link : OrderLink)
  | next (link : OrderLink) (rest : Order)
deriving Repr, DecidableEq

namespace Order

def single (key : String) (direction : Direction) : Order := .last { key, direction }

/-- The links of a chain behind those of another. -/
def append : Order → Order → Order
  | .last link, rest => .next link rest
  | .next link tail, rest => .next link (tail.append rest)

def first : Order → OrderLink
  | .last link => link
  | .next link _ => link

def later : Order → List OrderLink
  | .last _ => []
  | .next _ rest => rest.first :: rest.later

/-- The links of a chain, the deciding one first. -/
def links (order : Order) : List OrderLink := order.first :: order.later

end Order

/-! ## Pages -/

/-- A page number, counted from one, and a page size. -/
structure Page where
  number : UInt32
  size : UInt32
  number_pos : 0 < number
  size_pos : 0 < size
deriving Repr, DecidableEq

namespace Page

/-- The page size where a query does not say. -/
def defaultSize : UInt32 := 20

def isFirst (page : Page) : Bool := page.number == 1

/-- The number of rows before the page. -/
def skip (page : Page) : UInt64 := (page.number - 1).toUInt64 * page.size.toUInt64

def take (page : Page) : UInt64 := page.size.toUInt64

end Page

/-! ## Queries -/

/-- A filter, an order and a page, each of which may be missing. -/
structure Query where
  filter : Option Filter
  order : Option Order
  page : Option Page
deriving Repr

def Query.everything : Query := { filter := none, order := none, page := none }

def Filter.sameOption : Option Filter → Option Filter → Bool
  | none, none => true
  | some a, some b => a.same b
  | _, _ => false

/-- Equality of queries as data. -/
def Query.same (a b : Query) : Bool :=
  Filter.sameOption a.filter b.filter && a.order == b.order && a.page == b.page

end RowQuery
