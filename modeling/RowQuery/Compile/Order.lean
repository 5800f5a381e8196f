import RowQuery.Schema.FieldTable
import RowQuery.Value.Order

/-!
# Resolving orders

`Order.resolve` finds the field of every link of an order. The result keeps the
links as they stand, the deciding one first.
-/

namespace RowQuery

/-- A link of an order with the field that it reads. -/
structure ResolvedLink where
  /-- The key as it is written in the query. -/
  key : String
  field : FieldAccess
  direction : Direction
deriving Repr, DecidableEq

namespace ResolvedLink

/-- What a row is sorted by under this link. -/
def sortKey (link : ResolvedLink) (view : RowView) : Reading Value := link.field.read view

def compare (link : ResolvedLink) (a b : Value) : Ordering :=
  link.direction.apply (a.sortOrder b)

def display (link : ResolvedLink) : String := link.key ++ " " ++ link.direction.name

end ResolvedLink

/-- The links of an order, the deciding one apart. -/
structure ResolvedOrder where
  primary : ResolvedLink
  later : List ResolvedLink
deriving Repr, DecidableEq

namespace ResolvedOrder

def links (order : ResolvedOrder) : List ResolvedLink := order.primary :: order.later

def display (order : ResolvedOrder) : String :=
  String.intercalate ", " (order.links.map ResolvedLink.display)

end ResolvedOrder

namespace OrderLink

/-- Finds the field of a link. -/
def resolve (table : FieldTable) (link : OrderLink) : Except QueryFault ResolvedLink :=
  (table.lookup link.key).map fun field =>
    { key := link.key, field, direction := link.direction }

def resolveAll (table : FieldTable) : List OrderLink → Except QueryFault (List ResolvedLink)
  | [] => .ok []
  | link :: rest => do
      let resolved ← link.resolve table
      let others ← resolveAll table rest
      return resolved :: others

end OrderLink

def Order.resolve (table : FieldTable) (order : Order) : Except QueryFault ResolvedOrder := do
  let primary ← order.first.resolve table
  let later ← OrderLink.resolveAll table order.later
  return { primary, later }

end RowQuery
