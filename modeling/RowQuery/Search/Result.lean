import RowQuery.Json.Basic

/-!
# Search results

What a search returns: items, the range of positions that they have among all
rows that pass the filter, counted from one, and the number of those rows. The
range of no items ends one before it begins. Positions are 64-bit words.
-/

namespace RowQuery

/-- Items, where they stand, and how many there are in all. -/
structure SearchResult (O : Type) where
  items : List O
  first : UInt64
  last : UInt64
  /-- The number of all rows that pass the filter. -/
  total : UInt64
deriving Repr, DecidableEq

namespace SearchResult

variable {O P : Type}

/-- The result for items before which a number of rows was left out. -/
def of (items : List O) (skipped total : UInt64) : SearchResult O :=
  { items
    first := skipped + 1
    last := skipped + 1 + items.length.toUInt64 - 1
    total }

def size (result : SearchResult O) : Nat := result.items.length

def isEmpty (result : SearchResult O) : Bool := result.items.isEmpty

/-- The same range with other items. -/
def map (f : O → P) (result : SearchResult O) : SearchResult P :=
  { items := result.items.map f
    first := result.first
    last := result.last
    total := result.total }

def toJson (result : SearchResult Json) : Json :=
  .object [("items", .array result.items), ("from", .number (.ofUInt64 result.first)),
    ("to", .number (.ofUInt64 result.last)), ("total", .number (.ofUInt64 result.total))]

end SearchResult

end RowQuery
