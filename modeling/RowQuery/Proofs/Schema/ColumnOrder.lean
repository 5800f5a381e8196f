import RowQuery.Proofs.Schema.IntegerType
import RowQuery.Proofs.Value.SortOrder

/-!
# The order of columns

A column holds members of a type, and sorting by it compares their values. For
the types of `ColumnType` this is the order of the members themselves
(`ColumnType.sortOrder_toValue`): false comes before true, numbers go by size,
texts by bytes, instants by moment, what is missing comes first, and lists go by
their first difference.

The values of one column may be of several kinds. Large integers are decimals
among integers, which have one rank and compare by number; null is the only
value of its rank, since what is optional is not optional itself.
-/

namespace RowQuery

/-! ## Types of columns -/

/-- A type of the members of a column; the index says whether members may be
missing. -/
inductive ColumnType : (nullable : Bool) → Type where
  | bool : ColumnType false
  | integer (type : IntegerType) : ColumnType false
  | decimal : ColumnType false
  | text : ColumnType false
  | instant : ColumnType false
  | many {nullable : Bool} (element : ColumnType nullable) : ColumnType false
  /-- A member or none, of a type that always has members. -/
  | optional (content : ColumnType false) : ColumnType true
deriving Repr

namespace ColumnType

/-- The members of a column. -/
def Carrier : {nullable : Bool} → ColumnType nullable → Type
  | _, .bool => Bool
  | _, .integer type => type.Carrier
  | _, .decimal => Decimal
  | _, .text => String
  | _, .instant => Instant
  | _, .many element => List element.Carrier
  | _, .optional content => Option content.Carrier

/-- How the members of a column are values. -/
@[reducible] def kind : {nullable : Bool} → (type : ColumnType nullable) → AsValue type.Carrier
  | _, .bool => inferInstanceAs (AsValue Bool)
  | _, .integer type => type.kind
  | _, .decimal => inferInstanceAs (AsValue Decimal)
  | _, .text => inferInstanceAs (AsValue String)
  | _, .instant => inferInstanceAs (AsValue Instant)
  | _, .many element =>
      have := element.kind
      inferInstanceAs (AsValue (List element.Carrier))
  | _, .optional content =>
      have := content.kind
      inferInstanceAs (AsValue (Option content.Carrier))

/-- Compares what may be missing; nothing comes before everything. -/
def compareOption {α : Type} (cmp : α → α → Ordering) : Option α → Option α → Ordering
  | none, none => .eq
  | none, some _ => .lt
  | some _, none => .gt
  | some a, some b => cmp a b

/-- The order of the members of a column, without their values. -/
def compare : {nullable : Bool} → (type : ColumnType nullable) →
    type.Carrier → type.Carrier → Ordering
  | _, .bool => fun (a b : Bool) => Ord.compare a b
  | _, .integer type => fun a b => Ord.compare (type.number a) (type.number b)
  | _, .decimal => fun a b => Ord.compare (Decimal.value a) (Decimal.value b)
  | _, .text => fun a b => List.compareLex Ord.compare (textBytes a) (textBytes b)
  | _, .instant => fun a b => Ord.compare (Instant.unixNanos a) (Instant.unixNanos b)
  | _, .many element => List.compareLex element.compare
  | _, .optional content => compareOption content.compare

end ColumnType

/-! ## Values of columns -/

/-- A member of an integer column compares by its number, whichever kind of
value it becomes. -/
theorem IntegerType.sortOrder_eq_compare_number (type : IntegerType) (x y : type.Carrier) :
    (type.kind.toValue x).sortOrder (type.kind.toValue y)
      = compare (type.number x) (type.number y) := by
  obtain ⟨hx, hxnumber⟩ := type.number_toValue x
  obtain ⟨hy, hynumber⟩ := type.number_toValue y
  have hstrict := Value.strictOrder?_of_isNumeric hx hy
  rw [hxnumber, hynumber, Value.compare_intCast] at hstrict
  exact Value.sortOrder_of_strictOrder? hstrict

/-- Images compare lexicographically as what they are the images of does, if
single images do. -/
theorem compareLex_map {α β : Type} {f : α → β} {cmp : β → β → Ordering}
    {cmp' : α → α → Ordering} (h : ∀ a b, cmp (f a) (f b) = cmp' a b) : ∀ as bs : List α,
    List.compareLex cmp (as.map f) (bs.map f) = List.compareLex cmp' as bs
  | [], [] => rfl
  | [], _ :: _ => rfl
  | _ :: _, [] => rfl
  | a :: as, b :: bs => by
      rw [List.map_cons, List.map_cons, List.compareLex_cons_cons, List.compareLex_cons_cons, h,
        compareLex_map h as bs]

namespace ColumnType

/-- Only what may be missing becomes null. -/
theorem rank_toValue_pos (type : ColumnType false) (x : type.Carrier) :
    0 < (type.kind.toValue x).rank := by
  cases type with
  | integer type =>
      obtain ⟨hnumeric, -⟩ := type.number_toValue x
      exact Nat.lt_of_lt_of_eq Nat.two_pos (Value.isNumeric_iff_rank.mp hnumeric).symm
  | bool => exact Nat.one_pos
  | decimal => exact Nat.two_pos
  | text => exact Nat.succ_pos 2
  | instant => exact Nat.succ_pos 3
  | many element => exact Nat.succ_pos 4

/-- Sorting by a column compares its members in their own order, by induction
on the type of the column. -/
theorem sortOrder_toValue : ∀ {nullable : Bool} (type : ColumnType nullable)
    (x y : type.Carrier),
    (type.kind.toValue x).sortOrder (type.kind.toValue y) = type.compare x y
  | _, .bool, _, _ => Value.sortOrder_of_strictOrder? rfl
  | _, .integer type, x, y => type.sortOrder_eq_compare_number x y
  | _, .decimal, x, y => by
      have hstrict : Value.strictOrder? (.decimal x) (.decimal y)
          = some (Ord.compare (Decimal.value x) (Decimal.value y)) :=
        congrArg some (Decimal.compare_eq_compare_value x y)
      exact Value.sortOrder_of_strictOrder? hstrict
  | _, .text, _, _ => Value.sortOrder_of_strictOrder? rfl
  | _, .instant, _, _ => Value.sortOrder_of_strictOrder? rfl
  | _, .many element, x, y => by
      show Value.sortOrderAll (List.map element.kind.toValue x) (List.map element.kind.toValue y)
        = List.compareLex element.compare x y
      rw [Value.sortOrderAll_eq]
      exact compareLex_map (sortOrder_toValue element) x y
  | _, .optional content, none, none => rfl
  | _, .optional content, none, some y => by
      have hpos := content.rank_toValue_pos y
      have hrank : Value.null.rank ≠ (content.kind.toValue y).rank := Nat.ne_of_lt hpos
      show Value.null.sortOrder (content.kind.toValue y) = .lt
      rw [Value.sortOrder_of_rank_ne hrank]
      exact Nat.compare_eq_lt.mpr hpos
  | _, .optional content, some x, none => by
      have hpos := content.rank_toValue_pos x
      have hrank : (content.kind.toValue x).rank ≠ Value.null.rank := Nat.ne_of_gt hpos
      show (content.kind.toValue x).sortOrder .null = .gt
      rw [Value.sortOrder_of_rank_ne hrank]
      exact Nat.compare_eq_gt.mpr hpos
  | _, .optional content, some x, some y => sortOrder_toValue content x y

/-- A list of optional words: the one past the signed words is a decimal. -/
example :
    let type : ColumnType false := .many (.optional (.integer .uint64))
    (type.kind.toValue [none, some (9223372036854775808 : UInt64)]).sortOrder
      (type.kind.toValue [none, some (9223372036854775807 : UInt64), none]) = .gt := by
  decide +kernel

end ColumnType

end RowQuery
