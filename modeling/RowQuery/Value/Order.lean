import RowQuery.Json.Printer
import RowQuery.Text.Order
import RowQuery.Value.Basic

/-!
# Comparing values

Three relations on values:

* `Value.strictOrder?` is the order that comparing operators use. It is defined
  for scalars of one kind, integers and decimals counting as one.
* `Value.equal` is the equality that filters use: null equals null only, lists
  are equal element by element, numbers by value.
* `Value.sortOrder` orders all values: first by kind, null being the smallest,
  then by `strictOrder?`, lists element by element and documents by their text.
  Filters are all alike to it.
-/

namespace RowQuery

namespace Value

/-- The order of two scalars of compatible kinds. -/
def strictOrder? : Value → Value → Option Ordering
  | .bool a, .bool b => some (compare a b)
  | .int a, .int b => some (compare a.toInt b.toInt)
  | .decimal a, .decimal b => some (a.compare b)
  | .int a, .decimal b => some ((Decimal.ofInt64 a).compare b)
  | .decimal a, .int b => some (a.compare (Decimal.ofInt64 b))
  | .text a, .text b => some (compareText a b)
  | .instant a, .instant b => some (a.compare b)
  | _, _ => none

mutual

/-- Equality as filters see it. -/
def equal : Value → Value → Bool
  | .null, .null => true
  | .list as, .list bs => equalAll as bs
  | .raw a, .raw b => a.same b
  | .filter a, .filter b => a.same b
  | a, b => strictOrder? a b == some .eq

def equalAll : List Value → List Value → Bool
  | [], [] => true
  | a :: as, b :: bs => a.equal b && equalAll as bs
  | _, _ => false

end

mutual

/-- The order of all values. -/
def sortOrder : Value → Value → Ordering
  | .list as, .list bs => sortOrderAll as bs
  | .raw a, .raw b => compareText a.text b.text
  | a, b => (compare a.rank b.rank).then ((strictOrder? a b).getD .eq)

/-- Lists by their first difference; a list that runs out first is the smaller
one. -/
def sortOrderAll : List Value → List Value → Ordering
  | [], [] => .eq
  | [], _ :: _ => .lt
  | _ :: _, [] => .gt
  | a :: as, b :: bs => (a.sortOrder b).then (sortOrderAll as bs)

end

/-- Values in ascending order; values that the order does not tell apart stay as
they were. -/
def sorted (values : List Value) : List Value :=
  values.mergeSort fun a b => (a.sortOrder b).isLE

/-- The order of text cells: null comes before every text, and other kinds
have no place in it. -/
def textOrder? : Value → Value → Option Ordering
  | .null, .null => some .eq
  | .null, .text _ => some .lt
  | .text _, .null => some .gt
  | .text a, .text b => some (compareText a b)
  | _, _ => none

end Value

end RowQuery
