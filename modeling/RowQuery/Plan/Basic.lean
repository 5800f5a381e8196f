import RowQuery.Compile.Order
import RowQuery.Predicate.Basic
import RowQuery.Schema.Projection

/-!
# Plans

A plan is a list of steps that are applied to rows from left to right: filters,
orders, skips and takes. To build a plan reads nothing.

A `thenBy` refines the order that an `orderBy` has begun. Only a `SortedPlan`
can be refined, so a plan that is built with the functions of this module has
every `thenBy` directly behind an `orderBy` or another `thenBy`.
-/

namespace RowQuery

/-! ## What a plan does with rows -/

/-- A predicate on the rows of a projection. -/
structure RowTest (R : Type) where
  predicate : Predicate
  layout : RowLayout R

def RowTest.evaluate {R : Type} (test : RowTest R) (row : R) : Reading Bool :=
  test.predicate.evaluate (test.layout.view row)

/-- A link of an order on the rows of a projection. -/
structure RowSort (R : Type) where
  link : ResolvedLink
  layout : RowLayout R

def RowSort.sortKey {R : Type} (sort : RowSort R) (row : R) : Reading Value :=
  sort.link.sortKey (sort.layout.view row)

/-! ## Steps -/

/-- One step of a plan. -/
inductive PlanStep (R : Type) where
  | filter (test : RowTest R)
  /-- Begins a new order. -/
  | orderBy (sort : RowSort R)
  /-- Breaks the ties of the order so far. -/
  | thenBy (sort : RowSort R)
  | skip (count : UInt64)
  | take (count : UInt64)

/-- Steps in the order in which they are applied. -/
structure RowPlan (R : Type) where
  steps : List (PlanStep R)

/-- A plan that ends in an order. -/
structure SortedPlan (R : Type) where
  plan : RowPlan R

namespace RowPlan

variable {R : Type}

def scan : RowPlan R := { steps := [] }

def push (plan : RowPlan R) (step : PlanStep R) : RowPlan R :=
  { steps := plan.steps ++ [step] }

def filter (plan : RowPlan R) (test : RowTest R) : RowPlan R := plan.push (.filter test)

def orderBy (plan : RowPlan R) (sort : RowSort R) : SortedPlan R :=
  { plan := plan.push (.orderBy sort) }

def skip (plan : RowPlan R) (count : UInt64) : RowPlan R := plan.push (.skip count)

def take (plan : RowPlan R) (count : UInt64) : RowPlan R := plan.push (.take count)

def size (plan : RowPlan R) : Nat := plan.steps.length

end RowPlan

def SortedPlan.thenBy {R : Type} (sorted : SortedPlan R) (sort : RowSort R) : SortedPlan R :=
  { plan := sorted.plan.push (.thenBy sort) }

/-! ## Texts -/

def PlanStep.display {R : Type} : PlanStep R → String
  | .filter test => "filter " ++ test.predicate.display
  | .orderBy sort => "order_by " ++ sort.link.display
  | .thenBy sort => "then_by " ++ sort.link.display
  | .skip count => "skip " ++ natText count.toNat
  | .take count => "take " ++ natText count.toNat

def RowPlan.display {R : Type} (plan : RowPlan R) : String :=
  match plan.steps with
  | [] => "scan"
  | steps => String.intercalate " -> " (steps.map PlanStep.display)

end RowQuery
