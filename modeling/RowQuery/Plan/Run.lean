import RowQuery.Plan.Basic

/-!
# Running a plan over rows

`RowPlan.run` applies a plan to a list of rows. The links of an order wait
until a step comes that is not a further link, or until the plan ends; then the
rows are sorted once, by all waiting links together. The sort is stable, so
rows that no link tells apart keep their order.

Everything that a sort compares is read first, link by link for each row.
-/

namespace RowQuery

variable {R : Type}

namespace RowSort

def sortKeys (sorts : List (RowSort R)) (row : R) : Reading (List Value) :=
  Reading.sequence (sorts.map fun sort => sort.sortKey row)

/-- Compares what two rows are sorted by; the first link that tells them apart
decides. -/
def compareKeys : List (RowSort R) → List Value → List Value → Ordering
  | sort :: sorts, a :: as, b :: bs => (sort.link.compare a b).then (compareKeys sorts as bs)
  | _, _, _ => .eq

def keyedRow (sorts : List (RowSort R)) (row : R) : Reading (List Value × R) :=
  (sortKeys sorts row).map fun keys => (keys, row)

/-- Sorts rows by links, the deciding one first. -/
def sortRows (sorts : List (RowSort R)) (rows : List R) : Reading (List R) :=
  match sorts with
  | [] => .free rows
  | sorts =>
      (Reading.sequence (rows.map (keyedRow sorts))).map fun keyed =>
        (keyed.mergeSort fun a b => (compareKeys sorts a.1 b.1).isLE).map (·.2)

end RowSort

def RowTest.keep (test : RowTest R) : List R → Reading (List R)
  | [] => .free []
  | row :: rest =>
      (test.evaluate row).andThen fun holds =>
        (test.keep rest).map fun kept => if holds then row :: kept else kept

namespace RowPlan

/-- Applies steps to rows, with links of an order that wait. -/
def runSteps (waiting : List (RowSort R)) (rows : List R) :
    List (PlanStep R) → Reading (List R)
  | [] => RowSort.sortRows waiting rows
  | .thenBy sort :: rest => runSteps (waiting ++ [sort]) rows rest
  | .orderBy sort :: rest =>
      (RowSort.sortRows waiting rows).andThen fun rows => runSteps [sort] rows rest
  | .filter test :: rest =>
      (RowSort.sortRows waiting rows).andThen fun rows =>
        (test.keep rows).andThen fun rows => runSteps [] rows rest
  | .skip count :: rest =>
      (RowSort.sortRows waiting rows).andThen fun rows =>
        runSteps [] (rows.drop count.toNat) rest
  | .take count :: rest =>
      (RowSort.sortRows waiting rows).andThen fun rows =>
        runSteps [] (rows.take count.toNat) rest

def run (plan : RowPlan R) (rows : List R) : Reading (List R) := runSteps [] rows plan.steps

/-- The rows that a plan yields. -/
def yield (plan : RowPlan R) (rows : List R) : List R := (plan.run rows).value

end RowPlan

end RowQuery
