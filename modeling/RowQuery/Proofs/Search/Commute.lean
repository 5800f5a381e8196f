import RowQuery.Proofs.Search.Pages

/-!
# Filters and orders commute

The filter of one query and the order of another can be put behind a plan in
either order, and so can two filters (`PreparedQuery.yield_filter_comm`).

What waits in the runner differs between the two plans: one sorts before its
last filter and the other at its end. Once it is known what each step yields,
only stable sorting is left, and a stable sort leaves what passes a test in the
order in which it would have come out without the rest.
-/

namespace RowQuery

variable {R O O' : Type}

namespace PreparedQuery

/-! ## What the steps of a query yield -/

/-- Whether a row passes the filter of a query, if the query has one. -/
def passes (prepared : PreparedQuery R O) (row : R) : Bool :=
  prepared.predicate.all fun predicate => predicate.holds (prepared.projection.layout.view row)

/-- The links of the order of a query; without an order there are none. -/
def sorts (prepared : PreparedQuery R O) : List (RowSort R) :=
  (prepared.order.elim [] ResolvedOrder.links).map prepared.sortBy

theorem yield_filter (prepared : PreparedQuery R O) (plan : RowPlan R) (rows : List R) :
    (prepared.filter plan).yield rows = (plan.yield rows).filter prepared.passes := by
  cases hpredicate : prepared.predicate with
  | none =>
      have hall : ∀ row ∈ plan.yield rows, prepared.passes row = true := by
        intro row _
        rw [passes, hpredicate, Option.all_none]
      rw [filter, hpredicate, List.filter_eq_self.mpr hall]
  | some predicate =>
      have htest : prepared.passes = RowTest.passes ⟨predicate, prepared.projection.layout⟩ := by
        funext row
        rw [passes, hpredicate, Option.all_some]
        rfl
      rw [filter, hpredicate, htest]
      exact RowPlan.yield_filter ..

theorem yield_orderByIfAny (prepared : PreparedQuery R O) (plan : RowPlan R) (rows : List R) :
    (prepared.orderByIfAny plan).yield rows
      = stableSort (RowSort.compareRows prepared.sorts) (plan.yield rows) := by
  cases horder : prepared.order with
  | none =>
      rw [orderByIfAny, sorts, horder]
      exact (RowSort.stableSort_compareRows_nil _).symm
  | some order =>
      rw [orderByIfAny, sorts, horder]
      exact prepared.yield_sortPlan order plan rows

/-! ## Two steps -/

/-- Behind any base plan, the filter of one query commutes with the order of
another and with the filter of another. -/
theorem yield_filter_comm (first : PreparedQuery R O) (second : PreparedQuery R O')
    (base : RowPlan R) (rows : List R) :
    (first.filter (second.orderByIfAny base)).yield rows
        = (second.orderByIfAny (first.filter base)).yield rows
      ∧ (first.filter (second.filter base)).yield rows
        = (second.filter (first.filter base)).yield rows := by
  constructor
  · calc (first.filter (second.orderByIfAny base)).yield rows
      _ = (stableSort (RowSort.compareRows second.sorts) (base.yield rows)).filter
            first.passes := by
          rw [yield_filter, yield_orderByIfAny]
      _ = stableSort (RowSort.compareRows second.sorts) ((base.yield rows).filter first.passes) :=
          filter_stableSort first.passes (base.yield rows)
      _ = (second.orderByIfAny (first.filter base)).yield rows := by
          rw [yield_orderByIfAny, yield_filter]
  · calc (first.filter (second.filter base)).yield rows
      _ = ((base.yield rows).filter second.passes).filter first.passes := by
          rw [yield_filter, yield_filter]
      _ = ((base.yield rows).filter first.passes).filter second.passes :=
          List.filter_comm ..
      _ = (second.filter (first.filter base)).yield rows := by
          rw [yield_filter, yield_filter]

end PreparedQuery

end RowQuery
