import RowQuery.Proofs.Fault.Success
import RowQuery.Proofs.Plan.Meaning
import RowQuery.Search.PreparedQuery

/-!
# Plans that can be built

`RowPlan.Built` and `SortedPlan.Built` list every operation that makes a plan:
those of plans themselves and the steps of prepared queries. Only a sorted plan
can be refined, and a sorted plan ends in a link, so the `thenBy` links of a
built plan follow other links. That is all the runner needs to agree with
`RowPlan.meaning`.
-/

namespace RowQuery

variable {R : Type}

/-! ## The operations -/

mutual

/-- The plans that can be built. -/
inductive RowPlan.Built : RowPlan R → Prop where
  | scan : RowPlan.Built .scan
  | filter {plan : RowPlan R} (test : RowTest R) :
      RowPlan.Built plan → RowPlan.Built (plan.filter test)
  | skip {plan : RowPlan R} (count : UInt64) :
      RowPlan.Built plan → RowPlan.Built (plan.skip count)
  | take {plan : RowPlan R} (count : UInt64) :
      RowPlan.Built plan → RowPlan.Built (plan.take count)
  /-- Forgets that a plan ends in an order. -/
  | ofSorted {sorted : SortedPlan R} : SortedPlan.Built sorted → RowPlan.Built sorted.plan
  | queryFilter {O : Type} {plan : RowPlan R} (prepared : PreparedQuery R O) :
      RowPlan.Built plan → RowPlan.Built (prepared.filter plan)
  | queryOrderByIfAny {O : Type} {plan : RowPlan R} (prepared : PreparedQuery R O) :
      RowPlan.Built plan → RowPlan.Built (prepared.orderByIfAny plan)
  | queryPage {O : Type} {plan : RowPlan R} (prepared : PreparedQuery R O) :
      RowPlan.Built plan → RowPlan.Built (prepared.page plan)

/-- The sorted plans that can be built. -/
inductive SortedPlan.Built : SortedPlan R → Prop where
  | orderBy {plan : RowPlan R} (sort : RowSort R) :
      RowPlan.Built plan → SortedPlan.Built (plan.orderBy sort)
  | thenBy {sorted : SortedPlan R} (sort : RowSort R) :
      SortedPlan.Built sorted → SortedPlan.Built (sorted.thenBy sort)
  | queryOrderBy {O : Type} {plan : RowPlan R} {sorted : SortedPlan R}
      (prepared : PreparedQuery R O) : RowPlan.Built plan →
      prepared.orderBy plan = .ok sorted → SortedPlan.Built sorted
  | queryThenBy {O : Type} {plan sorted : SortedPlan R} (prepared : PreparedQuery R O) :
      SortedPlan.Built plan → prepared.thenBy plan = .ok sorted → SortedPlan.Built sorted
  | queryThenByIfAny {O : Type} {plan : SortedPlan R} (prepared : PreparedQuery R O) :
      SortedPlan.Built plan → SortedPlan.Built (prepared.thenByIfAny plan)

end

/-! ## What they preserve -/

/-- The links of a plan follow links. -/
def RowPlan.WellLinked (plan : RowPlan R) : Prop := RowPlan.LinksFollow false plan.steps

/-- The links of a sorted plan follow links, and it ends in one. -/
structure SortedPlan.WellLinked (sorted : SortedPlan R) : Prop where
  links : sorted.plan.WellLinked
  endsInLink : RowPlan.endsInLink false sorted.plan.steps = true

namespace RowPlan

theorem WellLinked.push {plan : RowPlan R} (h : plan.WellLinked) {step : PlanStep R}
    (hstep : LinksFollow (endsInLink false plan.steps) [step]) :
    (plan.push step).WellLinked :=
  (linksFollow_append ..).mpr ⟨h, hstep⟩

theorem endsInLink_push (plan : RowPlan R) (step : PlanStep R) :
    endsInLink false (plan.push step).steps = step.isLink := by
  rw [push, endsInLink, List.foldl_append]
  rfl

theorem WellLinked.orderBy {plan : RowPlan R} (h : plan.WellLinked) (sort : RowSort R) :
    (plan.orderBy sort).WellLinked :=
  { links := h.push trivial
    endsInLink := endsInLink_push plan (.orderBy sort) }

end RowPlan

theorem SortedPlan.WellLinked.thenBy {sorted : SortedPlan R} (h : sorted.WellLinked)
    (sort : RowSort R) : (sorted.thenBy sort).WellLinked :=
  { links := h.links.push ⟨h.endsInLink, trivial⟩
    endsInLink := RowPlan.endsInLink_push sorted.plan (.thenBy sort) }

namespace PreparedQuery

variable {O : Type} (prepared : PreparedQuery R O)

theorem wellLinked_refine : ∀ (links : List ResolvedLink) {sorted : SortedPlan R},
    sorted.WellLinked → (prepared.refine sorted links).WellLinked
  | [], _, h => h
  | link :: rest, _, h => wellLinked_refine rest (h.thenBy (prepared.sortBy link))

theorem wellLinked_sortPlan (order : ResolvedOrder) {plan : RowPlan R} (h : plan.WellLinked) :
    (prepared.sortPlan order plan).WellLinked :=
  prepared.wellLinked_refine order.later (h.orderBy (prepared.sortBy order.primary))

theorem wellLinked_filter {plan : RowPlan R} (h : plan.WellLinked) :
    (prepared.filter plan).WellLinked := by
  rw [filter]
  split
  · exact h.push trivial
  · exact h

theorem wellLinked_orderByIfAny {plan : RowPlan R} (h : plan.WellLinked) :
    (prepared.orderByIfAny plan).WellLinked := by
  rw [orderByIfAny]
  split
  · exact (prepared.wellLinked_sortPlan _ h).links
  · exact h

theorem wellLinked_page {plan : RowPlan R} (h : plan.WellLinked) :
    (prepared.page plan).WellLinked := by
  rw [page]
  split
  · rename_i page _
    have hskip : (plan.skip page.skip).WellLinked := h.push trivial
    split
    · exact h.push trivial
    · exact hskip.push trivial
  · exact h

theorem wellLinked_orderBy {plan : RowPlan R} {sorted : SortedPlan R} (h : plan.WellLinked)
    (hsorted : prepared.orderBy plan = .ok sorted) : sorted.WellLinked := by
  obtain ⟨order, -, rfl⟩ := Except.map_eq_ok.mp hsorted
  exact prepared.wellLinked_sortPlan order h

theorem wellLinked_thenBy {plan sorted : SortedPlan R} (h : plan.WellLinked)
    (hsorted : prepared.thenBy plan = .ok sorted) : sorted.WellLinked := by
  obtain ⟨order, -, rfl⟩ := Except.map_eq_ok.mp hsorted
  exact prepared.wellLinked_refine order.links h

theorem wellLinked_thenByIfAny {plan : SortedPlan R} (h : plan.WellLinked) :
    (prepared.thenByIfAny plan).WellLinked := by
  rw [thenByIfAny]
  split
  · exact prepared.wellLinked_refine _ h
  · exact h

end PreparedQuery

mutual

theorem RowPlan.Built.wellLinked {plan : RowPlan R} : plan.Built → plan.WellLinked
  | .scan => trivial
  | .filter _ h => h.wellLinked.push trivial
  | .skip _ h => h.wellLinked.push trivial
  | .take _ h => h.wellLinked.push trivial
  | .ofSorted h => h.wellLinked.links
  | .queryFilter prepared h => prepared.wellLinked_filter h.wellLinked
  | .queryOrderByIfAny prepared h => prepared.wellLinked_orderByIfAny h.wellLinked
  | .queryPage prepared h => prepared.wellLinked_page h.wellLinked

theorem SortedPlan.Built.wellLinked {sorted : SortedPlan R} : sorted.Built → sorted.WellLinked
  | .orderBy sort h => h.wellLinked.orderBy sort
  | .thenBy sort h => h.wellLinked.thenBy sort
  | .queryOrderBy prepared h hsorted => prepared.wellLinked_orderBy h.wellLinked hsorted
  | .queryThenBy prepared h hsorted => prepared.wellLinked_thenBy h.wellLinked hsorted
  | .queryThenByIfAny prepared h => prepared.wellLinked_thenByIfAny h.wellLinked

end

/-! ## What a built plan yields -/

namespace RowPlan

/-- In a built plan every `thenBy` stands directly behind a link. Running the
plan yields what its steps mean one after the other, and wherever the plan is
cut except in front of a `thenBy`, running it is running the front and then
the back over the rows of the front. -/
theorem yield_built {plan : RowPlan R} (h : plan.Built) :
    (∀ before sort after, plan.steps = before ++ .thenBy sort :: after →
        ∃ front last, before = front ++ [last] ∧ last.isLink = true)
      ∧ (∀ rows, plan.yield rows = meaning plan.steps rows)
      ∧ ∀ front back, plan.steps = front ++ back →
          (∀ sort rest, back ≠ .thenBy sort :: rest) → ∀ rows,
            plan.run rows = ((RowPlan.mk front).run rows).andThen (RowPlan.mk back).run
              ∧ plan.yield rows = (RowPlan.mk back).yield ((RowPlan.mk front).yield rows) := by
  have hlinks : LinksFollow false plan.steps := h.wellLinked
  refine ⟨?_, ?_, ?_⟩
  · intro before sort after hsteps
    rw [hsteps] at hlinks
    exact link_before_thenBy hlinks
  · intro rows
    rw [yield, run, value_runSteps hlinks, stableSort_leadingLinks hlinks]
  · intro front back hsteps hback rows
    have hrun : plan.run rows = ((RowPlan.mk front).run rows).andThen (RowPlan.mk back).run := by
      rw [← run_append front hback rows, ← hsteps]
    exact ⟨hrun, by rw [yield, hrun]; rfl⟩

/-- A sort of pairs by the part behind a slot. -/
def pairSort (slot : Nat) (direction : Direction) : RowSort (Int64 × Int64) :=
  { link := { key := "part", field := .member "part" slot .int, direction }
    layout := { columns := [.single fun row => .int row.1, .single fun row => .int row.2] } }

/-- Leaves out the pair with the largest first part and, among these, the
smallest second part. -/
def runnersUp : RowPlan (Int64 × Int64) :=
  ((scan.orderBy (pairSort 0 .desc)).thenBy (pairSort 1 .asc)).plan.skip 1

theorem built_runnersUp : runnersUp.Built :=
  .skip 1 (.ofSorted (.thenBy _ (.orderBy _ .scan)))

theorem yield_runnersUp :
    runnersUp.Built
      ∧ runnersUp.yield [(4, 2), (5, 3), (4, 1), (5, 3)] = [(5, 3), (4, 1), (4, 2)] := by
  refine ⟨built_runnersUp, ((yield_built built_runnersUp).2.1 _).trans ?_⟩
  have hcompare : ∀ a b, RowSort.compareRows [pairSort 0 .desc, pairSort 1 .asc] a b
      = (compare a.1.toInt b.1.toInt).swap.then ((compare a.2.toInt b.2.toInt).then .eq) :=
    fun _ _ => rfl
  have hsorted : stableSort (RowSort.compareRows [pairSort 0 .desc, pairSort 1 .asc])
      [(4, 2), (5, 3), (4, 1), (5, 3)] = [(5, 3), (5, 3), (4, 1), (4, 2)] := by
    simp [stableSort, List.mergeSort, hcompare, compare, compareOfLessAndEq]
  exact congrArg (List.drop 1) hsorted

end RowPlan

end RowQuery
