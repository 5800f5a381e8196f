import RowQuery.Proofs.Plan.SortChain

/-!
# What a plan means, step by step

`RowPlan.meaning` applies steps to rows one after the other: a filter keeps
rows, a skip and a take cut at the front, and an `orderBy` sorts at once, by
its own link and all `thenBy` links directly behind it. The plan runner lets
links wait instead and sorts when it has to. The two agree on every plan whose
`thenBy` links follow other links (`LinksFollow`), since what waits in the
runner is then always what `meaning` has already sorted by.

Running a plan is running its parts one after the other, wherever it is cut
except in front of a `thenBy` (`run_append`).
-/

namespace RowQuery

variable {R : Type}

namespace RowTest

/-- Whether a row passes a test, what was taken aside. -/
def passes (test : RowTest R) (row : R) : Bool := (test.evaluate row).value

theorem value_keep (test : RowTest R) (rows : List R) :
    (test.keep rows).value = rows.filter test.passes := by
  induction rows with
  | nil => rfl
  | cons row rest ih =>
      rw [keep, Reading.value_andThen, Reading.value_map, ih, List.filter_cons]
      rfl

end RowTest

namespace PlanStep

/-- Whether a step begins or refines an order. -/
def isLink : PlanStep R → Bool
  | .orderBy _ | .thenBy _ => true
  | _ => false

end PlanStep

namespace RowPlan

/-! ## The meaning of steps -/

/-- The `thenBy` links at the front of steps. -/
def leadingLinks : List (PlanStep R) → List (RowSort R)
  | .thenBy sort :: rest => sort :: leadingLinks rest
  | _ => []

/-- The rows after steps. An `orderBy` sorts by all links up to the next step
that is no `thenBy`, so a `thenBy` has nothing left to do. -/
def meaning : List (PlanStep R) → List R → List R
  | [], rows => rows
  | .filter test :: rest, rows => meaning rest (rows.filter test.passes)
  | .skip count :: rest, rows => meaning rest (rows.drop count.toNat)
  | .take count :: rest, rows => meaning rest (rows.take count.toNat)
  | .orderBy sort :: rest, rows =>
      meaning rest (stableSort (RowSort.compareRows (sort :: leadingLinks rest)) rows)
  | .thenBy _ :: rest, rows => meaning rest rows

/-- Steps that a `thenBy` does not begin have no links at the front. -/
theorem leadingLinks_eq_nil {steps : List (PlanStep R)}
    (h : ∀ sort rest, steps ≠ .thenBy sort :: rest) : leadingLinks steps = [] := by
  cases steps with
  | nil => rfl
  | cons step rest =>
      cases step with
      | thenBy sort => exact absurd rfl (h sort rest)
      | _ => rfl

/-! ## Links follow links -/

/-- Every `thenBy` stands directly behind a link; `afterLink` says whether a
link stands before the first step. -/
def LinksFollow : (afterLink : Bool) → List (PlanStep R) → Prop
  | _, [] => True
  | afterLink, .thenBy _ :: rest => afterLink = true ∧ LinksFollow true rest
  | _, step :: rest => LinksFollow step.isLink rest

/-- Whether the last step is a link; without steps, whether one stands before. -/
def endsInLink (afterLink : Bool) (steps : List (PlanStep R)) : Bool :=
  steps.foldl (fun _ step => step.isLink) afterLink

theorem linksFollow_append (steps more : List (PlanStep R)) (afterLink : Bool) :
    LinksFollow afterLink (steps ++ more)
      ↔ LinksFollow afterLink steps ∧ LinksFollow (endsInLink afterLink steps) more := by
  induction steps generalizing afterLink with
  | nil => simp [LinksFollow, endsInLink]
  | cons step rest ih =>
      have hrest := ih step.isLink
      cases step with
      | thenBy sort =>
          simp only [List.cons_append, LinksFollow, PlanStep.isLink] at hrest ⊢
          rw [hrest, and_assoc]
          rfl
      | _ => exact hrest

theorem leadingLinks_of_linksFollow {steps : List (PlanStep R)} (h : LinksFollow false steps) :
    leadingLinks steps = [] := by
  apply leadingLinks_eq_nil
  rintro sort rest rfl
  exact absurd h.1 (by decide)

theorem stableSort_leadingLinks {steps : List (PlanStep R)} (h : LinksFollow false steps)
    (rows : List R) :
    stableSort (RowSort.compareRows ([] ++ leadingLinks steps)) rows = rows := by
  rw [List.nil_append, leadingLinks_of_linksFollow h, RowSort.stableSort_compareRows_nil]

/-- A `thenBy` has a link directly before it. -/
theorem link_before_thenBy {before after : List (PlanStep R)} {sort : RowSort R}
    (h : LinksFollow false (before ++ .thenBy sort :: after)) :
    ∃ front last, before = front ++ [last] ∧ last.isLink = true := by
  have hends : endsInLink false before = true := ((linksFollow_append ..).mp h).2.1
  rcases List.eq_nil_or_concat before with rfl | ⟨front, last, rfl⟩
  · cases hends
  · exact ⟨front, last, List.concat_eq_append, by simpa [endsInLink] using hends⟩

/-! ## The runner agrees -/

/-- The invariant of the runner: the waiting links and those in front of the
steps that are left have been sorted by already. -/
theorem value_runSteps : ∀ {steps : List (PlanStep R)} {afterLink : Bool},
    LinksFollow afterLink steps → ∀ (waiting : List (RowSort R)) (rows : List R),
      (runSteps waiting rows steps).value
        = meaning steps (stableSort (RowSort.compareRows (waiting ++ leadingLinks steps)) rows)
  | [], _, _, waiting, rows => by
      rw [runSteps, RowSort.value_sortRows, leadingLinks_eq_nil (by simp), List.append_nil, meaning]
  | .thenBy sort :: rest, _, h, waiting, rows => by
      rw [runSteps, value_runSteps h.2, leadingLinks, meaning, List.append_assoc,
        List.singleton_append]
  | .orderBy sort :: rest, _, h, waiting, rows => by
      have hrest : LinksFollow true rest := h
      have hlinks : leadingLinks (.orderBy sort :: rest) = [] := leadingLinks_eq_nil (by simp)
      rw [runSteps, Reading.value_andThen, RowSort.value_sortRows, value_runSteps hrest, hlinks,
        List.append_nil, meaning, List.singleton_append]
  | .filter test :: rest, _, h, waiting, rows => by
      have hrest : LinksFollow false rest := h
      rw [runSteps, Reading.value_andThen, Reading.value_andThen, RowSort.value_sortRows,
        RowTest.value_keep, value_runSteps hrest, stableSort_leadingLinks hrest,
        leadingLinks_eq_nil (by simp), List.append_nil, meaning]
  | .skip count :: rest, _, h, waiting, rows => by
      have hrest : LinksFollow false rest := h
      rw [runSteps, Reading.value_andThen, RowSort.value_sortRows,
        value_runSteps hrest, stableSort_leadingLinks hrest, leadingLinks_eq_nil (by simp),
        List.append_nil, meaning]
  | .take count :: rest, _, h, waiting, rows => by
      have hrest : LinksFollow false rest := h
      rw [runSteps, Reading.value_andThen, RowSort.value_sortRows,
        value_runSteps hrest, stableSort_leadingLinks hrest, leadingLinks_eq_nil (by simp),
        List.append_nil, meaning]

/-! ## Cutting a plan -/

/-- Steps that a `thenBy` does not begin sort by what waits before anything
else, so it makes no difference whether the links wait or are sorted by. -/
theorem runSteps_waiting {steps : List (PlanStep R)}
    (h : ∀ sort rest, steps ≠ .thenBy sort :: rest) (waiting : List (RowSort R)) (rows : List R) :
    runSteps waiting rows steps
      = (RowSort.sortRows waiting rows).andThen fun rows => runSteps [] rows steps := by
  cases steps with
  | nil =>
      simp only [runSteps, RowSort.sortRows]
      exact (Reading.andThen_free _).symm
  | cons step rest =>
      cases step with
      | thenBy sort => exact absurd rfl (h sort rest)
      | _ => simp only [runSteps, RowSort.sortRows, Reading.free_andThen]

theorem runSteps_append {more : List (PlanStep R)}
    (h : ∀ sort rest, more ≠ .thenBy sort :: rest) :
    ∀ (steps : List (PlanStep R)) (waiting : List (RowSort R)) (rows : List R),
      runSteps waiting rows (steps ++ more)
        = (runSteps waiting rows steps).andThen fun rows => runSteps [] rows more
  | [], waiting, rows => runSteps_waiting h waiting rows
  | .thenBy sort :: rest, waiting, rows => runSteps_append h rest (waiting ++ [sort]) rows
  | .orderBy sort :: rest, waiting, rows => by
      simp only [List.cons_append, runSteps, runSteps_append h rest, Reading.andThen_assoc]
  | .filter test :: rest, waiting, rows => by
      simp only [List.cons_append, runSteps, runSteps_append h rest, Reading.andThen_assoc]
  | .skip count :: rest, waiting, rows => by
      simp only [List.cons_append, runSteps, runSteps_append h rest, Reading.andThen_assoc]
  | .take count :: rest, waiting, rows => by
      simp only [List.cons_append, runSteps, runSteps_append h rest, Reading.andThen_assoc]

/-- Running a plan is running its front and then its back over the rows that
the front yields, with the same reads in the same order. -/
theorem run_append (steps : List (PlanStep R)) {more : List (PlanStep R)}
    (h : ∀ sort rest, more ≠ .thenBy sort :: rest) (rows : List R) :
    (RowPlan.mk (steps ++ more)).run rows
      = ((RowPlan.mk steps).run rows).andThen (RowPlan.mk more).run :=
  runSteps_append h steps [] rows

theorem yield_append (steps : List (PlanStep R)) {more : List (PlanStep R)}
    (h : ∀ sort rest, more ≠ .thenBy sort :: rest) (rows : List R) :
    (RowPlan.mk (steps ++ more)).yield rows
      = (RowPlan.mk more).yield ((RowPlan.mk steps).yield rows) := by
  rw [yield, run_append steps h rows]
  rfl

@[simp] theorem yield_filter (plan : RowPlan R) (test : RowTest R) (rows : List R) :
    (plan.filter test).yield rows = (plan.yield rows).filter test.passes := by
  have happend : (plan.filter test).yield rows
      = (RowPlan.mk [.filter test]).yield (plan.yield rows) :=
    yield_append plan.steps (by simp) rows
  rw [happend]
  exact test.value_keep (plan.yield rows)

@[simp] theorem yield_skip (plan : RowPlan R) (count : UInt64) (rows : List R) :
    (plan.skip count).yield rows = (plan.yield rows).drop count.toNat :=
  yield_append plan.steps (by simp) rows

@[simp] theorem yield_take (plan : RowPlan R) (count : UInt64) (rows : List R) :
    (plan.take count).yield rows = (plan.yield rows).take count.toNat :=
  yield_append plan.steps (by simp) rows

/-! ## The number of rows -/

theorem length_value_sortRows (sorts : List (RowSort R)) (rows : List R) :
    (RowSort.sortRows sorts rows).value.length = rows.length := by
  rw [RowSort.value_sortRows]
  exact (stablySorted_stableSort rows).perm.length_eq

/-- No step adds rows. -/
theorem length_runSteps_le : ∀ (steps : List (PlanStep R)) (waiting : List (RowSort R))
    (rows : List R), (runSteps waiting rows steps).value.length ≤ rows.length
  | [], waiting, rows => (length_value_sortRows waiting rows).le
  | .thenBy sort :: rest, waiting, rows => length_runSteps_le rest (waiting ++ [sort]) rows
  | .orderBy sort :: rest, waiting, rows =>
      calc (runSteps waiting rows (.orderBy sort :: rest)).value.length
        _ ≤ (RowSort.sortRows waiting rows).value.length := length_runSteps_le rest [sort] _
        _ = rows.length := length_value_sortRows waiting rows
  | .filter test :: rest, waiting, rows =>
      calc (runSteps waiting rows (.filter test :: rest)).value.length
        _ ≤ (test.keep (RowSort.sortRows waiting rows).value).value.length :=
            length_runSteps_le rest [] _
        _ ≤ (RowSort.sortRows waiting rows).value.length := by
            rw [RowTest.value_keep]
            exact List.length_filter_le ..
        _ = rows.length := length_value_sortRows waiting rows
  | .skip count :: rest, waiting, rows =>
      calc (runSteps waiting rows (.skip count :: rest)).value.length
        _ ≤ ((RowSort.sortRows waiting rows).value.drop count.toNat).length :=
            length_runSteps_le rest [] _
        _ ≤ (RowSort.sortRows waiting rows).value.length := (List.drop_sublist ..).length_le
        _ = rows.length := length_value_sortRows waiting rows
  | .take count :: rest, waiting, rows =>
      calc (runSteps waiting rows (.take count :: rest)).value.length
        _ ≤ ((RowSort.sortRows waiting rows).value.take count.toNat).length :=
            length_runSteps_le rest [] _
        _ ≤ (RowSort.sortRows waiting rows).value.length := (List.take_sublist ..).length_le
        _ = rows.length := length_value_sortRows waiting rows

theorem length_yield_le (plan : RowPlan R) (rows : List R) :
    (plan.yield rows).length ≤ rows.length :=
  length_runSteps_le plan.steps [] rows

end RowPlan

end RowQuery
