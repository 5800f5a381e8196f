import RowQuery.Plan.Run
import RowQuery.Proofs.Predicate.Reading
import RowQuery.Proofs.Sorting.StableSort
import RowQuery.Proofs.Value.SortOrder

/-!
# Sorting by a chain of links

A plan reads the keys of all rows first and then sorts the keyed rows once, by
all links of a chain together. `RowSort.value_sortRows` takes the keys away:
what comes out are the rows, stably sorted by `RowSort.compareRows`, the
lexicographic comparison of the links. This is a total preorder because the
order of all values is one, in either direction.

So the result is the only stably sorted list there is, and sorting by the links
one after the other, the deciding link last, gives the same.
-/

namespace RowQuery

variable {R : Type}

namespace RowSort

/-- What a row is sorted by under a link. -/
def keyOf (sort : RowSort R) (row : R) : Value := (sort.sortKey row).value

/-- Compares two rows by one link. A descending link turns the outcome round,
and so leaves ties as they are. -/
def compareRow (sort : RowSort R) (a b : R) : Ordering :=
  match sort.link.direction with
  | .asc => (sort.keyOf a).sortOrder (sort.keyOf b)
  | .desc => ((sort.keyOf a).sortOrder (sort.keyOf b)).swap

/-- Compares two rows by links; the first link that tells them apart decides. -/
def compareRows : List (RowSort R) → R → R → Ordering
  | [] => fun _ _ => .eq
  | sort :: later => compareLex sort.compareRow (compareRows later)

/-! ## The comparisons are total preorders -/

theorem compareRow_asc {sort : RowSort R} (h : sort.link.direction = .asc) :
    sort.compareRow = fun a b => (sort.keyOf a).sortOrder (sort.keyOf b) := by
  funext a b
  simp only [compareRow, h]

theorem compareRow_desc {sort : RowSort R} (h : sort.link.direction = .desc) :
    sort.compareRow = fun a b => (sort.keyOf b).sortOrder (sort.keyOf a) := by
  funext a b
  simp only [compareRow, h]
  exact Std.OrientedCmp.eq_swap.symm

instance (sort : RowSort R) : Std.TransCmp sort.compareRow := by
  cases h : sort.link.direction with
  | asc =>
      rw [compareRow_asc h]
      exact { eq_swap := Std.OrientedCmp.eq_swap, isLE_trans := Std.TransCmp.isLE_trans }
  | desc =>
      rw [compareRow_desc h]
      exact
        { eq_swap := Std.OrientedCmp.eq_swap
          isLE_trans := fun hab hbc => Std.TransCmp.isLE_trans hbc hab }

theorem transCmp_compareRows (sorts : List (RowSort R)) : Std.TransCmp (compareRows sorts) := by
  induction sorts with
  | nil => exact { eq_swap := rfl, isLE_trans := fun _ _ => rfl }
  | cons sort later ih =>
      exact inferInstanceAs (Std.TransCmp (compareLex sort.compareRow (compareRows later)))

instance (sorts : List (RowSort R)) : Std.TransCmp (compareRows sorts) :=
  transCmp_compareRows sorts

/-! ## Keyed rows -/

theorem value_sortKeys (sorts : List (RowSort R)) (row : R) :
    (sortKeys sorts row).value = sorts.map (·.keyOf row) := by
  simp [sortKeys, keyOf, List.map_map, Function.comp_def]

theorem compare_keyOf (sort : RowSort R) (a b : R) :
    sort.link.compare (sort.keyOf a) (sort.keyOf b) = sort.compareRow a b := by
  rw [ResolvedLink.compare, compareRow]
  cases sort.link.direction <;> rfl

/-- Keyed rows compare as their rows do. -/
theorem compareKeys_keyOf (sorts : List (RowSort R)) (a b : R) :
    compareKeys sorts (sorts.map (·.keyOf a)) (sorts.map (·.keyOf b)) = compareRows sorts a b := by
  induction sorts with
  | nil => rfl
  | cons sort later ih =>
      rw [List.map_cons, List.map_cons, compareKeys, compare_keyOf, ih]
      rfl

theorem stableSort_compareRows_nil (rows : List R) : stableSort (compareRows []) rows = rows := by
  apply List.mergeSort_of_pairwise
  exact List.pairwise_of_forall_mem_list fun _ _ _ _ => rfl

/-- Sorting keyed rows and dropping the keys is sorting the rows. -/
theorem value_sortRows (sorts : List (RowSort R)) (rows : List R) :
    (sortRows sorts rows).value = stableSort (compareRows sorts) rows := by
  cases sorts with
  | nil => exact (stableSort_compareRows_nil rows).symm
  | cons sort later =>
      have hkeyed : (Reading.sequence (rows.map (keyedRow (sort :: later)))).value
          = rows.map fun row => ((sort :: later).map (·.keyOf row), row) := by
        simp [keyedRow, value_sortKeys, List.map_map, Function.comp_def]
      rw [sortRows, Reading.value_map, hkeyed, stableSort]
      · rw [List.map_mergeSort (s := fun a b => (compareRows (sort :: later) a b).isLE)]
        · simp [List.map_map, Function.comp_def]
        · intro a ha b hb
          obtain ⟨row, -, rfl⟩ := List.mem_map.mp ha
          obtain ⟨other, -, rfl⟩ := List.mem_map.mp hb
          rw [compareKeys_keyOf]
      · exact List.cons_ne_nil _ _

/-! ## One sort after the other -/

/-- Sorting by one link after the other, the deciding link last. -/
def sortInTurn (sorts : List (RowSort R)) (rows : List R) : List R :=
  sorts.foldr (fun sort rows => stableSort sort.compareRow rows) rows

/-- By induction on the chain: the sorts by the later links are the first of
two sorts, the sort by the head of the chain is the second. -/
theorem stablySorted_sortInTurn (rows : List R) (sorts : List (RowSort R)) :
    StablySorted (compareRows sorts) rows (sortInTurn sorts rows) := by
  induction sorts with
  | nil =>
      have h : StablySorted (compareRows []) rows (stableSort (compareRows []) rows) :=
        stablySorted_stableSort rows
      rwa [stableSort_compareRows_nil] at h
  | cons sort later ih =>
      have hsort : StablySorted sort.compareRow (sortInTurn later rows)
          (sortInTurn (sort :: later) rows) := stablySorted_stableSort _
      exact ih.lex hsort

end RowSort

namespace RowPlan

/-- The plan that sorts rows by a chain of links. -/
def ofChain (first : RowSort R) (later : List (RowSort R)) : RowPlan R :=
  { steps := .orderBy first :: later.map .thenBy }

/-- Further links only wait. -/
theorem runSteps_thenBy (rows : List R) (rest : List (PlanStep R))
    (later waiting : List (RowSort R)) :
    runSteps waiting rows (later.map .thenBy ++ rest) = runSteps (waiting ++ later) rows rest := by
  induction later generalizing waiting with
  | nil =>
      rw [List.append_nil]
      rfl
  | cons sort later ih =>
      rw [List.map_cons, List.cons_append, runSteps, ih, List.append_assoc]
      rfl

theorem yield_ofChain (first : RowSort R) (later : List (RowSort R)) (rows : List R) :
    (ofChain first later).yield rows
      = stableSort (RowSort.compareRows (first :: later)) rows := by
  rw [yield, run, ofChain, runSteps, Reading.value_andThen, RowSort.value_sortRows,
    RowSort.stableSort_compareRows_nil, ← List.append_nil (later.map _), runSteps_thenBy,
    runSteps, RowSort.value_sortRows, List.singleton_append]

/-- A chain of links yields the rows sorted by its links one after the other,
the deciding link last, and that is the only list that has the rows in the
lexicographic order of the links with all ties as they were. -/
theorem yield_sortChain (first : RowSort R) (later : List (RowSort R)) (rows : List R) :
    (ofChain first later).yield rows = RowSort.sortInTurn (first :: later) rows
      ∧ ∀ output, StablySorted (RowSort.compareRows (first :: later)) rows output
          ↔ output = (ofChain first later).yield rows := by
  rw [yield_ofChain]
  exact ⟨stablySorted_iff.mp (RowSort.stablySorted_sortInTurn rows (first :: later)) |>.symm,
    fun _ => stablySorted_iff⟩

end RowPlan

end RowQuery
