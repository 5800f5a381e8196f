import RowQuery.Predicate.Reading

/-!
# What readings yield

A reading is a result together with what was taken for it. The lemmas on
`value` follow the result through every way to combine readings, the lemmas on
`andThen` say that readings combine in any grouping.

The items of `Elements` are its values, what was taken aside. The tests that
stop early answer as the tests of all items do.
-/

namespace RowQuery

namespace Reading

variable {α β γ : Type}

@[simp] theorem value_free (a : α) : (free a).value = a := rfl

@[simp] theorem value_map (f : α → β) (r : Reading α) : (r.map f).value = f r.value := rfl

@[simp] theorem value_andThen (r : Reading α) (next : α → Reading β) :
    (r.andThen next).value = (next r.value).value := rfl

@[simp] theorem value_sequence (rs : List (Reading α)) :
    (sequence rs).value = rs.map (·.value) := by
  induction rs with
  | nil => rfl
  | cons r rest ih => simp [sequence, ih]

@[simp] theorem free_andThen (a : α) (next : α → Reading β) :
    (free a).andThen next = next a := by
  simp [free, andThen]

@[simp] theorem andThen_free (r : Reading α) : r.andThen free = r := by
  simp [free, andThen]

theorem andThen_assoc (r : Reading α) (next : α → Reading β) (last : β → Reading γ) :
    (r.andThen next).andThen last = r.andThen fun a => (next a).andThen last := by
  simp [andThen, List.append_assoc]

end Reading

namespace Elements

/-- The values of a sequence. -/
def items (elements : Elements) : List Value := elements.value.map (·.value)

@[simp] theorem items_ofValues (values : List Value) : (ofValues values).items = values := by
  simp [items, ofValues, List.map_map, Function.comp_def]

@[simp] theorem items_ofSlot (slot : Nat) (values : List Value) :
    (ofSlot slot values).items = values := by
  simp [items, ofSlot, List.map_map, Function.comp_def]

@[simp] theorem value_collect (elements : Elements) :
    (collect elements).value = elements.items := by
  simp [collect, items]

@[simp] theorem items_snapshot (elements : Elements) :
    (snapshot elements).items = elements.items := by
  rw [snapshot, items, Reading.value_map, value_collect]
  simp [List.map_map, Function.comp_def]

theorem value_anyItem (test : Value → Reading Bool) (readings : List (Reading Value)) :
    (anyItem test readings).value = readings.any fun r => (test r.value).value := by
  induction readings with
  | nil => rfl
  | cons r rest ih =>
      by_cases hholds : (test r.value).value
      · simp [anyItem, hholds]
      · simp [anyItem, hholds, ih]

theorem value_allItems (test : Value → Reading Bool) (readings : List (Reading Value)) :
    (allItems test readings).value = readings.all fun r => (test r.value).value := by
  induction readings with
  | nil => rfl
  | cons r rest ih =>
      by_cases hholds : (test r.value).value
      · simp [allItems, hholds, ih]
      · simp [allItems, hholds]

@[simp] theorem value_any (test : Value → Reading Bool) (elements : Elements) :
    (any test elements).value = elements.items.any fun v => (test v).value := by
  rw [any, Reading.value_andThen, value_anyItem, items, List.any_map]
  rfl

@[simp] theorem value_all (test : Value → Reading Bool) (elements : Elements) :
    (all test elements).value = elements.items.all fun v => (test v).value := by
  rw [all, Reading.value_andThen, value_allItems, items, List.all_map]
  rfl

end Elements

end RowQuery
