import RowQuery.Predicate.Basic
import RowQuery.Proofs.Predicate.Reading

/-!
# What predicates hold of

`Predicate.holds` and `Condition.holds` without what was taken: groups are
conjunctions and disjunctions of all their children, and tests on elements ask
all elements, though the evaluation stops as soon as it is decided.
-/

namespace RowQuery

/-! ## Conditions -/

/-- Whether a condition holds in a view. -/
def Condition.holds (condition : Condition) (view : RowView) : Bool :=
  (condition.evaluate view).value

namespace Condition

variable (view : RowView) (field : FieldAccess)

@[simp] theorem holds_relates (relation : Relation) (value : Value) :
    (relates relation field value).holds view
      = relation.holds (field.read view).value value := rfl

@[simp] theorem holds_relatesAsText (relation : Relation) (value : Value) :
    (relatesAsText relation field value).holds view
      = relation.holdsAsText (field.read view).value value := rfl

@[simp] theorem holds_like (pattern : String) :
    (like field pattern).holds view = (field.read view).value.matchesPattern pattern := rfl

@[simp] theorem holds_contains (item : Value) :
    (contains field item).holds view = (field.elements view).items.any (·.equal item) :=
  Elements.value_any ..

@[simp] theorem holds_all (body : Predicate) :
    (quantified .all field body).holds view
      = (field.elements view).items.all fun element => body.holds (.ofElement element) :=
  Elements.value_all ..

@[simp] theorem holds_any (body : Predicate) :
    (quantified .any field body).holds view
      = (field.elements view).items.any fun element => body.holds (.ofElement element) :=
  Elements.value_any ..

end Condition

/-! ## Predicates -/

namespace Predicate

variable (view : RowView)

theorem value_evaluateAll (children : List Predicate) :
    (evaluateAll view children).value = children.all (·.holds view) := by
  induction children with
  | nil => rfl
  | cons p rest ih =>
      rw [evaluateAll, Reading.value_andThen, List.all_cons, ← ih]
      cases hholds : (p.evaluate view).value <;> simp [holds, hholds]

theorem value_evaluateAny (children : List Predicate) :
    (evaluateAny view children).value = children.any (·.holds view) := by
  induction children with
  | nil => rfl
  | cons p rest ih =>
      rw [evaluateAny, Reading.value_andThen, List.any_cons, ← ih]
      cases hholds : (p.evaluate view).value <;> simp [holds, hholds]

@[simp] theorem holds_and (children : List Predicate) :
    (and children).holds view = children.all (·.holds view) :=
  value_evaluateAll view children

@[simp] theorem holds_or (children : List Predicate) :
    (or children).holds view = children.any (·.holds view) :=
  value_evaluateAny view children

@[simp] theorem holds_not (child : Predicate) : (not child).holds view = !child.holds view := rfl

@[simp] theorem holds_check (condition : Condition) :
    (check condition).holds view = condition.holds view := rfl

end Predicate

end RowQuery
