import RowQuery.Predicate.Basic
import RowQuery.Proofs.Predicate.Reading

/-!
# Results that are settled early

`Reading.settle` makes one reading after the other until one gives the decisive
result. Groups of predicates and tests on elements are settled that way: false
decides a conjunction and a test on all elements, true the other two. So one
lemma tells what each of them takes, namely what the readings take up to the
decisive one, and that one too (`Reading.taken_settle`). For a quantifier these
are the elements of a column up to the one that decides
(`Quantifier.taken_decide_ofSlot`), or nothing, if its elements are free.
-/

namespace RowQuery

/-! ## Up to the first -/

/-- The elements of a list up to the first that passes a test, with that one;
all of them, if none does. -/
def upToFirst {α : Type} (test : α → Bool) (as : List α) : List α := as.take (as.findIdx test + 1)

section UpToFirst

variable {α β : Type}

@[simp] theorem upToFirst_nil (test : α → Bool) : upToFirst test [] = [] := rfl

theorem upToFirst_cons (test : α → Bool) (a : α) (as : List α) :
    upToFirst test (a :: as) = a :: if test a then [] else upToFirst test as := by
  rw [upToFirst, upToFirst, List.findIdx_cons]
  cases test a <;> simp

theorem mem_of_mem_upToFirst {test : α → Bool} {a : α} {as : List α} (h : a ∈ upToFirst test as) :
    a ∈ as :=
  List.mem_of_mem_take h

theorem upToFirst_map (test : β → Bool) (f : α → β) (as : List α) :
    upToFirst test (as.map f) = (upToFirst (test ∘ f) as).map f := by
  rw [upToFirst, upToFirst, List.findIdx_map, List.map_take]

@[simp] theorem upToFirst_false (as : List α) : upToFirst (fun _ => false) as = as := by
  induction as with
  | nil => rfl
  | cons a rest ih => rw [upToFirst_cons, ih, if_neg Bool.false_ne_true]

end UpToFirst

/-! ## Settling -/

namespace Reading

variable {α β : Type}

theorem ext {r s : Reading α} (hvalue : r.value = s.value) (htaken : r.taken = s.taken) :
    r = s := by
  cases r
  cases s
  cases hvalue
  cases htaken
  rfl

@[simp] theorem taken_map (f : α → β) (r : Reading α) : (r.map f).taken = r.taken := rfl

@[simp] theorem taken_andThen (r : Reading α) (next : α → Reading β) :
    (r.andThen next).taken = r.taken ++ (next r.value).taken := rfl

/-- Makes readings until one of them has the decisive result. -/
def settle (decisive : Bool) : List (Reading Bool) → Reading Bool
  | [] => free !decisive
  | r :: rest => r.andThen fun b => if b == decisive then free decisive else settle decisive rest

/-- A step by the result itself, as the evaluation of groups and of quantifiers has it. -/
theorem settle_cons (decisive : Bool) (r : Reading Bool) (rest : List (Reading Bool)) :
    settle decisive (r :: rest)
      = r.andThen fun b =>
          if b then bif decisive then free true else settle decisive rest
          else bif decisive then settle decisive rest else free false := by
  rw [settle]
  congr
  funext b
  cases b <;> cases decisive <;> rfl

/-- What is taken until the decisive result comes. -/
theorem taken_settle (decisive : Bool) (rs : List (Reading Bool)) :
    (settle decisive rs).taken
      = (upToFirst (fun r => r.value == decisive) rs).flatMap (·.taken) := by
  induction rs with
  | nil => rfl
  | cons r rest ih =>
      rw [settle, taken_andThen, upToFirst_cons, List.flatMap_cons]
      cases hdecided : r.value == decisive with
      | true => rfl
      | false => exact congrArg (r.taken ++ ·) ih

theorem taken_settle_of_free {decisive : Bool} {rs : List (Reading Bool)}
    (h : ∀ r ∈ rs, r.taken = []) : (settle decisive rs).taken = [] := by
  rw [taken_settle, List.flatMap_eq_nil_iff]
  exact fun r hr => h r (mem_of_mem_upToFirst hr)

end Reading

/-! ## Elements -/

namespace Elements

/-- Elements for which nothing is taken. -/
structure IsFree (elements : Elements) : Prop where
  start : elements.taken = []
  items : ∀ item ∈ elements.value, item.taken = []

theorem isFree_ofValues (values : List Value) : (ofValues values).IsFree := by
  refine ⟨rfl, fun item hitem => ?_⟩
  obtain ⟨v, -, rfl⟩ := List.mem_map.mp hitem
  rfl

theorem isFree_ofValue : ∀ v : Value, (ofValue v).IsFree
  | .list items => isFree_ofValues items
  | .null => isFree_ofValues []
  | .bool _ | .int _ | .decimal _ | .text _ | .instant _ | .raw _ | .filter _ =>
      isFree_ofValues [_]

end Elements

/-! ## What is settled -/

/-- The result of the test on one element that decides a quantifier. -/
def Quantifier.decisive : Quantifier → Bool
  | .all => false
  | .any => true

namespace Elements

theorem anyItem_eq (test : Value → Reading Bool) (items : List (Reading Value)) :
    anyItem test items = Reading.settle true (items.map (·.andThen test)) := by
  induction items with
  | nil => rfl
  | cons item rest ih =>
      rw [anyItem, List.map_cons, Reading.settle_cons, ih]
      rfl

theorem allItems_eq (test : Value → Reading Bool) (items : List (Reading Value)) :
    allItems test items = Reading.settle false (items.map (·.andThen test)) := by
  induction items with
  | nil => rfl
  | cons item rest ih =>
      rw [allItems, List.map_cons, Reading.settle_cons, ih]
      rfl

end Elements

theorem Quantifier.decide_eq (quantifier : Quantifier) (test : Value → Reading Bool)
    (elements : Elements) :
    quantifier.decide test elements
      = elements.andThen fun items =>
          Reading.settle quantifier.decisive (items.map (·.andThen test)) := by
  cases quantifier with
  | all => exact congrArg elements.andThen (funext (Elements.allItems_eq test))
  | any => exact congrArg elements.andThen (funext (Elements.anyItem_eq test))

namespace Quantifier

variable (quantifier : Quantifier) {test : Value → Reading Bool}
  (htest : ∀ v, (test v).taken = [])

include htest

theorem taken_decide_of_isFree {elements : Elements} (h : elements.IsFree) :
    (quantifier.decide test elements).taken = [] := by
  rw [decide_eq, Reading.taken_andThen, h.start, List.nil_append]
  refine Reading.taken_settle_of_free fun r hr => ?_
  obtain ⟨item, hitem, rfl⟩ := List.mem_map.mp hr
  rw [Reading.taken_andThen, h.items item hitem, htest, List.append_nil]

/-- From a column as many elements are taken as it takes to decide. -/
theorem taken_decide_ofSlot (slot : Nat) (values : List Value) :
    (quantifier.decide test (.ofSlot slot values)).taken
      = (upToFirst (fun v => (test v).value == quantifier.decisive) values).map fun _ => slot := by
  rw [decide_eq, Elements.ofSlot, Reading.free_andThen, List.map_map, Reading.taken_settle,
    upToFirst_map, List.flatMap_map]
  have htaken : ∀ v, (({ value := v, taken := [slot] } : Reading Value).andThen test).taken
      = [slot] := by
    intro v
    rw [Reading.taken_andThen, htest, List.append_nil]
  simp only [Function.comp_apply, htaken]
  exact List.map_eq_flatMap.symm

end Quantifier

namespace Predicate

variable (view : RowView)

theorem evaluateAll_eq (children : List Predicate) :
    evaluateAll view children = Reading.settle false (children.map (·.evaluate view)) := by
  induction children with
  | nil => rfl
  | cons p rest ih =>
      rw [evaluateAll, List.map_cons, Reading.settle_cons, ih]
      rfl

theorem evaluateAny_eq (children : List Predicate) :
    evaluateAny view children = Reading.settle true (children.map (·.evaluate view)) := by
  induction children with
  | nil => rfl
  | cons p rest ih =>
      rw [evaluateAny, List.map_cons, Reading.settle_cons, ih]
      rfl

end Predicate

end RowQuery
