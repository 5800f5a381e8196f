import RowQuery.Value.Basic

/-!
# Reading a row

A row is read through numbered slots. A `Reading` is what was read together
with the slots of the sequence elements that were taken on the way, one entry
for each element, so that it can be seen how far a sequence was followed.

`Elements` is a sequence of which elements are taken one after the other:
`Elements.any` and `Elements.all` stop at the first element that decides,
`Elements.collect` takes them all.
-/

namespace RowQuery

/-- A result, and the slots of the sequence elements taken for it, in the order
in which they were taken. -/
structure Reading (α : Type) where
  value : α
  taken : List Nat
deriving Repr

namespace Reading

/-- A result for which nothing was taken. -/
def free {α : Type} (value : α) : Reading α := { value, taken := [] }

/-- One reading after another. -/
def andThen {α β : Type} (first : Reading α) (next : α → Reading β) : Reading β :=
  let second := next first.value
  { value := second.value, taken := first.taken ++ second.taken }

def map {α β : Type} (f : α → β) (reading : Reading α) : Reading β :=
  { value := f reading.value, taken := reading.taken }

def sequence {α : Type} : List (Reading α) → Reading (List α)
  | [] => free []
  | reading :: rest => reading.andThen fun a => (sequence rest).map (a :: ·)

end Reading

/-- A sequence: what was taken to begin it, and its elements, each with what it
costs to take it. -/
abbrev Elements : Type := Reading (List (Reading Value))

namespace Elements

def ofValues (items : List Value) : Elements := .free (items.map .free)

def ofSlot (slot : Nat) (items : List Value) : Elements :=
  .free (items.map fun item => { value := item, taken := [slot] })

/-- The elements of a single value: those of a list, none of null, and any
other value itself. -/
def ofValue : Value → Elements
  | .list items => ofValues items
  | .null => ofValues []
  | v => ofValues [v]

def collect (elements : Elements) : Reading (List Value) :=
  elements.andThen Reading.sequence

/-- The elements after all of them have been taken. -/
def snapshot (elements : Elements) : Elements :=
  (collect elements).map fun items => items.map .free

/-- Takes items up to the first that passes a test. -/
def anyItem (test : Value → Reading Bool) : List (Reading Value) → Reading Bool
  | [] => .free false
  | item :: rest =>
      (item.andThen test).andThen fun holds => if holds then .free true else anyItem test rest

/-- Takes items up to the first that fails a test. -/
def allItems (test : Value → Reading Bool) : List (Reading Value) → Reading Bool
  | [] => .free true
  | item :: rest =>
      (item.andThen test).andThen fun holds => if holds then allItems test rest else .free false

def any (test : Value → Reading Bool) (elements : Elements) : Reading Bool :=
  elements.andThen (anyItem test)

def all (test : Value → Reading Bool) (elements : Elements) : Reading Bool :=
  elements.andThen (allItems test)

end Elements

/-- The view of one row, or of one element of a sequence. -/
structure RowView where
  whole : Nat → Reading Value
  elements : Nat → Elements
  /-- The element, where an element is looked at. -/
  current : Option Value

/-- The view of one element: no slots, only the element. -/
def RowView.ofElement (element : Value) : RowView :=
  { whole := fun _ => .free .null
    elements := fun _ => Elements.ofValues []
    current := some element }

end RowQuery
