import RowQuery.Proofs.Predicate.Decision
import RowQuery.Schema.Projection

/-!
# Scopes of predicates

A view of a row has an answer to everything: a slot without column is null, a
column of one form is turned into the other, and without an element the element
is null. `StrictView` has none of these answers, and an evaluation in it
(`Predicate.evaluate?`) comes to nothing as soon as it needs one.

A predicate is scoped if its fields are in place, those of the body of a
quantifier being the element and nothing else (`Predicate.Scoped`). By induction
on the predicate the strict evaluation of a scoped predicate comes to the same
as the evaluation, so this one never falls back on an answer that is missing in
the strict view (`Predicate.Scoped.evaluate?_eq`).
-/

namespace RowQuery

variable {R : Type}

/-! ## Strict views -/

/-- What can be read without falling back on anything. -/
structure StrictView where
  whole? : Nat → Option (Reading Value)
  elements? : Nat → Option Elements
  current? : Option Value

/-- A row gives what its columns have, in their own form. There is no element. -/
def RowLayout.strictView (layout : RowLayout R) (row : R) : StrictView :=
  { whole? := fun slot =>
      match layout.columns[slot]? with
      | some (.single read) => some (.free (read row))
      | _ => none
    elements? := fun slot =>
      match layout.columns[slot]? with
      | some (.many read) => some (Elements.ofSlot slot (read row))
      | _ => none
    current? := none }

/-- An element gives itself. -/
def StrictView.ofElement (element : Value) : StrictView :=
  { whole? := fun _ => none
    elements? := fun _ => none
    current? := some element }

/-! ## Strict evaluation -/

namespace Reading

variable {α β : Type}

/-- One reading after another that may come to nothing. -/
def andThen? (first : Reading α) (next : α → Option (Reading β)) : Option (Reading β) :=
  (next first.value).map fun second =>
    { value := second.value, taken := first.taken ++ second.taken }

theorem andThen?_of_eq {first : Reading α} {next? : α → Option (Reading β)} {next : α → Reading β}
    (h : next? first.value = some (next first.value)) :
    first.andThen? next? = some (first.andThen next) := by
  rw [andThen?, h]
  rfl

/-- Makes readings until one of them has the decisive result; comes to nothing
if one does before. -/
def settle? (decisive : Bool) : List (Option (Reading Bool)) → Option (Reading Bool)
  | [] => some (free !decisive)
  | none :: _ => none
  | some r :: rest =>
      r.andThen? fun b => if b == decisive then some (free decisive) else settle? decisive rest

theorem settle?_map_some (decisive : Bool) (rs : List (Reading Bool)) :
    settle? decisive (rs.map some) = some (settle decisive rs) := by
  induction rs with
  | nil => rfl
  | cons r rest ih =>
      refine andThen?_of_eq ?_
      cases r.value == decisive with
      | true => rfl
      | false => exact ih

end Reading

namespace FieldAccess

def read? (view : StrictView) : FieldAccess → Option (Reading Value)
  | .member _ slot _ => view.whole? slot
  | .sequence _ slot _ =>
      (view.elements? slot).map fun elements => (Elements.collect elements).map .list
  | .element _ => view.current?.map .free
  | .snapshot _ source => source.read? view

def elements? (view : StrictView) : FieldAccess → Option Elements
  | .member _ slot _ => (view.whole? slot).map (·.andThen Elements.ofValue)
  | .sequence _ slot _ => view.elements? slot
  | .element _ => view.current?.map Elements.ofValue
  | .snapshot _ source => (source.elements? view).map Elements.snapshot

end FieldAccess

mutual

def Condition.evaluate? (view : StrictView) : Condition → Option (Reading Bool)
  | .relates relation field value =>
      (field.read? view).map (·.map fun cell => relation.holds cell value)
  | .relatesAsText relation field value =>
      (field.read? view).map (·.map fun cell => relation.holdsAsText cell value)
  | .like field pattern => (field.read? view).map (·.map fun cell => cell.matchesPattern pattern)
  | .contains field item =>
      (field.elements? view).map (Elements.any fun element => .free (element.equal item))
  | .quantified quantifier field body =>
      (field.elements? view).bind fun elements => elements.andThen? fun items =>
        Reading.settle? quantifier.decisive
          (items.map (·.andThen? fun element => body.evaluate? (.ofElement element)))
  | .custom _ field test => (field.read? view).map (·.map test)

def Predicate.evaluate? (view : StrictView) : Predicate → Option (Reading Bool)
  | .and children => Reading.settle? false (Predicate.evaluateEach? view children)
  | .or children => Reading.settle? true (Predicate.evaluateEach? view children)
  | .not child => (child.evaluate? view).map (·.map (!·))
  | .check condition => condition.evaluate? view

def Predicate.evaluateEach? (view : StrictView) : List Predicate → List (Option (Reading Bool))
  | [] => []
  | p :: rest => p.evaluate? view :: Predicate.evaluateEach? view rest

end

/-! ## Scopes -/

/-- Fields that are in place in the rows of a layout: the slot exists, and its
column has the form in which the field is read. -/
inductive FieldAccess.InRow (layout : RowLayout R) : FieldAccess → Prop
  | member {name : String} {slot : Nat} {type : DataType} {read : R → Value}
      (hslot : slot < layout.columns.length) (hcolumn : layout.columns[slot] = .single read) :
      InRow layout (.member name slot type)
  | sequence {name : String} {slot : Nat} {element : DataType} {read : R → List Value}
      (hslot : slot < layout.columns.length) (hcolumn : layout.columns[slot] = .many read) :
      InRow layout (.sequence name slot element)
  | snapshot {form : SnapshotForm} {name : String} {slot : Nat} {element : DataType}
      {read : R → List Value} (hslot : slot < layout.columns.length)
      (hcolumn : layout.columns[slot] = .many read) :
      InRow layout (.snapshot form (.sequence name slot element))

/-- Predicates with all fields in scope. In the body of a quantifier there is
the element, with the type of the elements of the quantified field. -/
inductive Predicate.Scoped : (FieldAccess → Prop) → Predicate → Prop
  | and {inScope : FieldAccess → Prop} {children : List Predicate}
      (hchildren : ∀ child ∈ children, Scoped inScope child) :
      Scoped inScope (.and children)
  | or {inScope : FieldAccess → Prop} {children : List Predicate}
      (hchildren : ∀ child ∈ children, Scoped inScope child) :
      Scoped inScope (.or children)
  | not {inScope : FieldAccess → Prop} {child : Predicate} (hchild : Scoped inScope child) :
      Scoped inScope (.not child)
  | test {inScope : FieldAccess → Prop} {condition : Condition} (hfield : inScope condition.field)
      (hplain : ∀ quantifier field body, condition ≠ .quantified quantifier field body) :
      Scoped inScope (.check condition)
  | quantified {inScope : FieldAccess → Prop} {quantifier : Quantifier} {field : FieldAccess}
      {element : DataType} {body : Predicate} (hfield : inScope field)
      (helement : field.elementType? = some element) (hbody : Scoped (· = .element element) body) :
      Scoped inScope (.check (.quantified quantifier field body))

/-! ## Evaluation in scope -/

/-- A strict view reads a field as a view does. -/
structure FieldAccess.ReadsAlike (strict : StrictView) (view : RowView) (field : FieldAccess) :
    Prop where
  read : field.read? strict = some (field.read view)
  elements : field.elements? strict = some (field.elements view)

/-- A sequence in place is read by its elements, and snapshots of it too. -/
theorem FieldAccess.readsAlike_sequence {strict : StrictView} {view : RowView} {slot : Nat}
    (h : strict.elements? slot = some (view.elements slot)) (name : String) (element : DataType) :
    (FieldAccess.sequence name slot element).ReadsAlike strict view := by
  refine ⟨?_, h⟩
  rw [read?, h]
  rfl

theorem FieldAccess.ReadsAlike.snapshot {strict : StrictView} {view : RowView}
    {source : FieldAccess} (h : source.ReadsAlike strict view) (form : SnapshotForm) :
    (FieldAccess.snapshot form source).ReadsAlike strict view := by
  refine ⟨h.read, ?_⟩
  rw [elements?, h.elements]
  rfl

theorem RowLayout.elements?_strictView {layout : RowLayout R} {slot : Nat} {read : R → List Value}
    (hslot : slot < layout.columns.length) (hcolumn : layout.columns[slot] = .many read) (row : R) :
    (layout.strictView row).elements? slot = some ((layout.view row).elements slot) := by
  simp only [strictView, view, elements, List.getElem?_eq_getElem hslot, hcolumn]

theorem FieldAccess.InRow.readsAlike {layout : RowLayout R} {field : FieldAccess}
    (h : field.InRow layout) (row : R) :
    field.ReadsAlike (layout.strictView row) (layout.view row) := by
  cases h with
  | @member name slot type read hslot hcolumn =>
      have hwhole : (layout.strictView row).whole? slot = some (layout.whole row slot) := by
        simp only [RowLayout.strictView, RowLayout.whole, List.getElem?_eq_getElem hslot, hcolumn]
      refine ⟨hwhole, ?_⟩
      rw [elements?, hwhole]
      rfl
  | sequence hslot hcolumn =>
      exact readsAlike_sequence (RowLayout.elements?_strictView hslot hcolumn row) ..
  | snapshot hslot hcolumn =>
      exact (readsAlike_sequence (RowLayout.elements?_strictView hslot hcolumn row) ..).snapshot _

theorem FieldAccess.readsAlike_element (type : DataType) (element : Value) :
    (FieldAccess.element type).ReadsAlike (.ofElement element) (.ofElement element) :=
  ⟨rfl, rfl⟩

/-- Conditions without a body need their field and nothing else. -/
theorem Condition.evaluate?_of_plain {strict : StrictView} {view : RowView} {condition : Condition}
    (hfield : condition.field.ReadsAlike strict view)
    (hplain : ∀ quantifier field body, condition ≠ .quantified quantifier field body) :
    condition.evaluate? strict = some (condition.evaluate view) := by
  cases condition with
  | relates | relatesAsText | like | custom =>
      have hread := hfield.read
      rw [Condition.field] at hread
      rw [evaluate?, hread]
      rfl
  | contains =>
      have helements := hfield.elements
      rw [Condition.field] at helements
      rw [evaluate?, helements]
      rfl
  | quantified quantifier field body => exact absurd rfl (hplain quantifier field body)

namespace Predicate

theorem evaluateEach?_eq {strict : StrictView} {view : RowView} {children : List Predicate}
    (h : ∀ child ∈ children, child.evaluate? strict = some (child.evaluate view)) :
    evaluateEach? strict children = (children.map (·.evaluate view)).map some := by
  induction children with
  | nil => rfl
  | cons p rest ih =>
      obtain ⟨hp, hrest⟩ := List.forall_mem_cons.mp h
      rw [evaluateEach?, hp, ih hrest, List.map_cons, List.map_cons]

/-- A scoped predicate is evaluated strictly with the same result. -/
theorem Scoped.evaluate?_eq {inScope : FieldAccess → Prop} {p : Predicate}
    (h : p.Scoped inScope) {strict : StrictView} {view : RowView}
    (hview : ∀ field, inScope field → field.ReadsAlike strict view) :
    p.evaluate? strict = some (p.evaluate view) := by
  induction h generalizing strict view with
  | and _ ih =>
      rw [evaluate?, evaluateEach?_eq fun child hchild => ih child hchild hview,
        Reading.settle?_map_some, evaluate, evaluateAll_eq]
  | or _ ih =>
      rw [evaluate?, evaluateEach?_eq fun child hchild => ih child hchild hview,
        Reading.settle?_map_some, evaluate, evaluateAny_eq]
  | not _ ih =>
      rw [evaluate?, ih hview]
      rfl
  | test hfield hplain => exact Condition.evaluate?_of_plain (hview _ hfield) hplain
  | @quantified _ quantifier field element body hfield _ _ ih =>
      -- the body sees the element, and this is all that is in its scope
      have hbody : ∀ content,
          body.evaluate? (.ofElement content) = some (body.evaluate (.ofElement content)) :=
        fun content => ih fun _ heq => heq ▸ FieldAccess.readsAlike_element element content
      have hitems : ∀ items : List (Reading Value),
          items.map (·.andThen? fun content => body.evaluate? (.ofElement content))
            = (items.map
                (·.andThen fun content => body.evaluate (.ofElement content))).map some := by
        intro items
        rw [List.map_map]
        exact List.map_congr_left fun item _ => Reading.andThen?_of_eq (hbody item.value)
      rw [evaluate?, Condition.evaluate?, (hview field hfield).elements, Option.bind_some,
        evaluate, Condition.evaluate, Quantifier.decide_eq]
      refine Reading.andThen?_of_eq ?_
      rw [hitems, Reading.settle?_map_some]

end Predicate

end RowQuery
