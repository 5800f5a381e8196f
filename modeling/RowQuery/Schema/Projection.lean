import RowQuery.Fault.QueryFault
import RowQuery.Predicate.FieldAccess
import RowQuery.Schema.AsValue

/-!
# Projections

A projection computes an output from a row and declares the fields of the row
by which it may be filtered and ordered. It is put together as a
`ProjectionDraft`, one field after the other, each with a name and a column;
every field takes the next slot. `ProjectionDraft.finish` checks that there are
fields, that their names are plain identifiers and that no name repeats.

A `RowLayout` holds the columns by slot, and `RowLayout.view` is the view of
one row: a slot without column is null and has no elements, and a slot can be
read both whole and by elements, whichever column it has.
-/

namespace RowQuery

/-! ## Columns -/

/-- How the content of a slot is taken from a row. -/
inductive Column (R : Type) where
  | single (read : R → Value)
  /-- Elements, taken on demand. -/
  | many (read : R → List Value)

/-- The columns of a projection, by slot. -/
structure RowLayout (R : Type) where
  columns : List (Column R)

namespace RowLayout

variable {R : Type}

def size (layout : RowLayout R) : Nat := layout.columns.length

def elements (layout : RowLayout R) (row : R) (slot : Nat) : Elements :=
  match layout.columns[slot]? with
  | some (.many read) => Elements.ofSlot slot (read row)
  | some (.single read) => Elements.ofValue (read row)
  | none => Elements.ofValues []

def whole (layout : RowLayout R) (row : R) (slot : Nat) : Reading Value :=
  match layout.columns[slot]? with
  | some (.single read) => .free (read row)
  | some (.many read) => (Elements.collect (Elements.ofSlot slot (read row))).map .list
  | none => .free .null

def view (layout : RowLayout R) (row : R) : RowView :=
  { whole := layout.whole row
    elements := layout.elements row
    current := none }

end RowLayout

/-! ## Projections -/

/-- A declared field: its name and how it is read. -/
structure FieldDecl where
  name : String
  access : FieldAccess
deriving Repr, DecidableEq

/-- An output for each row, and the fields of the row. -/
structure Projection (R O : Type) where
  output : R → O
  fields : List FieldDecl
  layout : RowLayout R

/-- A projection to which fields are still added. -/
structure ProjectionDraft (R O : Type) where
  output : R → O
  fields : List FieldDecl
  columns : List (Column R)

def Projection.draft {R O : Type} (output : R → O) : ProjectionDraft R O :=
  { output, fields := [], columns := [] }

def isIdentifierStart (c : Char) : Bool := c = '_' || c.isAlpha

def isIdentifierPart (c : Char) : Bool := c = '_' || c.isAlphanum

/-- Whether a name is an ASCII identifier. -/
def isIdentifier (name : String) : Bool :=
  match name.toList with
  | first :: rest => isIdentifierStart first && rest.all isIdentifierPart
  | [] => false

namespace ProjectionDraft

variable {R O α : Type}

def nextSlot (draft : ProjectionDraft R O) : Nat := draft.columns.length

/-- Adds a field and its column. -/
def add (draft : ProjectionDraft R O) (name : String) (access : FieldAccess)
    (column : Column R) : ProjectionDraft R O :=
  { draft with
    fields := draft.fields ++ [{ name, access }]
    columns := draft.columns ++ [column] }

def field (draft : ProjectionDraft R O) [AsValue α] (name : String) (read : R → α) :
    ProjectionDraft R O :=
  draft.add name (.member name draft.nextSlot (AsValue.dataType α))
    (.single fun row => AsValue.toValue (read row))

def columnOf [AsValue α] (read : R → List α) : Column R :=
  .many fun row => (read row).map AsValue.toValue

/-- Adds a field whose elements are taken on demand. -/
def sequence (draft : ProjectionDraft R O) [AsValue α] (name : String) (read : R → List α) :
    ProjectionDraft R O :=
  draft.add name (.sequence name draft.nextSlot (AsValue.dataType α)) (columnOf read)

/-- Adds a field of which a snapshot of all elements is read. -/
def snapshot (draft : ProjectionDraft R O) (form : SnapshotForm) [AsValue α] (name : String)
    (read : R → List α) : ProjectionDraft R O :=
  draft.add name (.snapshot form (.sequence name draft.nextSlot (AsValue.dataType α)))
    (columnOf read)

def list (draft : ProjectionDraft R O) [AsValue α] (name : String) (read : R → List α) :
    ProjectionDraft R O :=
  draft.snapshot .list name read

def array (draft : ProjectionDraft R O) [AsValue α] (name : String) (read : R → List α) :
    ProjectionDraft R O :=
  draft.snapshot .array name read

/-- Checks names one by one against those before them. -/
def checkNames (seen : List String) : List String → Except SchemaFault Unit
  | [] => .ok ()
  | name :: rest =>
      if !isIdentifier name then .error (.notAnIdentifier name)
      else if seen.contains name then .error (.assignedTwice name)
      else checkNames (name :: seen) rest

/-- Checks the fields and finishes the projection. -/
def finish (draft : ProjectionDraft R O) : Except QueryFault (Projection R O) :=
  if draft.fields.isEmpty then .error (.shape .noFields)
  else
    match checkNames [] (draft.fields.map (·.name)) with
    | .error e => .error (.shape e)
    | .ok () =>
        .ok
          { output := draft.output
            fields := draft.fields
            layout := { columns := draft.columns } }

end ProjectionDraft

end RowQuery
