import RowQuery.Schema.Projection

/-!
# Field tables

A field table finds a field by its key. Keys are folded as the key matching of
the table says, and no two fields of a table fold to the same text. Inside the
body of a quantifier the table is `FieldTable.ofElement`, with the element as
its only field.
-/

namespace RowQuery

/-- A field of a table: its name, the text by which it is found, and how it is
read. -/
structure FieldEntry where
  name : String
  folded : String
  access : FieldAccess
deriving Repr, DecidableEq

/-- Fields by key, in the order of declaration. -/
structure FieldTable where
  matching : KeyMatching
  entries : List FieldEntry
deriving Repr, DecidableEq

namespace FieldTable

def empty (matching : KeyMatching) : FieldTable := { matching, entries := [] }

def findFolded (table : FieldTable) (folded : String) : Option FieldEntry :=
  table.entries.find? fun entry => entry.folded == folded

/-- Adds a field, whose folded name has to be new. -/
def insert (table : FieldTable) (name : String) (access : FieldAccess) :
    Except QueryFault FieldTable :=
  let folded := table.matching.fold name
  match table.findFolded folded with
  | some _ => .error (.shape (.collision name table.matching))
  | none => .ok { table with entries := table.entries ++ [{ name, folded, access }] }

def insertAll (table : FieldTable) : List FieldDecl → Except QueryFault FieldTable
  | [] => .ok table
  | field :: rest => do (← table.insert field.name field.access).insertAll rest

def ofProjection {R O : Type} (projection : Projection R O) (matching : KeyMatching) :
    Except QueryFault FieldTable :=
  (empty matching).insertAll projection.fields

/-- The table inside a quantifier over elements of a type. -/
def ofElement (element : DataType) (matching : KeyMatching) : FieldTable :=
  { matching
    entries :=
      [{ name := elementKey, folded := matching.fold elementKey, access := .element element }] }

def ofElementType (α : Type) [AsValue α] (matching : KeyMatching) : FieldTable :=
  ofElement (AsValue.dataType α) matching

def get? (table : FieldTable) (key : String) : Option FieldAccess :=
  (table.findFolded (table.matching.fold key)).map (·.access)

/-- How the field under a key is read; it has to be there. -/
def lookup (table : FieldTable) (key : String) : Except QueryFault FieldAccess :=
  match table.get? key with
  | some access => .ok access
  | none => .error (.unknownKey key)

/-- The declared names, in the order of declaration. -/
def keys (table : FieldTable) : List String := table.entries.map (·.name)

def size (table : FieldTable) : Nat := table.entries.length

def depth (table : FieldTable) : Nat :=
  table.entries.foldl (fun depth entry => max depth entry.access.type.depth) 0

end FieldTable

end RowQuery
