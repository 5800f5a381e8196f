import Mathlib.Data.List.Nodup
import RowQuery.Proofs.Fault.Success
import RowQuery.Proofs.Predicate.Reading
import RowQuery.Schema.FieldTable

/-!
# Declared fields and their cells

A `Declaration` is one call to a projection draft: a field of one value, or
one of the three kinds of fields with elements. `ProjectionDraft.declareAll`
makes the calls, and so every draft.

`Declaration.cell` says what a declared field holds in a row, without slots,
columns or accesses. The main result of this module is that a table of the
projection finds, under every key, an access that reads the cell of the
declaration whose name matches the key (`FieldTable.reads_ofProjection`), and that no
two declarations match the same key (`nodup_folded_names`).
-/

namespace RowQuery

variable {R O : Type}

/-! ## Declarations -/

/-- A call that adds a field to a projection. -/
inductive Declaration (R : Type) : Type 1 where
  /-- A field with one value. -/
  | single {α : Type} (kind : AsValue α) (name : String) (read : R → α)
  /-- A field with elements, of which there may be a snapshot. -/
  | many {α : Type} (form : Option SnapshotForm) (kind : AsValue α) (name : String)
      (read : R → List α)

/-- The content of a field in a row, or an element of such a content. -/
structure Cell where
  name : String
  type : DataType
  content : Value

namespace Declaration

/-- The name of the declared field. -/
def name : Declaration R → String
  | .single _ name _ => name
  | .many _ _ name _ => name

/-- The type of the declared field; with elements it is a list of them. -/
def type : Declaration R → DataType
  | .single kind _ _ => kind.dataType
  | .many _ kind _ _ => .list kind.dataType

/-- What the declared field holds in a row; with elements, all of them. -/
def content (row : R) : Declaration R → Value
  | .single kind _ read => kind.toValue (read row)
  | .many _ kind _ read => .list ((read row).map kind.toValue)

/-- The cell of the declared field in a row. -/
def cell (row : R) (decl : Declaration R) : Cell :=
  { name := decl.name, type := decl.type, content := decl.content row }

/-- Makes the call. -/
def declare (draft : ProjectionDraft R O) : Declaration R → ProjectionDraft R O
  | .single _ name read => draft.field name read
  | .many none _ name read => draft.sequence name read
  | .many (some .list) _ name read => draft.list name read
  | .many (some .array) _ name read => draft.array name read

end Declaration

/-- Makes calls one after the other. -/
def ProjectionDraft.declareAll (draft : ProjectionDraft R O) (decls : List (Declaration R)) :
    ProjectionDraft R O :=
  decls.foldl Declaration.declare draft

/-! ## What the calls add -/

namespace Declaration

/-- How the declared field is read if it has a slot. -/
def access (slot : Nat) : Declaration R → FieldAccess
  | .single kind name _ => .member name slot kind.dataType
  | .many none kind name _ => .sequence name slot kind.dataType
  | .many (some form) kind name _ => .snapshot form (.sequence name slot kind.dataType)

/-- The column of the declared field. -/
def column : Declaration R → Column R
  | .single kind _ read => .single fun row => kind.toValue (read row)
  | .many _ kind _ read => .many fun row => (read row).map kind.toValue

theorem declare_eq (draft : ProjectionDraft R O) : ∀ decl : Declaration R,
    decl.declare draft = draft.add decl.name (decl.access draft.nextSlot) decl.column
  | .single .. => rfl
  | .many none .. => rfl
  | .many (some .list) .. => rfl
  | .many (some .array) .. => rfl

end Declaration

namespace ProjectionDraft

/-- The fields and columns of all calls, each field with the slot behind those
before it. -/
theorem declareAll_eq (decls : List (Declaration R)) (draft : ProjectionDraft R O) :
    draft.declareAll decls
      = { output := draft.output
          fields := draft.fields ++ (decls.zipIdx draft.nextSlot).map fun (decl, slot) =>
            { name := decl.name, access := decl.access slot }
          columns := draft.columns ++ decls.map Declaration.column } := by
  induction decls generalizing draft with
  | nil =>
      rw [List.zipIdx_nil, List.map_nil, List.map_nil, List.append_nil, List.append_nil]
      rfl
  | cons decl rest ih =>
      rw [declareAll, List.foldl_cons, ← declareAll, ih, decl.declare_eq, List.zipIdx_cons]
      simp only [add, nextSlot, List.append_assoc, List.singleton_append, List.length_append,
        List.length_singleton, List.map_cons]

theorem finish_eq {draft : ProjectionDraft R O} {projection : Projection R O}
    (h : draft.finish = .ok projection) :
    projection.fields = draft.fields ∧ projection.layout.columns = draft.columns := by
  rw [finish] at h
  split at h
  · cases h
  · split at h
    · cases h
    · cases h
      exact ⟨rfl, rfl⟩

end ProjectionDraft

/-! ## Tables -/

/-- Where no key comes twice, a search for the key of an element finds it. -/
theorem find?_of_nodup {α κ : Type*} [BEq κ] [LawfulBEq κ] {key : α → κ} {as : List α}
    (hnodup : (as.map key).Nodup) {a : α} (ha : a ∈ as) {k : κ} (hkey : key a = k) :
    as.find? (fun b => key b == k) = some a := by
  have hsome : (as.find? fun b => key b == k).isSome = true :=
    List.find?_isSome.mpr ⟨a, ha, beq_iff_eq.mpr hkey⟩
  obtain ⟨found, hfound⟩ := Option.isSome_iff_exists.mp hsome
  have hmatch := List.find?_some hfound
  have hsame : key found = key a := (beq_iff_eq.mp hmatch).trans hkey.symm
  obtain rfl := List.inj_on_of_nodup_map hnodup (List.mem_of_find?_eq_some hfound) ha hsame
  exact hfound

namespace FieldTable

theorem lookup_eq_ok_iff {table : FieldTable} {key : String} {access : FieldAccess} :
    table.lookup key = .ok access ↔ table.get? key = some access := by
  rw [lookup]
  cases table.get? key <;> simp

theorem lookup_eq_error_iff {table : FieldTable} {key : String} {fault : QueryFault} :
    table.lookup key = .error fault ↔ table.get? key = none ∧ fault = .unknownKey key := by
  rw [lookup]
  cases table.get? key <;> simp [eq_comm]

/-- The entry that a table makes for a field. -/
def entryOf (matching : KeyMatching) (field : FieldDecl) : FieldEntry :=
  { name := field.name, folded := matching.fold field.name, access := field.access }

/-- No two entries of a table fold alike. -/
def Distinct (table : FieldTable) : Prop := (table.entries.map (·.folded)).Nodup

theorem insert_eq {table result : FieldTable} {field : FieldDecl}
    (h : table.insert field.name field.access = .ok result) :
    table.findFolded (table.matching.fold field.name) = none
      ∧ result = { table with entries := table.entries ++ [entryOf table.matching field] } := by
  simp only [insert] at h
  split at h
  · cases h
  · rename_i hnew
    cases h
    exact ⟨hnew, rfl⟩

theorem distinct_insert {table result : FieldTable} {field : FieldDecl}
    (h : table.insert field.name field.access = .ok result) (hdistinct : table.Distinct) :
    result.Distinct := by
  obtain ⟨hnew, rfl⟩ := insert_eq h
  rw [Distinct, List.map_append, List.nodup_append]
  refine ⟨hdistinct, List.pairwise_singleton .., ?_⟩
  intro folded hfolded other hother
  obtain ⟨entry, hentry, rfl⟩ := List.mem_map.mp hfolded
  obtain rfl := List.mem_singleton.mp hother
  have hne := List.find?_eq_none.mp hnew entry hentry
  exact fun heq => hne (beq_iff_eq.mpr heq)

theorem insertAll_cons {table result : FieldTable} {field : FieldDecl} {rest : List FieldDecl}
    (h : table.insertAll (field :: rest) = .ok result) :
    ∃ next, table.insert field.name field.access = .ok next ∧ next.insertAll rest = .ok result := by
  rw [insertAll] at h
  exact Except.bind_eq_ok.mp h

/-- Behind its entries a table gets one for every field, in order. -/
theorem insertAll_eq {fields : List FieldDecl} {table result : FieldTable}
    (h : table.insertAll fields = .ok result) :
    result = { table with entries := table.entries ++ fields.map (entryOf table.matching) } := by
  induction fields generalizing table with
  | nil =>
      cases h
      rw [List.map_nil, List.append_nil]
  | cons field rest ih =>
      obtain ⟨next, hnext, hrest⟩ := insertAll_cons h
      obtain ⟨-, rfl⟩ := insert_eq hnext
      rw [ih hrest, List.map_cons, List.append_assoc, List.singleton_append]

theorem distinct_insertAll {fields : List FieldDecl} {table result : FieldTable}
    (h : table.insertAll fields = .ok result) (hdistinct : table.Distinct) :
    result.Distinct := by
  induction fields generalizing table with
  | nil =>
      cases h
      exact hdistinct
  | cons field rest ih =>
      obtain ⟨next, hnext, hrest⟩ := insertAll_cons h
      exact ih hrest (distinct_insert hnext hdistinct)

end FieldTable

/-! ## Reading cells -/

/-- The elements of a content: those of a list, none of null, and any other
content itself. -/
def Value.elements : Value → List Value
  | .list items => items
  | .null => []
  | v => [v]

theorem Elements.items_ofValue (v : Value) : (Elements.ofValue v).items = v.elements := by
  cases v <;> simp [Elements.ofValue, Value.elements]

/-- An access reads a cell: as a whole its content, and on demand the elements
of the content. -/
structure FieldAccess.Reads (view : RowView) (field : FieldAccess) (cell : Cell) : Prop where
  type : field.type = cell.type
  read : (field.read view).value = cell.content
  elements : (field.onDemand.elements view).items = cell.content.elements

/-- A table finds an access under a key only if a cell has a matching name,
and the access reads the first such cell. -/
def FieldTable.Reads (view : RowView) (table : FieldTable) (cells : List Cell) : Prop :=
  ∀ ⦃key field⦄, table.get? key = some field →
    ∃ cell, cells.find? (fun cell => table.matching.fold cell.name == table.matching.fold key)
        = some cell
      ∧ field.Reads view cell

namespace RowLayout

variable {layout : RowLayout R} {slot : Nat}

/-- A column with one value is read in its own form without taking anything. -/
theorem whole_of_single {read : R → Value} (h : layout.columns[slot]? = some (.single read))
    (row : R) : layout.whole row slot = .free (read row) := by
  rw [whole, h]

/-- A column with elements is read in its own form one by one. -/
theorem elements_of_many {read : R → List Value} (h : layout.columns[slot]? = some (.many read))
    (row : R) : layout.elements row slot = .ofSlot slot (read row) := by
  rw [elements, h]

end RowLayout

/-- With its column in the slot, an access reads the cell of its declaration. -/
theorem Declaration.reads_access {layout : RowLayout R} {slot : Nat} : ∀ {decl : Declaration R},
    layout.columns[slot]? = some decl.column → ∀ row,
      (decl.access slot).Reads (layout.view row) (decl.cell row)
  | .single kind name read, hcolumn, row => by
      have hwhole := RowLayout.whole_of_single hcolumn row
      refine ⟨rfl, congrArg Reading.value hwhole, ?_⟩
      show Elements.items ((layout.whole row slot).andThen Elements.ofValue) = _
      rw [hwhole, Reading.free_andThen, Elements.items_ofValue]
      rfl
  | .many form kind name read, hcolumn, row => by
      have helements := RowLayout.elements_of_many hcolumn row
      have hread : ((Elements.collect (layout.elements row slot)).map Value.list).value
          = .list ((read row).map kind.toValue) := by
        rw [helements, Reading.value_map, Elements.value_collect, Elements.items_ofSlot]
      have hitems : (layout.elements row slot).items = (read row).map kind.toValue := by
        rw [helements, Elements.items_ofSlot]
      cases form <;> exact ⟨rfl, hread, hitems⟩

namespace FieldTable

/-- Inside a quantifier the table finds the element and nothing else. -/
theorem reads_ofElement (type : DataType) (matching : KeyMatching) (content : Value) :
    (ofElement type matching).Reads (.ofElement content)
      [{ name := elementKey, type, content }] := by
  intro key field h
  obtain ⟨entry, hentry, rfl⟩ := Option.map_eq_some_iff.mp h
  obtain rfl := List.mem_singleton.mp (List.mem_of_find?_eq_some hentry)
  have hmatch := List.find?_some hentry
  refine ⟨{ name := elementKey, type, content }, ?_, rfl, rfl, Elements.items_ofValue content⟩
  rw [List.find?_singleton]
  exact if_pos hmatch

/-- The table of a projection has an entry for every declaration, with the slot
in which the column of the declaration is. -/
theorem ofProjection_eq {decls : List (Declaration R)} {output : R → O}
    {projection : Projection R O} {matching : KeyMatching} {table : FieldTable}
    (hprojection : ((Projection.draft output).declareAll decls).finish = .ok projection)
    (htable : ofProjection projection matching = .ok table) :
    table = { matching, entries := decls.zipIdx.map fun pair =>
        entryOf matching { name := pair.1.name, access := pair.1.access pair.2 } }
      ∧ projection.layout.columns = decls.map Declaration.column := by
  obtain ⟨hfields, hcolumns⟩ := ProjectionDraft.finish_eq hprojection
  rw [ProjectionDraft.declareAll_eq] at hfields hcolumns
  refine ⟨?_, hcolumns⟩
  rw [insertAll_eq htable, hfields]
  simp only [empty, Projection.draft, ProjectionDraft.nextSlot, List.nil_append, List.map_map,
    List.length_nil, Function.comp_def]

/-- What the table of a projection finds under a key is the access of the first
declaration with a matching name, and the column of that declaration is in the
slot. -/
theorem exists_declaration_of_get? {decls : List (Declaration R)} {output : R → O}
    {projection : Projection R O} {matching : KeyMatching} {table : FieldTable}
    (hprojection : ((Projection.draft output).declareAll decls).finish = .ok projection)
    (htable : ofProjection projection matching = .ok table) {key : String} {field : FieldAccess}
    (h : table.get? key = some field) :
    ∃ decl slot, decls.zipIdx.find? (fun pair => matching.fold pair.1.name == matching.fold key)
        = some (decl, slot)
      ∧ projection.layout.columns[slot]? = some decl.column ∧ field = decl.access slot := by
  obtain ⟨rfl, hcolumns⟩ := ofProjection_eq hprojection htable
  obtain ⟨entry, hentry, rfl⟩ := Option.map_eq_some_iff.mp h
  rw [findFolded, List.find?_map] at hentry
  obtain ⟨⟨decl, slot⟩, hfind, rfl⟩ := Option.map_eq_some_iff.mp hentry
  have hslot : decls[slot]? = some decl :=
    List.mk_mem_zipIdx_iff_getElem?.mp (List.mem_of_find?_eq_some hfind)
  refine ⟨decl, slot, hfind, ?_, rfl⟩
  rw [hcolumns, List.getElem?_map, hslot]
  rfl

theorem reads_ofProjection {decls : List (Declaration R)} {output : R → O}
    {projection : Projection R O} {matching : KeyMatching} {table : FieldTable}
    (hprojection : ((Projection.draft output).declareAll decls).finish = .ok projection)
    (htable : ofProjection projection matching = .ok table) (row : R) :
    table.Reads (projection.layout.view row) (decls.map (·.cell row)) := by
  intro key field h
  obtain ⟨decl, slot, hfind, hcolumn, rfl⟩ := exists_declaration_of_get? hprojection htable h
  obtain ⟨rfl, -⟩ := ofProjection_eq hprojection htable
  refine ⟨decl.cell row, ?_, decl.reads_access hcolumn row⟩
  rw [← List.zipIdx_map_fst 0 decls, List.map_map, List.find?_map]
  exact Option.map_eq_some_iff.mpr ⟨_, hfind, rfl⟩

theorem nodup_folded_names {decls : List (Declaration R)} {output : R → O}
    {projection : Projection R O} {matching : KeyMatching} {table : FieldTable}
    (hprojection : ((Projection.draft output).declareAll decls).finish = .ok projection)
    (htable : ofProjection projection matching = .ok table) :
    (decls.map fun decl => matching.fold decl.name).Nodup := by
  have hdistinct : table.Distinct := distinct_insertAll htable List.nodup_nil
  obtain ⟨rfl, -⟩ := ofProjection_eq hprojection htable
  rw [Distinct, List.map_map] at hdistinct
  rw [← List.zipIdx_map_fst 0 decls, List.map_map]
  exact hdistinct

end FieldTable

end RowQuery
