import RowQuery.Proofs.Schema.Declaration
import RowQuery.Proofs.Text.Lowercase

/-!
# Fields, columns and keys stay aligned

Declarations make a projection if their names are identifiers and no name
repeats, and the projection has a table under a key matching if no two names
fold alike. Then everything is in its place (`Projection.Aligned`): the n-th
field has the name of the n-th declaration, a key finds the one field whose name
matches, and what the access of the n-th field reads in a row is what the n-th
declaration takes from the row, whatever was declared before it.

Names are checked one by one against those seen before, and put into the table
one by one against its entries. Each walk gets its condition by induction on the
names that are left, with the ones before them in the statement
(`ProjectionDraft.checkNames_eq_ok_iff`, `FieldTable.exists_insertAll_iff`).
-/

namespace RowQuery

variable {R O : Type}

/-! ## Names of a projection -/

namespace ProjectionDraft

/-- The check accepts distinct identifiers that have not been seen before. -/
theorem checkNames_eq_ok_iff {seen names : List String} :
    checkNames seen names = .ok ()
      ↔ (∀ name ∈ names, isIdentifier name = true) ∧ names.Nodup ∧ ∀ name ∈ names, name ∉ seen := by
  induction names generalizing seen with
  | nil => simp [checkNames]
  | cons name rest ih =>
      rw [checkNames, List.forall_mem_cons, List.nodup_cons, List.forall_mem_cons]
      by_cases hidentifier : isIdentifier name = true
      · by_cases hseen : name ∈ seen
        · simp [hidentifier, hseen]
        · have hrest : (∀ other ∈ rest, other ∉ name :: seen)
              ↔ name ∉ rest ∧ ∀ other ∈ rest, other ∉ seen := by
            simp only [List.mem_cons, not_or, forall_and, and_congr_left_iff]
            exact fun _ => ⟨fun h hname => h name hname rfl, fun h other hother heq =>
              h (heq ▸ hother)⟩
          simp only [hidentifier, Bool.not_true, Bool.false_eq_true, if_false,
            List.contains_iff_mem, hseen, ih, hrest, not_false_eq_true, true_and]
          tauto
      · simp [hidentifier]

/-- A draft can be finished if it has fields and their names are distinct
identifiers. -/
theorem exists_finish_iff (draft : ProjectionDraft R O) :
    (∃ projection, draft.finish = .ok projection)
      ↔ draft.fields ≠ [] ∧ (∀ name ∈ draft.fields.map (·.name), isIdentifier name = true)
        ∧ (draft.fields.map (·.name)).Nodup := by
  have hnames : checkNames [] (draft.fields.map (·.name)) = .ok ()
      ↔ (∀ name ∈ draft.fields.map (·.name), isIdentifier name = true)
        ∧ (draft.fields.map (·.name)).Nodup := by
    rw [checkNames_eq_ok_iff]
    simp only [List.not_mem_nil, not_false_eq_true, implies_true, and_true]
  rw [← hnames, finish]
  by_cases hnone : draft.fields = []
  · simp [hnone]
  · rw [if_neg (mt List.isEmpty_iff.mp hnone)]
    cases hcheck : checkNames [] (draft.fields.map (·.name)) with
    | error fault => simp
    | ok _ => simp [hnone]

/-- Declared fields come one for each declaration, in their order. -/
theorem fields_declareAll (output : R → O) (decls : List (Declaration R)) :
    ((Projection.draft output).declareAll decls).fields
      = decls.zipIdx.map fun (decl, slot) => { name := decl.name, access := decl.access slot } := by
  rw [declareAll_eq]
  rfl

theorem names_declareAll (output : R → O) (decls : List (Declaration R)) :
    ((Projection.draft output).declareAll decls).fields.map (·.name)
      = decls.map Declaration.name := by
  rw [fields_declareAll, List.map_map, ← List.zipIdx_map_fst 0 decls, List.map_map,
    List.zipIdx_map_fst]
  rfl

/-- Declarations can be finished if there are some and their names are distinct
identifiers. -/
theorem exists_finish_declareAll_iff (output : R → O) (decls : List (Declaration R)) :
    (∃ projection, ((Projection.draft output).declareAll decls).finish = .ok projection)
      ↔ decls ≠ [] ∧ (∀ decl ∈ decls, isIdentifier decl.name = true)
        ∧ (decls.map Declaration.name).Nodup := by
  have hnone : ((Projection.draft output).declareAll decls).fields ≠ [] ↔ decls ≠ [] := by
    rw [fields_declareAll, ne_eq, List.map_eq_nil_iff, List.zipIdx_eq_nil_iff]
  rw [exists_finish_iff, hnone, names_declareAll, List.forall_mem_map]

end ProjectionDraft

/-! ## Names of a table -/

namespace FieldTable

variable {table : FieldTable} {fields : List FieldDecl}

theorem exists_insert_iff {field : FieldDecl} :
    (∃ result, table.insert field.name field.access = .ok result)
      ↔ ∀ entry ∈ table.entries, entry.folded ≠ table.matching.fold field.name := by
  have hnew : table.findFolded (table.matching.fold field.name) = none
      ↔ ∀ entry ∈ table.entries, entry.folded ≠ table.matching.fold field.name := by
    simp [findFolded]
  rw [← hnew, insert]
  cases table.findFolded (table.matching.fold field.name) <;> simp

/-- Fields can be put into a table if their names fold to different texts, none
of which is in the table. -/
theorem exists_insertAll_iff :
    (∃ result, table.insertAll fields = .ok result)
      ↔ (fields.map fun field => table.matching.fold field.name).Nodup
        ∧ ∀ field ∈ fields, ∀ entry ∈ table.entries,
          entry.folded ≠ table.matching.fold field.name := by
  induction fields generalizing table with
  | nil => simp [insertAll]
  | cons field rest ih =>
      rw [List.map_cons, List.nodup_cons, List.forall_mem_cons, ← exists_insert_iff]
      constructor
      · rintro ⟨result, hresult⟩
        obtain ⟨next, hnext, hrest⟩ := insertAll_cons hresult
        obtain ⟨-, rfl⟩ := insert_eq hnext
        obtain ⟨hnodup, hnew⟩ := ih.mp ⟨result, hrest⟩
        refine ⟨⟨?_, hnodup⟩, ⟨_, hnext⟩, fun other hother entry hentry =>
          hnew other hother entry (List.mem_append_left _ hentry)⟩
        intro hmem
        obtain ⟨other, hother, hsame⟩ := List.mem_map.mp hmem
        exact hnew other hother _ (List.mem_append_right _ (List.mem_singleton_self _)) hsame.symm
      · rintro ⟨⟨hfirst, hnodup⟩, ⟨next, hnext⟩, hnew⟩
        have hrest : ∃ result, next.insertAll rest = .ok result := by
          obtain ⟨-, rfl⟩ := insert_eq hnext
          refine ih.mpr ⟨hnodup, fun other hother entry hentry => ?_⟩
          rcases List.mem_append.mp hentry with hold | hlast
          · exact hnew other hother entry hold
          · obtain rfl := List.mem_singleton.mp hlast
            exact fun hsame => hfirst (List.mem_map.mpr ⟨other, hother, hsame.symm⟩)
        obtain ⟨result, hresult⟩ := hrest
        exact ⟨result, Except.bind_eq_ok.mpr ⟨next, hnext, hresult⟩⟩

theorem exists_ofProjection_iff (projection : Projection R O) (matching : KeyMatching) :
    (∃ table, ofProjection projection matching = .ok table)
      ↔ (projection.fields.map fun field => matching.fold field.name).Nodup := by
  rw [ofProjection, exists_insertAll_iff]
  simp [empty]

/-- The entries of the table of a projection are those for its fields. -/
theorem ofProjection_eq_entries {projection : Projection R O} {matching : KeyMatching}
    (htable : ofProjection projection matching = .ok table) :
    table = { matching, entries := projection.fields.map (entryOf matching) } :=
  insertAll_eq htable

/-- A key finds the first field whose name matches. -/
theorem get?_ofProjection {projection : Projection R O} {matching : KeyMatching}
    (htable : ofProjection projection matching = .ok table) (key : String) :
    table.get? key
      = (projection.fields.find? fun field => matching.fold field.name == matching.fold key).map
          (·.access) := by
  rw [ofProjection_eq_entries htable, get?, findFolded, List.find?_map, Option.map_map]
  rfl

end FieldTable

/-! ## What is aligned -/

/-- How the table of a projection and the accesses of its fields stand to the
declarations from which the projection was made. -/
structure Projection.Aligned (projection : Projection R O) (decls : List (Declaration R))
    (matching : KeyMatching) (table : FieldTable) : Prop where
  names : projection.fields.map (·.name) = decls.map Declaration.name
  keys : table.keys = decls.map Declaration.name
  /-- A key finds the field with a matching name, of which there is one. -/
  found : ∀ {key : String} {i : Nat} {field : FieldDecl}, projection.fields[i]? = some field →
    matching.fold field.name = matching.fold key →
      table.lookup key = .ok field.access
        ∧ ∀ {j : Nat} {other : FieldDecl}, projection.fields[j]? = some other →
          matching.fold other.name = matching.fold key → j = i
  /-- Any other key is reported as it is written. -/
  missing : ∀ {key : String},
    (∀ field ∈ projection.fields, matching.fold field.name ≠ matching.fold key) →
      table.lookup key = .error (.unknownKey key)
  /-- The case of ASCII letters does not matter where case is ignored. -/
  anyCase : matching = .ignoreCase → ∀ {key other : String},
    key.toList.map Char.toLower = other.toList.map Char.toLower →
      (∃ access, table.lookup key = .ok access ∧ table.lookup other = .ok access)
        ∨ table.lookup key = .error (.unknownKey key)
          ∧ table.lookup other = .error (.unknownKey other)
  /-- The access of a field reads what its declaration takes from the row. -/
  cells : ∀ {i : Nat} {field : FieldDecl} {decl : Declaration R},
    projection.fields[i]? = some field → decls[i]? = some decl → ∀ row,
      (field.access.read (projection.layout.view row)).value = decl.content row

namespace FieldTable

variable {projection : Projection R O} {matching : KeyMatching} {table : FieldTable}

theorem lookup_of_getElem? (htable : ofProjection projection matching = .ok table) {key : String}
    {i : Nat} {field : FieldDecl} (hfield : projection.fields[i]? = some field)
    (hkey : matching.fold field.name = matching.fold key) :
    table.lookup key = .ok field.access
      ∧ ∀ {j : Nat} {other : FieldDecl}, projection.fields[j]? = some other →
        matching.fold other.name = matching.fold key → j = i := by
  have hnodup := (exists_ofProjection_iff projection matching).mp ⟨table, htable⟩
  have hfind := find?_of_nodup hnodup (List.mem_of_getElem? hfield) hkey
  refine ⟨?_, fun {j other} hother hotherKey => ?_⟩
  · rw [lookup_eq_ok_iff, get?_ofProjection htable, hfind]
    rfl
  · obtain ⟨hlt, -⟩ := List.getElem?_eq_some_iff.mp hother
    refine (List.getElem?_inj (by rwa [List.length_map]) hnodup).mp ?_
    rw [List.getElem?_map, List.getElem?_map, hother, hfield, Option.map_some, Option.map_some,
      hotherKey, hkey]

theorem lookup_of_forall_ne (htable : ofProjection projection matching = .ok table) {key : String}
    (hkey : ∀ field ∈ projection.fields, matching.fold field.name ≠ matching.fold key) :
    table.lookup key = .error (.unknownKey key) := by
  have hnone : (projection.fields.find? fun f => matching.fold f.name == matching.fold key)
      = none :=
    List.find?_eq_none.mpr fun field hfield hmatch => hkey field hfield (beq_iff_eq.mp hmatch)
  rw [lookup_eq_error_iff, get?_ofProjection htable, hnone]
  exact ⟨rfl, rfl⟩

/-- Keys that fold alike find the same field, or both find none. -/
theorem lookup_of_fold_eq {key other : String}
    (h : table.matching.fold key = table.matching.fold other) :
    (∃ access, table.lookup key = .ok access ∧ table.lookup other = .ok access)
      ∨ table.lookup key = .error (.unknownKey key)
        ∧ table.lookup other = .error (.unknownKey other) := by
  have hget : table.get? key = table.get? other := by rw [get?, get?, h]
  simp only [lookup_eq_ok_iff, lookup_eq_error_iff, hget, and_self, and_true]
  exact (Option.eq_none_or_eq_some _).symm

end FieldTable

namespace ProjectionDraft

section Finished

variable {decls : List (Declaration R)} {output : R → O} {projection : Projection R O}
  (hprojection : ((Projection.draft output).declareAll decls).finish = .ok projection)

include hprojection

theorem names_of_finish : projection.fields.map (·.name) = decls.map Declaration.name := by
  rw [(finish_eq hprojection).1, names_declareAll]

/-- A projection has a table if no two declared names fold alike. -/
theorem exists_table_iff (matching : KeyMatching) :
    (∃ table, FieldTable.ofProjection projection matching = .ok table)
      ↔ (decls.map fun decl => matching.fold decl.name).Nodup := by
  have hfolded : projection.fields.map (fun field => matching.fold field.name)
      = decls.map fun decl => matching.fold decl.name := by
    have := congrArg (List.map matching.fold) (names_of_finish hprojection)
    rwa [List.map_map, List.map_map] at this
  rw [FieldTable.exists_ofProjection_iff, hfolded]

/-- The n-th field reads what the n-th declaration takes from a row. -/
theorem read_of_finish {i : Nat} {field : FieldDecl} {decl : Declaration R}
    (hfield : projection.fields[i]? = some field) (hdecl : decls[i]? = some decl) (row : R) :
    (field.access.read (projection.layout.view row)).value = decl.content row := by
  obtain ⟨hfields, hcolumns⟩ := finish_eq hprojection
  rw [hfields, fields_declareAll, List.getElem?_map, List.getElem?_zipIdx, hdecl] at hfield
  obtain rfl := Option.some.inj hfield
  have hcolumn : projection.layout.columns[0 + i]? = some decl.column := by
    rw [hcolumns, declareAll_eq, Nat.zero_add]
    show (decls.map Declaration.column)[i]? = _
    rw [List.getElem?_map, hdecl]
    rfl
  exact (decl.reads_access hcolumn row).read

end Finished

/-- Declarations make a projection exactly if there are some and their names are
distinct identifiers; the projection has a table exactly if no two names fold
alike, and always one that matches keys exactly. Then names, keys, accesses and
cells are aligned. -/
theorem declareAll_aligned (output : R → O) (decls : List (Declaration R)) :
    ((∃ projection, ((Projection.draft output).declareAll decls).finish = .ok projection)
        ↔ decls ≠ [] ∧ (∀ decl ∈ decls, isIdentifier decl.name = true)
          ∧ (decls.map Declaration.name).Nodup)
      ∧ ∀ projection, ((Projection.draft output).declareAll decls).finish = .ok projection →
        (∀ matching, (∃ table, FieldTable.ofProjection projection matching = .ok table)
            ↔ (decls.map fun decl => matching.fold decl.name).Nodup)
          ∧ (∃ table, FieldTable.ofProjection projection .exact = .ok table)
          ∧ ∀ matching table, FieldTable.ofProjection projection matching = .ok table →
            projection.Aligned decls matching table := by
  have hfinish := exists_finish_declareAll_iff output decls
  refine ⟨hfinish, fun projection hprojection => ?_⟩
  have hnames := names_of_finish hprojection
  have htable := exists_table_iff hprojection
  refine ⟨htable, (htable .exact).mpr (hfinish.mp ⟨projection, hprojection⟩).2.2,
    fun matching table hmade => ?_⟩
  have hentries := FieldTable.ofProjection_eq_entries hmade
  refine ⟨hnames, ?_, FieldTable.lookup_of_getElem? hmade, FieldTable.lookup_of_forall_ne hmade,
    ?_, read_of_finish hprojection⟩
  · rw [← hnames, hentries, FieldTable.keys, List.map_map]
    rfl
  · rintro rfl key other hsame
    refine FieldTable.lookup_of_fold_eq ?_
    rw [hentries]
    exact lowercase_congr hsame

/-- Rows with words, a number and marks, in all sorts of columns. -/
def mixedColumns : List (Declaration (List String × Int64 × List Bool)) :=
  [.many (some .list) inferInstance "Words" (·.1), .single inferInstance "id" (·.2.1),
    .many none inferInstance "_marks" (·.2.2), .many (some .array) inferInstance "copy" (·.2.2)]

theorem declareAll_aligned_mixedColumns : ∃ projection table,
    ((Projection.draft Prod.fst).declareAll mixedColumns).finish = .ok projection
      ∧ FieldTable.ofProjection projection .ignoreCase = .ok table
      ∧ table.lookup "COPY" = .ok (.snapshot .array (.sequence "copy" 3 .bool))
      ∧ table.lookup "marks" = .error (.unknownKey "marks")
      ∧ ∀ row, ((FieldAccess.snapshot .array (.sequence "copy" 3 .bool)).read
          (projection.layout.view row)).value = .list (row.2.2.map .bool) := by
  obtain ⟨hfinish, hbuilt⟩ := declareAll_aligned Prod.fst mixedColumns
  obtain ⟨projection, hprojection⟩ :=
    hfinish.mpr ⟨by simp [mixedColumns], by decide +kernel, by decide +kernel⟩
  obtain ⟨htables, -, haligned⟩ := hbuilt projection hprojection
  obtain ⟨table, htable⟩ := (htables .ignoreCase).mpr (by decide +kernel)
  have h := haligned _ _ htable
  have hfield : projection.fields[3]?
      = some { name := "copy", access := .snapshot .array (.sequence "copy" 3 .bool) } := by
    rw [(finish_eq hprojection).1]
    rfl
  refine ⟨projection, table, hprojection, htable, (h.found hfield (by decide +kernel)).1,
    h.missing ?_, h.cells hfield rfl⟩
  rw [(finish_eq hprojection).1]
  decide +kernel

end ProjectionDraft

end RowQuery
