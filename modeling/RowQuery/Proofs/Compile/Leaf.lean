import RowQuery.Proofs.Compile.Acceptance
import RowQuery.Proofs.Compile.Meaning

/-!
# Leaves on declared fields

A key names at most one declared field, since no two declared names match
alike. So a leaf is about one declaration: it compiles if and only if its value
fits the type of that declaration, and then it tests the cell that the
declaration has in a row.
-/

namespace RowQuery

section Declared

variable {R O : Type} {decls : List (Declaration R)} {output : R → O}
  {projection : Projection R O} {matching : KeyMatching} {table : FieldTable}
  (hprojection : ((Projection.draft output).declareAll decls).finish = .ok projection)
  (htable : FieldTable.ofProjection projection matching = .ok table)
  {decl : Declaration R} (hdecl : decl ∈ decls) {key : String}
  (hkey : matching.fold decl.name = matching.fold key)

include hprojection htable hdecl hkey

/-- The first declaration whose name matches a key is the only one. -/
theorem Declaration.find?_of_mem :
    decls.find? (fun d => matching.fold d.name == matching.fold key) = some decl := by
  have hnodup := FieldTable.nodup_folded_names hprojection htable
  exact find?_of_nodup hnodup hdecl hkey

theorem Declaration.typeOf?_of_mem :
    matching.typeOf? (decls.map Declaration.typedName) key = some decl.type := by
  have hfind := find?_of_mem hprojection htable hdecl hkey
  rw [KeyMatching.typeOf?, List.find?_map, Option.map_map, Option.map_eq_some_iff]
  exact ⟨decl, hfind, rfl⟩

namespace Filter

variable {operator : Operator} {value : Value}

/-- A compiled leaf tests the cell of its declaration. -/
theorem passes?_of_compile_leaf {p : Predicate}
    (hcompile : compile .default table (.leaf key operator value) = .ok p) (row : R) :
    (decl.cell row).passes? operator value (fun element => value.bodyMeaning? matching element)
      = some (p.holds (projection.layout.view row)) := by
  have hreads := FieldTable.reads_ofProjection hprojection htable row
  have hmeaning := meaning?_compileWithin hcompile hreads
  have hmatching : table.matching = matching := by
    rw [(FieldTable.ofProjection_eq hprojection htable).1]
  have hfind := Declaration.find?_of_mem hprojection htable hdecl hkey
  have hcell : (decls.map (·.cell row)).find?
      (fun cell => matching.fold cell.name == matching.fold key) = some (decl.cell row) := by
    rw [List.find?_map, Option.map_eq_some_iff]
    exact ⟨decl, hfind, rfl⟩
  rw [hmatching, meaning?, hcell, Option.bind_some] at hmeaning
  exact hmeaning

/-- A leaf whose value fits compiles. -/
theorem exists_compile_leaf (hfits : operator.Fits decl.type value) :
    ∃ p, compile .default table (.leaf key operator value) = .ok p := by
  have hscope := FieldTable.describes_ofProjection hprojection htable
  have htype := Declaration.typeOf?_of_mem hprojection htable hdecl hkey
  exact compile_of_wellTyped (.leaf htype hfits) hscope

/-- A leaf whose value does not fit has no handler, unless it has a body. -/
theorem compile_leaf_of_not_fits (hfits : ¬operator.Fits decl.type value)
    (hquantifier : operator.isQuantifier = false) :
    compile .default table (.leaf key operator value)
      = .error (.noHandler key operator value.kind) := by
  have hscope := FieldTable.describes_ofProjection hprojection htable
  have htype := Declaration.typeOf?_of_mem hprojection htable hdecl hkey
  have hbody : ∀ element body, decl.type = .list element → operator.isQuantifier = true →
      value ≠ .filter body := by
    intro element body _ h
    rw [hquantifier] at h
    cases h
  exact compile_of_firstFault (.noHandler htype hfits hbody) hscope

end Filter

end Declared

end RowQuery
