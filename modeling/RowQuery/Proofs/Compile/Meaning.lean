import RowQuery.Compile.Filter
import RowQuery.Proofs.Compile.Answer
import RowQuery.Proofs.Fault.Success
import RowQuery.Proofs.Predicate.Evaluate
import RowQuery.Proofs.Schema.Declaration

/-!
# What a filter means

`Filter.meaning?` evaluates a filter on cells, by recursion on the filter and
without tables, handlers or predicates. A compiled filter holds of a row where
the filter is true of the declared cells of the row, and a filter that compiles
says something about them.

The proof follows the compiler. Every answer of the built-in handlers tests a
cell as the leaf does (`Handler.Answer.passes?`); from it, by induction on the
filter, a compiled filter agrees with its meaning in a context whose bodies do
(`Filter.meaning?_compileIn`); and by induction on the levels that are left, all
bodies do (`Filter.meaning?_compileWithin`).
-/

namespace RowQuery

/-! ## Cells -/

/-- The bytes by which a text cell is ordered; null has none, and no other
content has a place among texts. -/
def Value.textKey? : Value → Option (Option (List UInt8))
  | .null => some none
  | .text s => some (some (textBytes s))
  | _ => none

namespace Cell

/-- How the content of a cell stands to a value. The contents of text cells are
ordered by their bytes, null being the lowest; all others as scalars are. -/
def order? (cell : Cell) (value : Value) : Option Ordering :=
  if cell.type = .text then do
    let key ← cell.content.textKey?
    let other ← value.textKey?
    return compare key other
  else cell.content.strictOrder? value

/-- What `body` says of every element of a cell of a list type, the element
being a cell of its own. -/
def eachElement? (cell : Cell) (body : Cell → Option Bool) : Option (List Bool) := do
  let type ← cell.type.element?
  cell.content.elements.mapM fun content => body { name := elementKey, type, content }

/-- Whether a cell passes the test of a leaf, where `body` is what the body of
a quantifier says of an element. Some leaves say nothing about some cells: a
pattern has to be a text, an item has to be castable to the type of the
elements, and a quantifier needs elements and a body. -/
def passes? (cell : Cell) (operator : Operator) (value : Value) (body : Cell → Option Bool) :
    Option Bool :=
  match operator with
  | .eq => some (cell.content.equal value)
  | .ne => some (!cell.content.equal value)
  | .gt => some ((cell.order? value).any (· == .gt))
  | .gte => some ((cell.order? value).any (· != .lt))
  | .lt => some ((cell.order? value).any (· == .lt))
  | .lte => some ((cell.order? value).any (· != .gt))
  | .like =>
      value.asText?.map fun pattern => cell.content.plainText?.any (Pattern.matches? pattern)
  | .contains => do
      let type ← cell.type.element?
      let item ← value.castTo? type
      return cell.content.elements.any (·.equal item)
  | .all => (cell.eachElement? body).map (·.all id)
  | .any => (cell.eachElement? body).map (·.any id)

end Cell

/-! ## The meaning of filters -/

mutual

/-- Whether a filter is true of cells, if it says anything about them. A leaf
asks about the cell whose name matches its key. -/
def Filter.meaning? (matching : KeyMatching) (cells : List Cell) : Filter → Option Bool
  | .and children => (Filter.meanings? matching cells children).map (·.all id)
  | .or children => (Filter.meanings? matching cells children).map (·.any id)
  | .not child => (child.meaning? matching cells).map (!·)
  | .leaf key operator value =>
      (cells.find? fun cell => matching.fold cell.name == matching.fold key).bind fun cell =>
        cell.passes? operator value fun element => value.bodyMeaning? matching element

/-- Whether each of some filters is true of cells. -/
def Filter.meanings? (matching : KeyMatching) (cells : List Cell) :
    List Filter → Option (List Bool)
  | [] => some []
  | f :: rest =>
      (f.meaning? matching cells).bind fun holds =>
        (Filter.meanings? matching cells rest).map (holds :: ·)

/-- Whether the body of a quantifier is true of an element, which is all that
the body sees. -/
def Value.bodyMeaning? (matching : KeyMatching) (element : Cell) : Value → Option Bool
  | .filter body => body.meaning? matching [element]
  | _ => none

end

/-! ## Answers of handlers -/

theorem Value.textOrder?_eq (a b : Value) :
    a.textOrder? b = (do
      let key ← a.textKey?
      let other ← b.textKey?
      return compare key other) := by
  cases a <;> cases b <;> rfl

namespace Relation

variable {relation : Relation} {operator : Operator}

theorem holds_of_order (horder : relation.isEquality = false) (cell value : Value) :
    relation.holds cell value = (cell.strictOrder? value).any relation.holdsOn := by
  cases relation with
  | eq | ne => cases horder
  | _ => rfl

theorem passes?_of_order (hrelation : operator.relation? = some relation)
    (horder : relation.isEquality = false) (cell : Cell) (value : Value)
    (body : Cell → Option Bool) :
    cell.passes? operator value body = some ((cell.order? value).any relation.holdsOn) := by
  cases operator with
  | eq | ne =>
      cases hrelation
      cases horder
  | gt | gte | lt | lte =>
      cases hrelation
      rw [Cell.passes?]
      congr 2
      funext o
      cases o <;> rfl
  | _ => cases hrelation

theorem passes?_of_equality (hrelation : operator.relation? = some relation)
    (hequality : relation.isEquality = true) (cell : Cell) (value : Value)
    (body : Cell → Option Bool) :
    cell.passes? operator value body = some (relation.holds cell.content value) := by
  cases operator with
  | eq | ne =>
      cases hrelation
      rfl
  | gt | gte | lt | lte =>
      cases hrelation
      cases hequality
  | _ => cases hrelation

end Relation

/-- A context compiles bodies to what they mean. -/
def LeafContext.CompilesBodies (context : LeafContext) : Prop :=
  ∀ ⦃type body predicate⦄, context.compileElement type body = .ok predicate → ∀ content,
    body.meaning? context.table.matching [{ name := elementKey, type, content }]
      = some (predicate.holds (.ofElement content))

theorem FieldAccess.Reads.eachElement?_eq {view : RowView} {field : FieldAccess} {cell : Cell}
    (h : field.Reads view cell) {type : DataType} (htype : field.elementType? = some type)
    {body : Cell → Option Bool} {holds : Value → Bool}
    (hbody : ∀ content, body { name := elementKey, type, content } = some (holds content)) :
    cell.eachElement? body = some ((field.onDemand.elements view).items.map holds) := by
  rw [elementType?, h.type] at htype
  rw [Cell.eachElement?, htype, h.elements]
  simp only [Option.bind_eq_bind, Option.bind_some, hbody]
  exact List.mapM_pure

/-- An answer tests the cell that the field reads as the leaf does. -/
theorem Handler.Answer.passes? {context : LeafContext} {operator : Operator} {field : FieldAccess}
    {value : Value} {condition : Condition}
    (h : Handler.Answer context operator field value condition) (hbodies : context.CompilesBodies)
    {view : RowView} {cell : Cell} (hreads : field.Reads view cell) :
    cell.passes? operator value (fun element => value.bodyMeaning? context.table.matching element)
      = some (condition.holds view) := by
  cases h with
  | contains helement hcast =>
      rw [FieldAccess.elementType?, hreads.type] at helement
      rw [Condition.holds_contains, hreads.elements, Cell.passes?, helement]
      simp only [Option.bind_eq_bind, Option.bind_some, hcast]
      rfl
  | @quantified _ _ _ _ body predicate hquantifier helement hbody =>
      have heach : cell.eachElement? (fun element => body.meaning? context.table.matching [element])
          = some ((field.onDemand.elements view).items.map fun content =>
              predicate.holds (.ofElement content)) :=
        hreads.eachElement?_eq helement (hbodies hbody)
      cases operator <;> cases hquantifier
      · rw [Condition.holds_all, Cell.passes?]
        simp only [Value.bodyMeaning?, heach, Option.map_some, List.all_map, Function.id_comp]
      · rw [Condition.holds_any, Cell.passes?]
        simp only [Value.bodyMeaning?, heach, Option.map_some, List.any_map, Function.id_comp]
  | like =>
      rw [Condition.holds_like, hreads.read]
      rfl
  | ordersText hrelation horder htext =>
      rw [Condition.holds_relatesAsText, hreads.read, Relation.passes?_of_order hrelation horder,
        Cell.order?, ← hreads.type, if_pos htext, ← Value.textOrder?_eq]
      rfl
  | @relates _ relation _ _ hrelation hother =>
      rw [Condition.holds_relates, hreads.read]
      cases hequality : relation.isEquality with
      | true => exact Relation.passes?_of_equality hrelation hequality ..
      | false =>
          have htext : cell.type ≠ .text := by
            rw [← hreads.type]
            exact hother.resolve_left (Bool.eq_false_iff.mp hequality)
          rw [Relation.passes?_of_order hrelation hequality, Cell.order?, if_neg htext,
            Relation.holds_of_order hequality]

/-! ## The compiler -/

namespace Filter

section Context

variable {context : LeafContext} {view : RowView} {cells : List Cell}

mutual

/-- In a context whose bodies mean what they should, a compiled filter holds
where the filter means true. -/
theorem meaning?_compileIn (hbodies : context.CompilesBodies)
    (hreads : context.table.Reads view cells) : ∀ {f : Filter} {p : Predicate},
    compileIn .default context f = .ok p →
      f.meaning? context.table.matching cells = some (p.holds view)
  | .and (f :: rest), _, h => by
      simp only [compileIn] at h
      obtain ⟨children, hchildren, rfl⟩ := Except.map_eq_ok.mp h
      rw [Predicate.holds_and, meaning?, meanings?_compileAllIn hbodies hreads hchildren,
        Option.map_some, List.all_map, Function.id_comp]
  | .or (f :: rest), _, h => by
      simp only [compileIn] at h
      obtain ⟨children, hchildren, rfl⟩ := Except.map_eq_ok.mp h
      rw [Predicate.holds_or, meaning?, meanings?_compileAllIn hbodies hreads hchildren,
        Option.map_some, List.any_map, Function.id_comp]
  | .not child, _, h => by
      rw [compileIn] at h
      obtain ⟨p, hp, rfl⟩ := Except.map_eq_ok.mp h
      rw [Predicate.holds_not, meaning?, meaning?_compileIn hbodies hreads hp, Option.map_some]
  | .leaf key operator value, _, h => by
      rw [compileIn] at h
      split at h
      · cases h
      · rename_i field hfield
        obtain ⟨condition, hcondition, rfl⟩ := Except.map_eq_ok.mp h
        obtain ⟨cell, hcell, hcellreads⟩ := hreads (FieldTable.lookup_eq_ok_iff.mp hfield)
        rw [Predicate.holds_check, meaning?, hcell, Option.bind_some]
        exact (Handler.answer_of_condition hcondition).passes? hbodies hcellreads

theorem meanings?_compileAllIn (hbodies : context.CompilesBodies)
    (hreads : context.table.Reads view cells) : ∀ {fs : List Filter} {ps : List Predicate},
    compileAllIn .default context fs = .ok ps →
      meanings? context.table.matching cells fs = some (ps.map (·.holds view))
  | [], _, h => by
      cases h
      rfl
  | f :: rest, _, h => by
      rw [compileAllIn] at h
      split at h
      · cases h
      · rename_i p hp
        obtain ⟨others, hothers, rfl⟩ := Except.map_eq_ok.mp h
        rw [meanings?, meaning?_compileIn hbodies hreads hp, Option.bind_some,
          meanings?_compileAllIn hbodies hreads hothers, Option.map_some, List.map_cons]

end

end Context

/-- The bodies of a context are compiled with one level less. -/
theorem meaning?_compileWithin {levels : Nat} {table : FieldTable} {f : Filter} {p : Predicate}
    (h : compileWithin .default levels table f = .ok p) {view : RowView} {cells : List Cell}
    (hreads : table.Reads view cells) :
    f.meaning? table.matching cells = some (p.holds view) := by
  induction levels generalizing table f p view cells with
  | zero =>
      rw [compileWithin] at h
      refine meaning?_compileIn ?_ hreads h
      intro type body predicate hbody
      cases hbody
  | succ levels ih =>
      rw [compileWithin] at h
      refine meaning?_compileIn ?_ hreads h
      intro type body predicate hbody content
      exact ih hbody (FieldTable.reads_ofElement type table.matching content)

/-- Filters that compile against the table of a projection mean what they say
of the declared cells of every row. No two declared names match the same key,
so that a leaf asks about the one field there is. -/
theorem meaning?_compile {R O : Type} {decls : List (Declaration R)} {output : R → O}
    {projection : Projection R O} {matching : KeyMatching} {table : FieldTable}
    {f : Filter} {p : Predicate}
    (hprojection : ((Projection.draft output).declareAll decls).finish = .ok projection)
    (htable : FieldTable.ofProjection projection matching = .ok table)
    (hcompile : compile .default table f = .ok p) :
    (decls.map fun decl => matching.fold decl.name).Nodup
      ∧ ∀ row, f.meaning? matching (decls.map (·.cell row))
          = some (p.holds (projection.layout.view row)) := by
  refine ⟨FieldTable.nodup_folded_names hprojection htable, fun row => ?_⟩
  have hreads := FieldTable.reads_ofProjection hprojection htable row
  have hmatching : table.matching = matching := by
    rw [(FieldTable.ofProjection_eq hprojection htable).1]
  rw [← hmatching]
  exact meaning?_compileWithin hcompile hreads

/-- Numbered rows with labels. -/
def labelledRows : List (Declaration (Int64 × List String)) :=
  [.single inferInstance "id" (·.1), .many none inferInstance "labels" (·.2)]

/-- Asks for a number from two on, and for a label other than `a`. -/
def otherLabel : Filter :=
  .and [.leaf "id" .gte (.int 2), .leaf "Labels" .any (.filter (.leaf "value" .ne (.text "a")))]

theorem meaning?_otherLabel : ∃ projection table p,
    ((Projection.draft Prod.fst).declareAll labelledRows).finish = .ok projection
      ∧ FieldTable.ofProjection projection .ignoreCase = .ok table
      ∧ compile .default table otherLabel = .ok p
      ∧ p.holds (projection.layout.view (2, ["a", "b"])) = true
      ∧ p.holds (projection.layout.view (2, ["a", "a"])) = false := by
  have hok : ∃ projection table p,
      ((Projection.draft Prod.fst).declareAll labelledRows).finish = .ok projection
        ∧ FieldTable.ofProjection projection .ignoreCase = .ok table
        ∧ compile .default table otherLabel = .ok p :=
    ⟨_, _, _, rfl, rfl, rfl⟩
  obtain ⟨projection, table, p, hprojection, htable, hcompile⟩ := hok
  have hmeaning := (meaning?_compile hprojection htable hcompile).2
  have htrue := (hmeaning (2, ["a", "b"])).symm
  have hfalse := (hmeaning (2, ["a", "a"])).symm
  exact ⟨projection, table, p, hprojection, htable, hcompile,
    Option.some.inj (htrue.trans (by decide +kernel)),
    Option.some.inj (hfalse.trans (by decide +kernel))⟩

end Filter

end RowQuery
