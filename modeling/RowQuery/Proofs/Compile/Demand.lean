import RowQuery.Proofs.Compile.Meaning
import RowQuery.Proofs.Compile.Scope
import RowQuery.Proofs.Schema.Alignment

/-!
# What filters take from sequences

Some of the cells of a row are supplied element by element. `Filter.demand` says
which elements a filter asks for, by recursion on the filter and without tables,
handlers or predicates: a group asks its children up to the first that decides,
a membership test and a quantifier ask for the elements up to the first that
decides, and all other leaves for every element.

By induction on the rules of the compiler a compiled filter takes what the
filter demands (`Filter.Compiled.taken_evaluate`). Neither what a filter demands
nor what it means depends on the snapshots that are declared, so a row is
evaluated with the same result and at the same cost however its sequences are
declared (`Filter.lazy_compile`).
-/

namespace RowQuery

variable {R O : Type}

/-! ## Supplies -/

/-- Whether an element of a cell decides a leaf, so that the leaf need not look
at the elements behind it. Here `body` is what the body of a quantifier says of
an element. -/
def Cell.isDecidedBy (cell : Cell) (operator : Operator) (value : Value)
    (body : Cell → Option Bool) (content : Value) : Bool :=
  cell.type.element?.any fun type =>
    match operator with
    | .contains => (value.castTo? type).any content.equal
    | .any => body { name := elementKey, type, content } == some true
    | .all => body { name := elementKey, type, content } == some false
    | _ => false

/-- A cell of a row that may be supplied element by element. -/
structure Supply extends Cell where
  byElement : Bool

/-- What is taken from a slot to look at the elements of a cell up to the first
that decides. -/
def Supply.takeUntil (supply : Supply) (slot : Nat) (decides : Value → Bool) : List Nat :=
  if supply.byElement then (upToFirst decides supply.content.elements).map fun _ => slot else []

namespace Declaration

def isMany : Declaration R → Bool
  | .single .. => false
  | .many .. => true

/-- The cell of the declared field in a row, and how it is supplied. -/
def supply (row : R) (decl : Declaration R) : Supply :=
  { toCell := decl.cell row, byElement := decl.isMany }

/-- The same field without a snapshot. -/
def onDemand : Declaration R → Declaration R
  | .single kind name read => .single kind name read
  | .many _ kind name read => .many none kind name read

section SameColumns

variable (decl : Declaration R) (row : R)

@[simp] theorem name_onDemand : decl.onDemand.name = decl.name := by cases decl <;> rfl

@[simp] theorem typedName_onDemand : decl.onDemand.typedName = decl.typedName := by
  cases decl <;> rfl

@[simp] theorem cell_onDemand : decl.onDemand.cell row = decl.cell row := by cases decl <;> rfl

@[simp] theorem supply_onDemand : decl.onDemand.supply row = decl.supply row := by
  cases decl <;> rfl

/-- Declarations that are the same but for snapshots agree in all that does not
depend on them. -/
theorem map_eq_of_onDemand {decls others : List (Declaration R)}
    (hsame : others.map onDemand = decls.map onDemand) {α : Type} {f : Declaration R → α}
    (hf : ∀ decl, f decl.onDemand = f decl) : others.map f = decls.map f := by
  have hmap := congrArg (List.map f) hsame
  simpa only [List.map_map, Function.comp_def, hf] using hmap

end SameColumns

end Declaration

/-! ## The demand of a filter -/

mutual

/-- The slots of the elements that a filter takes, one entry for each element, if
cells are supplied by the slots in their order. -/
def Filter.demand (matching : KeyMatching) (supplies : List Supply) : Filter → List Nat
  | .and children => Filter.demandUntil matching supplies false children
  | .or children => Filter.demandUntil matching supplies true children
  | .not child => child.demand matching supplies
  | .leaf key operator value =>
      match supplies.zipIdx.find? fun (supply, _) =>
          matching.fold supply.name == matching.fold key with
      | some (supply, slot) =>
          supply.takeUntil slot
            (supply.isDecidedBy operator value fun element => value.bodyMeaning? matching element)
      | none => []

/-- What filters take if none is asked behind the first that decides. -/
def Filter.demandUntil (matching : KeyMatching) (supplies : List Supply) (decisive : Bool) :
    List Filter → List Nat
  | [] => []
  | f :: rest =>
      f.demand matching supplies
        ++ if f.meaning? matching (supplies.map (·.toCell)) == some decisive then []
          else Filter.demandUntil matching supplies decisive rest

end

/-! ## Free fields -/

/-- A field that is read without taking anything. -/
structure FieldAccess.IsFree (view : RowView) (field : FieldAccess) : Prop where
  read : (field.read view).taken = []
  elements : (field.elements view).IsFree

theorem FieldAccess.isFree_element (type : DataType) (content : Value) :
    (FieldAccess.element type).IsFree (.ofElement content) :=
  ⟨rfl, Elements.isFree_ofValue content⟩

/-- A predicate with free fields takes nothing. -/
theorem Predicate.Scoped.taken_evaluate {inScope : FieldAccess → Prop} {p : Predicate}
    (h : p.Scoped inScope) {view : RowView} (hview : ∀ field, inScope field → field.IsFree view) :
    (p.evaluate view).taken = [] := by
  induction h generalizing view with
  | and _ ih =>
      rw [evaluate, evaluateAll_eq]
      exact Reading.taken_settle_of_free (List.forall_mem_map.mpr fun child hchild =>
        ih child hchild hview)
  | or _ ih =>
      rw [evaluate, evaluateAny_eq]
      exact Reading.taken_settle_of_free (List.forall_mem_map.mpr fun child hchild =>
        ih child hchild hview)
  | not _ ih => exact ih hview
  | @test _ condition hfield hplain =>
      have hfree := hview _ hfield
      cases condition with
      | relates | relatesAsText | like | custom => exact hfree.read
      | contains => exact Quantifier.taken_decide_of_isFree .any (fun _ => rfl) hfree.elements
      | quantified quantifier field body => exact absurd rfl (hplain quantifier field body)
  | @quantified _ quantifier _ element _ hfield _ _ ih =>
      have hbody := fun content =>
        ih fun _ heq => heq ▸ FieldAccess.isFree_element element content
      exact quantifier.taken_decide_of_isFree hbody (hview _ hfield).elements

/-! ## Fields that are supplied -/

/-- A field reads a cell, taking all its elements if it is read as a whole, and
no more than needed if they are taken on demand. -/
structure FieldAccess.TakesFrom (view : RowView) (field : FieldAccess) (supply : Supply)
    (slot : Nat) : Prop where
  reads : field.Reads view supply.toCell
  whole : (field.read view).taken = supply.takeUntil slot fun _ => false
  decided : ∀ (quantifier : Quantifier) {test : Value → Reading Bool},
    (∀ v, (test v).taken = []) →
      (quantifier.decide test (field.onDemand.elements view)).taken
        = supply.takeUntil slot fun v => (test v).value == quantifier.decisive

/-- A table finds a field under a key only if a cell has a matching name, and the
field takes from the first such cell. -/
def FieldTable.TakesFrom (view : RowView) (table : FieldTable) (supplies : List Supply) : Prop :=
  ∀ ⦃key field⦄, table.lookup key = .ok field →
    ∃ supply slot, supplies.zipIdx.find? (fun (supply, _) =>
        table.matching.fold supply.name == table.matching.fold key) = some (supply, slot)
      ∧ field.TakesFrom view supply slot

theorem Elements.taken_collect_ofSlot (slot : Nat) (values : List Value) :
    (collect (ofSlot slot values)).taken = values.map fun _ => slot := by
  rw [collect, ofSlot, Reading.free_andThen]
  induction values with
  | nil => rfl
  | cons v rest ih =>
      rw [List.map_cons, List.map_cons, Reading.sequence, Reading.taken_andThen, Reading.taken_map,
        ih]
      rfl

/-- With its column in the slot, a declared field takes from its cell. -/
theorem Declaration.takesFrom_access {layout : RowLayout R} {slot : Nat} :
    ∀ {decl : Declaration R}, layout.columns[slot]? = some decl.column → ∀ row,
      (decl.access slot).TakesFrom (layout.view row) (decl.supply row) slot
  | .single kind name read, hcolumn, row => by
      have hwhole := RowLayout.whole_of_single hcolumn row
      refine ⟨reads_access hcolumn row, ?_, fun quantifier test htest => ?_⟩
      · exact congrArg Reading.taken hwhole
      · refine quantifier.taken_decide_of_isFree htest ?_
        show Elements.IsFree ((layout.whole row slot).andThen Elements.ofValue)
        rw [hwhole, Reading.free_andThen]
        exact Elements.isFree_ofValue _
  | .many form kind name read, hcolumn, row => by
      have helements := RowLayout.elements_of_many hcolumn row
      refine ⟨reads_access hcolumn row, ?_, fun quantifier test htest => ?_⟩
      · have hread : ((Elements.collect (layout.elements row slot)).map Value.list).taken
            = ((read row).map kind.toValue).map fun _ => slot := by
          rw [helements, Reading.taken_map, Elements.taken_collect_ofSlot]
        have hall : ((many form kind name read).supply row).takeUntil slot (fun _ => false)
            = ((read row).map kind.toValue).map fun _ => slot :=
          congrArg (List.map fun _ => slot) (upToFirst_false _)
        rw [hall]
        cases form <;> exact hread
      · have hdecide := quantifier.taken_decide_ofSlot htest slot ((read row).map kind.toValue)
        rw [← helements] at hdecide
        cases form <;> exact hdecide

namespace FieldTable

theorem takesFrom_ofProjection {decls : List (Declaration R)} {output : R → O}
    {projection : Projection R O} {matching : KeyMatching} {table : FieldTable}
    (hprojection : ((Projection.draft output).declareAll decls).finish = .ok projection)
    (htable : ofProjection projection matching = .ok table) (row : R) :
    table.TakesFrom (projection.layout.view row) (decls.map (·.supply row)) := by
  intro key field h
  obtain ⟨decl, slot, hfind, hcolumn, rfl⟩ :=
    exists_declaration_of_get? hprojection htable (lookup_eq_ok_iff.mp h)
  obtain ⟨rfl, -⟩ := ofProjection_eq hprojection htable
  refine ⟨decl.supply row, slot, ?_, decl.takesFrom_access hcolumn row⟩
  rw [List.zipIdx_map, List.find?_map]
  exact Option.map_eq_some_iff.mpr ⟨_, hfind, rfl⟩

theorem TakesFrom.reads {view : RowView} {table : FieldTable} {supplies : List Supply}
    (h : table.TakesFrom view supplies) : table.Reads view (supplies.map (·.toCell)) := by
  intro key field hfield
  obtain ⟨supply, slot, hfind, htakes⟩ := h (lookup_eq_ok_iff.mpr hfield)
  refine ⟨supply.toCell, ?_, htakes.reads⟩
  rw [← List.zipIdx_map_fst 0 supplies, List.map_map, List.find?_map]
  exact Option.map_eq_some_iff.mpr ⟨_, hfind, rfl⟩

end FieldTable

/-- A compiled filter means what it should, bodies of quantifiers included. -/
theorem Filter.Compiled.meaning? {table : FieldTable} {f : Filter} {p : Predicate}
    (h : Filter.Compiled table f p) {view : RowView} {cells : List Cell}
    (hreads : table.Reads view cells) :
    f.meaning? table.matching cells = some (p.holds view) :=
  Filter.meaning?_compileWithin (Filter.compile_eq_ok_iff.mpr h) hreads

/-! ## Leaves -/

theorem Operator.whole_of_relation? {operator : Operator} {relation : Relation}
    (h : operator.relation? = some relation) :
    operator ≠ .contains ∧ operator.quantifier? = none := by
  cases operator <;> cases h <;> exact ⟨by decide, rfl⟩

/-- No element decides a leaf that reads the cell as a whole. -/
theorem Cell.isDecidedBy_of_whole {operator : Operator}
    (hwhole : operator ≠ .contains ∧ operator.quantifier? = none) (cell : Cell) (value : Value)
    (body : Cell → Option Bool) : cell.isDecidedBy operator value body = fun _ => false := by
  obtain ⟨hcontains, hquantifier⟩ := hwhole
  funext content
  rw [isDecidedBy]
  cases cell.type.element? with
  | none => rfl
  | some type =>
      cases operator with
      | contains => exact absurd rfl hcontains
      | all | any => cases hquantifier
      | eq | ne | gt | gte | lt | lte | like => rfl

/-- The condition of a leaf without a body takes what the leaf demands. -/
theorem Handler.Answer.taken_evaluate {operator : Operator} {field : FieldAccess} {value : Value}
    {condition : Condition} (h : Handler.Answer .bodiless operator field value condition)
    {view : RowView} {supply : Supply} {slot : Nat} (hfield : field.TakesFrom view supply slot)
    (body : Cell → Option Bool) :
    (condition.evaluate view).taken
      = supply.takeUntil slot (supply.isDecidedBy operator value body) := by
  cases h with
  | quantified _ _ hbody => cases hbody
  | @contains _ element _ item helement hcast =>
      rw [FieldAccess.elementType?, hfield.reads.type] at helement
      refine (hfield.decided .any fun _ => rfl).trans ?_
      congr
      funext content
      rw [Cell.isDecidedBy, helement, Option.any_some]
      show (content.equal item == true) = (value.castTo? element).any content.equal
      rw [hcast, Option.any_some, beq_true]
  | like =>
      have hwhole : Operator.like ≠ .contains ∧ Operator.like.quantifier? = none :=
        ⟨by decide, rfl⟩
      rw [Cell.isDecidedBy_of_whole hwhole]
      exact hfield.whole
  | ordersText hrelation | relates hrelation =>
      rw [Cell.isDecidedBy_of_whole (Operator.whole_of_relation? hrelation)]
      exact hfield.whole

/-- The bodies of quantifiers look at elements that have been taken, and decide
as they mean. -/
theorem FieldAccess.TakesFrom.taken_quantified {view : RowView} {field : FieldAccess}
    {supply : Supply} {slot : Nat} (hfield : field.TakesFrom view supply slot)
    {operator : Operator} {quantifier : Quantifier}
    (hquantifier : operator.quantifier? = some quantifier) {element : DataType}
    (helement : field.elementType? = some element) {matching : KeyMatching} {body : Filter}
    {p : Predicate} (hbody : Filter.Compiled (.ofElement element matching) body p) :
    ((Condition.quantified quantifier field.onDemand p).evaluate view).taken
      = supply.takeUntil slot (supply.isDecidedBy operator (.filter body) fun cell =>
          Value.bodyMeaning? matching cell (.filter body)) := by
  rw [FieldAccess.elementType?, hfield.reads.type] at helement
  have hfree : ∀ content, (p.evaluate (.ofElement content)).taken = [] := fun content =>
    (hbody.scoped (FieldTable.offers_ofElement ..)).taken_evaluate
      fun _ heq => heq ▸ FieldAccess.isFree_element element content
  have hmeaning : ∀ content,
      body.meaning? matching [{ name := elementKey, type := element, content }]
        = some (p.evaluate (.ofElement content)).value :=
    fun content => hbody.meaning? (FieldTable.reads_ofElement element matching content)
  refine (hfield.decided quantifier hfree).trans ?_
  congr
  funext content
  rw [Cell.isDecidedBy, helement, Option.any_some]
  cases operator <;> cases hquantifier
  · show _ = (body.meaning? matching [_] == some false)
    rw [hmeaning, Option.some_beq_some, Quantifier.decisive]
  · show _ = (body.meaning? matching [_] == some true)
    rw [hmeaning, Option.some_beq_some, Quantifier.decisive]

/-! ## Filters -/

namespace Filter

variable {matching : KeyMatching} {view : RowView} {supplies : List Supply}

/-- Predicates that mean and take what filters do are settled with what is taken
up to the filter that decides. -/
theorem taken_settle_map {fs : List Filter} {ps : List Predicate}
    (h : List.Forall₂ (fun f p =>
      f.meaning? matching (supplies.map (·.toCell)) = some (p.holds view)
        ∧ (p.evaluate view).taken = f.demand matching supplies) fs ps) (decisive : Bool) :
    (Reading.settle decisive (ps.map (·.evaluate view))).taken
      = demandUntil matching supplies decisive fs := by
  induction h with
  | nil => rfl
  | @cons f p _ _ hfirst _ ih =>
      obtain ⟨hmeaning, htaken⟩ := hfirst
      rw [List.map_cons, Reading.settle, Reading.taken_andThen, demandUntil, htaken, hmeaning, ← ih,
        Option.some_beq_some, Predicate.holds]
      cases (p.evaluate view).value == decisive <;> rfl

/-- A compiled filter takes what the filter demands. -/
theorem Compiled.taken_evaluate {table : FieldTable} {f : Filter} {p : Predicate}
    (h : Compiled table f p) (htable : table.TakesFrom view supplies) :
    (p.evaluate view).taken = f.demand table.matching supplies := by
  induction h with
  | and _ hlength hchildren ih =>
      rw [Predicate.evaluate, Predicate.evaluateAll_eq, demand]
      exact taken_settle_map (List.forall₂_iff_get.mpr ⟨hlength, fun i hf hp =>
        ⟨(hchildren i hf hp).meaning? htable.reads, ih i hf hp htable⟩⟩) false
  | or _ hlength hchildren ih =>
      rw [Predicate.evaluate, Predicate.evaluateAny_eq, demand]
      exact taken_settle_map (List.forall₂_iff_get.mpr ⟨hlength, fun i hf hp =>
        ⟨(hchildren i hf hp).meaning? htable.reads, ih i hf hp htable⟩⟩) true
  | not _ ih => exact ih htable
  | leaf hfield hcondition =>
      obtain ⟨supply, slot, hfind, htakes⟩ := htable hfield
      rw [demand, hfind]
      exact (Handler.answer_of_condition (hcondition .bodiless)).taken_evaluate htakes _
  | body hfield hquantifier helement hbody _ =>
      obtain ⟨supply, slot, hfind, htakes⟩ := htable hfield
      rw [demand, hfind]
      exact htakes.taken_quantified hquantifier helement hbody

end Filter

/-! ## Declared snapshots -/

/-- Declarations make a projection with a table whatever snapshots are declared. -/
theorem ProjectionDraft.exists_table_of_onDemand {decls others : List (Declaration R)}
    {output : R → O} {projection : Projection R O} {matching : KeyMatching} {table : FieldTable}
    (hprojection : ((Projection.draft output).declareAll decls).finish = .ok projection)
    (htable : FieldTable.ofProjection projection matching = .ok table)
    (hsame : others.map Declaration.onDemand = decls.map Declaration.onDemand) :
    ∃ other otherTable, ((Projection.draft output).declareAll others).finish = .ok other
      ∧ FieldTable.ofProjection other matching = .ok otherTable := by
  have hnames := Declaration.map_eq_of_onDemand hsame Declaration.name_onDemand
  obtain ⟨hsome, hidentifiers, hnodup⟩ :=
    (exists_finish_declareAll_iff output decls).mp ⟨projection, hprojection⟩
  have hother : ∃ other, ((Projection.draft output).declareAll others).finish = .ok other := by
    refine (exists_finish_declareAll_iff output others).mpr ⟨?_, ?_, hnames ▸ hnodup⟩
    · rwa [ne_eq, ← List.map_eq_nil_iff, hnames, List.map_eq_nil_iff]
    · have hall : ∀ name ∈ others.map Declaration.name, isIdentifier name = true := by
        rw [hnames]
        exact List.forall_mem_map.mpr hidentifiers
      exact List.forall_mem_map.mp hall
  obtain ⟨other, hother⟩ := hother
  have hfolded : others.map (fun decl => matching.fold decl.name)
      = decls.map fun decl => matching.fold decl.name :=
    Declaration.map_eq_of_onDemand hsame fun decl => congrArg matching.fold decl.name_onDemand
  have hdistinct := FieldTable.nodup_folded_names hprojection htable
  rw [← hfolded] at hdistinct
  obtain ⟨otherTable, hotherTable⟩ := (exists_table_iff hother matching).mpr hdistinct
  exact ⟨other, otherTable, hother, hotherTable⟩

namespace Filter

/-- A filter compiles whatever snapshots are declared. -/
theorem exists_compile_of_onDemand {decls others : List (Declaration R)} {output : R → O}
    {projection other : Projection R O} {matching : KeyMatching} {table otherTable : FieldTable}
    {f : Filter} {p : Predicate}
    (hprojection : ((Projection.draft output).declareAll decls).finish = .ok projection)
    (htable : FieldTable.ofProjection projection matching = .ok table)
    (hcompile : compile .default table f = .ok p)
    (hother : ((Projection.draft output).declareAll others).finish = .ok other)
    (hotherTable : FieldTable.ofProjection other matching = .ok otherTable)
    (hsame : others.map Declaration.onDemand = decls.map Declaration.onDemand) :
    ∃ q, compile .default otherTable f = .ok q := by
  have hscope := FieldTable.describes_ofProjection hprojection htable
  have hotherScope := FieldTable.describes_ofProjection hother hotherTable
  rw [Declaration.map_eq_of_onDemand hsame Declaration.typedName_onDemand] at hotherScope
  rcases f.wellTyped_or_firstFault matching (decls.map Declaration.typedName) with
    htyped | ⟨fault, hfault⟩
  · exact compile_of_wellTyped htyped hotherScope
  · rw [compile_of_firstFault hfault hscope] at hcompile
    cases hcompile

section Declared

variable {decls : List (Declaration R)} {output : R → O} {projection : Projection R O}
  {matching : KeyMatching} {table : FieldTable} {f : Filter} {p : Predicate}
  (hprojection : ((Projection.draft output).declareAll decls).finish = .ok projection)
  (htable : FieldTable.ofProjection projection matching = .ok table)
  (hcompile : compile .default table f = .ok p) (row : R)

include hprojection htable hcompile

theorem meaning?_declared :
    f.meaning? matching (decls.map (·.cell row)) = some (p.holds (projection.layout.view row)) := by
  have hmeaning := (compile_eq_ok_iff.mp hcompile).meaning?
    (FieldTable.reads_ofProjection hprojection htable row)
  rwa [(FieldTable.ofProjection_eq hprojection htable).1] at hmeaning

theorem demand_declared :
    (p.evaluate (projection.layout.view row)).taken
      = f.demand matching (decls.map (·.supply row)) := by
  have htaken := (compile_eq_ok_iff.mp hcompile).taken_evaluate
    (FieldTable.takesFrom_ofProjection hprojection htable row)
  rwa [(FieldTable.ofProjection_eq hprojection htable).1] at htaken

end Declared

/-- A compiled filter takes what it demands: a membership test and a quantifier
the elements up to the first that decides, other leaves all elements, and leaves
behind the child that decides a group none. Whether a sequence is declared with
a snapshot makes no difference, neither to the result nor to the elements that
are taken from each column. -/
theorem lazy_compile {decls : List (Declaration R)} {output : R → O} {projection : Projection R O}
    {matching : KeyMatching} {table : FieldTable} {f : Filter} {p : Predicate}
    (hprojection : ((Projection.draft output).declareAll decls).finish = .ok projection)
    (htable : FieldTable.ofProjection projection matching = .ok table)
    (hcompile : compile .default table f = .ok p) :
    (∀ row, (p.evaluate (projection.layout.view row)).taken
        = f.demand matching (decls.map (·.supply row)))
      ∧ ∀ others : List (Declaration R),
        others.map Declaration.onDemand = decls.map Declaration.onDemand →
          ∃ other otherTable q, ((Projection.draft output).declareAll others).finish = .ok other
            ∧ FieldTable.ofProjection other matching = .ok otherTable
            ∧ compile .default otherTable f = .ok q
            ∧ ∀ row,
              q.evaluate (other.layout.view row) = p.evaluate (projection.layout.view row) := by
  have htaken := demand_declared hprojection htable hcompile
  refine ⟨htaken, fun others hsame => ?_⟩
  obtain ⟨other, otherTable, hother, hotherTable⟩ :=
    ProjectionDraft.exists_table_of_onDemand hprojection htable hsame
  obtain ⟨q, hq⟩ :=
    exists_compile_of_onDemand hprojection htable hcompile hother hotherTable hsame
  refine ⟨other, otherTable, q, hother, hotherTable, hq, fun row => Reading.ext ?_ ?_⟩
  · have hmeaning := meaning?_declared hprojection htable hcompile row
    have hotherMeaning := meaning?_declared hother hotherTable hq row
    rw [Declaration.map_eq_of_onDemand hsame (Declaration.cell_onDemand · row), hmeaning]
      at hotherMeaning
    exact (Option.some.inj hotherMeaning).symm
  · rw [htaken row, demand_declared hother hotherTable hq,
      Declaration.map_eq_of_onDemand hsame (Declaration.supply_onDemand · row)]

/-- Rows with two lists of words. -/
def twoLists (first second : Option SnapshotForm) :
    List (Declaration (List String × List String)) :=
  [.many first inferInstance "left" (·.1), .many second inferInstance "right" (·.2)]

/-- Asks for a given word on the left, and that all words on the right are others. -/
def leftNotRight : Filter :=
  .and [.leaf "left" .contains (.text "a"),
    .leaf "right" .all (.filter (.leaf "value" .ne (.text "a")))]

theorem lazy_compile_leftNotRight : ∃ projection table p other otherTable q,
    ((Projection.draft Prod.fst).declareAll (twoLists (some .list) none)).finish = .ok projection
      ∧ FieldTable.ofProjection projection .exact = .ok table
      ∧ compile .default table leftNotRight = .ok p
      ∧ ((Projection.draft Prod.fst).declareAll (twoLists none (some .array))).finish = .ok other
      ∧ FieldTable.ofProjection other .exact = .ok otherTable
      ∧ compile .default otherTable leftNotRight = .ok q
      ∧ (p.evaluate (projection.layout.view (["b", "a", "b"], ["b", "b", "a", "b"]))).taken
        = [0, 0, 1, 1, 1]
      ∧ (q.evaluate (other.layout.view (["b", "a", "b"], ["b", "b", "a", "b"]))).taken
        = [0, 0, 1, 1, 1]
      ∧ (q.evaluate (other.layout.view (["b"], ["b"]))).taken = [0] := by
  have hok : ∃ projection table p,
      ((Projection.draft Prod.fst).declareAll (twoLists (some .list) none)).finish = .ok projection
        ∧ FieldTable.ofProjection projection .exact = .ok table
        ∧ compile .default table leftNotRight = .ok p :=
    ⟨_, _, _, rfl, rfl, rfl⟩
  obtain ⟨projection, table, p, hprojection, htable, hcompile⟩ := hok
  obtain ⟨htaken, hothers⟩ := lazy_compile hprojection htable hcompile
  obtain ⟨other, otherTable, q, hother, hotherTable, hq, hsame⟩ :=
    hothers (twoLists none (some .array)) rfl
  have hboth := (htaken (["b", "a", "b"], ["b", "b", "a", "b"])).trans
    (show _ = [0, 0, 1, 1, 1] by decide +kernel)
  have hleft := (htaken (["b"], ["b"])).trans (show _ = [0] by decide +kernel)
  refine ⟨projection, table, p, other, otherTable, q, hprojection, htable, hcompile, hother,
    hotherTable, hq, hboth, ?_, ?_⟩
  · rw [hsame, hboth]
  · rw [hsame, hleft]

end Filter

end RowQuery
