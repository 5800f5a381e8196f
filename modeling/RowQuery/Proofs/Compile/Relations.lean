import RowQuery.Proofs.Compile.Leaf
import RowQuery.Proofs.Value.Equality

/-!
# How the six relations hang together

Equality of scalars is one routine, their order another, and the order of texts
a third. On the values that a scalar type accepts they agree: there is one
outcome of the comparison, and every relation is a test on it
(`Cell.exists_order?`). So the six relations of one field to one literal are
consistent in every row whose cell has a value of the type of the field.

Documents are the exception. They are accepted by every relation and have no
order, so a document that equals the literal is neither at most nor at least
the literal.
-/

namespace RowQuery

/-! ## Consistent relations -/

/-- Exactly one of the relations less, equal and greater holds, and the other
three say what they say of those. -/
structure Relation.Consistent (holds : Relation → Bool) : Prop where
  one : ∃! relation, relation ∈ [Relation.lt, .eq, .gt] ∧ holds relation = true
  lte : holds .lte = (holds .lt || holds .eq)
  gte : holds .gte = (holds .gt || holds .eq)
  ne : holds .ne = !holds .eq

namespace Relation

/-- The relation that has an outcome for itself. -/
def ofOrdering : Ordering → Relation
  | .lt => .lt
  | .eq => .eq
  | .gt => .gt

/-- The tests on one outcome are consistent. -/
theorem consistent_holdsOn (o : Ordering) : Consistent fun relation => relation.holdsOn o where
  one := by
    refine ⟨ofOrdering o, ?_, ?_⟩
    · cases o <;> exact ⟨by decide, rfl⟩
    · rintro relation ⟨hmem, hholds⟩
      simp only [List.mem_cons, List.not_mem_nil, or_false] at hmem
      obtain rfl | rfl | rfl := hmem
      · cases o with
        | lt => rfl
        | _ => cases hholds
      · cases o with
        | eq => rfl
        | _ => cases hholds
      · cases o with
        | gt => rfl
        | _ => cases hholds
  lte := by cases o <;> rfl
  gte := by cases o <;> rfl
  ne := by cases o <;> rfl

/-- Where less and at most never hold, relations are not consistent: one of
equal and greater would have to hold, and at most or at least with it. -/
theorem not_consistent_of_unordered {holds : Relation → Bool}
    (h : ∀ relation : Relation, relation.isEquality = false → holds relation = false) :
    ¬Consistent holds := by
  intro hconsistent
  obtain ⟨relation, ⟨hmem, hholds⟩, -⟩ := hconsistent.one
  have hlte : holds .lte = false := h .lte rfl
  have hlt : holds .lt = false := h .lt rfl
  have hgt : holds .gt = false := h .gt rfl
  have heq : holds .eq = false := by
    have hor := hconsistent.lte
    rw [hlte, hlt, Bool.false_or] at hor
    exact hor.symm
  cases relation with
  | lt => exact absurd hholds (by rw [hlt]; decide)
  | eq => exact absurd hholds (by rw [heq]; decide)
  | gt => exact absurd hholds (by rw [hgt]; decide)
  | _ => exact absurd hmem (by decide)

end Relation

/-! ## Comparing the values of a scalar type -/

namespace DataType

/-- The place of the values of a type in the order of all values. -/
def rank : DataType → Nat
  | .bool => 1
  | .int | .decimal => 2
  | .text => 3
  | .instant => 4
  | .list _ => 5
  | .raw => 6

variable {type : DataType} {v : Value}

/-- A type other than a list accepts null and the values of its rank. -/
theorem accepts_eq (hsingle : type.element? = none) (v : Value) :
    type.accepts v = (v.isNull || v.rank == type.rank) := by
  cases type with
  | list _ => cases hsingle
  | _ => cases v <;> rfl

theorem rank_of_accepts (hsingle : type.element? = none) (h : type.accepts v = true)
    (hnull : v ≠ .null) : v.rank = type.rank := by
  rw [accepts_eq hsingle, Bool.or_eq_true, beq_iff_eq] at h
  exact h.resolve_left (mt Handler.isNull_iff.mp hnull)

theorem isScalar_of_accepts (hsingle : type.element? = none) (hraw : type ≠ .raw)
    (h : type.accepts v = true) (hnull : v ≠ .null) : v.isScalar = true := by
  rw [Value.isScalar_eq, rank_of_accepts hsingle h hnull]
  cases type with
  | list _ => cases hsingle
  | raw => exact absurd rfl hraw
  | _ => rfl

theorem exists_text_of_accepts (h : DataType.text.accepts v = true) (hnull : v ≠ .null) :
    ∃ s, v = .text s := by
  cases v with
  | null => exact absurd rfl hnull
  | text s => exact ⟨s, rfl⟩
  | _ => cases h

end DataType

namespace Value

/-- Two values of a scalar type can be compared, and they are equal if the
comparison says so. -/
theorem exists_strictOrder? {type : DataType} (hsingle : type.element? = none)
    (hraw : type ≠ .raw) {a b : Value} (ha : type.accepts a = true) (hb : type.accepts b = true)
    (hanull : a ≠ .null) (hbnull : b ≠ .null) :
    ∃ o, strictOrder? a b = some o ∧ a.equal b = o.isEq := by
  have hscalar := DataType.isScalar_of_accepts hsingle hraw ha hanull
  have hrank : a.rank = b.rank :=
    (DataType.rank_of_accepts hsingle ha hanull).trans
      (DataType.rank_of_accepts hsingle hb hbnull).symm
  obtain ⟨o, ho⟩ := exists_strictOrder?_iff.mpr ⟨hscalar, hrank⟩
  refine ⟨o, ho, ?_⟩
  rw [equal_of_isScalar hscalar, ho]
  cases o <;> rfl

end Value

namespace Cell

/-- The order of text cells is that of texts, where both have one. -/
theorem order?_eq_strictOrder? {cell : Cell} {value : Value}
    (hcell : cell.type.accepts cell.content = true) (hnull : cell.content ≠ .null)
    (hvalue : cell.type.accepts value = true) (hvaluenull : value ≠ .null) :
    cell.order? value = cell.content.strictOrder? value := by
  obtain ⟨name, type, content⟩ := cell
  rw [order?]
  split
  · rename_i htext
    cases htext
    obtain ⟨s, rfl⟩ : ∃ s, content = .text s := DataType.exists_text_of_accepts hcell hnull
    obtain ⟨t, rfl⟩ := DataType.exists_text_of_accepts hvalue hvaluenull
    rfl
  · rfl

/-- A cell with a value of its scalar type has one outcome when it is compared
with another such value, and equality is a test on this outcome. -/
theorem exists_order? {cell : Cell} {value : Value} (hsingle : cell.type.element? = none)
    (hraw : cell.type ≠ .raw) (hcell : cell.type.accepts cell.content = true)
    (hnull : cell.content ≠ .null) (hvalue : cell.type.accepts value = true)
    (hvaluenull : value ≠ .null) :
    ∃ o, cell.order? value = some o ∧ cell.content.equal value = o.isEq := by
  obtain ⟨o, ho, hequal⟩ := Value.exists_strictOrder? hsingle hraw hcell hvalue hnull hvaluenull
  exact ⟨o, (order?_eq_strictOrder? hcell hnull hvalue hvaluenull).trans ho, hequal⟩

/-- A document has no order. -/
theorem order?_of_raw {cell : Cell} (hraw : cell.type = .raw)
    (hcell : cell.type.accepts cell.content = true) (value : Value) :
    cell.order? value = none := by
  obtain ⟨name, type, content⟩ := cell
  cases hraw
  cases content with
  | null | raw _ => rfl
  | _ => cases hcell

/-- With one outcome for order and equality, every relation is a test on it. -/
theorem passes?_of_order? {cell : Cell} {value : Value} {o : Ordering}
    (horder : cell.order? value = some o) (hequal : cell.content.equal value = o.isEq)
    {operator : Operator} {relation : Relation} (hrelation : operator.relation? = some relation)
    (body : Cell → Option Bool) :
    cell.passes? operator value body = some (relation.holdsOn o) := by
  cases hequality : relation.isEquality with
  | false =>
      rw [Relation.passes?_of_order hrelation hequality, horder]
      rfl
  | true =>
      rw [Relation.passes?_of_equality hrelation hequality]
      cases relation with
      | eq => rw [Relation.holds, hequal, Relation.holdsOn]
      | ne =>
          rw [Relation.holds, hequal, Relation.holdsOn]
          cases o <;> rfl
      | _ => cases hequality

end Cell

/-! ## Compiled relations -/

theorem Operator.Fits.accepts {operator : Operator} {relation : Relation} {type : DataType}
    {value : Value} (h : operator.Fits type value) (hrelation : operator.relation? = some relation)
    (hnull : value ≠ .null) : type.accepts value = true := by
  cases h with
  | null => contradiction
  | text _ hvalue =>
      obtain rfl | ⟨s, rfl⟩ := hvalue
      · contradiction
      · rfl
  | scalar _ _ _ haccepts => exact haccepts
  | like => cases hrelation
  | contains => cases hrelation

/-- Some operator asks for each relation. -/
theorem Relation.exists_operator (relation : Relation) :
    ∃ operator : Operator, operator.relation? = some relation := by
  cases relation with
  | eq => exact ⟨.eq, rfl⟩
  | ne => exact ⟨.ne, rfl⟩
  | gt => exact ⟨.gt, rfl⟩
  | gte => exact ⟨.gte, rfl⟩
  | lt => exact ⟨.lt, rfl⟩
  | lte => exact ⟨.lte, rfl⟩

namespace Filter

variable {R O : Type} {decls : List (Declaration R)} {output : R → O}
  {projection : Projection R O} {matching : KeyMatching} {table : FieldTable}

/-- Where all six relations of a scalar field to a literal other than null are
accepted, they are consistent in every row whose cell has a value of the type of
the field, unless this is the type of documents. -/
theorem consistent_compile_iff
    (hprojection : ((Projection.draft output).declareAll decls).finish = .ok projection)
    (htable : FieldTable.ofProjection projection matching = .ok table)
    {decl : Declaration R} (hdecl : decl ∈ decls) {key : String}
    (hkey : matching.fold decl.name = matching.fold key) (hsingle : decl.type.element? = none)
    {value : Value} (hvalue : value ≠ .null) {test : Relation → Predicate}
    (hcompile : ∀ operator relation, Operator.relation? operator = some relation →
      compile .default table (.leaf key operator value) = .ok (test relation))
    (row : R) (hnull : decl.content row ≠ .null)
    (hcell : decl.type.accepts (decl.content row) = true) :
    Relation.Consistent (fun relation => (test relation).holds (projection.layout.view row))
      ↔ decl.type ≠ .raw := by
  have hfits : Operator.eq.Fits decl.type value := by
    by_contra hnot
    have herror := compile_leaf_of_not_fits hprojection htable hdecl hkey hnot rfl
    rw [hcompile .eq .eq rfl] at herror
    cases herror
  have haccepts : decl.type.accepts value = true := hfits.accepts rfl hvalue
  have hholds : ∀ operator relation, Operator.relation? operator = some relation →
      (decl.cell row).passes? operator value
          (fun element => value.bodyMeaning? matching element)
        = some ((test relation).holds (projection.layout.view row)) := by
    intro operator relation hrelation
    exact passes?_of_compile_leaf hprojection htable hdecl hkey
      (hcompile operator relation hrelation) row
  constructor
  · intro hconsistent hraw
    refine Relation.not_consistent_of_unordered ?_ hconsistent
    intro relation horder
    obtain ⟨operator, hrelation⟩ := relation.exists_operator
    have hpasses := hholds operator relation hrelation
    rw [Relation.passes?_of_order hrelation horder, Cell.order?_of_raw hraw hcell] at hpasses
    exact (Option.some.inj hpasses).symm
  · intro hraw
    obtain ⟨o, ho, hequal⟩ : ∃ o, (decl.cell row).order? value = some o
        ∧ (decl.content row).equal value = o.isEq :=
      Cell.exists_order? hsingle hraw hcell hnull haccepts hvalue
    have hall : (fun relation => (test relation).holds (projection.layout.view row))
        = fun relation => Relation.holdsOn relation o := by
      funext relation
      obtain ⟨operator, hrelation⟩ := relation.exists_operator
      have hpasses := hholds operator relation hrelation
      rw [Cell.passes?_of_order? ho hequal hrelation] at hpasses
      exact (Option.some.inj hpasses).symm
    rw [hall]
    exact Relation.consistent_holdsOn o

/-- Rows with a height and a document. -/
def measuredRows : List (Declaration (UInt64 × Json)) :=
  [.single inferInstance "height" (·.1), .single inferInstance "notes" (·.2)]

/-- Two and a half, with a place more than it needs. -/
def twoAndAHalf : Decimal := ⟨false, 250, 2, by decide, by decide⟩

/-- A height compared with two and a half is consistent. A document compared
with the same document is not: it equals it and is not at most it. -/
theorem consistent_compile_height : ∃ projection table,
    ((Projection.draft Prod.fst).declareAll measuredRows).finish = .ok projection
      ∧ FieldTable.ofProjection projection .ignoreCase = .ok table
      ∧ ∃ height notes : Relation → Predicate,
        (∀ operator relation, Operator.relation? operator = some relation →
          compile .default table (.leaf "Height" operator (.decimal twoAndAHalf))
            = .ok (height relation))
        ∧ (∀ operator relation, Operator.relation? operator = some relation →
          compile .default table (.leaf "notes" operator (.raw (.array [])))
            = .ok (notes relation))
        ∧ Relation.Consistent (fun relation =>
            (height relation).holds (projection.layout.view (3, .array [])))
        ∧ ¬Relation.Consistent (fun relation =>
            (notes relation).holds (projection.layout.view (3, .array [])))
        ∧ (notes .eq).holds (projection.layout.view (3, .array [])) = true
        ∧ (notes .lte).holds (projection.layout.view (3, .array [])) = false := by
  have hok : ∃ projection table,
      ((Projection.draft Prod.fst).declareAll measuredRows).finish = .ok projection
        ∧ FieldTable.ofProjection projection .ignoreCase = .ok table
        ∧ ∃ height notes : Relation → Predicate,
          (∀ operator relation, Operator.relation? operator = some relation →
            compile .default table (.leaf "Height" operator (.decimal twoAndAHalf))
              = .ok (height relation))
          ∧ (∀ operator relation, Operator.relation? operator = some relation →
            compile .default table (.leaf "notes" operator (.raw (.array [])))
              = .ok (notes relation))
          ∧ (notes .eq).holds (projection.layout.view (3, .array [])) = true
          ∧ (notes .lte).holds (projection.layout.view (3, .array [])) = false := by
    refine ⟨_, _, rfl, rfl,
      fun relation => .check (.relates relation (.member "height" 0 .int) (.decimal twoAndAHalf)),
      fun relation => .check (.relates relation (.member "notes" 1 .raw) (.raw (.array []))),
      ?_, ?_, rfl, rfl⟩
    all_goals
      intro operator relation h
      cases operator <;> cases h <;> rfl
  obtain ⟨projection, table, hprojection, htable, height, notes, hheight, hnotes, heq, hlte⟩ := hok
  have hheightKey :
      KeyMatching.ignoreCase.fold "height" = KeyMatching.ignoreCase.fold "Height" := by
    decide +kernel
  have hdecimal : Value.decimal twoAndAHalf ≠ .null := nofun
  have hconsistent := (consistent_compile_iff hprojection htable (List.mem_cons_self ..)
    hheightKey rfl hdecimal hheight (3, .array []) nofun rfl).mpr nofun
  have hdocument : Value.raw (.array []) ≠ .null := nofun
  have hnot := mt (consistent_compile_iff hprojection htable
    (List.mem_cons_of_mem _ (List.mem_cons_self ..)) rfl rfl hdocument hnotes (3, .array [])
    nofun rfl).mp (not_not.mpr rfl)
  exact ⟨projection, table, hprojection, htable, height, notes, hheight, hnotes, hconsistent, hnot,
    heq, hlte⟩

end Filter

end RowQuery
