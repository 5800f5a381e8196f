import RowQuery.Compile.Builtin
import RowQuery.Proofs.Compile.Answer
import RowQuery.Proofs.Compile.Typing

/-!
# Which leaves are taken

The built-in handlers take exactly the leaves whose value fits the operator and
the type of the field (`Handler.condition_of_fits`,
`Handler.condition_of_not_fits`), and they compile the body of a quantifier on
elements (`Handler.condition_quantifier`).

There is one equation for each sort of operators, which says what the chain as a
whole makes of a leaf; which handler leaves what to which other one does not
matter after that.
-/

namespace RowQuery

/-! ## Sorts of operators -/

namespace Operator

variable {operator : Operator}

theorem quantifier?_eq_none {relation : Relation} (h : operator.relation? = some relation) :
    operator.quantifier? = none := by
  cases operator with
  | all | any => cases h
  | _ => rfl

theorem relation?_eq_none {quantifier : Quantifier} (h : operator.quantifier? = some quantifier) :
    operator.relation? = none := by
  cases operator with
  | all | any => rfl
  | _ => cases h

/-- The four sorts of operators. -/
theorem cases_sort (operator : Operator) :
    (∃ relation, operator.relation? = some relation) ∨ operator = .like ∨ operator = .contains
      ∨ ∃ quantifier, operator.quantifier? = some quantifier := by
  cases operator <;> simp [relation?, quantifier?]

end Operator

/-! ## What the chain makes of a leaf -/

namespace Handler

variable {context : LeafContext} {operator : Operator} {field : FieldAccess} {value : Value}
  {key : String}

/-- Whether the handler of scalars takes a relation of a field to a value. -/
def acceptsScalar (relation : Relation) (type : DataType) (value : Value) : Bool :=
  if value.isNull then relation.isEquality else type.element?.isNone && type.accepts value

theorem handleList_relation {relation : Relation} (h : operator.relation? = some relation) :
    handleList context operator field value = .ok none := by
  rw [handleList, Operator.quantifier?_eq_none h]
  split
  · rfl
  · split
    · cases h
    · contradiction
    · rfl

theorem handleString_relation {relation : Relation} (h : operator.relation? = some relation) :
    handleString context operator field value
      = if field.type.isText && isTextOrNull value then
          .ok (some (if relation.isEquality then .relates relation field value
            else .relatesAsText relation field value))
        else .ok none := by
  cases operator <;> cases h <;> rfl

theorem handleScalar_relation {relation : Relation} (h : operator.relation? = some relation) :
    handleScalar context operator field value
      = if acceptsScalar relation field.type value then .ok (some (.relates relation field value))
        else .ok none := by
  cases operator <;> cases h <;> rfl

/-- A relation is taken as one of texts, else as one of scalars. -/
theorem condition_relation {relation : Relation} (h : operator.relation? = some relation) :
    HandlerChain.default.condition context key operator field value
      = if field.type.isText && isTextOrNull value then
          .ok (if relation.isEquality then .relates relation field value
            else .relatesAsText relation field value)
        else if acceptsScalar relation field.type value then .ok (.relates relation field value)
        else .error (.noHandler key operator value.kind) := by
  simp only [HandlerChain.condition, HandlerChain.default, HandlerChain.firstAnswer, list, string,
    scalar, handleList_relation h, handleString_relation h, handleScalar_relation h]
  cases field.type.isText && isTextOrNull value <;>
    cases acceptsScalar relation field.type value <;> rfl

/-- A pattern is taken on every field. -/
theorem condition_like :
    HandlerChain.default.condition context key .like field value
      = match value with
        | .text pattern => .ok (.like field pattern)
        | _ => .error (.noHandler key .like value.kind) := by
  have hlist : handleList context .like field value = .ok none := by
    cases helement : field.elementType? <;> simp [handleList, helement, Operator.quantifier?]
  simp only [HandlerChain.condition, HandlerChain.default, HandlerChain.firstAnswer, list, string,
    scalar, hlist]
  cases value <;> rfl

/-- An item is taken if it can be cast to the type of the elements. -/
theorem condition_contains :
    HandlerChain.default.condition context key .contains field value
      = match field.elementType?.bind value.castTo? with
        | some item => .ok (.contains field.onDemand item)
        | none => .error (.noHandler key .contains value.kind) := by
  cases helement : field.elementType? with
  | none =>
      simp only [HandlerChain.condition, HandlerChain.default, HandlerChain.firstAnswer, list,
        string, scalar, handleList, helement]
      rfl
  | some element =>
      cases hcast : value.castTo? element <;>
        simp only [HandlerChain.condition, HandlerChain.default, HandlerChain.firstAnswer, list,
          string, scalar, handleList, helement, hcast, Option.bind_some] <;> rfl

theorem handleList_quantifier {quantifier : Quantifier} {element : DataType}
    (h : operator.quantifier? = some quantifier) (helement : field.elementType? = some element) :
    handleList context operator field value
      = match value with
        | .filter body =>
            (context.compileElement element body).map fun predicate =>
              some (.quantified quantifier field.onDemand predicate)
        | _ => .ok none := by
  rw [handleList, helement]
  cases operator with
  | all | any =>
      cases h
      cases value with
      | filter body =>
          simp only [Operator.quantifier?]
          cases context.compileElement element body <;> rfl
      | _ => rfl
  | _ => cases h

/-- A quantifier is taken if the field has elements and there is a body, which
is then compiled. -/
theorem condition_quantifier {quantifier : Quantifier}
    (h : operator.quantifier? = some quantifier) :
    HandlerChain.default.condition context key operator field value
      = match field.elementType?, value with
        | some element, .filter body =>
            (context.compileElement element body).map (.quantified quantifier field.onDemand)
        | _, _ => .error (.noHandler key operator value.kind) := by
  have hstring : handleString context operator field value = .ok none := by
    cases operator with
    | all | any => rfl
    | _ => cases h
  have hscalar : handleScalar context operator field value = .ok none := by
    rw [handleScalar, Operator.relation?_eq_none h]
  simp only [HandlerChain.condition, HandlerChain.default, HandlerChain.firstAnswer, list, string,
    scalar, hstring, hscalar]
  cases helement : field.elementType? with
  | none => simp only [handleList, helement]
  | some element =>
      rw [handleList_quantifier h helement]
      cases value with
      | filter body =>
          dsimp only
          cases context.compileElement element body <;> rfl
      | _ => rfl

theorem isTextOrNull_iff : isTextOrNull value = true ↔ value = .null ∨ ∃ s, value = .text s := by
  cases value <;> simp [isTextOrNull]

theorem isNull_iff : value.isNull = true ↔ value = .null := by
  cases value <;> simp [Value.isNull]

end Handler

/-! ## What fits -/

namespace Operator

variable {operator : Operator} {type : DataType} {value : Value}

theorem isEquality_iff {relation : Relation} (h : operator.relation? = some relation) :
    relation.isEquality = true ↔ operator = .eq ∨ operator = .ne := by
  cases operator <;> cases h <;> decide

theorem fits_relation_iff {relation : Relation} (h : operator.relation? = some relation) :
    operator.Fits type value ↔ (type.isText && Handler.isTextOrNull value) = true
      ∨ Handler.acceptsScalar relation type value = true := by
  constructor
  · intro hfits
    cases hfits with
    | null hequality => exact .inr ((isEquality_iff h).mpr hequality)
    | text _ hvalue =>
        exact .inl (Bool.and_eq_true_iff.mpr ⟨rfl, Handler.isTextOrNull_iff.mpr hvalue⟩)
    | scalar _ hsingle hvalue haccepts =>
        have hnull : ¬value.isNull = true := mt Handler.isNull_iff.mp hvalue
        right
        rw [Handler.acceptsScalar, if_neg hnull, hsingle, haccepts]
        rfl
    | like => cases h
    | contains => cases h
  · rintro (htext | hscalar)
    · obtain ⟨htype, hvalue⟩ := Bool.and_eq_true_iff.mp htext
      obtain rfl := Handler.isText_iff.mp htype
      exact .text h (Handler.isTextOrNull_iff.mp hvalue)
    · rw [Handler.acceptsScalar] at hscalar
      split at hscalar
      · rename_i hnull
        obtain rfl := Handler.isNull_iff.mp hnull
        exact .null ((isEquality_iff h).mp hscalar)
      · rename_i hnull
        obtain ⟨hsingle, haccepts⟩ := Bool.and_eq_true_iff.mp hscalar
        exact .scalar h (Option.isNone_iff_eq_none.mp hsingle) (mt Handler.isNull_iff.mpr hnull)
          haccepts

theorem fits_like_iff : Operator.like.Fits type value ↔ ∃ pattern, value = .text pattern := by
  constructor
  · intro hfits
    cases hfits with
    | null hequality => rcases hequality with h | h <;> cases h
    | text hrelation => cases hrelation
    | scalar hrelation => cases hrelation
    | like => exact ⟨_, rfl⟩
  · rintro ⟨pattern, rfl⟩
    exact .like

theorem fits_contains_iff :
    Operator.contains.Fits type value ↔ ∃ item, type.element?.bind value.castTo? = some item := by
  constructor
  · intro hfits
    cases hfits with
    | null hequality => rcases hequality with h | h <;> cases h
    | text hrelation => cases hrelation
    | scalar hrelation => cases hrelation
    | contains hcast => exact ⟨_, hcast⟩
  · rintro ⟨item, hitem⟩
    cases type with
    | list element => exact .contains hitem
    | _ => cases hitem

theorem not_fits_quantifier {quantifier : Quantifier} (h : operator.quantifier? = some quantifier) :
    ¬operator.Fits type value := by
  intro hfits
  cases hfits with
  | null hequality => rcases hequality with rfl | rfl <;> cases h
  | text hrelation | scalar hrelation =>
      rw [quantifier?_eq_none hrelation] at h
      cases h
  | like => cases h
  | contains => cases h

end Operator

/-! ## What is taken -/

namespace Handler

variable {context : LeafContext} {operator : Operator} {field : FieldAccess} {value : Value}
  {key : String}

/-- A value that fits is taken. -/
theorem condition_of_fits (h : operator.Fits field.type value) :
    ∃ condition, HandlerChain.default.condition context key operator field value
      = .ok condition := by
  rcases operator.cases_sort with ⟨relation, hrelation⟩ | rfl | rfl | ⟨quantifier, hquantifier⟩
  · rw [condition_relation hrelation]
    rcases (Operator.fits_relation_iff hrelation).mp h with htext | hscalar
    · rw [if_pos htext]
      exact ⟨_, rfl⟩
    · rw [if_pos hscalar]
      split <;> exact ⟨_, rfl⟩
  · obtain ⟨pattern, rfl⟩ := Operator.fits_like_iff.mp h
    rw [condition_like]
    exact ⟨_, rfl⟩
  · obtain ⟨item, hitem⟩ := Operator.fits_contains_iff.mp h
    rw [condition_contains, FieldAccess.elementType?, hitem]
    exact ⟨_, rfl⟩
  · exact absurd h (Operator.not_fits_quantifier hquantifier)

/-- A value that does not fit has no handler, if it is not the body of a
quantifier on elements. -/
theorem condition_of_not_fits (h : ¬operator.Fits field.type value)
    (hbody : ∀ element body, field.type = .list element → operator.isQuantifier = true →
      value ≠ .filter body) :
    HandlerChain.default.condition context key operator field value
      = .error (.noHandler key operator value.kind) := by
  rcases operator.cases_sort with ⟨relation, hrelation⟩ | rfl | rfl | ⟨quantifier, hquantifier⟩
  · rw [Operator.fits_relation_iff hrelation, not_or] at h
    rw [condition_relation hrelation, if_neg h.1, if_neg h.2]
  · rw [Operator.fits_like_iff] at h
    rw [condition_like]
    cases value with
    | text pattern => exact absurd ⟨pattern, rfl⟩ h
    | _ => rfl
  · rw [Operator.fits_contains_iff] at h
    rw [condition_contains, FieldAccess.elementType?]
    cases hitem : field.type.element?.bind value.castTo? with
    | none => rfl
    | some item => exact absurd ⟨item, hitem⟩ h
  · have hisQuantifier : operator.isQuantifier = true := by
      rw [Operator.isQuantifier, hquantifier]
      rfl
    rw [condition_quantifier hquantifier, FieldAccess.elementType?]
    cases htype : field.type with
    | list element =>
        cases value with
        | filter body => exact absurd rfl (hbody element body htype hisQuantifier)
        | _ => rfl
    | _ => rfl

end Handler

end RowQuery
