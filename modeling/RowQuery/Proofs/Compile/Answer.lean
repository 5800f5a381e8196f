import RowQuery.Compile.Builtin

/-!
# Answers of the built-in handlers

`Handler.Answer` lists the conditions that the built-in chain makes of leaves.
A handler is only asked if those before it have left the leaf to it; what it
then knows stands in the rule: the last handler compares a text field only for
equality, since text fields with an order have been taken before.
-/

namespace RowQuery

namespace Handler

/-- A condition that the built-in chain makes of an operator, a field and a
value. -/
inductive Answer (context : LeafContext) :
    Operator → FieldAccess → Value → Condition → Prop where
  /-- The item is cast to the type of the elements. -/
  | contains {field : FieldAccess} {element : DataType} {value item : Value}
      (helement : field.elementType? = some element) (hcast : value.castTo? element = some item) :
      Answer context .contains field value (.contains field.onDemand item)
  /-- The body is compiled for the elements. -/
  | quantified {operator : Operator} {quantifier : Quantifier} {field : FieldAccess}
      {element : DataType} {body : Filter} {predicate : Predicate}
      (hquantifier : operator.quantifier? = some quantifier)
      (helement : field.elementType? = some element)
      (hbody : context.compileElement element body = .ok predicate) :
      Answer context operator field (.filter body)
        (.quantified quantifier field.onDemand predicate)
  | like {field : FieldAccess} {pattern : String} :
      Answer context .like field (.text pattern) (.like field pattern)
  /-- Text fields have an order of their own. -/
  | ordersText {operator : Operator} {relation : Relation} {field : FieldAccess} {value : Value}
      (hrelation : operator.relation? = some relation) (horder : relation.isEquality = false)
      (htext : field.type = .text) :
      Answer context operator field value (.relatesAsText relation field value)
  | relates {operator : Operator} {relation : Relation} {field : FieldAccess} {value : Value}
      (hrelation : operator.relation? = some relation)
      (hother : relation.isEquality = true ∨ field.type ≠ .text) :
      Answer context operator field value (.relates relation field value)

variable {context : LeafContext} {operator : Operator} {field : FieldAccess} {value : Value}
  {condition : Condition}

theorem answer_of_handleList (h : handleList context operator field value = .ok (some condition)) :
    Answer context operator field value condition := by
  rw [handleList] at h
  split at h
  · cases h
  · rename_i element helement
    split at h
    · obtain ⟨item, hcast, rfl⟩ := Option.map_eq_some_iff.mp (Except.ok.inj h)
      exact .contains helement hcast
    · rename_i hquantifier
      split at h
      · rename_i hbody
        cases h
        exact .quantified hquantifier helement hbody
      · cases h
    · cases h

theorem isText_iff {type : DataType} : type.isText = true ↔ type = .text := by
  cases type <;> simp [DataType.isText]

theorem answer_of_handleString
    (h : handleString context operator field value = .ok (some condition)) :
    Answer context operator field value condition := by
  unfold handleString at h
  split at h
  · cases h
    exact .like
  · rename_i relation _ hrelation
    split at h
    · rename_i htaken
      have htext : field.type = .text := isText_iff.mp (Bool.and_eq_true_iff.mp htaken).1
      obtain rfl := Option.some.inj (Except.ok.inj h)
      by_cases hequality : relation.isEquality = true
      · rw [if_pos hequality]
        exact .relates hrelation (.inl hequality)
      · rw [if_neg hequality]
        exact .ordersText hrelation (Bool.eq_false_iff.mpr hequality) htext
    · cases h
  · cases h

/-- The handler for text takes every relation of a text field that the type of
the field accepts. -/
theorem handleString_ne_none {relation : Relation} (hrelation : operator.relation? = some relation)
    (htext : field.type = .text) (haccepts : field.type.accepts value = true) :
    handleString context operator field value ≠ .ok none := by
  have htaken : (field.type.isText && isTextOrNull value) = true := by
    rw [htext] at haccepts ⊢
    cases value with
    | null | text _ => rfl
    | _ => cases haccepts
  unfold handleString
  split
  · exact fun h => nomatch h
  · rw [if_pos htaken]
    exact fun h => nomatch h
  · rename_i hnone
    exact absurd hrelation (hnone relation)

theorem answer_of_handleScalar
    (hleft : handleString context operator field value = .ok none)
    (h : handleScalar context operator field value = .ok (some condition)) :
    Answer context operator field value condition := by
  unfold handleScalar at h
  split at h
  · cases h
  · rename_i relation hrelation
    split at h
    · -- null is only tested for
      simp only at h
      split at h
      · rename_i hequality
        cases h
        exact .relates hrelation (.inl hequality)
      · cases h
    · simp only at h
      split at h
      · rename_i haccepted
        have haccepts := (Bool.and_eq_true_iff.mp haccepted).2
        cases h
        exact .relates hrelation
          (.inr fun htext => handleString_ne_none hrelation htext haccepts hleft)
      · cases h

theorem firstAnswer_cons {handler : Handler} {rest : List Handler}
    (h : HandlerChain.firstAnswer context operator field value (handler :: rest)
      = .ok (some condition)) :
    handler.handle context operator field value = .ok (some condition)
      ∨ handler.handle context operator field value = .ok none
        ∧ HandlerChain.firstAnswer context operator field value rest = .ok (some condition) := by
  rw [HandlerChain.firstAnswer] at h
  split at h
  · cases h
  · rename_i hanswer
    cases h
    exact .inl hanswer
  · rename_i hleft
    exact .inr ⟨hleft, h⟩

theorem firstAnswer_of_condition {chain : HandlerChain} {key : String}
    (h : chain.condition context key operator field value = .ok condition) :
    HandlerChain.firstAnswer context operator field value chain.handlers
      = .ok (some condition) := by
  rw [HandlerChain.condition] at h
  split at h
  · cases h
  · rename_i hanswer
    cases h
    exact hanswer
  · cases h

/-- Every condition of the built-in chain is in the list. -/
theorem answer_of_condition {key : String}
    (h : HandlerChain.default.condition context key operator field value = .ok condition) :
    Answer context operator field value condition := by
  rcases firstAnswer_cons (firstAnswer_of_condition h) with hlist | ⟨-, h⟩
  · exact answer_of_handleList hlist
  · rcases firstAnswer_cons h with hstring | ⟨hleft, h⟩
    · exact answer_of_handleString hstring
    · rcases firstAnswer_cons h with hscalar | ⟨-, h⟩
      · exact answer_of_handleScalar hleft hscalar
      · cases h

end Handler

end RowQuery
