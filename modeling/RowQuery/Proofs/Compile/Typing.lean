import RowQuery.Fault.QueryFault
import RowQuery.Predicate.FieldAccess
import RowQuery.Value.Cast

/-!
# Well-typed queries

The rules by which a filter and an order fit the declared fields of a row,
without tables, handlers or predicates. A scope lists names with their types:
those of the declared fields, or, in the body of a quantifier, the element
alone. `Operator.Fits` says which values an operator takes on a field of a
type, `Filter.WellTyped` puts leaves together.

What is wrong with an ill-typed query is told by a walk through its filter,
depth first from left to right, and then through the links of its order.
`Filter.FirstFault` and `Query.FirstFault` describe the first fault that the
walk meets: all that stands before it is well typed.
-/

namespace RowQuery

/-! ## Scopes -/

/-- A name by which a filter may ask, and the type of what stands under it. -/
structure TypedName where
  name : String
  type : DataType

/-- The type that stands under a key. -/
def KeyMatching.typeOf? (matching : KeyMatching) (scope : List TypedName) (key : String) :
    Option DataType :=
  (scope.find? fun entry => matching.fold entry.name == matching.fold key).map (·.type)

/-- The scope of the body of a quantifier. -/
def elementScope (element : DataType) : List TypedName :=
  [{ name := elementKey, type := element }]

/-! ## Rules -/

/-- The values that an operator takes on a field of a type, bodies of
quantifiers apart. -/
inductive Operator.Fits : Operator → DataType → Value → Prop
  /-- Every field can be tested for null. -/
  | null {operator : Operator} {type : DataType} (hequality : operator = .eq ∨ operator = .ne) :
      Fits operator type .null
  /-- In the order of text cells null has a place. -/
  | text {operator : Operator} {relation : Relation} {value : Value}
      (hrelation : operator.relation? = some relation)
      (hvalue : value = .null ∨ ∃ s, value = .text s) :
      Fits operator .text value
  | scalar {operator : Operator} {relation : Relation} {type : DataType} {value : Value}
      (hrelation : operator.relation? = some relation) (hsingle : type.element? = none)
      (hvalue : value ≠ .null) (haccepts : type.accepts value = true) :
      Fits operator type value
  | like {type : DataType} {pattern : String} : Fits .like type (.text pattern)
  | contains {element : DataType} {value item : Value}
      (hcast : value.castTo? element = some item) :
      Fits .contains (.list element) value

/-- Filters in which every group has a child and every leaf fits its field. -/
inductive Filter.WellTyped (matching : KeyMatching) : List TypedName → Filter → Prop
  | and {scope : List TypedName} {children : List Filter} (hsome : children ≠ [])
      (hchildren : ∀ child ∈ children, WellTyped matching scope child) :
      WellTyped matching scope (.and children)
  | or {scope : List TypedName} {children : List Filter} (hsome : children ≠ [])
      (hchildren : ∀ child ∈ children, WellTyped matching scope child) :
      WellTyped matching scope (.or children)
  | not {scope : List TypedName} {child : Filter} (hchild : WellTyped matching scope child) :
      WellTyped matching scope (.not child)
  | leaf {scope : List TypedName} {key : String} {operator : Operator} {value : Value}
      {type : DataType} (hkey : matching.typeOf? scope key = some type)
      (hfits : operator.Fits type value) :
      WellTyped matching scope (.leaf key operator value)
  | body {scope : List TypedName} {key : String} {operator : Operator} {element : DataType}
      {body : Filter} (hkey : matching.typeOf? scope key = some (.list element))
      (hquantifier : operator.isQuantifier = true)
      (hbody : WellTyped matching (elementScope element) body) :
      WellTyped matching scope (.leaf key operator (.filter body))

/-- Queries whose filter is well typed and whose order uses names of the scope. -/
structure Query.WellTyped (matching : KeyMatching) (scope : List TypedName) (query : Query) :
    Prop where
  filter : ∀ f, query.filter = some f → f.WellTyped matching scope
  order : ∀ o, query.order = some o → ∀ link ∈ o.links,
    (matching.typeOf? scope link.key).isSome = true

/-! ## Faults -/

/-- The first fault of a filter. Behind a key that is known, a leaf has the
first fault of its body, if it has a body and the field has elements for it;
any other leaf that does not fit has no handler. -/
inductive Filter.FirstFault (matching : KeyMatching) :
    List TypedName → Filter → QueryFault → Prop
  | emptyAnd {scope : List TypedName} : FirstFault matching scope (.and []) (.emptyGroup .and)
  | emptyOr {scope : List TypedName} : FirstFault matching scope (.or []) (.emptyGroup .or)
  | inAnd {scope : List TypedName} {before after : List Filter} {child : Filter}
      {fault : QueryFault} (hbefore : ∀ f ∈ before, f.WellTyped matching scope)
      (hchild : FirstFault matching scope child fault) :
      FirstFault matching scope (.and (before ++ child :: after)) fault
  | inOr {scope : List TypedName} {before after : List Filter} {child : Filter}
      {fault : QueryFault} (hbefore : ∀ f ∈ before, f.WellTyped matching scope)
      (hchild : FirstFault matching scope child fault) :
      FirstFault matching scope (.or (before ++ child :: after)) fault
  | inNot {scope : List TypedName} {child : Filter} {fault : QueryFault}
      (hchild : FirstFault matching scope child fault) :
      FirstFault matching scope (.not child) fault
  | unknownKey {scope : List TypedName} {key : String} {operator : Operator} {value : Value}
      (hkey : matching.typeOf? scope key = none) :
      FirstFault matching scope (.leaf key operator value) (.unknownKey key)
  | noHandler {scope : List TypedName} {key : String} {operator : Operator} {value : Value}
      {type : DataType} (hkey : matching.typeOf? scope key = some type)
      (hfits : ¬operator.Fits type value)
      (hbody : ∀ element body, type = .list element → operator.isQuantifier = true →
        value ≠ .filter body) :
      FirstFault matching scope (.leaf key operator value) (.noHandler key operator value.kind)
  | inBody {scope : List TypedName} {key : String} {operator : Operator} {element : DataType}
      {body : Filter} {fault : QueryFault}
      (hkey : matching.typeOf? scope key = some (.list element))
      (hquantifier : operator.isQuantifier = true)
      (hbody : FirstFault matching (elementScope element) body fault) :
      FirstFault matching scope (.leaf key operator (.filter body)) fault

/-- The first fault of a query: that of its filter, or the first key of its
order that is unknown. -/
inductive Query.FirstFault (matching : KeyMatching) (scope : List TypedName) (query : Query) :
    QueryFault → Prop
  | inFilter {f : Filter} {fault : QueryFault} (hfilter : query.filter = some f)
      (hfault : f.FirstFault matching scope fault) :
      FirstFault matching scope query fault
  | inOrder {order : Order} {before after : List OrderLink} {link : OrderLink}
      (hfilter : ∀ f, query.filter = some f → f.WellTyped matching scope)
      (horder : query.order = some order) (hlinks : order.links = before ++ link :: after)
      (hbefore : ∀ l ∈ before, (matching.typeOf? scope l.key).isSome = true)
      (hkey : matching.typeOf? scope link.key = none) :
      FirstFault matching scope query (.unknownKey link.key)

/-! ## One or the other -/

/-- In a list of which each element is good or bad, all are good, or there is a
first bad one. -/
theorem forall_or_first {α : Type} {good bad : α → Prop} {as : List α}
    (h : ∀ a ∈ as, good a ∨ bad a) :
    (∀ a ∈ as, good a)
      ∨ ∃ before a after, as = before ++ a :: after ∧ (∀ b ∈ before, good b) ∧ bad a := by
  induction as with
  | nil => exact .inl fun a ha => (List.not_mem_nil ha).elim
  | cons a rest ih =>
      obtain ⟨ha, hrest⟩ := List.forall_mem_cons.mp h
      rcases ha with hgood | hbad
      · rcases ih hrest with hall | ⟨before, first, after, rfl, hbefore, hfirst⟩
        · exact .inl (List.forall_mem_cons.mpr ⟨hgood, hall⟩)
        · exact .inr ⟨a :: before, first, after, rfl,
            List.forall_mem_cons.mpr ⟨hgood, hbefore⟩, hfirst⟩
      · exact .inr ⟨[], a, rest, rfl, fun b hb => (List.not_mem_nil hb).elim, hbad⟩

/-- A filter that is not well typed has a first fault. -/
theorem Filter.wellTyped_or_firstFault (matching : KeyMatching) :
    ∀ (f : Filter) (scope : List TypedName),
    f.WellTyped matching scope ∨ ∃ fault, f.FirstFault matching scope fault
  | .and [], _ => .inr ⟨_, .emptyAnd⟩
  | .or [], _ => .inr ⟨_, .emptyOr⟩
  | .and (f :: rest), scope => by
      have hall := forall_or_first fun g (_ : g ∈ f :: rest) =>
        wellTyped_or_firstFault matching g scope
      rcases hall with hall | ⟨before, child, after, heq, hbefore, fault, hchild⟩
      · exact .inl (.and (List.cons_ne_nil f rest) hall)
      · exact .inr ⟨fault, heq ▸ .inAnd hbefore hchild⟩
  | .or (f :: rest), scope => by
      have hall := forall_or_first fun g (_ : g ∈ f :: rest) =>
        wellTyped_or_firstFault matching g scope
      rcases hall with hall | ⟨before, child, after, heq, hbefore, fault, hchild⟩
      · exact .inl (.or (List.cons_ne_nil f rest) hall)
      · exact .inr ⟨fault, heq ▸ .inOr hbefore hchild⟩
  | .not child, scope => by
      rcases wellTyped_or_firstFault matching child scope with hchild | ⟨fault, hchild⟩
      · exact .inl (.not hchild)
      · exact .inr ⟨fault, .inNot hchild⟩
  | .leaf key operator value, scope => by
      cases hkey : matching.typeOf? scope key with
      | none => exact .inr ⟨_, .unknownKey hkey⟩
      | some type =>
          by_cases hfits : operator.Fits type value
          · exact .inl (.leaf hkey hfits)
          by_cases hbody : ∃ element body, type = .list element ∧ operator.isQuantifier = true
              ∧ value = .filter body
          · obtain ⟨element, body, rfl, hquantifier, rfl⟩ := hbody
            rcases wellTyped_or_firstFault matching body (elementScope element) with
              hbody | ⟨fault, hbody⟩
            · exact .inl (.body hkey hquantifier hbody)
            · exact .inr ⟨fault, .inBody hkey hquantifier hbody⟩
          · refine .inr ⟨_, .noHandler hkey hfits fun element body htype hquantifier hvalue => ?_⟩
            exact hbody ⟨element, body, htype, hquantifier, hvalue⟩

/-- A query that is not well typed has a first fault. -/
theorem Query.wellTyped_or_firstFault (matching : KeyMatching) (scope : List TypedName)
    (query : Query) :
    query.WellTyped matching scope ∨ ∃ fault, query.FirstFault matching scope fault := by
  have hfilter : (∀ f, query.filter = some f → f.WellTyped matching scope)
      ∨ ∃ fault, query.FirstFault matching scope fault := by
    cases hquery : query.filter with
    | none => exact .inl fun f hf => nomatch hf
    | some f =>
        rcases f.wellTyped_or_firstFault matching scope with hf | ⟨fault, hfault⟩
        · exact .inl fun g hg => Option.some.inj hg ▸ hf
        · exact .inr ⟨fault, .inFilter hquery hfault⟩
  rcases hfilter with hfilter | hfault
  · cases hquery : query.order with
    | none => exact .inl ⟨hfilter, fun o ho => nomatch hquery.symm.trans ho⟩
    | some order =>
        have hknown : ∀ link ∈ order.links, (matching.typeOf? scope link.key).isSome = true
            ∨ matching.typeOf? scope link.key = none :=
          fun link _ => (Option.eq_none_or_eq_some _).symm.imp_left Option.isSome_iff_exists.mpr
        rcases forall_or_first hknown with hlinks | ⟨before, link, after, hlinks, hbefore, hkey⟩
        · exact .inl ⟨hfilter, fun o ho => Option.some.inj (hquery.symm.trans ho) ▸ hlinks⟩
        · exact .inr ⟨_, .inOrder hfilter hquery hlinks hbefore hkey⟩
  · exact .inr hfault

end RowQuery
