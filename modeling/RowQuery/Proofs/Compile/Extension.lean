import Mathlib.Data.List.Forall2
import RowQuery.Compile.Extensions
import RowQuery.Proofs.Compile.Acceptance

/-!
# Chains with one handler more

A handler behind the built-in ones takes nothing away from them: it is asked
only where they have no answer, and there a filter would not compile without
it. A handler in front of them is asked first. If it leaves every leaf that it
is asked about to the others, it might as well be missing, and a condition that
it gives stands in the predicate as it is.

It does not end with the leaves of the filter. The body of a quantifier is
compiled with the chain in force, so the handler comes up again in there, and
what it is asked depends on what was answered before: `Filter.Asks` describes
all that compiling a filter asks it. Each part of `Filter.compileWithin_extended`
follows by a walk through the filter, the body of a quantifier being one of its
parts.

A handler may be any function of a context and a leaf. The chain does not change
while a filter is compiled, so a handler that looks into it is such a function
too.
-/

namespace RowQuery

/-! ## Leaves -/

namespace HandlerChain

variable {chain : HandlerChain} {handler : Handler} {context : LeafContext} {key : String}
  {operator : Operator} {field : FieldAccess} {value : Value}

theorem condition_withFirst_some {condition : Condition}
    (h : handler.handle context operator field value = .ok (some condition)) :
    (chain.withFirst handler).condition context key operator field value = .ok condition := by
  simp only [HandlerChain.condition, withFirst, firstAnswer, h]

theorem condition_withFirst_none (h : handler.handle context operator field value = .ok none) :
    (chain.withFirst handler).condition context key operator field value
      = chain.condition context key operator field value := by
  simp only [HandlerChain.condition, withFirst, firstAnswer, h]

theorem condition_withFirst_eq_ok {condition : Condition} :
    (chain.withFirst handler).condition context key operator field value = .ok condition
      ↔ handler.handle context operator field value = .ok (some condition)
        ∨ handler.handle context operator field value = .ok none
          ∧ chain.condition context key operator field value = .ok condition := by
  constructor
  · intro h
    rcases Handler.firstAnswer_cons (Handler.firstAnswer_of_condition h) with htaken | ⟨hleft, -⟩
    · exact .inl htaken
    · rw [condition_withFirst_none hleft] at h
      exact .inr ⟨hleft, h⟩
  · rintro (htaken | ⟨hleft, h⟩)
    · exact condition_withFirst_some htaken
    · rw [condition_withFirst_none hleft]
      exact h

/-- An answer of the handlers before others is the answer of all. -/
theorem firstAnswer_append {handlers : List Handler} {condition : Condition}
    (h : firstAnswer context operator field value handlers = .ok (some condition))
    (others : List Handler) :
    firstAnswer context operator field value (handlers ++ others) = .ok (some condition) := by
  induction handlers with
  | nil => cases h
  | cons first rest ih =>
      rw [List.cons_append, firstAnswer]
      rcases Handler.firstAnswer_cons h with hfirst | ⟨hleft, hrest⟩
      · rw [hfirst]
      · rw [hleft]
        exact ih hrest

theorem condition_withLast {condition : Condition}
    (h : chain.condition context key operator field value = .ok condition) (handler : Handler) :
    (chain.withLast handler).condition context key operator field value = .ok condition := by
  rw [HandlerChain.condition, withLast, firstAnswer_append (Handler.firstAnswer_of_condition h)]

/-- The built-in chain looks at the context of a leaf only to compile the body
of a quantifier on elements. -/
theorem condition_default_cases (key : String) (operator : Operator) (field : FieldAccess)
    (value : Value) :
    (∃ result, ∀ context,
        HandlerChain.default.condition context key operator field value = result)
      ∨ ∃ quantifier element body, operator.quantifier? = some quantifier
        ∧ field.elementType? = some element ∧ value = .filter body
        ∧ ∀ context, HandlerChain.default.condition context key operator field value
          = (context.compileElement element body).map
              (.quantified quantifier field.onDemand) := by
  rcases operator.cases_sort with ⟨relation, hrelation⟩ | rfl | rfl | ⟨quantifier, hquantifier⟩
  · exact .inl ⟨_, fun context => Handler.condition_relation hrelation⟩
  · exact .inl ⟨_, fun context => Handler.condition_like⟩
  · exact .inl ⟨_, fun context => Handler.condition_contains⟩
  · by_cases hbody : ∃ element body, field.elementType? = some element ∧ value = .filter body
    · obtain ⟨element, body, helement, rfl⟩ := hbody
      refine .inr ⟨quantifier, element, body, hquantifier, helement, rfl, fun context => ?_⟩
      rw [Handler.condition_quantifier hquantifier, helement]
    · refine .inl ⟨.error (.noHandler key operator value.kind), fun context => ?_⟩
      rw [Handler.condition_quantifier hquantifier]
      split
      · rename_i element body helement
        exact absurd ⟨element, body, helement, rfl⟩ hbody
      · rfl

end HandlerChain

/-! ## Lists -/

namespace Filter

section Lists

variable {chain chain' : HandlerChain} {levels : Nat} {table : FieldTable} {fs : List Filter}

/-- A list compiles with another chain as with one, if each of its filters
does that was reached. -/
theorem compileAllIn_congr
    (h : ∀ before f after, fs = before ++ f :: after →
      (∀ g ∈ before, ∃ p, compileWithin chain levels table g = .ok p) →
        compileWithin chain levels table f = compileWithin chain' levels table f) :
    compileAllIn chain (.atLevel chain levels table) fs
      = compileAllIn chain' (.atLevel chain' levels table) fs := by
  induction fs with
  | nil => rfl
  | cons f rest ih =>
      have hf := h [] f rest rfl (List.forall_mem_nil _)
      rw [compileAllIn, compileAllIn, ← compileWithin_eq, ← compileWithin_eq, ← hf]
      cases hp : compileWithin chain levels table f with
      | error e => rfl
      | ok p =>
          have hrest := ih fun before g after heq hbefore =>
            h (f :: before) g after (by rw [heq, List.cons_append])
              (List.forall_mem_cons.mpr ⟨⟨p, hp⟩, hbefore⟩)
          simp only [hrest]

/-- A list that compiles is compiled filter by filter. -/
theorem compileAllIn_eq_ok {ps : List Predicate} :
    compileAllIn chain (.atLevel chain levels table) fs = .ok ps
      ↔ List.Forall₂ (fun f p => compileWithin chain levels table f = .ok p) fs ps := by
  induction fs generalizing ps with
  | nil =>
      rw [compileAllIn, List.forall₂_nil_left_iff]
      exact ⟨fun h => (Except.ok.inj h).symm, fun h => h ▸ rfl⟩
  | cons f rest ih =>
      rw [compileAllIn, ← compileWithin_eq, List.forall₂_cons_left_iff]
      cases hf : compileWithin chain levels table f with
      | error e =>
          constructor
          · intro h
            cases h
          · rintro ⟨p, ps, hp, -⟩
            cases hp
      | ok p =>
          constructor
          · intro h
            obtain ⟨ps, hps, rfl⟩ := Except.map_eq_ok.mp h
            exact ⟨p, ps, rfl, ih.mp hps, rfl⟩
          · rintro ⟨q, qs, hq, hqs, rfl⟩
            obtain rfl := Except.ok.inj hq
            exact Except.map_eq_ok.mpr ⟨qs, ih.mpr hqs, rfl⟩

/-- A list that compiles does so with another chain, if its filters do. -/
theorem compileAllIn_of_ok {ps : List Predicate}
    (h : ∀ f ∈ fs, ∀ p, compileWithin chain levels table f = .ok p →
      compileWithin chain' levels table f = .ok p)
    (hps : compileAllIn chain (.atLevel chain levels table) fs = .ok ps) :
    compileAllIn chain' (.atLevel chain' levels table) fs = .ok ps := by
  rw [compileAllIn_eq_ok] at hps ⊢
  induction hps with
  | nil => exact .nil
  | cons hp _ ih =>
      exact .cons (h _ (List.mem_cons_self ..) _ hp)
        (ih fun g hg => h g (List.mem_cons_of_mem _ hg))

end Lists

/-! ## A handler behind the others -/

/-- A filter that compiles compiles to the same predicate with a handler more
behind the built-in ones. -/
theorem compileWithin_withLast (handler : Handler) :
    ∀ (f : Filter) {levels : Nat} {table : FieldTable} {p : Predicate},
      compileWithin .default levels table f = .ok p →
        compileWithin (HandlerChain.default.withLast handler) levels table f = .ok p
  | .and [], _, _, _, h => by
      rw [compileWithin_eq, compileIn] at h
      cases h
  | .or [], _, _, _, h => by
      rw [compileWithin_eq, compileIn] at h
      cases h
  | .and (g :: rest), _, _, _, h => by
      have hsome : g :: rest ≠ [] := List.cons_ne_nil g rest
      rw [compileWithin_and hsome] at h ⊢
      obtain ⟨ps, hps, rfl⟩ := Except.map_eq_ok.mp h
      have hall := compileAllIn_of_ok (fun f (_ : f ∈ g :: rest) p hp =>
        compileWithin_withLast handler f hp) hps
      exact Except.map_eq_ok.mpr ⟨ps, hall, rfl⟩
  | .or (g :: rest), _, _, _, h => by
      have hsome : g :: rest ≠ [] := List.cons_ne_nil g rest
      rw [compileWithin_or hsome] at h ⊢
      obtain ⟨ps, hps, rfl⟩ := Except.map_eq_ok.mp h
      have hall := compileAllIn_of_ok (fun f (_ : f ∈ g :: rest) p hp =>
        compileWithin_withLast handler f hp) hps
      exact Except.map_eq_ok.mpr ⟨ps, hall, rfl⟩
  | .not child, _, _, _, h => by
      rw [compileWithin_not] at h ⊢
      obtain ⟨q, hq, rfl⟩ := Except.map_eq_ok.mp h
      exact Except.map_eq_ok.mpr ⟨q, compileWithin_withLast handler child hq, rfl⟩
  | .leaf key operator value, levels, table, p, h => by
      cases hfield : table.lookup key with
      | error fault =>
          rw [compileWithin_leaf_error hfield] at h
          cases h
      | ok field =>
          rw [compileWithin_leaf hfield] at h ⊢
          obtain ⟨condition, hcondition, rfl⟩ := Except.map_eq_ok.mp h
          refine Except.map_eq_ok.mpr ⟨condition, HandlerChain.condition_withLast ?_ handler, rfl⟩
          rcases HandlerChain.condition_default_cases key operator field value with
            ⟨result, hresult⟩ | ⟨quantifier, element, body, -, -, rfl, hbody⟩
          · rw [hresult] at hcondition ⊢
            exact hcondition
          · rw [hbody] at hcondition ⊢
            obtain ⟨q, hq, rfl⟩ := Except.map_eq_ok.mp hcondition
            refine Except.map_eq_ok.mpr ⟨q, ?_, rfl⟩
            cases levels with
            | zero => cases hq
            | succ levels => exact compileWithin_withLast handler body hq

end Filter

/-! ## Questions and places -/

/-- What a handler is asked about. -/
structure Question where
  context : LeafContext
  operator : Operator
  field : FieldAccess
  value : Value

def Handler.answer (handler : Handler) (question : Question) :
    Except QueryFault (Option Condition) :=
  handler.handle question.context question.operator question.field question.value

/-- One step from a filter to a part of it, or from a predicate. -/
inductive Turn where
  | child (index : Nat)
  | negated
  | body
deriving Repr, DecidableEq

/-- The condition at a place of a predicate. The body of a quantifier belongs to
the places. -/
def Predicate.conditionAt? : Predicate → List Turn → Option Condition
  | .check condition, [] => some condition
  | .and children, .child index :: place | .or children, .child index :: place =>
      children[index]?.bind fun child => child.conditionAt? place
  | .not child, .negated :: place => child.conditionAt? place
  | .check (.quantified _ _ body), .body :: place => body.conditionAt? place
  | _, _ => none

namespace Predicate

variable {children : List Predicate} {index : Nat} {place : List Turn} {condition : Condition}

theorem conditionAt?_and :
    (and children).conditionAt? (.child index :: place)
      = children[index]?.bind fun child => child.conditionAt? place := rfl

/-- The places of a group do not tell whether all of its children have to hold or one. -/
theorem conditionAt?_or : (or children).conditionAt? place = (and children).conditionAt? place := by
  match place with
  | [] | .child _ :: _ | .negated :: _ | .body :: _ => rfl

theorem conditionAt?_and_eq_some (h : (and children).conditionAt? place = some condition) :
    ∃ index rest child, place = .child index :: rest ∧ children[index]? = some child
      ∧ child.conditionAt? rest = some condition := by
  match place, h with
  | .child index :: rest, h =>
      obtain ⟨child, hchild, hrest⟩ := Option.bind_eq_some_iff.mp h
      exact ⟨index, rest, child, rfl, hchild, hrest⟩

theorem conditionAt?_not_eq_some {child : Predicate}
    (h : (not child).conditionAt? place = some condition) :
    ∃ rest, place = .negated :: rest ∧ child.conditionAt? rest = some condition := by
  match place, h with
  | .negated :: rest, h => exact ⟨rest, rfl, h⟩

/-- Behind a condition there are only the places of its body. -/
theorem conditionAt?_check_eq_some {given : Condition}
    (h : (check given).conditionAt? place = some condition) :
    place = [] ∧ given = condition
      ∨ ∃ quantifier field body rest, given = .quantified quantifier field body
        ∧ place = .body :: rest ∧ body.conditionAt? rest = some condition := by
  match given, place, h with
  | given, [], h => exact .inl ⟨rfl, Option.some.inj h⟩
  | .quantified quantifier field body, .body :: rest, h =>
      exact .inr ⟨quantifier, field, body, rest, rfl, rfl, h⟩

end Predicate

/-- The questions to a handler in front of the built-in ones while a filter is
compiled, with the places of the leaves that they are about. A child is reached
if those before it compile, and a body if the handler leaves its quantifier to
the others. -/
inductive Filter.Asks (handler : Handler) :
    (levels : Nat) → FieldTable → Filter → List Turn → Question → Prop
  | leaf {levels : Nat} {table : FieldTable} {key : String} {operator : Operator} {value : Value}
      {field : FieldAccess} (hfield : table.lookup key = .ok field) :
      Asks handler levels table (.leaf key operator value) []
        { context := .atLevel (HandlerChain.default.withFirst handler) levels table
          operator, field, value }
  | and {levels : Nat} {table : FieldTable} {before after : List Filter} {child : Filter}
      {place : List Turn} {question : Question}
      (hbefore : ∀ g ∈ before, ∃ p,
        g.compileWithin (HandlerChain.default.withFirst handler) levels table = .ok p)
      (hchild : Asks handler levels table child place question) :
      Asks handler levels table (.and (before ++ child :: after)) (.child before.length :: place)
        question
  | or {levels : Nat} {table : FieldTable} {before after : List Filter} {child : Filter}
      {place : List Turn} {question : Question}
      (hbefore : ∀ g ∈ before, ∃ p,
        g.compileWithin (HandlerChain.default.withFirst handler) levels table = .ok p)
      (hchild : Asks handler levels table child place question) :
      Asks handler levels table (.or (before ++ child :: after)) (.child before.length :: place)
        question
  | not {levels : Nat} {table : FieldTable} {child : Filter} {place : List Turn}
      {question : Question} (hchild : Asks handler levels table child place question) :
      Asks handler levels table (.not child) (.negated :: place) question
  | body {levels : Nat} {table : FieldTable} {key : String} {operator : Operator}
      {quantifier : Quantifier} {field : FieldAccess} {element : DataType} {body : Filter}
      {place : List Turn} {question : Question} (hfield : table.lookup key = .ok field)
      (hleft : handler.handle
        (.atLevel (HandlerChain.default.withFirst handler) (levels + 1) table) operator field
        (.filter body) = .ok none)
      (hquantifier : operator.quantifier? = some quantifier)
      (helement : field.elementType? = some element)
      (hbody : Asks handler levels (.ofElement element table.matching) body place question) :
      Asks handler (levels + 1) table (.leaf key operator (.filter body)) (.body :: place) question

namespace Filter

/-! ## A handler in front of the others -/

/-- A handler in front of the built-in ones that leaves all that it is asked
about to them changes nothing. -/
theorem compileWithin_withFirst {handler : Handler} :
    ∀ (f : Filter) {levels : Nat} {table : FieldTable},
      (∀ place question, f.Asks handler levels table place question →
        handler.answer question = .ok none) →
      compileWithin (HandlerChain.default.withFirst handler) levels table f
        = compileWithin .default levels table f
  | .and [], _, _, _ => by rw [compileWithin_eq, compileWithin_eq, compileIn, compileIn]
  | .or [], _, _, _ => by rw [compileWithin_eq, compileWithin_eq, compileIn, compileIn]
  | .and (g :: rest), levels, table, hleft => by
      have hsome : g :: rest ≠ [] := List.cons_ne_nil g rest
      rw [compileWithin_and hsome, compileWithin_and hsome]
      refine congrArg (Except.map Predicate.and)
        (compileAllIn_congr fun before f after heq hbefore => ?_)
      have hmem : f ∈ g :: rest := heq ▸ List.mem_append_cons_self
      refine compileWithin_withFirst f fun place question hasks => ?_
      exact hleft (.child before.length :: place) question (heq ▸ .and hbefore hasks)
  | .or (g :: rest), levels, table, hleft => by
      have hsome : g :: rest ≠ [] := List.cons_ne_nil g rest
      rw [compileWithin_or hsome, compileWithin_or hsome]
      refine congrArg (Except.map Predicate.or)
        (compileAllIn_congr fun before f after heq hbefore => ?_)
      have hmem : f ∈ g :: rest := heq ▸ List.mem_append_cons_self
      refine compileWithin_withFirst f fun place question hasks => ?_
      exact hleft (.child before.length :: place) question (heq ▸ .or hbefore hasks)
  | .not child, levels, table, hleft => by
      have hchild := compileWithin_withFirst child fun place question hasks =>
        hleft (.negated :: place) question (.not hasks)
      rw [compileWithin_not, compileWithin_not, hchild]
  | .leaf key operator value, levels, table, hleft => by
      cases hfield : table.lookup key with
      | error fault => rw [compileWithin_leaf_error hfield, compileWithin_leaf_error hfield]
      | ok field =>
          have hdeclined := hleft [] _ (.leaf hfield)
          rw [compileWithin_leaf hfield, compileWithin_leaf hfield,
            HandlerChain.condition_withFirst_none hdeclined]
          rcases HandlerChain.condition_default_cases key operator field value with
            ⟨result, hresult⟩ | ⟨quantifier, element, body, hquantifier, helement, rfl, hbody⟩
          · rw [hresult, hresult]
          · rw [hbody, hbody]
            cases levels with
            | zero => rfl
            | succ levels =>
                have hsame := compileWithin_withFirst body fun place question hasks =>
                  hleft (.body :: place) question
                    (.body hfield hdeclined hquantifier helement hasks)
                exact congrArg (fun result => Except.map Predicate.check
                  (Except.map (Condition.quantified quantifier field.onDemand) result)) hsame

/-- A list that compiles has a predicate for each filter, in its place. -/
theorem exists_getElem?_of_compileAllIn {chain : HandlerChain} {levels : Nat} {table : FieldTable}
    {before after : List Filter} {f : Filter} {ps : List Predicate}
    (h : compileAllIn chain (.atLevel chain levels table) (before ++ f :: after) = .ok ps) :
    ∃ p, compileWithin chain levels table f = .ok p ∧ ps[before.length]? = some p := by
  rw [compileAllIn_eq_ok] at h
  induction before generalizing ps with
  | nil =>
      cases h with
      | cons hp _ => exact ⟨_, hp, rfl⟩
  | cons g rest ih =>
      cases h with
      | cons _ hrest => exact ih hrest

/-- What a handler in front of the built-in ones takes stands in the predicate
as it is, at the place of the leaf. -/
theorem conditionAt?_of_asks {handler : Handler} {levels : Nat} {table : FieldTable} {f : Filter}
    {place : List Turn} {question : Question} {condition : Condition}
    (hasks : f.Asks handler levels table place question)
    (htaken : handler.answer question = .ok (some condition)) {p : Predicate}
    (hp : compileWithin (HandlerChain.default.withFirst handler) levels table f = .ok p) :
    p.conditionAt? place = some condition := by
  induction hasks generalizing p with
  | leaf hfield =>
      rw [compileWithin_leaf hfield, HandlerChain.condition_withFirst_some htaken] at hp
      obtain rfl := Except.ok.inj hp
      rfl
  | and _ _ ih =>
      rw [compileWithin_and (by simp)] at hp
      obtain ⟨ps, hps, rfl⟩ := Except.map_eq_ok.mp hp
      obtain ⟨q, hq, hget⟩ := exists_getElem?_of_compileAllIn hps
      rw [Predicate.conditionAt?_and, hget, Option.bind_some]
      exact ih htaken hq
  | or _ _ ih =>
      rw [compileWithin_or (by simp)] at hp
      obtain ⟨ps, hps, rfl⟩ := Except.map_eq_ok.mp hp
      obtain ⟨q, hq, hget⟩ := exists_getElem?_of_compileAllIn hps
      rw [Predicate.conditionAt?_or, Predicate.conditionAt?_and, hget, Option.bind_some]
      exact ih htaken hq
  | not _ ih =>
      rw [compileWithin_not] at hp
      obtain ⟨q, hq, rfl⟩ := Except.map_eq_ok.mp hp
      exact ih htaken hq
  | body hfield hleft hquantifier helement _ ih =>
      rw [compileWithin_leaf hfield, HandlerChain.condition_withFirst_none hleft,
        Handler.condition_quantifier hquantifier, helement] at hp
      obtain ⟨condition, hcondition, rfl⟩ := Except.map_eq_ok.mp hp
      obtain ⟨q, hq, rfl⟩ := Except.map_eq_ok.mp hcondition
      exact ih htaken hq

/-- The predicate at an index of a compiled list is that of a filter, and those
before it compile. -/
theorem exists_of_compileAllIn_getElem? {chain : HandlerChain} {levels : Nat} {table : FieldTable}
    {fs : List Filter} {ps : List Predicate}
    (h : compileAllIn chain (.atLevel chain levels table) fs = .ok ps) {index : Nat}
    {p : Predicate} (hp : ps[index]? = some p) :
    ∃ before f after, fs = before ++ f :: after ∧ before.length = index
      ∧ (∀ g ∈ before, ∃ q, compileWithin chain levels table g = .ok q)
      ∧ compileWithin chain levels table f = .ok p := by
  rw [compileAllIn_eq_ok] at h
  induction h generalizing index with
  | nil => cases hp
  | @cons f q rest qs hq _ ih =>
      cases index with
      | zero =>
          obtain rfl := Option.some.inj hp
          exact ⟨[], f, rest, rfl, rfl, List.forall_mem_nil _, hq⟩
      | succ index =>
          obtain ⟨before, g, after, rfl, rfl, hbefore, hg⟩ := ih hp
          exact ⟨f :: before, g, after, rfl, rfl,
            List.forall_mem_cons.mpr ⟨⟨q, hq⟩, hbefore⟩, hg⟩

/-- Where a condition of a filter that was compiled with a handler in front of
the built-in ones comes from: it is, or lies in, one that the handler gave, or
the handler left its leaf to the built-in ones. -/
def ComesFrom (handler : Handler) (question : Question) (inside : List Turn)
    (condition : Condition) : Prop :=
  (∃ taken, handler.answer question = .ok (some taken)
      ∧ (Predicate.check taken).conditionAt? inside = some condition)
    ∨ inside = [] ∧ handler.answer question = .ok none
      ∧ ∃ key, HandlerChain.default.condition question.context key question.operator
          question.field question.value = .ok condition

/-- Every condition of a filter that was compiled with a handler in front of the
built-in ones goes back to a question. -/
theorem exists_asks_of_conditionAt? {handler : Handler} :
    ∀ (f : Filter) {levels : Nat} {table : FieldTable} {p : Predicate} {place : List Turn}
      {condition : Condition},
      compileWithin (HandlerChain.default.withFirst handler) levels table f = .ok p →
      p.conditionAt? place = some condition →
      ∃ asked inside question, place = asked ++ inside
        ∧ f.Asks handler levels table asked question
        ∧ ComesFrom handler question inside condition
  | .and [], _, _, _, _, _, hp, _ => by
      rw [compileWithin_eq, compileIn] at hp
      cases hp
  | .or [], _, _, _, _, _, hp, _ => by
      rw [compileWithin_eq, compileIn] at hp
      cases hp
  | .and (g :: rest), _, _, _, _, _, hp, hplace => by
      rw [compileWithin_and (List.cons_ne_nil g rest)] at hp
      obtain ⟨ps, hps, rfl⟩ := Except.map_eq_ok.mp hp
      obtain ⟨index, place, q, rfl, hq, hinner⟩ := Predicate.conditionAt?_and_eq_some hplace
      obtain ⟨before, f, after, heq, rfl, hbefore, hf⟩ := exists_of_compileAllIn_getElem? hps hq
      have hmem : f ∈ g :: rest := heq ▸ List.mem_append_cons_self
      obtain ⟨asked, inside, question, rfl, hasks, hfrom⟩ :=
        exists_asks_of_conditionAt? f hf hinner
      exact ⟨.child before.length :: asked, inside, question, rfl, heq ▸ .and hbefore hasks, hfrom⟩
  | .or (g :: rest), _, _, _, _, _, hp, hplace => by
      rw [compileWithin_or (List.cons_ne_nil g rest)] at hp
      obtain ⟨ps, hps, rfl⟩ := Except.map_eq_ok.mp hp
      rw [Predicate.conditionAt?_or] at hplace
      obtain ⟨index, place, q, rfl, hq, hinner⟩ := Predicate.conditionAt?_and_eq_some hplace
      obtain ⟨before, f, after, heq, rfl, hbefore, hf⟩ := exists_of_compileAllIn_getElem? hps hq
      have hmem : f ∈ g :: rest := heq ▸ List.mem_append_cons_self
      obtain ⟨asked, inside, question, rfl, hasks, hfrom⟩ :=
        exists_asks_of_conditionAt? f hf hinner
      exact ⟨.child before.length :: asked, inside, question, rfl, heq ▸ .or hbefore hasks, hfrom⟩
  | .not child, _, _, _, _, _, hp, hplace => by
      rw [compileWithin_not] at hp
      obtain ⟨q, hq, rfl⟩ := Except.map_eq_ok.mp hp
      obtain ⟨place, rfl, hinner⟩ := Predicate.conditionAt?_not_eq_some hplace
      obtain ⟨asked, inside, question, rfl, hasks, hfrom⟩ :=
        exists_asks_of_conditionAt? child hq hinner
      exact ⟨.negated :: asked, inside, question, rfl, .not hasks, hfrom⟩
  | .leaf key operator value, levels, table, _, place, condition, hp, hplace => by
      cases hfield : table.lookup key with
      | error fault =>
          rw [compileWithin_leaf_error hfield] at hp
          cases hp
      | ok field =>
          rw [compileWithin_leaf hfield] at hp
          obtain ⟨given, hgiven, rfl⟩ := Except.map_eq_ok.mp hp
          rcases HandlerChain.condition_withFirst_eq_ok.mp hgiven with htaken | ⟨hleft, hgiven⟩
          · exact ⟨[], place, _, rfl, .leaf hfield, .inl ⟨given, htaken, hplace⟩⟩
          rcases Predicate.conditionAt?_check_eq_some hplace with
            ⟨rfl, rfl⟩ | ⟨quantifier, _, q, place, rfl, rfl, hinner⟩
          · exact ⟨[], [], _, rfl, .leaf hfield, .inr ⟨rfl, hleft, key, hgiven⟩⟩
          · cases Handler.answer_of_condition hgiven with
            | @quantified _ _ _ element body _ hquantifier helement hbody =>
                cases levels with
                | zero => cases hbody
                | succ levels =>
                    obtain ⟨asked, inside, question, rfl, hasks, hfrom⟩ :=
                      exists_asks_of_conditionAt? body hbody hinner
                    exact ⟨.body :: asked, inside, question, rfl,
                      .body hfield hleft hquantifier helement hasks, hfrom⟩

/-- What one handler more does to the compilation of a filter. Behind the
built-in handlers it changes nothing of what compiles without it. In front of
them it changes nothing if it leaves all that it is asked about to them; each
condition that it gives stands in the predicate at the place of the leaf, and
every other condition is that of the built-in handlers.

The levels are those of `Filter.compile`, or those that are left where a handler
compiles a filter of its own. -/
theorem compileWithin_extended (handler : Handler) (levels : Nat) (table : FieldTable)
    (f : Filter) :
    (∀ p, compileWithin .default levels table f = .ok p →
        compileWithin (HandlerChain.default.withLast handler) levels table f = .ok p)
      ∧ ((∀ place question, f.Asks handler levels table place question →
            handler.answer question = .ok none) →
          compileWithin (HandlerChain.default.withFirst handler) levels table f
            = compileWithin .default levels table f)
      ∧ ∀ p, compileWithin (HandlerChain.default.withFirst handler) levels table f = .ok p →
          (∀ place question condition, f.Asks handler levels table place question →
            handler.answer question = .ok (some condition) →
            p.conditionAt? place = some condition)
          ∧ ∀ place condition, p.conditionAt? place = some condition →
            ∃ asked inside question, place = asked ++ inside
              ∧ f.Asks handler levels table asked question
              ∧ ComesFrom handler question inside condition :=
  ⟨fun _ => compileWithin_withLast handler f, compileWithin_withFirst f, fun _ hp =>
    ⟨fun _ _ _ hasks htaken => conditionAt?_of_asks hasks htaken hp,
      fun _ _ => exists_asks_of_conditionAt? f hp⟩⟩

/-- Reads the words of a questionnaire. -/
def yesAndNo : Handler :=
  .booleanWords "words" fun word =>
    if word == "yes" then some true else if word == "no" then some false else none

/-- A sequence of booleans, under the key of an element. -/
def answersTable : FieldTable := .ofElement (.list .bool) .ignoreCase

def someTrue : Filter := .leaf "value" .any (.filter (.leaf "value" .eq (.bool true)))

def someNotYes : Filter := .leaf "value" .any (.filter (.not (.leaf "value" .eq (.text "yes"))))

theorem compile_extended_answers : ∃ p q,
    compile .default answersTable someTrue = .ok p
      ∧ compile (HandlerChain.default.withLast yesAndNo) answersTable someTrue = .ok p
      ∧ compile (HandlerChain.default.withFirst yesAndNo) answersTable someTrue = .ok p
      ∧ compile (HandlerChain.default.withFirst yesAndNo) answersTable someNotYes = .ok q
      ∧ q.conditionAt? [.body, .negated]
          = some (.relates .eq (.element .bool) (.bool true)) := by
  have hok : ∃ p, compile .default answersTable someTrue = .ok p := ⟨_, rfl⟩
  have htaken : ∃ q, compile (HandlerChain.default.withFirst yesAndNo) answersTable someNotYes
      = .ok q := ⟨_, rfl⟩
  obtain ⟨p, hp⟩ := hok
  obtain ⟨q, hq⟩ := htaken
  have hleft : ∀ place question,
      someTrue.Asks yesAndNo (answersTable.depth + someTrue.depth + 2) answersTable place question →
        yesAndNo.answer question = .ok none := by
    intro place question hasks
    cases hasks with
    | leaf => rfl
    | body _ _ _ _ hbody =>
        cases hbody with
        | leaf => rfl
  refine ⟨p, q, hp, (compileWithin_extended yesAndNo _ answersTable someTrue).1 p hp,
    ((compileWithin_extended yesAndNo _ answersTable someTrue).2.1 hleft).trans hp, hq,
    ((compileWithin_extended yesAndNo _ answersTable someNotYes).2.2 q hq).1 _ _ _
      (.body rfl rfl rfl rfl (.not (.leaf rfl))) rfl⟩

end Filter

end RowQuery
