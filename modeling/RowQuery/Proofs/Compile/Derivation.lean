import RowQuery.Proofs.Compile.Extension

/-!
# The compiler as rules

`Filter.Compiled` says what the built-in handlers make of a filter without
levels and contexts: one rule a constructor of filters, and for leaves one rule
for the bodies of quantifiers and one for all others. `Filter.compile_eq_ok_iff`
says that the compiler follows the rules and always has the levels to do so.

Whatever holds of every compiled filter is then proved by induction on the rules,
in which the body of a quantifier is a part like any other.
-/

namespace RowQuery

/-- What the built-in handlers make of a filter with the fields of a table. -/
inductive Filter.Compiled : FieldTable → Filter → Predicate → Prop
  | and {table : FieldTable} {fs : List Filter} {ps : List Predicate} (hsome : fs ≠ [])
      (hlength : fs.length = ps.length)
      (hchildren : ∀ i (hf : i < fs.length) (hp : i < ps.length),
        Compiled table (fs.get ⟨i, hf⟩) (ps.get ⟨i, hp⟩)) :
      Compiled table (.and fs) (.and ps)
  | or {table : FieldTable} {fs : List Filter} {ps : List Predicate} (hsome : fs ≠ [])
      (hlength : fs.length = ps.length)
      (hchildren : ∀ i (hf : i < fs.length) (hp : i < ps.length),
        Compiled table (fs.get ⟨i, hf⟩) (ps.get ⟨i, hp⟩)) :
      Compiled table (.or fs) (.or ps)
  | not {table : FieldTable} {child : Filter} {p : Predicate} (hchild : Compiled table child p) :
      Compiled table (.not child) (.not p)
  /-- A leaf that is taken whatever bodies may compile to. -/
  | leaf {table : FieldTable} {key : String} {operator : Operator} {value : Value}
      {field : FieldAccess} {condition : Condition} (hfield : table.lookup key = .ok field)
      (hcondition : ∀ context, HandlerChain.default.condition context key operator field value
        = .ok condition) :
      Compiled table (.leaf key operator value) (.check condition)
  /-- A body is compiled for the element, under the same matching. -/
  | body {table : FieldTable} {key : String} {operator : Operator} {quantifier : Quantifier}
      {field : FieldAccess} {element : DataType} {body : Filter} {p : Predicate}
      (hfield : table.lookup key = .ok field)
      (hquantifier : operator.quantifier? = some quantifier)
      (helement : field.elementType? = some element)
      (hbody : Compiled (.ofElement element table.matching) body p) :
      Compiled table (.leaf key operator (.filter body))
        (.check (.quantified quantifier field.onDemand p))

/-- A context in which no body compiles, for leaves that need none. -/
def LeafContext.bodiless : LeafContext :=
  { table := .empty .exact
    handlerCount := 0
    compileElement := fun _ _ => .error .nestedTooDeep }

/-- The condition of a leaf that needs no body reads the field of the leaf, as
it is or on demand, and has no body itself. -/
theorem Handler.Answer.of_bodiless {operator : Operator} {field : FieldAccess} {value : Value}
    {condition : Condition} (h : Handler.Answer .bodiless operator field value condition) :
    (condition.field = field ∨ condition.field = field.onDemand)
      ∧ ∀ quantifier source body, condition ≠ .quantified quantifier source body := by
  cases h with
  | quantified _ _ hbody => cases hbody
  | contains => exact ⟨.inr rfl, fun _ _ _ heq => nomatch heq⟩
  | like | ordersText | relates => exact ⟨.inl rfl, fun _ _ _ heq => nomatch heq⟩

theorem FieldAccess.elementType?_onDemand (field : FieldAccess) :
    field.onDemand.elementType? = field.elementType? := by
  cases field <;> rfl

namespace Filter

/-- Children compile one by one, so what is known of each of them is known at
every place. -/
theorem forall_get_of_compileAllIn {levels : Nat} {table : FieldTable} {fs : List Filter}
    {ps : List Predicate} {related : Filter → Predicate → Prop}
    (h : compileAllIn .default (.atLevel .default levels table) fs = .ok ps)
    (hchild : ∀ f ∈ fs, ∀ p, compileWithin .default levels table f = .ok p → related f p) :
    fs.length = ps.length ∧ ∀ i (hf : i < fs.length) (hp : i < ps.length),
      related (fs.get ⟨i, hf⟩) (ps.get ⟨i, hp⟩) := by
  obtain ⟨hlength, hall⟩ := List.forall₂_iff_get.mp (compileAllIn_eq_ok.mp h)
  exact ⟨hlength, fun i hf hp => hchild _ (List.get_mem _ _) _ (hall i hf hp)⟩

/-- What compiles is derived by the rules, whatever levels are left. -/
theorem compiled_of_compileWithin : ∀ (f : Filter) {levels : Nat} {table : FieldTable}
    {p : Predicate}, compileWithin .default levels table f = .ok p → Compiled table f p
  | .and [], _, _, _, h => by
      rw [compileWithin_eq, compileIn] at h
      cases h
  | .or [], _, _, _, h => by
      rw [compileWithin_eq, compileIn] at h
      cases h
  | .and (g :: rest), levels, table, _, h => by
      have hsome : g :: rest ≠ [] := List.cons_ne_nil g rest
      rw [compileWithin_and hsome] at h
      obtain ⟨ps, hps, rfl⟩ := Except.map_eq_ok.mp h
      obtain ⟨hlength, hall⟩ := forall_get_of_compileAllIn hps fun f _ q hq =>
        compiled_of_compileWithin f hq
      exact .and hsome hlength hall
  | .or (g :: rest), levels, table, _, h => by
      have hsome : g :: rest ≠ [] := List.cons_ne_nil g rest
      rw [compileWithin_or hsome] at h
      obtain ⟨ps, hps, rfl⟩ := Except.map_eq_ok.mp h
      obtain ⟨hlength, hall⟩ := forall_get_of_compileAllIn hps fun f _ q hq =>
        compiled_of_compileWithin f hq
      exact .or hsome hlength hall
  | .not child, _, _, _, h => by
      rw [compileWithin_not] at h
      obtain ⟨q, hq, rfl⟩ := Except.map_eq_ok.mp h
      exact .not (compiled_of_compileWithin child hq)
  | .leaf key operator value, levels, table, p, h => by
      cases hfield : table.lookup key with
      | error fault =>
          rw [compileWithin_leaf_error hfield] at h
          cases h
      | ok field =>
          rw [compileWithin_leaf hfield] at h
          obtain ⟨condition, hcondition, rfl⟩ := Except.map_eq_ok.mp h
          rcases HandlerChain.condition_default_cases key operator field value with
            ⟨result, hresult⟩ | ⟨quantifier, element, body, hquantifier, helement, rfl, hbody⟩
          · rw [hresult] at hcondition
            exact .leaf hfield fun context => (hresult context).trans hcondition
          · rw [hbody] at hcondition
            obtain ⟨q, hq, rfl⟩ := Except.map_eq_ok.mp hcondition
            cases levels with
            | zero => cases hq
            | succ levels =>
                exact .body hfield hquantifier helement (compiled_of_compileWithin body hq)

/-- What the rules derive compiles, if there are levels for its bodies. -/
theorem compileWithin_of_compiled {table : FieldTable} {f : Filter} {p : Predicate}
    (h : Compiled table f p) {levels : Nat} (hlevels : f.depth ≤ levels) :
    compileWithin .default levels table f = .ok p := by
  induction h generalizing levels with
  | and hsome hlength _ ih =>
      have hall := compileAllIn_eq_ok.mpr (List.forall₂_iff_get.mpr ⟨hlength, fun i hf hp =>
        ih i hf hp (Nat.le_trans (depth_le_of_mem (List.get_mem _ _)) hlevels)⟩)
      exact (compileWithin_and hsome).trans (Except.map_eq_ok.mpr ⟨_, hall, rfl⟩)
  | or hsome hlength _ ih =>
      have hall := compileAllIn_eq_ok.mpr (List.forall₂_iff_get.mpr ⟨hlength, fun i hf hp =>
        ih i hf hp (Nat.le_trans (depth_le_of_mem (List.get_mem _ _)) hlevels)⟩)
      exact (compileWithin_or hsome).trans (Except.map_eq_ok.mpr ⟨_, hall, rfl⟩)
  | not _ ih => exact (compileWithin_not _).trans (Except.map_eq_ok.mpr ⟨_, ih hlevels, rfl⟩)
  | leaf hfield hcondition =>
      exact (compileWithin_leaf hfield).trans
        (Except.map_eq_ok.mpr ⟨_, hcondition _, rfl⟩)
  | body hfield hquantifier helement _ ih =>
      cases levels with
      | zero => cases hlevels
      | succ levels =>
          rw [compileWithin_leaf hfield, Handler.condition_quantifier hquantifier, helement]
          have hbody := ih (Nat.le_of_succ_le_succ hlevels)
          exact Except.map_eq_ok.mpr ⟨_, Except.map_eq_ok.mpr ⟨_, hbody, rfl⟩, rfl⟩

/-- The compiler makes of a filter what the rules derive. -/
theorem compile_eq_ok_iff {table : FieldTable} {f : Filter} {p : Predicate} :
    compile .default table f = .ok p ↔ Compiled table f p :=
  ⟨compiled_of_compileWithin f, fun h => compileWithin_of_compiled h (by omega)⟩

end Filter

end RowQuery
