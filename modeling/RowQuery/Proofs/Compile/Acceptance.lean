import RowQuery.Compile.Filter
import RowQuery.Proofs.Compile.Fitting
import RowQuery.Proofs.Compile.Links
import RowQuery.Proofs.Fault.Success
import RowQuery.Proofs.Schema.Declaration
import RowQuery.Search.PreparedQuery

/-!
# Which queries are accepted

The built-in handlers accept the well-typed queries and no others, and a query
that is refused is refused for its first fault.

By induction on the rules a well-typed filter compiles, and one with a first
fault fails with it, as long as there are as many levels left as bodies stand
inside each other. Every filter is of one of the two sorts, so each tells what
the other direction needs.
-/

namespace RowQuery

/-! ## Tables and scopes -/

/-- A table finds the names of a scope, with their types. -/
structure FieldTable.Describes (table : FieldTable) (matching : KeyMatching)
    (scope : List TypedName) : Prop where
  sameMatching : table.matching = matching
  types : ∀ key, (table.get? key).map FieldAccess.type = matching.typeOf? scope key

namespace FieldTable

variable {table : FieldTable} {matching : KeyMatching} {scope : List TypedName} {key : String}

theorem describes_ofElement (element : DataType) (matching : KeyMatching) :
    (ofElement element matching).Describes matching (elementScope element) := by
  refine ⟨rfl, fun key => ?_⟩
  simp only [get?, findFolded, ofElement, elementScope, KeyMatching.typeOf?, List.find?_singleton]
  split <;> rfl

theorem Describes.ofElement (h : table.Describes matching scope) (element : DataType) :
    (FieldTable.ofElement element table.matching).Describes matching (elementScope element) :=
  h.sameMatching ▸ describes_ofElement element table.matching

theorem Describes.get?_of_none (h : table.Describes matching scope)
    (hkey : matching.typeOf? scope key = none) : table.get? key = none := by
  rw [← h.types key, Option.map_eq_none_iff] at hkey
  exact hkey

theorem Describes.get?_of_isSome (h : table.Describes matching scope)
    (hkey : (matching.typeOf? scope key).isSome = true) : ∃ field, table.get? key = some field := by
  rw [← h.types key, Option.isSome_map] at hkey
  exact Option.isSome_iff_exists.mp hkey

theorem Describes.lookup_none (h : table.Describes matching scope)
    (hkey : matching.typeOf? scope key = none) : table.lookup key = .error (.unknownKey key) := by
  rw [lookup, h.get?_of_none hkey]

theorem Describes.lookup_some (h : table.Describes matching scope) {type : DataType}
    (hkey : matching.typeOf? scope key = some type) :
    ∃ field, table.lookup key = .ok field ∧ field.type = type := by
  rw [← h.types key, Option.map_eq_some_iff] at hkey
  obtain ⟨field, hfield, htype⟩ := hkey
  exact ⟨field, by rw [lookup, hfield], htype⟩

end FieldTable

/-- The name and the type of a declared field. -/
def Declaration.typedName {R : Type} (decl : Declaration R) : TypedName :=
  { name := decl.name, type := decl.type }

theorem Declaration.type_access {R : Type} (slot : Nat) : ∀ decl : Declaration R,
    (decl.access slot).type = decl.type
  | .single .. => rfl
  | .many none .. => rfl
  | .many (some _) .. => rfl

/-- A table finds the fields for which it has entries. -/
theorem FieldTable.describes_fields (matching : KeyMatching) (fields : List FieldDecl) :
    ({ matching, entries := fields.map (entryOf matching) } : FieldTable).Describes matching
      (fields.map fun field => { name := field.name, type := field.access.type }) := by
  refine ⟨rfl, fun key => ?_⟩
  simp only [get?, findFolded, KeyMatching.typeOf?, List.find?_map, Option.map_map]
  rfl

/-- The table of a projection finds the declared fields. -/
theorem FieldTable.describes_ofProjection {R O : Type} {decls : List (Declaration R)}
    {output : R → O} {projection : Projection R O} {matching : KeyMatching} {table : FieldTable}
    (hprojection : ((Projection.draft output).declareAll decls).finish = .ok projection)
    (htable : ofProjection projection matching = .ok table) :
    table.Describes matching (decls.map Declaration.typedName) := by
  obtain ⟨rfl, -⟩ := ofProjection_eq hprojection htable
  have hfields := describes_fields matching
    (decls.zipIdx.map fun pair => { name := pair.1.name, access := pair.1.access pair.2 })
  have hscope : decls.zipIdx.map (Declaration.typedName ∘ Prod.fst)
      = decls.map Declaration.typedName := by
    rw [← List.map_map, List.zipIdx_map_fst]
  simp only [List.map_map, Function.comp_def, Declaration.type_access] at hfields
  rw [← hscope]
  exact hfields

/-! ## Levels -/

/-- The context in which a filter is compiled. -/
def LeafContext.atLevel (chain : HandlerChain) (levels : Nat) (table : FieldTable) : LeafContext :=
  { table
    handlerCount := chain.handlers.length
    compileElement :=
      match levels with
      | 0 => fun _ _ => .error .nestedTooDeep
      | levels + 1 => fun element body =>
          Filter.compileWithin chain levels (.ofElement element table.matching) body }

namespace Filter

theorem compileWithin_eq (chain : HandlerChain) (levels : Nat) (table : FieldTable) (f : Filter) :
    compileWithin chain levels table f = compileIn chain (.atLevel chain levels table) f := by
  cases levels <;> rfl

theorem depth_le_of_mem {f : Filter} {fs : List Filter} (h : f ∈ fs) :
    f.depth ≤ depthOfAll fs := by
  induction fs with
  | nil => cases h
  | cons g rest ih =>
      rw [depthOfAll]
      rcases List.mem_cons.mp h with rfl | hrest
      · omega
      · have := ih hrest
        omega

section Steps

variable {chain : HandlerChain} {levels : Nat} {table : FieldTable}

theorem compileAllIn_of_forall {fs : List Filter}
    (h : ∀ f ∈ fs, ∃ p, compileWithin chain levels table f = .ok p) :
    ∃ ps, compileAllIn chain (.atLevel chain levels table) fs = .ok ps := by
  induction fs with
  | nil => exact ⟨[], rfl⟩
  | cons f rest ih =>
      obtain ⟨p, hp⟩ := h f (List.mem_cons_self ..)
      obtain ⟨ps, hps⟩ := ih fun g hg => h g (List.mem_cons_of_mem _ hg)
      rw [compileWithin_eq] at hp
      exact ⟨p :: ps, by simp only [compileAllIn, hp, hps, Except.map]⟩

/-- A list fails with its first filter that does. -/
theorem compileAllIn_of_first {before after : List Filter} {f : Filter} {fault : QueryFault}
    (hbefore : ∀ g ∈ before, ∃ p, compileWithin chain levels table g = .ok p)
    (h : compileWithin chain levels table f = .error fault) :
    compileAllIn chain (.atLevel chain levels table) (before ++ f :: after) = .error fault := by
  rw [compileWithin_eq] at h
  induction before with
  | nil => simp only [List.nil_append, compileAllIn, h]
  | cons g rest ih =>
      obtain ⟨p, hp⟩ := hbefore g (List.mem_cons_self ..)
      have hrest := ih fun g hg => hbefore g (List.mem_cons_of_mem _ hg)
      rw [compileWithin_eq] at hp
      simp only [List.cons_append, compileAllIn, hp, hrest, Except.map]

theorem compileWithin_and {fs : List Filter} (h : fs ≠ []) :
    compileWithin chain levels table (.and fs)
      = (compileAllIn chain (.atLevel chain levels table) fs).map .and := by
  rw [compileWithin_eq]
  cases fs with
  | nil => exact absurd rfl h
  | cons f rest => simp only [compileIn]

theorem compileWithin_or {fs : List Filter} (h : fs ≠ []) :
    compileWithin chain levels table (.or fs)
      = (compileAllIn chain (.atLevel chain levels table) fs).map .or := by
  rw [compileWithin_eq]
  cases fs with
  | nil => exact absurd rfl h
  | cons f rest => simp only [compileIn]

theorem compileWithin_not (child : Filter) :
    compileWithin chain levels table (.not child)
      = (compileWithin chain levels table child).map .not := by
  rw [compileWithin_eq, compileWithin_eq, compileIn]

variable {key : String} {operator : Operator} {value : Value}

theorem compileWithin_leaf {field : FieldAccess} (h : table.lookup key = .ok field) :
    compileWithin chain levels table (.leaf key operator value)
      = (chain.condition (.atLevel chain levels table) key operator field value).map .check := by
  have hfield : (LeafContext.atLevel chain levels table).table.lookup key = .ok field := h
  rw [compileWithin_eq, compileIn, hfield]

theorem compileWithin_leaf_error {fault : QueryFault} (h : table.lookup key = .error fault) :
    compileWithin chain levels table (.leaf key operator value) = .error fault := by
  have hkey : (LeafContext.atLevel chain levels table).table.lookup key = .error fault := h
  rw [compileWithin_eq, compileIn, hkey]

end Steps

/-- The body of a quantifier on elements is compiled for the elements, with one
level less. -/
theorem compileWithin_body {levels : Nat} {table : FieldTable} {key : String} {operator : Operator}
    {quantifier : Quantifier} {field : FieldAccess} {element : DataType} {body : Filter}
    (hfield : table.lookup key = .ok field) (htype : field.type = .list element)
    (hquantifier : operator.quantifier? = some quantifier) :
    compileWithin .default (levels + 1) table (.leaf key operator (.filter body))
      = (compileWithin .default levels (.ofElement element table.matching) body).map
          fun p => .check (.quantified quantifier field.onDemand p) := by
  rw [compileWithin_leaf hfield, Handler.condition_quantifier hquantifier,
    FieldAccess.elementType?, htype]
  show Except.map _ (Except.map _ (compileWithin .default levels _ body)) = _
  cases compileWithin .default levels (.ofElement element table.matching) body <;> rfl

variable {matching : KeyMatching} {scope : List TypedName} {f : Filter}

/-- A well-typed filter compiles, if there are levels for its bodies. -/
theorem compileWithin_of_wellTyped (h : f.WellTyped matching scope) {levels : Nat}
    {table : FieldTable} (htable : table.Describes matching scope) (hlevels : f.depth ≤ levels) :
    ∃ p, compileWithin .default levels table f = .ok p := by
  induction h generalizing levels table with
  | and hsome _ ih =>
      obtain ⟨ps, hps⟩ := compileAllIn_of_forall fun f hf =>
        ih f hf htable (Nat.le_trans (depth_le_of_mem hf) hlevels)
      exact ⟨_, (compileWithin_and hsome).trans (Except.map_eq_ok.mpr ⟨ps, hps, rfl⟩)⟩
  | or hsome _ ih =>
      obtain ⟨ps, hps⟩ := compileAllIn_of_forall fun f hf =>
        ih f hf htable (Nat.le_trans (depth_le_of_mem hf) hlevels)
      exact ⟨_, (compileWithin_or hsome).trans (Except.map_eq_ok.mpr ⟨ps, hps, rfl⟩)⟩
  | not _ ih =>
      obtain ⟨p, hp⟩ := ih htable hlevels
      exact ⟨_, (compileWithin_not _).trans (Except.map_eq_ok.mpr ⟨p, hp, rfl⟩)⟩
  | leaf hkey hfits =>
      obtain ⟨field, hfield, rfl⟩ := htable.lookup_some hkey
      obtain ⟨condition, hcondition⟩ := Handler.condition_of_fits hfits
      exact ⟨_, (compileWithin_leaf hfield).trans
        (Except.map_eq_ok.mpr ⟨condition, hcondition, rfl⟩)⟩
  | @body _ key operator element body hkey hquantifier _ ih =>
      obtain ⟨field, hfield, htype⟩ := htable.lookup_some hkey
      obtain ⟨quantifier, hquantifier⟩ := Option.isSome_iff_exists.mp hquantifier
      cases levels with
      | zero => cases hlevels
      | succ levels =>
          obtain ⟨p, hp⟩ := ih (htable.ofElement element) (Nat.le_of_succ_le_succ hlevels)
          exact ⟨_, (compileWithin_body hfield htype hquantifier).trans
            (Except.map_eq_ok.mpr ⟨p, hp, rfl⟩)⟩

/-- What stands before a fault is well typed, and so compiles. -/
theorem compileWithin_before {before after : List Filter} {child : Filter}
    (hbefore : ∀ g ∈ before, g.WellTyped matching scope) {levels : Nat} {table : FieldTable}
    (htable : table.Describes matching scope)
    (hlevels : depthOfAll (before ++ child :: after) ≤ levels) :
    ∀ g ∈ before, ∃ p, compileWithin .default levels table g = .ok p :=
  fun g hg => compileWithin_of_wellTyped (hbefore g hg) htable
    (Nat.le_trans (depth_le_of_mem (List.mem_append_left _ hg)) hlevels)

/-- A filter with a first fault fails with it, if there are levels for its
bodies. -/
theorem compileWithin_of_firstFault {fault : QueryFault} (h : f.FirstFault matching scope fault)
    {levels : Nat} {table : FieldTable} (htable : table.Describes matching scope)
    (hlevels : f.depth ≤ levels) :
    compileWithin .default levels table f = .error fault := by
  induction h generalizing levels table with
  | emptyAnd => rw [compileWithin_eq, compileIn]
  | emptyOr => rw [compileWithin_eq, compileIn]
  | inAnd hbefore _ ih =>
      have hchild := ih htable (Nat.le_trans (depth_le_of_mem List.mem_append_cons_self) hlevels)
      exact (compileWithin_and (by simp)).trans (Except.map_eq_error.mpr
        (compileAllIn_of_first (compileWithin_before hbefore htable hlevels) hchild))
  | inOr hbefore _ ih =>
      have hchild := ih htable (Nat.le_trans (depth_le_of_mem List.mem_append_cons_self) hlevels)
      exact (compileWithin_or (by simp)).trans (Except.map_eq_error.mpr
        (compileAllIn_of_first (compileWithin_before hbefore htable hlevels) hchild))
  | inNot _ ih => exact (compileWithin_not _).trans (Except.map_eq_error.mpr (ih htable hlevels))
  | unknownKey hkey => exact compileWithin_leaf_error (htable.lookup_none hkey)
  | noHandler hkey hfits hbody =>
      obtain ⟨field, hfield, rfl⟩ := htable.lookup_some hkey
      exact (compileWithin_leaf hfield).trans
        (Except.map_eq_error.mpr (Handler.condition_of_not_fits hfits hbody))
  | @inBody _ key operator element body fault hkey hquantifier _ ih =>
      obtain ⟨field, hfield, htype⟩ := htable.lookup_some hkey
      obtain ⟨quantifier, hquantifier⟩ := Option.isSome_iff_exists.mp hquantifier
      cases levels with
      | zero => cases hlevels
      | succ levels =>
          exact (compileWithin_body hfield htype hquantifier).trans (Except.map_eq_error.mpr
            (ih (htable.ofElement element) (Nat.le_of_succ_le_succ hlevels)))

/-- The levels that compiling a filter allows are enough. -/
theorem compile_of_wellTyped (h : f.WellTyped matching scope) {table : FieldTable}
    (htable : table.Describes matching scope) : ∃ p, compile .default table f = .ok p :=
  compileWithin_of_wellTyped h htable (by omega)

theorem compile_of_firstFault {fault : QueryFault} (h : f.FirstFault matching scope fault)
    {table : FieldTable} (htable : table.Describes matching scope) :
    compile .default table f = .error fault :=
  compileWithin_of_firstFault h htable (by omega)

end Filter

/-! ## Orders -/

namespace OrderLink

variable {matching : KeyMatching} {scope : List TypedName} {table : FieldTable}

theorem resolveAll_of_forall (htable : table.Describes matching scope) {links : List OrderLink}
    (h : ∀ link ∈ links, (matching.typeOf? scope link.key).isSome = true) :
    ∃ resolved, resolveAll table links = .ok resolved :=
  exists_resolveAll fun link hlink => htable.get?_of_isSome (h link hlink)

/-- Links fail with the first key that is unknown. -/
theorem resolveAll_of_first (htable : table.Describes matching scope)
    {before : List OrderLink} {link : OrderLink}
    (hbefore : ∀ l ∈ before, (matching.typeOf? scope l.key).isSome = true)
    (hkey : matching.typeOf? scope link.key = none) (after : List OrderLink) :
    resolveAll table (before ++ link :: after) = .error (.unknownKey link.key) := by
  have hknown : ∀ l ∈ before, ∃ field, table.get? l.key = some field :=
    fun l hl => htable.get?_of_isSome (hbefore l hl)
  exact resolveAll_eq_error_iff.mpr
    ⟨before, link, after, rfl, hknown, htable.get?_of_none hkey, rfl⟩

end OrderLink

/-! ## Queries -/

section Optional

variable {α β : Type} {compile : α → Except QueryFault β} {part : Option α}

theorem compileOptional_of_forall (h : ∀ a, part = some a → ∃ b, compile a = .ok b) :
    ∃ compiled, compileOptional compile part = .ok compiled := by
  cases part with
  | none => exact ⟨none, rfl⟩
  | some a =>
      obtain ⟨b, hb⟩ := h a rfl
      exact ⟨some b, Except.map_eq_ok.mpr ⟨b, hb, rfl⟩⟩

theorem compileOptional_of_error {a : α} {fault : QueryFault} (hpart : part = some a)
    (h : compile a = .error fault) : compileOptional compile part = .error fault := by
  subst hpart
  exact Except.map_eq_error.mpr h

end Optional

namespace Query

variable {R O : Type} {matching : KeyMatching} {scope : List TypedName} {table : FieldTable}
  {query : Query}

theorem prepare_of_wellTyped (h : query.WellTyped matching scope)
    (htable : table.Describes matching scope) (projection : Projection R O) :
    ∃ prepared, query.prepare projection table .default = .ok prepared := by
  obtain ⟨predicate, hpredicate⟩ := compileOptional_of_forall fun f hf =>
    Filter.compile_of_wellTyped (h.filter f hf) htable
  have horder : ∀ o, query.order = some o → ∃ resolved, o.resolve table = .ok resolved := by
    intro o ho
    obtain ⟨links, hlinks⟩ := OrderLink.resolveAll_of_forall htable (h.order o ho)
    rw [← o.resolve_eq table] at hlinks
    obtain ⟨resolved, hresolved, -⟩ := Except.map_eq_ok.mp hlinks
    exact ⟨resolved, hresolved⟩
  obtain ⟨order, horder⟩ := compileOptional_of_forall horder
  exact ⟨_, Except.bind_eq_ok.mpr ⟨predicate, hpredicate,
    Except.bind_eq_ok.mpr ⟨order, horder, rfl⟩⟩⟩

theorem prepare_of_firstFault {fault : QueryFault} (h : query.FirstFault matching scope fault)
    (htable : table.Describes matching scope) (projection : Projection R O) :
    query.prepare projection table .default = .error fault := by
  cases h with
  | inFilter hfilter hfault =>
      exact Except.bind_eq_error.mpr (.inl (compileOptional_of_error hfilter
        (Filter.compile_of_firstFault hfault htable)))
  | @inOrder order before after link hfilter horder hlinks hbefore hkey =>
      obtain ⟨predicate, hpredicate⟩ := compileOptional_of_forall fun f hf =>
        Filter.compile_of_wellTyped (hfilter f hf) htable
      have hresolve : order.resolve table = .error (.unknownKey link.key) := by
        have hall := OrderLink.resolveAll_of_first htable hbefore hkey after
        rw [← hlinks, ← order.resolve_eq table] at hall
        exact Except.map_eq_error.mp hall
      exact Except.bind_eq_error.mpr (.inr ⟨predicate, hpredicate,
        Except.bind_eq_error.mpr (.inl (compileOptional_of_error horder hresolve))⟩)

/-- The built-in handlers accept a query if and only if it is well typed for the
declared fields, and they refuse any other query for its first fault. The table
may come from another projection than the one that the query is prepared for. -/
theorem prepare_default {R' O' : Type} {decls : List (Declaration R)} {output : R → O}
    {projection : Projection R O} {matching : KeyMatching} {table : FieldTable}
    (hprojection : ((Projection.draft output).declareAll decls).finish = .ok projection)
    (htable : FieldTable.ofProjection projection matching = .ok table)
    (target : Projection R' O') (query : Query) :
    ((∃ prepared, query.prepare target table .default = .ok prepared)
        ↔ query.WellTyped matching (decls.map Declaration.typedName))
      ∧ ∀ fault, query.prepare target table .default = .error fault
        ↔ query.FirstFault matching (decls.map Declaration.typedName) fault := by
  have hscope := FieldTable.describes_ofProjection hprojection htable
  refine ⟨⟨?_, fun h => prepare_of_wellTyped h hscope target⟩, fun fault =>
    ⟨?_, fun h => prepare_of_firstFault h hscope target⟩⟩
  · rintro ⟨prepared, hprepared⟩
    rcases query.wellTyped_or_firstFault matching (decls.map Declaration.typedName) with
      hwell | ⟨fault, hfault⟩
    · exact hwell
    · rw [prepare_of_firstFault hfault hscope target] at hprepared
      cases hprepared
  · intro hfault
    rcases query.wellTyped_or_firstFault matching (decls.map Declaration.typedName) with
      hwell | ⟨first, hfirst⟩
    · obtain ⟨prepared, hprepared⟩ := prepare_of_wellTyped hwell hscope target
      rw [hprepared] at hfault
      cases hfault
    · rw [prepare_of_firstFault hfirst hscope target] at hfault
      cases hfault
      exact hfirst

/-- Rows with a height and tags. -/
def taggedHeights : List (Declaration (Int64 × List String)) :=
  [.single inferInstance "height" (·.1), .many none inferInstance "tags" (·.2)]

/-- Asks for a tag with a given first letter, the highest rows first. -/
def highestTagged : Query :=
  { filter := some (.leaf "TAGS" .any (.filter (.not (.leaf "value" .like (.text "a%")))))
    order := some (.single "Height" .desc)
    page := none }

/-- Asks for a tag that contains something, which no text does. -/
def tagWithin : Query :=
  { filter := some (.or [.leaf "height" .eq .null,
      .leaf "tags" .all (.filter (.leaf "value" .contains (.text "a")))])
    order := some (.single "weight" .asc)
    page := none }

theorem prepare_default_taggedHeights : ∃ projection table,
    ((Projection.draft Prod.fst).declareAll taggedHeights).finish = .ok projection
      ∧ FieldTable.ofProjection projection .ignoreCase = .ok table
      ∧ (∃ prepared, highestTagged.prepare projection table .default = .ok prepared)
      ∧ tagWithin.prepare projection table .default
          = .error (.noHandler "value" .contains .text) := by
  have hok : ∃ projection table,
      ((Projection.draft Prod.fst).declareAll taggedHeights).finish = .ok projection
        ∧ FieldTable.ofProjection projection .ignoreCase = .ok table := ⟨_, _, rfl, rfl⟩
  obtain ⟨projection, table, hprojection, htable⟩ := hok
  refine ⟨projection, table, hprojection, htable,
    (prepare_default hprojection htable projection highestTagged).1.mpr ⟨?_, ?_⟩,
    ((prepare_default hprojection htable projection tagWithin).2 _).mpr (.inFilter rfl
      (@Filter.FirstFault.inOr _ _ [_] [] _ _ ?_ (.inBody rfl rfl (.noHandler rfl ?_ ?_))))⟩
  · rintro f ⟨⟩
    exact .body rfl rfl (.not (.leaf rfl .like))
  · rintro order ⟨⟩ link hlink
    rw [List.mem_singleton.mp hlink]
    rfl
  · intro f hf
    rw [List.mem_singleton.mp hf]
    exact .leaf rfl (.null (.inl rfl))
  · rintro (_ | _)
    all_goals contradiction
  · exact fun element body htype => nomatch htype

end Query

end RowQuery
