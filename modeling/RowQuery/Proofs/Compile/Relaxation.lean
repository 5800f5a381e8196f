import RowQuery.Proofs.Compile.Derivation
import RowQuery.Proofs.Compile.Links
import RowQuery.Proofs.Schema.Alignment
import RowQuery.Search.PreparedQuery

/-!
# Relaxed matching of keys

A table relaxes another one if it finds whatever that one finds, and folds alike
whatever that one does (`FieldTable.Relaxes`). Then so do the tables inside their
quantifiers, and by induction on the rules of the compiler whatever compiles with
a table compiles to the same with a table that relaxes it
(`Filter.Compiled.relax`).

A table that ignores case relaxes the one that matches exactly, for the same
projection. So a query that was prepared with the latter keeps its meaning under
the former (`Query.prepare_relaxed`).
-/

namespace RowQuery

variable {R O : Type}

/-! ## Tables -/

/-- A table that finds whatever another one finds, and more, perhaps. -/
structure FieldTable.Relaxes (relaxed table : FieldTable) : Prop where
  finds : ∀ ⦃key field⦄, table.lookup key = .ok field → relaxed.lookup key = .ok field
  folds : ∀ ⦃key other⦄, table.matching.fold key = table.matching.fold other →
    relaxed.matching.fold key = relaxed.matching.fold other

namespace FieldTable

/-- Inside a quantifier a table finds the element under all keys that fold as the
key of the element does. -/
theorem lookup_ofElement_eq_ok_iff {element : DataType} {matching : KeyMatching} {key : String}
    {field : FieldAccess} :
    (ofElement element matching).lookup key = .ok field
      ↔ matching.fold elementKey = matching.fold key ∧ field = .element element := by
  rw [lookup_eq_ok_iff, get?, findFolded, ofElement, List.find?_singleton]
  by_cases hkey : matching.fold elementKey = matching.fold key
  · simp [hkey, eq_comm]
  · simp [hkey]

/-- The matching of a table is that of the tables inside its quantifiers. -/
theorem Relaxes.ofElement {relaxed table : FieldTable} (h : relaxed.Relaxes table)
    (element : DataType) :
    (FieldTable.ofElement element relaxed.matching).Relaxes
      (FieldTable.ofElement element table.matching) := by
  refine ⟨fun key field hfield => ?_, h.folds⟩
  obtain ⟨hkey, hfield⟩ := lookup_ofElement_eq_ok_iff.mp hfield
  exact lookup_ofElement_eq_ok_iff.mpr ⟨h.folds hkey, hfield⟩

/-- Of two tables for a projection the one with the coarser matching relaxes the
other. -/
theorem relaxes_ofProjection {projection : Projection R O} {matching coarser : KeyMatching}
    {table relaxed : FieldTable} (htable : ofProjection projection matching = .ok table)
    (hrelaxed : ofProjection projection coarser = .ok relaxed)
    (hfolds : ∀ {key other}, matching.fold key = matching.fold other →
      coarser.fold key = coarser.fold other) :
    relaxed.Relaxes table := by
  constructor
  · intro key field h
    rw [lookup_eq_ok_iff, get?_ofProjection htable] at h
    obtain ⟨decl, hdecl, rfl⟩ := Option.map_eq_some_iff.mp h
    have hmatch := List.find?_some hdecl
    have hkey : matching.fold decl.name = matching.fold key := beq_iff_eq.mp hmatch
    obtain ⟨i, hi⟩ := List.mem_iff_getElem?.mp (List.mem_of_find?_eq_some hdecl)
    exact (lookup_of_getElem? hrelaxed hi (hfolds hkey)).1
  · rw [ofProjection_eq_entries htable, ofProjection_eq_entries hrelaxed]
    exact fun _ _ => hfolds

end FieldTable

/-! ## Filters and orders -/

/-- What compiles with a table compiles to the same with a table that relaxes it. -/
theorem Filter.Compiled.relax {table relaxed : FieldTable} {f : Filter} {p : Predicate}
    (h : Filter.Compiled table f p) (hrelaxed : relaxed.Relaxes table) :
    Filter.Compiled relaxed f p := by
  induction h generalizing relaxed with
  | and hsome hlength _ ih => exact .and hsome hlength fun i hf hp => ih i hf hp hrelaxed
  | or hsome hlength _ ih => exact .or hsome hlength fun i hf hp => ih i hf hp hrelaxed
  | not _ ih => exact .not (ih hrelaxed)
  | leaf hfield hcondition => exact .leaf (hrelaxed.finds hfield) hcondition
  | body hfield hquantifier helement _ ih =>
      exact .body (hrelaxed.finds hfield) hquantifier helement (ih (hrelaxed.ofElement _))

section Relaxed

variable {table relaxed : FieldTable} (hrelaxed : relaxed.Relaxes table)

include hrelaxed

theorem Filter.compile_relax {f : Filter} {p : Predicate}
    (h : Filter.compile .default table f = .ok p) : Filter.compile .default relaxed f = .ok p :=
  compile_eq_ok_iff.mpr ((compile_eq_ok_iff.mp h).relax hrelaxed)

theorem OrderLink.resolve_relax {link : OrderLink} {resolved : ResolvedLink}
    (h : link.resolve table = .ok resolved) : link.resolve relaxed = .ok resolved := by
  obtain ⟨field, hfield, hresolved⟩ := Except.map_eq_ok.mp h
  exact Except.map_eq_ok.mpr ⟨field, hrelaxed.finds hfield, hresolved⟩

theorem Order.resolve_relax {order : Order} {resolved : ResolvedOrder}
    (h : order.resolve table = .ok resolved) : order.resolve relaxed = .ok resolved :=
  resolve_eq_ok_iff.mpr
    ((resolve_eq_ok_iff.mp h).imp fun _ _ hlink => OrderLink.resolve_relax hrelaxed hlink)

end Relaxed

/-! ## Queries -/

/-- What can be made of a part of a query in one way can be in another, if all
that can be made in the one way can be in the other. -/
theorem compileOptional_mono {α β : Type} {compile other : α → Except QueryFault β}
    (h : ∀ {a b}, compile a = .ok b → other a = .ok b) {part : Option α} {compiled : Option β}
    (hcompiled : compileOptional compile part = .ok compiled) :
    compileOptional other part = .ok compiled := by
  cases part with
  | none => exact hcompiled
  | some a =>
      obtain ⟨b, hb, rfl⟩ := Except.map_eq_ok.mp hcompiled
      exact Except.map_eq_ok.mpr ⟨b, h hb, rfl⟩

/-- A query is prepared with the same predicate and the same order under a table
that relaxes its own. -/
theorem Query.prepare_of_relaxes {projection : Projection R O} {table relaxed : FieldTable}
    (hrelaxed : relaxed.Relaxes table) {query : Query} {prepared : PreparedQuery R O}
    (h : query.prepare projection table .default = .ok prepared) :
    query.prepare projection relaxed .default = .ok { prepared with table := relaxed } := by
  obtain ⟨predicate, hpredicate, horder⟩ := Except.bind_eq_ok.mp h
  obtain ⟨order, hresolve, hprepared⟩ := Except.bind_eq_ok.mp horder
  obtain rfl := Except.ok.inj hprepared
  have hsamePredicate := compileOptional_mono (Filter.compile_relax hrelaxed) hpredicate
  have hsameOrder := compileOptional_mono (Order.resolve_relax hrelaxed) hresolve
  exact Except.bind_eq_ok.mpr ⟨predicate, hsamePredicate,
    Except.bind_eq_ok.mpr ⟨order, hsameOrder, rfl⟩⟩

/-- Where no two names of a projection are the same but for case, keys can be
matched ignoring case. A query that was prepared under exact matching then has
the same predicate and the same order, and every search with it, from whatever
plan and source, is the same. -/
theorem Query.prepare_relaxed {projection : Projection R O}
    (hnames : (projection.fields.map fun field => KeyMatching.ignoreCase.fold field.name).Nodup) :
    ∃ table relaxed, FieldTable.ofProjection projection .exact = .ok table
      ∧ FieldTable.ofProjection projection .ignoreCase = .ok relaxed
      ∧ ∀ (query : Query) prepared, query.prepare projection table .default = .ok prepared →
        ∃ other, query.prepare projection relaxed .default = .ok other
          ∧ other.predicate = prepared.predicate ∧ other.order = prepared.order
          ∧ ∀ (ε : Type) (source : Source R ε) base,
            other.searchFrom source base = prepared.searchFrom source base := by
  have hexact : (projection.fields.map (·.name)).Nodup := by
    refine List.Nodup.of_map KeyMatching.ignoreCase.fold ?_
    rwa [List.map_map]
  obtain ⟨table, htable⟩ := (FieldTable.exists_ofProjection_iff projection .exact).mpr hexact
  obtain ⟨relaxed, hrelaxed⟩ :=
    (FieldTable.exists_ofProjection_iff projection .ignoreCase).mpr hnames
  have hrelaxes : relaxed.Relaxes table :=
    FieldTable.relaxes_ofProjection htable hrelaxed fun hkey => congrArg lowercase hkey
  exact ⟨table, relaxed, htable, hrelaxed, fun query prepared hprepared =>
    ⟨{ prepared with table := relaxed }, prepare_of_relaxes hrelaxes hprepared, rfl, rfl,
      fun _ _ _ => rfl⟩⟩

/-- Labelled rows with a weight. -/
def labelledWeights : Projection (Int64 × List String) Int64 where
  output := (·.1)
  fields :=
    [⟨"Weight", .member "Weight" 0 .int⟩, ⟨"labels", .snapshot .list (.sequence "labels" 1 .text)⟩]
  layout := { columns := [.single fun row => .int row.1, .many fun row => row.2.map .text] }

/-- Asks for rows with a label other than a given one, the heaviest first. -/
def heaviestLabelled : Query :=
  { filter := some (.leaf "labels" .any (.filter (.leaf "value" .ne (.text "a"))))
    order := some (.single "Weight" .desc)
    page := none }

theorem Query.prepare_relaxed_heaviestLabelled : ∃ table relaxed prepared other,
    FieldTable.ofProjection labelledWeights .exact = .ok table
      ∧ FieldTable.ofProjection labelledWeights .ignoreCase = .ok relaxed
      ∧ heaviestLabelled.prepare labelledWeights table .default = .ok prepared
      ∧ heaviestLabelled.prepare labelledWeights relaxed .default = .ok other
      ∧ other.predicate = prepared.predicate ∧ other.order = prepared.order
      ∧ other.search (Source.ofRows Empty [(1, ["b"]), (2, ["a"]), (3, ["a", "c"])])
        = prepared.search (Source.ofRows Empty [(1, ["b"]), (2, ["a"]), (3, ["a", "c"])]) := by
  have hnames : (labelledWeights.fields.map fun field =>
      KeyMatching.ignoreCase.fold field.name).Nodup := by decide +kernel
  obtain ⟨table, relaxed, htable, hrelaxed, hsame⟩ := prepare_relaxed hnames
  have hok : ∃ exact prepared, FieldTable.ofProjection labelledWeights .exact = .ok exact
      ∧ heaviestLabelled.prepare labelledWeights exact .default = .ok prepared :=
    ⟨_, _, rfl, rfl⟩
  obtain ⟨exact, prepared, hexact, hprepared⟩ := hok
  obtain rfl := Except.ok.inj (hexact.symm.trans htable)
  obtain ⟨other, hother, hpredicate, horder, hsearch⟩ := hsame _ prepared hprepared
  exact ⟨exact, relaxed, prepared, other, htable, hrelaxed, hprepared, hother, hpredicate, horder,
    hsearch ..⟩

end RowQuery
