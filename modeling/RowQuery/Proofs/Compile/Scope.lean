import RowQuery.Proofs.Compile.Derivation
import RowQuery.Proofs.Predicate.Scope

/-!
# Compiled queries are well scoped

A table offers the fields that it finds, and what is compiled with it reads
nothing else: by induction on the rules of the compiler every predicate is
scoped in what the table offers, where the table of a body offers the element
alone (`Filter.Compiled.scoped`). The table of a projection offers fields that
are in place in its rows, so neither a compiled filter nor the links of a
resolved order ever read a slot that is missing or has a column of the other
form, or an element where there is none (`FieldTable.scoped_ofProjection`).
-/

namespace RowQuery

variable {R O : Type}

/-! ## What tables offer -/

/-- Whatever a table finds is in scope, as it is and on demand. -/
def FieldTable.Offers (table : FieldTable) (inScope : FieldAccess → Prop) : Prop :=
  ∀ ⦃key field⦄, table.lookup key = .ok field → inScope field ∧ inScope field.onDemand

/-- With its column in the slot, a declared field is in place. -/
theorem Declaration.inRow_access {layout : RowLayout R} {slot : Nat} : ∀ {decl : Declaration R},
    layout.columns[slot]? = some decl.column →
      (decl.access slot).InRow layout ∧ (decl.access slot).onDemand.InRow layout
  | .single .., hcolumn => by
      obtain ⟨hslot, hcolumn⟩ := List.getElem?_eq_some_iff.mp hcolumn
      exact ⟨.member hslot hcolumn, .member hslot hcolumn⟩
  | .many none .., hcolumn => by
      obtain ⟨hslot, hcolumn⟩ := List.getElem?_eq_some_iff.mp hcolumn
      exact ⟨.sequence hslot hcolumn, .sequence hslot hcolumn⟩
  | .many (some _) .., hcolumn => by
      obtain ⟨hslot, hcolumn⟩ := List.getElem?_eq_some_iff.mp hcolumn
      exact ⟨.snapshot hslot hcolumn, .sequence hslot hcolumn⟩

namespace FieldTable

theorem offers_ofElement (element : DataType) (matching : KeyMatching) :
    (ofElement element matching).Offers (· = .element element) := by
  intro key field h
  obtain ⟨entry, hentry, rfl⟩ := Option.map_eq_some_iff.mp (lookup_eq_ok_iff.mp h)
  obtain rfl := List.mem_singleton.mp (List.mem_of_find?_eq_some hentry)
  exact ⟨rfl, rfl⟩

theorem offers_ofProjection {decls : List (Declaration R)} {output : R → O}
    {projection : Projection R O} {matching : KeyMatching} {table : FieldTable}
    (hprojection : ((Projection.draft output).declareAll decls).finish = .ok projection)
    (htable : ofProjection projection matching = .ok table) :
    table.Offers (FieldAccess.InRow projection.layout) := by
  intro key field h
  obtain ⟨decl, slot, -, hcolumn, rfl⟩ :=
    exists_declaration_of_get? hprojection htable (lookup_eq_ok_iff.mp h)
  exact decl.inRow_access hcolumn

end FieldTable

/-! ## What is compiled -/

/-- What is compiled with a table is scoped in what the table offers. -/
theorem Filter.Compiled.scoped {table : FieldTable} {f : Filter} {p : Predicate}
    (h : Filter.Compiled table f p) {inScope : FieldAccess → Prop} (htable : table.Offers inScope) :
    p.Scoped inScope := by
  induction h generalizing inScope with
  | and _ hlength _ ih =>
      refine .and fun child hchild => ?_
      obtain ⟨⟨i, hi⟩, rfl⟩ := List.mem_iff_get.mp hchild
      exact ih i (hlength ▸ hi) hi htable
  | or _ hlength _ ih =>
      refine .or fun child hchild => ?_
      obtain ⟨⟨i, hi⟩, rfl⟩ := List.mem_iff_get.mp hchild
      exact ih i (hlength ▸ hi) hi htable
  | not _ ih => exact .not (ih htable)
  | leaf hfield hcondition =>
      obtain ⟨hreads, hplain⟩ := (Handler.answer_of_condition (hcondition .bodiless)).of_bodiless
      obtain ⟨hwhole, hdemand⟩ := htable hfield
      refine .test ?_ hplain
      rcases hreads with heq | heq
      · rw [heq]
        exact hwhole
      · rw [heq]
        exact hdemand
  | body hfield _ helement _ ih =>
      refine .quantified (htable hfield).2 ?_ (ih (FieldTable.offers_ofElement ..))
      rw [FieldAccess.elementType?_onDemand, helement]

/-- A resolved link reads what the table finds under its key. -/
theorem Order.lookup_of_resolve {table : FieldTable} {order : Order} {resolved : ResolvedOrder}
    (h : order.resolve table = .ok resolved) {link : ResolvedLink} (hlink : link ∈ resolved.links) :
    table.lookup link.key = .ok link.field := by
  obtain ⟨hlength, hall⟩ := List.forall₂_iff_get.mp (Order.resolve_eq_ok_iff.mp h)
  obtain ⟨⟨i, hi⟩, rfl⟩ := List.mem_iff_get.mp hlink
  obtain ⟨field, hfield, heq⟩ := Except.map_eq_ok.mp (hall i (hlength ▸ hi) hi)
  rw [← heq]
  exact hfield

/-- A filter that compiles with the table of a projection reads fields that are
in place, and an order that resolves does too. So their evaluation in a row
comes to the same if it has nothing to fall back on. -/
theorem FieldTable.scoped_ofProjection {decls : List (Declaration R)} {output : R → O}
    {projection : Projection R O} {matching : KeyMatching} {table : FieldTable}
    (hprojection : ((Projection.draft output).declareAll decls).finish = .ok projection)
    (htable : ofProjection projection matching = .ok table) :
    (∀ f p, Filter.compile .default table f = .ok p →
        p.Scoped (FieldAccess.InRow projection.layout)
          ∧ ∀ row, p.evaluate? (projection.layout.strictView row)
            = some (p.evaluate (projection.layout.view row)))
      ∧ ∀ order resolved, Order.resolve table order = .ok resolved → ∀ link ∈ resolved.links,
        link.field.InRow projection.layout
          ∧ ∀ row, link.field.read? (projection.layout.strictView row)
            = some (link.sortKey (projection.layout.view row)) := by
  have hoffers := offers_ofProjection hprojection htable
  refine ⟨fun f p hcompile => ?_, fun order resolved hresolve link hlink => ?_⟩
  · have hscoped := (Filter.compile_eq_ok_iff.mp hcompile).scoped hoffers
    exact ⟨hscoped, fun row => hscoped.evaluate?_eq fun _ hfield => hfield.readsAlike row⟩
  · have hfield := (hoffers (Order.lookup_of_resolve hresolve hlink)).1
    exact ⟨hfield, fun row => (hfield.readsAlike row).read⟩

/-- Rows with a weight and lists of words, of which there are snapshots. -/
def weighedWords : List (Declaration (Decimal × List (List String))) :=
  [.single inferInstance "weight" (·.1), .many (some .array) inferInstance "words" (·.2)]

/-- Asks for a list of words in which each has a given first letter. -/
def alliterating : Filter :=
  .leaf "words" .any (.filter (.leaf "value" .all (.filter (.leaf "value" .like (.text "a%")))))

theorem FieldTable.scoped_ofProjection_weighedWords : ∃ projection table p resolved,
    ((Projection.draft Prod.fst).declareAll weighedWords).finish = .ok projection
      ∧ FieldTable.ofProjection projection .exact = .ok table
      ∧ Filter.compile .default table alliterating = .ok p
      ∧ (Order.single "weight" .desc).resolve table = .ok resolved
      ∧ p.Scoped (FieldAccess.InRow projection.layout)
      ∧ resolved.primary.field.InRow projection.layout
      ∧ ∀ row, p.evaluate? (projection.layout.strictView row)
        = some (p.evaluate (projection.layout.view row)) := by
  have hok : ∃ projection table p resolved,
      ((Projection.draft Prod.fst).declareAll weighedWords).finish = .ok projection
        ∧ FieldTable.ofProjection projection .exact = .ok table
        ∧ Filter.compile .default table alliterating = .ok p
        ∧ (Order.single "weight" .desc).resolve table = .ok resolved :=
    ⟨_, _, _, _, rfl, rfl, rfl, rfl⟩
  obtain ⟨projection, table, p, resolved, hprojection, htable, hcompile, hresolve⟩ := hok
  obtain ⟨hfilters, horders⟩ := scoped_ofProjection hprojection htable
  obtain ⟨hscoped, hstrict⟩ := hfilters _ p hcompile
  exact ⟨projection, table, p, resolved, hprojection, htable, hcompile, hresolve, hscoped,
    (horders _ resolved hresolve _ (List.mem_cons_self ..)).1, hstrict⟩

end RowQuery
