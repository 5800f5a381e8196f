import RowQuery.Proofs.Compile.Links
import RowQuery.Search.PreparedQuery

/-!
# One order behind another

To append an order to another one is to sort by the first and to refine by the
second (`Order.resolve_prepare_append`). The links of the two stand one behind
the other, so they resolve if both orders do, and fail with the first key that
is unknown. Of the links of the second order none is the first any more, and
refining a plan takes all of them.
-/

namespace RowQuery

/-! ## Links -/

namespace Order

theorem first_append (a b : Order) : (a.append b).first = a.first := by
  cases a <;> rfl

theorem later_append (a b : Order) : (a.append b).later = a.later ++ b.links := by
  induction a with
  | last link => rfl
  | next link tail ih =>
      show (tail.append b).first :: (tail.append b).later = tail.first :: tail.later ++ b.links
      rw [first_append, ih, List.cons_append]

theorem links_append (a b : Order) : (a.append b).links = a.links ++ b.links := by
  rw [links, first_append, later_append, ← List.cons_append]
  rfl

end Order

/-! ## Resolving an appended order -/

/-- The links of a resolved order behind those of another. -/
def ResolvedOrder.append (a b : ResolvedOrder) : ResolvedOrder :=
  { a with later := a.later ++ b.links }

namespace Order

theorem resolve_append (table : FieldTable) (a b : Order) :
    (a.append b).resolve table = (do
      let resolved ← a.resolve table
      let others ← b.resolve table
      return resolved.append others) := by
  rw [resolve, first_append, later_append, OrderLink.resolveAll_append, ← resolve_eq table b]
  generalize b.resolve table = others
  rw [resolve]
  cases a.first.resolve table with
  | error fault => rfl
  | ok primary =>
      cases OrderLink.resolveAll table a.later with
      | error fault => rfl
      | ok later => cases others <;> rfl

/-- An appended order fails if and only if one of the two orders does. -/
theorem exists_resolve_append_eq_error {table : FieldTable} {a b : Order} :
    (∃ fault, (a.append b).resolve table = .error fault)
      ↔ (∃ fault, a.resolve table = .error fault) ∨ ∃ fault, b.resolve table = .error fault := by
  rw [resolve_append]
  cases a.resolve table with
  | error fault => simp [bind, Except.bind]
  | ok resolved =>
      cases b.resolve table with
      | error fault => simp [bind, Except.bind]
      | ok others => simp [bind, Except.bind, pure, Except.pure]

end Order

/-! ## Refining plans -/

namespace PreparedQuery

variable {R O : Type}

theorem refine_append (prepared : PreparedQuery R O) (sorted : SortedPlan R)
    (links others : List ResolvedLink) :
    prepared.refine sorted (links ++ others)
      = prepared.refine (prepared.refine sorted links) others :=
  List.foldl_append

/-- Of a prepared query only the projection matters for refining. -/
theorem refine_congr {prepared other : PreparedQuery R O}
    (h : prepared.projection = other.projection) : prepared.refine = other.refine := by
  have hsortBy : prepared.sortBy = other.sortBy := by
    funext link
    rw [sortBy, sortBy, h]
  funext sorted links
  rw [refine, refine, hsortBy]

/-- To sort by an appended order is to sort by the first and to refine by the
second. -/
theorem orderBy_append {first second whole : PreparedQuery R O} {a b : ResolvedOrder}
    (hfirst : first.order = some a) (hsecond : second.order = some b)
    (hwhole : whole.order = some (a.append b)) (hprojection : first.projection = whole.projection)
    (hprojection' : second.projection = whole.projection) (base : RowPlan R) :
    ∃ sorted combined, first.orderBy base = .ok sorted ∧ second.thenBy sorted = .ok combined
      ∧ whole.orderBy base = .ok combined := by
  have hbegin : base.orderBy (first.sortBy a.primary) = base.orderBy (whole.sortBy a.primary) := by
    rw [sortBy, sortBy, hprojection]
  refine ⟨first.sortPlan a base, second.refine (first.sortPlan a base) b.links, ?_, ?_, ?_⟩
  · rw [orderBy, requireOrder, hfirst]
    rfl
  · rw [thenBy, requireOrder, hsecond]
    rfl
  · have hplan : whole.sortPlan (a.append b) base
        = second.refine (first.sortPlan a base) b.links := by
      rw [sortPlan, sortPlan, hbegin, refine_congr hprojection, refine_congr hprojection']
      exact whole.refine_append _ a.later b.links
    rw [orderBy, requireOrder, hwhole, ← hplan]
    rfl

end PreparedQuery

namespace Query

variable {R O : Type} {projection : Projection R O} {table : FieldTable} {handlers : HandlerChain}
  {query : Query} {order : Order} {prepared : PreparedQuery R O}

theorem order_of_prepare
    (h : { query with order := some order }.prepare projection table handlers = .ok prepared) :
    ∃ resolved, order.resolve table = .ok resolved ∧ prepared.order = some resolved
      ∧ prepared.projection = projection := by
  obtain ⟨predicate, -, horder⟩ := Except.bind_eq_ok.mp h
  obtain ⟨_, hresolve, hprepared⟩ := Except.bind_eq_ok.mp horder
  obtain ⟨resolved, hresolved, rfl⟩ := Except.map_eq_ok.mp hresolve
  obtain rfl := Except.ok.inj hprepared
  exact ⟨resolved, hresolved, rfl, rfl⟩

/-- A query that can be prepared can be prepared with any other order that
resolves. -/
theorem exists_prepare_order
    (h : { query with order := some order }.prepare projection table handlers = .ok prepared)
    {other : Order} {resolved : ResolvedOrder} (hother : other.resolve table = .ok resolved) :
    ∃ whole, { query with order := some other }.prepare projection table handlers = .ok whole := by
  obtain ⟨predicate, hpredicate, -⟩ := Except.bind_eq_ok.mp h
  exact ⟨_, Except.bind_eq_ok.mpr ⟨predicate, hpredicate,
    Except.bind_eq_ok.mpr ⟨some resolved, Except.map_eq_ok.mpr ⟨resolved, hother, rfl⟩, rfl⟩⟩⟩

end Query

/-- The links of an appended order are those of the two orders. It fails if one
of them does, with the first fault of these links. Where queries with the two
orders can be prepared, one with the appended order can be, and it sorts by the
plan that the first query sorts by and the second one refines. -/
theorem Order.resolve_prepare_append {R O : Type} (a b : Order) (table : FieldTable) :
    (a.append b).links = a.links ++ b.links
      ∧ ((∃ fault, (a.append b).resolve table = .error fault)
          ↔ (∃ fault, a.resolve table = .error fault) ∨ ∃ fault, b.resolve table = .error fault)
      ∧ (∀ fault, (a.append b).resolve table = .error fault
          ↔ OrderLink.FirstFault table (a.links ++ b.links) fault)
      ∧ ∀ (projection : Projection R O) (handlers otherHandlers : HandlerChain)
          (query other : Query) (first second : PreparedQuery R O),
          { query with order := some a }.prepare projection table handlers = .ok first →
          { other with order := some b }.prepare projection table otherHandlers = .ok second →
          ∃ whole, { query with order := some (a.append b) }.prepare projection table handlers
              = .ok whole
            ∧ ∀ base, ∃ sorted refined combined, first.orderBy base = .ok sorted
                ∧ second.thenBy sorted = .ok refined ∧ whole.orderBy base = .ok combined
                ∧ combined.plan.steps = refined.plan.steps
                ∧ ∀ rows, combined.plan.yield rows = refined.plan.yield rows := by
  refine ⟨links_append a b, exists_resolve_append_eq_error, ?_, ?_⟩
  · intro fault
    rw [resolve_eq_error_iff, links_append]
  · intro projection handlers otherHandlers query other first second hfirst hsecond
    obtain ⟨resolved, hresolved, hfirstOrder, hfirstProjection⟩ := Query.order_of_prepare hfirst
    obtain ⟨others, hothers, hsecondOrder, hsecondProjection⟩ := Query.order_of_prepare hsecond
    have happend : (a.append b).resolve table = .ok (resolved.append others) := by
      rw [resolve_append, hresolved, hothers]
      rfl
    obtain ⟨whole, hwhole⟩ := Query.exists_prepare_order hfirst happend
    obtain ⟨both, hboth, hwholeOrder, hwholeProjection⟩ := Query.order_of_prepare hwhole
    obtain rfl := Except.ok.inj (happend.symm.trans hboth)
    refine ⟨whole, hwhole, ?_⟩
    intro base
    obtain ⟨sorted, combined, hsorted, hrefined, hcombined⟩ :=
      PreparedQuery.orderBy_append hfirstOrder hsecondOrder hwholeOrder
        (hfirstProjection.trans hwholeProjection.symm)
        (hsecondProjection.trans hwholeProjection.symm) base
    exact ⟨sorted, combined, combined, hsorted, hrefined, hcombined, rfl, fun _ => rfl⟩

/-- Pairs of a height and a weight. -/
def bodySizes : Projection (Int64 × Int64) (Int64 × Int64) where
  output := id
  fields :=
    [{ name := "height", access := .member "height" 0 .int },
      { name := "weight", access := .member "weight" 1 .int }]
  layout := { columns := [.single fun row => .int row.1, .single fun row => .int row.2] }

def bodySizeTable : FieldTable where
  matching := .exact
  entries :=
    [⟨"height", "height", .member "height" 0 .int⟩, ⟨"weight", "weight", .member "weight" 1 .int⟩]

def byHeight : Order := .single "height" .desc

def byWeight : Order := .next ⟨"weight", .asc⟩ (.single "height" .asc)

def byWeightAndAge : Order := .next ⟨"weight", .asc⟩ (.next ⟨"age", .asc⟩ (.single "size" .asc))

theorem resolve_prepare_append_sizes :
    (byHeight.append byWeightAndAge).resolve bodySizeTable = .error (.unknownKey "age")
      ∧ ∃ whole, { Query.everything with order := some (byHeight.append byWeight) }.prepare
          bodySizes bodySizeTable .default = .ok whole
        ∧ ∃ combined, whole.orderBy .scan = .ok combined
          ∧ combined.plan.display
            = "order_by height desc -> then_by weight asc -> then_by height asc" := by
  constructor
  · refine ((Order.resolve_prepare_append (R := Int64) (O := Int64) byHeight byWeightAndAge
      bodySizeTable).2.2.1 _).mpr ⟨[_, _], _, _, rfl, ?_, rfl, rfl⟩
    intro link hlink
    rcases List.mem_cons.mp hlink with rfl | hlink
    · exact ⟨_, rfl⟩
    · rw [List.mem_singleton.mp hlink]
      exact ⟨_, rfl⟩
  · obtain ⟨-, -, -, hprepare⟩ := Order.resolve_prepare_append byHeight byWeight bodySizeTable
    obtain ⟨whole, hwhole, hplans⟩ := hprepare bodySizes .default .default .everything .everything
      _ _ rfl rfl
    obtain ⟨sorted, refined, combined, hsorted, hrefined, hcombined, hsteps, -⟩ := hplans .scan
    refine ⟨whole, hwhole, combined, hcombined, ?_⟩
    cases hsorted
    cases hrefined
    rw [RowPlan.display, hsteps]
    decide +kernel

end RowQuery
