import RowQuery.Compile.Filter
import RowQuery.Search.Result
import RowQuery.Search.Source

/-!
# Prepared queries

A prepared query holds a query and what became of its filter and its order. All
that can be wrong with the query shows when it is prepared; a search can only
fail if the source does.

The steps (`filter`, `orderBy`, `thenBy`, `page`) put the parts of the query
behind a plan. A search filters, orders and cuts out the page. With a page it
also counts what passes the filter; without one, the number of rows it fetched
is that count, and the source is asked once.
-/

namespace RowQuery

/-- A query that was compiled for a projection. -/
structure PreparedQuery (R O : Type) where
  projection : Projection R O
  table : FieldTable
  handlers : HandlerChain
  query : Query
  predicate : Option Predicate
  order : Option ResolvedOrder

/-- Compiles a part of a query that may be missing. -/
def compileOptional {α β : Type} (compile : α → Except QueryFault β) :
    Option α → Except QueryFault (Option β)
  | none => .ok none
  | some part => (compile part).map some

/-- Compiles the filter of a query and then its order. -/
def Query.prepare {R O : Type} (projection : Projection R O) (table : FieldTable)
    (handlers : HandlerChain) (query : Query) : Except QueryFault (PreparedQuery R O) := do
  let predicate ← compileOptional (Filter.compile handlers table) query.filter
  let order ← compileOptional (Order.resolve table) query.order
  return { projection, table, handlers, query, predicate, order }

/-- What a search did: the questions to the source, the elements that were
taken, and the result. -/
structure SearchRun (R ε O : Type) where
  calls : List (SourceCall R)
  taken : List Nat
  result : Except ε (SearchResult O)

namespace PreparedQuery

variable {R O ε : Type}

/-! ## Steps -/

def sortBy (prepared : PreparedQuery R O) (link : ResolvedLink) : RowSort R :=
  { link, layout := prepared.projection.layout }

def filter (prepared : PreparedQuery R O) (plan : RowPlan R) : RowPlan R :=
  match prepared.predicate with
  | some predicate => plan.filter { predicate, layout := prepared.projection.layout }
  | none => plan

/-- Refines a sorted plan by links, one after the other. -/
def refine (prepared : PreparedQuery R O) (plan : SortedPlan R) (links : List ResolvedLink) :
    SortedPlan R :=
  links.foldl (fun plan link => plan.thenBy (prepared.sortBy link)) plan

def sortPlan (prepared : PreparedQuery R O) (order : ResolvedOrder) (plan : RowPlan R) :
    SortedPlan R :=
  prepared.refine (plan.orderBy (prepared.sortBy order.primary)) order.later

/-- The order of the query, which has to be there. -/
def requireOrder (prepared : PreparedQuery R O) : Except QueryFault ResolvedOrder :=
  match prepared.order with
  | some order => .ok order
  | none => .error .missingOrder

def orderBy (prepared : PreparedQuery R O) (plan : RowPlan R) :
    Except QueryFault (SortedPlan R) :=
  prepared.requireOrder.map fun order => prepared.sortPlan order plan

def orderByIfAny (prepared : PreparedQuery R O) (plan : RowPlan R) : RowPlan R :=
  match prepared.order with
  | some order => (prepared.sortPlan order plan).plan
  | none => plan

/-- Refines a sorted plan by every link of the order of the query. -/
def thenBy (prepared : PreparedQuery R O) (plan : SortedPlan R) :
    Except QueryFault (SortedPlan R) :=
  prepared.requireOrder.map fun order => prepared.refine plan order.links

def thenByIfAny (prepared : PreparedQuery R O) (plan : SortedPlan R) : SortedPlan R :=
  match prepared.order with
  | some order => prepared.refine plan order.links
  | none => plan

/-- Cuts the page of the query out of a plan, if it has one. The first page
leaves nothing out. -/
def page (prepared : PreparedQuery R O) (plan : RowPlan R) : RowPlan R :=
  match prepared.query.page with
  | some page =>
      if page.isFirst then plan.take page.take else (plan.skip page.skip).take page.take
  | none => plan

def output (prepared : PreparedQuery R O) (row : R) : O := prepared.projection.output row

/-! ## Searching -/

/-- Fetches everything and counts what was fetched. -/
def searchAll (prepared : PreparedQuery R O) (source : Source R ε) (sorted : RowPlan R) :
    SearchRun R ε O :=
  let fetched := source.fetch sorted
  { calls := [.fetch sorted]
    taken := fetched.taken
    result := fetched.value.map fun rows =>
      SearchResult.of (rows.map prepared.output) 0 rows.length.toUInt64 }

/-- Fetches a page, then counts what passes the filter. -/
def searchPage (prepared : PreparedQuery R O) (source : Source R ε) (page : Page)
    (filtered paged : RowPlan R) : SearchRun R ε O :=
  let fetched := source.fetch paged
  match fetched.value with
  | .error e => { calls := [.fetch paged], taken := fetched.taken, result := .error e }
  | .ok rows =>
      let counted := source.count filtered
      { calls := [.fetch paged, .count filtered]
        taken := fetched.taken ++ counted.taken
        result := counted.value.map fun total =>
          SearchResult.of (rows.map prepared.output) page.skip total }

/-- Searches what a base plan yields. -/
def searchFrom (prepared : PreparedQuery R O) (source : Source R ε) (base : RowPlan R) :
    SearchRun R ε O :=
  let filtered := prepared.filter base
  let sorted := prepared.orderByIfAny filtered
  match prepared.query.page with
  | some page => prepared.searchPage source page filtered (prepared.page sorted)
  | none => prepared.searchAll source sorted

def search (prepared : PreparedQuery R O) (source : Source R ε) : SearchRun R ε O :=
  prepared.searchFrom source .scan

/-! ## Texts -/

def pageText (page : Page) : String :=
  natText page.number.toNat ++ " of size " ++ natText page.size.toNat ++ " (skip "
    ++ natText page.skip.toNat ++ ", take " ++ natText page.take.toNat ++ ")"

/-- A line for the filter, one for the order and one for the page. -/
def explain (prepared : PreparedQuery R O) : String :=
  "filter: " ++ (prepared.predicate.map Predicate.display).getD "none"
    ++ "\norder: " ++ (prepared.order.map ResolvedOrder.display).getD "none"
    ++ "\npage: " ++ (prepared.query.page.map pageText).getD "none"

end PreparedQuery

end RowQuery
