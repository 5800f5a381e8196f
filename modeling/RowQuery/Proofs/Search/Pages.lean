import RowQuery.Proofs.Plan.Meaning
import RowQuery.Search.PreparedQuery

/-!
# Pages of a search

A search with a page returns a window of what the same search returns without
one (`SearchResult.IsPageOf`), and the windows of all pages, one after the
other, are everything.

The rows of a page and their number come from two plans, of which only one
sorts and cuts. They fit together since a sort keeps the number of rows, and
since taking and skipping at the end of a plan is taking and skipping from
what the plan yields.
-/

namespace RowQuery

variable {R O : Type}

/-! ## Pages in rows -/

namespace Page

theorem number_toNat_pos (page : Page) : 0 < page.number.toNat :=
  UInt32.lt_iff_toNat_lt.mp page.number_pos

theorem size_toNat_pos (page : Page) : 0 < page.size.toNat :=
  UInt32.lt_iff_toNat_lt.mp page.size_pos

/-- The rows up to the end of a page are no more than those of the largest page with
the largest number. -/
theorem skip_add_size_le (page : Page) :
    (page.number.toNat - 1) * page.size.toNat + page.size.toNat
      ≤ (2 ^ 32 - 1) * (2 ^ 32 - 1) := by
  have hnumber := page.number_toNat_pos
  have hrows : (page.number.toNat - 1) * page.size.toNat + page.size.toNat
      = page.number.toNat * page.size.toNat := by
    rw [← Nat.succ_mul, Nat.succ_eq_add_one, Nat.sub_add_cancel hnumber]
  rw [hrows]
  exact Nat.mul_le_mul (Nat.le_pred_of_lt page.number.toNat_lt)
    (Nat.le_pred_of_lt page.size.toNat_lt)

/-- Where a page begins and what it may hold fit into 64 bits. -/
theorem skip_add_size_lt (page : Page) :
    (page.number.toNat - 1) * page.size.toNat + page.size.toNat < 2 ^ 64 :=
  Nat.lt_of_le_of_lt page.skip_add_size_le (by decide)

@[simp] theorem toNat_take (page : Page) : page.take.toNat = page.size.toNat :=
  UInt32.toNat_toUInt64 page.size

@[simp] theorem toNat_skip (page : Page) :
    page.skip.toNat = (page.number.toNat - 1) * page.size.toNat := by
  have hone : (1 : UInt32) ≤ page.number := UInt32.le_iff_toNat_le.mpr page.number_toNat_pos
  have hlt := page.skip_add_size_lt
  rw [skip, UInt64.toNat_mul, UInt32.toNat_toUInt64, UInt32.toNat_toUInt64,
    UInt32.toNat_sub_of_le _ _ hone]
  exact Nat.mod_eq_of_lt (Nat.lt_of_le_of_lt (Nat.le_add_right ..) hlt)

theorem skip_of_isFirst {page : Page} (h : page.isFirst = true) : page.skip.toNat = 0 := by
  rw [isFirst, beq_iff_eq] at h
  rw [toNat_skip, h]
  exact Nat.zero_mul _

theorem ext {page other : Page} (hnumber : page.number.toNat = other.number.toNat)
    (hsize : page.size = other.size) : page = other := by
  obtain ⟨number, size, hpos, hpos'⟩ := page
  obtain rfl : number = other.number := UInt32.toNat_inj.mp hnumber
  obtain rfl : size = other.size := hsize
  rfl

/-- The page with the size of a last page and the number behind an index. -/
def ofIndex (last : Page) (index : Fin last.number.toNat) : Page where
  number := UInt32.ofNat (index + 1)
  size := last.size
  number_pos := by
    have := last.number.toNat_lt
    rw [UInt32.lt_iff_toNat_lt, UInt32.toNat_ofNat_of_lt' (by simp [UInt32.size]; omega)]
    exact Nat.succ_pos _
  size_pos := last.size_pos

theorem toNat_number_ofIndex (last : Page) (index : Fin last.number.toNat) :
    (last.ofIndex index).number.toNat = index + 1 := by
  have := last.number.toNat_lt
  exact UInt32.toNat_ofNat_of_lt' (by simp [UInt32.size]; omega)

/-- The pages from the first to a last one, all of one size. -/
def upTo (last : Page) : List Page := (List.finRange last.number.toNat).map last.ofIndex

theorem mem_upTo {last page : Page} :
    page ∈ last.upTo ↔ page.size = last.size ∧ page.number ≤ last.number := by
  rw [upTo, List.mem_map]
  constructor
  · rintro ⟨index, -, rfl⟩
    refine ⟨rfl, UInt32.le_iff_toNat_le.mpr ?_⟩
    rw [toNat_number_ofIndex]
    exact index.isLt
  · rintro ⟨hsize, hnumber⟩
    have hpos := page.number_toNat_pos
    have hle := UInt32.le_iff_toNat_le.mp hnumber
    refine ⟨⟨page.number.toNat - 1, by omega⟩, List.mem_finRange _, ext ?_ hsize.symm⟩
    rw [toNat_number_ofIndex]
    exact Nat.sub_add_cancel hpos

end Page

/-! ## One page of all items -/

/-- The items at the positions from `first` to `last`, counted from one. -/
def itemsBetween (items : List O) (first last : Nat) : List O := (items.take last).drop (first - 1)

/-- A result is a page of all items: its range begins behind the pages before
it and ends with its items, which are those of the range and as many as are
left, up to the size of the page. -/
structure SearchResult.IsPageOf (all : List O) (page : Page) (result : SearchResult O) : Prop where
  total : result.total.toNat = all.length
  first : result.first.toNat = (page.number.toNat - 1) * page.size.toNat + 1
  last : result.last.toNat = result.first.toNat + result.items.length - 1
  length : result.items.length
    = min page.size.toNat (all.length - (page.number.toNat - 1) * page.size.toNat)
  items : result.items = itemsBetween all result.first.toNat result.last.toNat

/-- Whether a position lies in the range of a result. -/
def SearchResult.Covers (result : SearchResult O) (position : Nat) : Prop :=
  result.first.toNat ≤ position ∧ position ≤ result.last.toNat

namespace SearchResult

theorem toNat_length {items : List O} (h : items.length < 2 ^ 64) :
    items.length.toUInt64.toNat = items.length :=
  UInt64.toNat_ofNat_of_lt' h

theorem toNat_first_of {items : List O} {skipped total : UInt64} (h : skipped.toNat + 1 < 2 ^ 64) :
    (SearchResult.of items skipped total).first.toNat = skipped.toNat + 1 :=
  (UInt64.toNat_add ..).trans (Nat.mod_eq_of_lt h)

theorem toNat_last_of {items : List O} {skipped total : UInt64}
    (h : skipped.toNat + items.length < 2 ^ 64) :
    (SearchResult.of items skipped total).last.toNat = skipped.toNat + items.length := by
  have hlast : skipped + 1 + items.length.toUInt64 - 1 = skipped + items.length.toUInt64 := by
    rw [UInt64.add_assoc, UInt64.add_comm 1, ← UInt64.add_assoc, UInt64.add_sub_cancel]
  rw [of, hlast, UInt64.toNat_add, toNat_length (by omega)]
  exact Nat.mod_eq_of_lt h

/-- Without a page the range is that of all items. -/
theorem range_of_all {all : List O} (h : all.length < 2 ^ 64) :
    let result := SearchResult.of all 0 all.length.toUInt64
    result.first.toNat = 1 ∧ result.last.toNat = all.length ∧ result.total.toNat = all.length := by
  refine ⟨rfl, ?_, toNat_length h⟩
  have hlt : (0 : UInt64).toNat + all.length < 2 ^ 64 := by simpa using h
  rw [toNat_last_of hlt]
  exact Nat.zero_add _

theorem isPageOf_of {all : List O} (h : all.length < 2 ^ 64) (page : Page) :
    (SearchResult.of ((all.drop page.skip.toNat).take page.take.toNat) page.skip
      all.length.toUInt64).IsPageOf all page := by
  let items := (all.drop page.skip.toNat).take page.take.toNat
  let result := SearchResult.of items page.skip all.length.toUInt64
  have hroom := page.skip_add_size_lt
  have hsize := page.size_toNat_pos
  have hlength : items.length = min page.size.toNat (all.length - page.skip.toNat) := by
    rw [List.length_take, List.length_drop, Page.toNat_take]
  have hfirst : result.first.toNat = page.skip.toNat + 1 :=
    toNat_first_of (by rw [Page.toNat_skip]; omega)
  have hlast : result.last.toNat = page.skip.toNat + items.length :=
    toNat_last_of (by rw [hlength, Page.toNat_skip]; omega)
  have hitems : items = itemsBetween all result.first.toNat result.last.toNat := by
    rw [itemsBetween, hfirst, hlast, Nat.add_sub_cancel, List.drop_take, Nat.add_sub_cancel_left,
      List.length_take, ← List.take_eq_take_min]
  rw [Page.toNat_skip] at hfirst hlast hlength
  refine ⟨toNat_length h, hfirst, ?_, hlength, hitems⟩
  rw [hlast, hfirst, Nat.add_right_comm]
  rfl

namespace IsPageOf

variable {all : List O} {page : Page} {result : SearchResult O}

theorem items_eq (h : result.IsPageOf all page) :
    result.items
      = (all.drop ((page.number.toNat - 1) * page.size.toNat)).take page.size.toNat := by
  have hlast : result.last.toNat - (result.first.toNat - 1) = result.items.length := by
    have := h.last
    have := h.first
    omega
  rw [h.items, itemsBetween, List.drop_take, hlast, h.length, h.first, Nat.add_sub_cancel,
    ← List.length_drop, ← List.take_eq_take_min]

/-- Counted from zero, the positions of a page are those that the size of the
page divides into the pages before it. -/
theorem covers_iff (h : result.IsPageOf all page) (position : Nat) :
    result.Covers position
      ↔ (1 ≤ position ∧ position ≤ all.length)
        ∧ (position - 1) / page.size.toNat = page.number.toNat - 1 := by
  have hfirst := h.first
  have hlast := h.last
  have hlength := h.length
  have hsize := page.size_toNat_pos
  rw [Covers, Nat.div_eq_iff hsize]
  omega

/-- A page without items begins behind all items and ends before it begins. -/
theorem items_eq_nil_iff (h : result.IsPageOf all page) :
    result.items = [] ↔ all.length ≤ (page.number.toNat - 1) * page.size.toNat := by
  have hlength := h.length
  have hsize := page.size_toNat_pos
  rw [← List.length_eq_zero_iff]
  omega

end IsPageOf

end SearchResult

/-! ## All pages together -/

/-- Windows of one size, one after the other, are a prefix. -/
theorem flatMap_windows (items : List O) (size count : Nat) :
    ((List.range count).flatMap fun index => (items.drop (index * size)).take size)
      = items.take (count * size) := by
  induction count with
  | zero => simp
  | succ count ih =>
      rw [List.range_succ, List.flatMap_append, ih, List.flatMap_singleton, Nat.succ_mul,
        List.take_add]

namespace Page

variable {all : List O} {results : Page → SearchResult O}

/-- Enough pages, one after the other, are all items. -/
theorem flatMap_upTo (h : ∀ page, (results page).IsPageOf all page) {last : Page}
    (hlast : all.length ≤ last.number.toNat * last.size.toNat) :
    (last.upTo.flatMap fun page => (results page).items) = all := by
  have hpage : ∀ index : Fin last.number.toNat, (results (last.ofIndex index)).items
      = (all.drop (index * last.size.toNat)).take last.size.toNat := by
    intro index
    rw [(h _).items_eq, toNat_number_ofIndex]
    rfl
  have hwindows := flatMap_windows all last.size.toNat last.number.toNat
  rw [List.take_of_length_le hlast, ← List.map_coe_finRange_eq_range, List.flatMap_map] at hwindows
  rw [upTo, List.flatMap_map]
  exact (congrArg (List.flatMap · _) (funext hpage)).trans hwindows

/-- Enough pages cover the positions of all items and no others. -/
theorem exists_covers_iff (h : ∀ page, (results page).IsPageOf all page) {last : Page}
    (hlast : all.length ≤ last.number.toNat * last.size.toNat) (position : Nat) :
    (1 ≤ position ∧ position ≤ all.length)
      ↔ ∃ page ∈ last.upTo, (results page).Covers position := by
  constructor
  · intro hposition
    have hindex : (position - 1) / last.size.toNat < last.number.toNat := by
      rw [Nat.div_lt_iff_lt_mul last.size_toNat_pos]
      omega
    let page := last.ofIndex ⟨(position - 1) / last.size.toNat, hindex⟩
    refine ⟨page, List.mem_map_of_mem (List.mem_finRange _), (h page).covers_iff position |>.mpr ?_⟩
    refine ⟨hposition, ?_⟩
    rw [toNat_number_ofIndex]
    rfl
  · rintro ⟨page, -, hcovers⟩
    exact ((h page).covers_iff position |>.mp hcovers).1

/-- No two pages of one size cover the same position. -/
theorem eq_of_covers (h : ∀ page, (results page).IsPageOf all page) {page other : Page}
    (hsize : page.size = other.size) {position : Nat} (hpage : (results page).Covers position)
    (hother : (results other).Covers position) : page = other := by
  have hindex := ((h page).covers_iff position |>.mp hpage).2
  have hindex' := ((h other).covers_iff position |>.mp hother).2
  have hpos := page.number_toNat_pos
  have hpos' := other.number_toNat_pos
  rw [hsize] at hindex
  exact ext (by omega) hsize

/-- Behind a page without items there are only pages without items. -/
theorem items_eq_nil_of_le (h : ∀ page, (results page).IsPageOf all page) {page later : Page}
    (hsize : page.size = later.size) (hle : page.number ≤ later.number)
    (hpage : (results page).items = []) : (results later).items = [] := by
  have hnumber := UInt32.le_iff_toNat_le.mp hle
  rw [(h page).items_eq_nil_iff, hsize] at hpage
  rw [(h later).items_eq_nil_iff]
  exact hpage.trans (Nat.mul_le_mul_right _ (Nat.sub_le_sub_right hnumber 1))

end Page

/-! ## Searching -/

/-- The same query with another page, or with none. -/
def PreparedQuery.withPage (prepared : PreparedQuery R O) (page : Option Page) :
    PreparedQuery R O :=
  { prepared with query := { prepared.query with page } }

/-- A query with another page is prepared as it is without. -/
theorem Query.prepare_withPage (projection : Projection R O) (table : FieldTable)
    (handlers : HandlerChain) (query : Query) (page : Option Page) :
    Query.prepare projection table handlers { query with page }
      = (query.prepare projection table handlers).map (·.withPage page) := by
  simp only [Query.prepare]
  cases compileOptional (Filter.compile handlers table) query.filter with
  | error e => rfl
  | ok predicate => cases compileOptional (Order.resolve table) query.order <;> rfl

namespace PreparedQuery

variable (prepared : PreparedQuery R O)

theorem steps_refine (links : List ResolvedLink) (sorted : SortedPlan R) :
    (prepared.refine sorted links).plan.steps
      = sorted.plan.steps ++ (links.map prepared.sortBy).map .thenBy := by
  induction links generalizing sorted with
  | nil => exact (List.append_nil _).symm
  | cons link rest ih =>
      have hrest := ih (sorted.thenBy (prepared.sortBy link))
      rw [SortedPlan.thenBy, RowPlan.push, List.append_assoc] at hrest
      exact hrest

theorem yield_sortPlan (order : ResolvedOrder) (plan : RowPlan R) (rows : List R) :
    (prepared.sortPlan order plan).plan.yield rows
      = stableSort (RowSort.compareRows (order.links.map prepared.sortBy)) (plan.yield rows) := by
  let chain := RowPlan.ofChain (prepared.sortBy order.primary) (order.later.map prepared.sortBy)
  have hsteps : (prepared.sortPlan order plan).plan.steps = plan.steps ++ chain.steps := by
    rw [sortPlan, steps_refine]
    exact List.append_assoc ..
  have hchain : ∀ sort rest, chain.steps ≠ .thenBy sort :: rest := by simp [chain, RowPlan.ofChain]
  show (RowPlan.mk (prepared.sortPlan order plan).plan.steps).yield rows = _
  rw [hsteps, RowPlan.yield_append _ hchain]
  exact RowPlan.yield_ofChain ..

theorem length_yield_orderByIfAny (plan : RowPlan R) (rows : List R) :
    ((prepared.orderByIfAny plan).yield rows).length = (plan.yield rows).length := by
  rw [orderByIfAny]
  split
  · rw [yield_sortPlan]
    exact (stablySorted_stableSort _).perm.length_eq
  · rfl

theorem yield_page (page : Page) (plan : RowPlan R) (rows : List R) :
    ((prepared.withPage (some page)).page plan).yield rows
      = ((plan.yield rows).drop page.skip.toNat).take page.take.toNat := by
  by_cases hfirst : page.isFirst
  · simp [PreparedQuery.page, withPage, hfirst, Page.skip_of_isFirst hfirst]
  · simp [PreparedQuery.page, withPage, hfirst]

/-- The outputs of all rows that a search from a base plan finds. -/
def found (rows : List R) (base : RowPlan R) : List O :=
  ((prepared.orderByIfAny (prepared.filter base)).yield rows).map prepared.output

theorem length_found_le (rows : List R) (base : RowPlan R) :
    (prepared.found rows base).length ≤ rows.length := by
  rw [found, List.length_map]
  exact RowPlan.length_yield_le ..

theorem result_searchFrom_none (ε : Type) (rows : List R) (base : RowPlan R) :
    ((prepared.withPage none).searchFrom (.ofRows ε rows) base).result
      = .ok (SearchResult.of (prepared.found rows base) 0
          (prepared.found rows base).length.toUInt64) := by
  rw [found, List.length_map]
  rfl

theorem result_searchFrom_some (ε : Type) (rows : List R) (base : RowPlan R) (page : Page) :
    ((prepared.withPage (some page)).searchFrom (.ofRows ε rows) base).result
      = .ok (SearchResult.of
          (((prepared.found rows base).drop page.skip.toNat).take page.take.toNat) page.skip
          (prepared.found rows base).length.toUInt64) := by
  rw [found, List.length_map, length_yield_orderByIfAny, ← List.map_drop, ← List.map_take,
    ← yield_page]
  rfl

/-- A page of a search over held rows has the window of the page, whatever the
base plan. Enough pages from the first on are, one after the other, what the
search without a page finds; their ranges cover each of its positions once and
no others, and the pages behind an empty one are empty. -/
theorem searchFrom_pages (prepared : PreparedQuery R O) (ε : Type) (base : RowPlan R)
    {rows : List R} (hrows : rows.length < 2 ^ 64) :
    ∃ (all : SearchResult O) (results : Page → SearchResult O),
      ((prepared.withPage none).searchFrom (.ofRows ε rows) base).result = .ok all
      ∧ (all.first.toNat = 1 ∧ all.last.toNat = all.items.length
          ∧ all.total.toNat = all.items.length)
      ∧ (∀ page,
          ((prepared.withPage (some page)).searchFrom (.ofRows ε rows) base).result
              = .ok (results page)
            ∧ (results page).IsPageOf all.items page)
      ∧ ∀ last : Page, all.items.length ≤ last.number.toNat * last.size.toNat →
          (last.upTo.flatMap fun page => (results page).items) = all.items
          ∧ (∀ position, (1 ≤ position ∧ position ≤ all.items.length)
              ↔ ∃ page ∈ last.upTo, (results page).Covers position)
          ∧ (∀ position, ∀ page ∈ last.upTo, ∀ other ∈ last.upTo,
              (results page).Covers position → (results other).Covers position → page = other)
          ∧ ∀ page later, page.size = last.size → later.size = last.size →
              page.number ≤ later.number → (results page).items = [] →
              (results later).items = []
                ∧ (results later).last.toNat = (results later).first.toNat - 1 := by
  have hlength : (prepared.found rows base).length < 2 ^ 64 :=
    Nat.lt_of_le_of_lt (prepared.length_found_le rows base) hrows
  refine ⟨_, fun page => _, prepared.result_searchFrom_none ε rows base,
    SearchResult.range_of_all hlength,
    fun page => ⟨prepared.result_searchFrom_some ε rows base page,
      SearchResult.isPageOf_of hlength page⟩, ?_⟩
  intro last hlast
  have hpages := SearchResult.isPageOf_of hlength
  refine ⟨Page.flatMap_upTo hpages hlast, Page.exists_covers_iff hpages hlast, ?_, ?_⟩
  · intro position page hpage other hother
    have hsize : page.size = other.size :=
      (Page.mem_upTo.mp hpage).1.trans (Page.mem_upTo.mp hother).1.symm
    exact Page.eq_of_covers hpages hsize
  · intro page later hsize hsize' hle hpage
    have hlater := Page.items_eq_nil_of_le hpages (hsize.trans hsize'.symm) hle hpage
    refine ⟨hlater, ?_⟩
    rw [(hpages later).last, hlater]
    rfl

/-- Asks for the numbers above three. -/
def aboveThree : PreparedQuery Int64 Int64 where
  projection :=
    { output := id
      fields := [{ name := "n", access := .member "n" 0 .int }]
      layout := { columns := [.single .int] } }
  table := { matching := .exact, entries := [⟨"n", "n", .member "n" 0 .int⟩] }
  handlers := .default
  query := { filter := some (.leaf "n" .gt (.int 3)), order := none, page := none }
  predicate := some (.check (.relates .gt (.member "n" 0 .int) (.int 3)))
  order := none

theorem searchFrom_aboveThree : ∃ result : SearchResult Int64,
    ((aboveThree.withPage (some ⟨2, 2, by decide, by decide⟩)).searchFrom
        (.ofRows Unit [4, 1, 9, 5, 2]) .scan).result = .ok result
      ∧ result.items = [5] ∧ result.first = 3 ∧ result.last = 3 ∧ result.total = 3 := by
  obtain ⟨all, results, hall, -, hpages, -⟩ :=
    aboveThree.searchFrom_pages Unit .scan (show [4, 1, 9, 5, 2].length < 2 ^ 64 by decide)
  obtain rfl : SearchResult.of [4, 9, 5] 0 3 = all := Except.ok.inj hall
  obtain ⟨hresult, hpage⟩ := hpages ⟨2, 2, by decide, by decide⟩
  have hfirst := hpage.first
  have hlast := hpage.last
  rw [hfirst, hpage.items_eq] at hlast
  exact ⟨_, hresult, hpage.items_eq, UInt64.toNat_inj.mp hfirst, UInt64.toNat_inj.mp hlast,
    UInt64.toNat_inj.mp hpage.total⟩

end PreparedQuery

end RowQuery
