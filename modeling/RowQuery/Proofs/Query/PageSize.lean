import RowQuery.Proofs.Query.Objects
import RowQuery.Proofs.Query.PageIntegers
import RowQuery.Proofs.Query.RoundTrip

/-!
# Pages without a size

Where a page is written without its size, the size is the configured one only if
the page and the query are both written as objects. A page that is written by
position, or that stands in a query written by position, takes the default of
the library instead (`Query.size_of_ofJson`).
-/

namespace RowQuery

namespace Json

/-- What a query, written by name or by position, says about its page. -/
def pagePart? : Json → Option Json
  | .object entries => findKey "page" entries
  | .array items => items[2]?
  | _ => none

/-- What a page, written by name or by position, says about its size. -/
def sizePart? : Json → Option Json
  | .object entries => findKey "size" entries
  | .array items => items[1]?
  | _ => none

end Json

/-! ## Where the size comes from -/

section Size

variable {size : UInt32} {page : Page} {entries : List (String × Json)} {items : List Json}

/-- A page that is written by name takes the configured size. -/
theorem size_of_optionalPage_object (hsorted : Json.SortedEntries entries)
    (hsize : findKey "size" entries = none)
    (h : optionalPage size (.object entries) = .ok (some page)) : page.size = size := by
  obtain ⟨-, hfound⟩ := (pageEntries_eq_ok hsorted).mp (optionalPage_eq_some.mp h)
  rw [fieldOf_of_absent hsize] at hfound
  exact UInt32.toNat_inj.mp (Int.ofNat_inj.mp (Except.ok.inj hfound)).symm

/-- A page that is written by position takes the default size. -/
theorem size_of_optionalPage_array (hsize : items[1]? = none)
    (h : optionalPage size (.array items) = .ok (some page)) : page.size = Page.defaultSize := by
  obtain ⟨hitems, -⟩ := pageIntegers_array.mp (optionalPage_eq_some.mp h)
  have hdefault : (page.size.toNat : Int) = Page.defaultSize.toNat := by
    rcases items with _ | ⟨first, _ | ⟨second, rest⟩⟩
    · exact (congrArg Prod.snd (Except.ok.inj hitems)).symm
    · obtain ⟨n, -, heq⟩ := Except.bind_eq_ok.mp hitems
      exact (congrArg Prod.snd (Except.ok.inj heq)).symm
    · cases hsize
  exact UInt32.toNat_inj.mp (Int.ofNat_inj.mp hdefault)

theorem size_of_optionalPage {part : Json} (hsorted : part.SortedKeys)
    (hsize : part.sizePart? = none) (h : optionalPage size part = .ok (some page)) :
    page.size = if part.isObject then size else Page.defaultSize := by
  cases part with
  | object entries => exact size_of_optionalPage_object hsorted hsize h
  | array items => exact size_of_optionalPage_array hsize h
  | null => cases h
  | bool b => cases h
  | number n => cases h
  | string s => cases h

/-- The page of a query that is written by position stands third, and is read
without the configured size. -/
theorem exists_page_of_queryItems {query : Query} (h : queryItems items = .ok query)
    (hpage : query.page = some page) :
    ∃ part, items[2]? = some part ∧ optionalPage Page.defaultSize part = .ok (some page) := by
  match items, h with
  | f :: o :: p :: rest, h =>
      obtain ⟨filter, -, h⟩ := Except.bind_eq_ok.mp h
      obtain ⟨order, -, h⟩ := Except.bind_eq_ok.mp h
      obtain ⟨found, hfound, heq⟩ := Except.bind_eq_ok.mp h
      cases heq
      obtain rfl : found = some page := hpage
      exact ⟨p, rfl, hfound⟩
  | [f, o], h =>
      obtain ⟨filter, -, h⟩ := Except.bind_eq_ok.mp h
      obtain ⟨order, -, heq⟩ := Except.bind_eq_ok.mp h
      cases heq
      cases hpage
  | [f], h =>
      obtain ⟨filter, -, heq⟩ := Except.bind_eq_ok.mp h
      cases heq
      cases hpage
  | [], h =>
      cases h
      cases hpage

/-- The page of a decoded query stands in its document. Where it supplies no
size, its size is the configured one if query and page are both written as
objects, and the default otherwise. -/
theorem Query.size_of_ofJson {document : Json} {query : Query} (hsorted : document.SortedKeys)
    (h : Query.ofJson size document = .ok query) (hpage : query.page = some page) :
    ∃ part, document.pagePart? = some part
      ∧ (part.sizePart? = none →
          page.size = if document.isObject && part.isObject then size else Page.defaultSize) := by
  cases document with
  | object entries =>
      obtain ⟨-, -, hread⟩ := (queryEntries_eq_ok hsorted).mp h
      rw [fieldOf, hpage] at hread
      split at hread
      · next part hpart =>
          refine ⟨part, hpart, fun hsize => ?_⟩
          exact size_of_optionalPage (hsorted.sortedKeys_of_findKey hpart) hsize hread
      · cases hread
  | array items =>
      obtain ⟨found, hitems, h⟩ := Except.bind_eq_ok.mp h
      obtain ⟨-, -, heq⟩ := Except.bind_eq_ok.mp h
      cases heq
      obtain ⟨part, hpart, hread⟩ := exists_page_of_queryItems hitems hpage
      refine ⟨part, hpart, fun hsize => ?_⟩
      have hkeys := Json.sortedItems_iff.mp hsorted part (List.mem_of_getElem? hpart)
      rw [size_of_optionalPage hkeys hsize hread, ite_self]
      rfl
  | null => cases h
  | bool b => cases h
  | number n => cases h
  | string s => cases h

/-- A page of which only the number is written, by position. -/
def pageByPosition (page : UInt32) : Json :=
  .object [("page", .array [.number (.ofUInt32 page)])]

theorem ofJson_pageByPosition (page : Page) (hsize : page.size = Page.defaultSize) :
    Query.ofJson size (pageByPosition page.number)
      = .ok { filter := none, order := none, page := some page } := by
  have hitems : pageItems [.number (.ofUInt32 page.number)]
      = .ok (page.number.toNat, page.size.toNat) := by
    rw [pageItems, decodeInteger_ofUInt32, hsize]
    rfl
  have hpage : optionalPage size (.array [.number (.ofUInt32 page.number)]) = .ok (some page) :=
    optionalPage_eq_some.mpr (pageIntegers_array.mpr ⟨hitems, rfl⟩)
  rw [pageByPosition, Query.ofJson, queryEntries, if_neg (by decide), if_neg (by decide),
    if_pos rfl, hpage]
  rfl

/-- The second page, where the configured size is five: it has the default of twenty
rows. -/
theorem Query.size_of_ofJson_byPosition :
    (pageByPosition 2).SortedKeys
      ∧ ∃ query page, Query.ofJson 5 (pageByPosition 2) = .ok query ∧ query.page = some page
        ∧ page.size = 20 := by
  have hsorted : (pageByPosition 2).SortedKeys := ⟨nofun, ⟨trivial, trivial⟩, trivial⟩
  have hread : Query.ofJson 5 (pageByPosition 2) = .ok _ :=
    ofJson_pageByPosition ⟨2, 20, by decide, by decide⟩ rfl
  obtain ⟨part, hpart, hsize⟩ := Query.size_of_ofJson hsorted hread rfl
  cases hpart
  exact ⟨hsorted, _, _, hread, rfl, hsize rfl⟩

end Size

end RowQuery
