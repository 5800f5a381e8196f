import RowQuery.Proofs.Query.PageIntegers
import RowQuery.Proofs.Query.RoundTrip
import RowQuery.Proofs.Search.Pages

/-!
# Windows that do not wrap

The rows before a page and the range of a result are worked out in words of 32 and
64 bits, and an operation that leaves its word wraps without a trace. `Page.skip?`
and `SearchResult.of?` take the same steps with operations that have no result
where they would wrap.

Both have results for every page that can be made or read, and these are what is
worked out without them and what the integers give (`Page.arithmetic_exact`). The
last row of a page stands at most at `(2 ^ 32 - 1) ^ 2`, which leaves room below
`2 ^ 64` for the one that is added before it is taken away.
-/

namespace RowQuery

/-! ## Operations on words -/

namespace Word

variable {width : Nat} {a b : BitVec width}

/-- The sum of two words, if it is a word. -/
def sum? (a b : BitVec width) : Option (BitVec width) :=
  if a.uaddOverflow b then none else some (a + b)

/-- The difference of two words, if it is a word. -/
def difference? (a b : BitVec width) : Option (BitVec width) :=
  if a.usubOverflow b then none else some (a - b)

/-- The product of two words, if it is a word. -/
def product? (a b : BitVec width) : Option (BitVec width) :=
  if a.umulOverflow b then none else some (a * b)

/-- A number as a word, if it is one. -/
def ofNat? (width n : Nat) : Option (BitVec width) :=
  if n < 2 ^ width then some (BitVec.ofNat width n) else none

theorem sum?_eq_some (h : a.toNat + b.toNat < 2 ^ width) : sum? a b = some (a + b) :=
  if_neg (by simpa [BitVec.uaddOverflow] using h)

theorem difference?_eq_some (h : b.toNat ≤ a.toNat) : difference? a b = some (a - b) :=
  if_neg (by simpa [BitVec.usubOverflow] using h)

theorem product?_eq_some (h : a.toNat * b.toNat < 2 ^ width) : product? a b = some (a * b) :=
  if_neg (by simpa [BitVec.umulOverflow] using h)

end Word

/-! ## Windows and ranges -/

/-- The rows before a page, if no operation wraps. -/
def Page.skip? (page : Page) : Option UInt64 := do
  let before ← Word.difference? page.number.toBitVec 1
  let rows ← Word.product? (before.setWidth 64) (page.size.toBitVec.setWidth 64)
  return .ofBitVec rows

theorem Page.skip?_eq_some (page : Page) : page.skip? = some page.skip := by
  have hnumber : (1 : BitVec 32).toNat ≤ page.number.toBitVec.toNat := page.number_toNat_pos
  have hbefore : ((page.number.toBitVec - 1).setWidth 64).toNat = page.number.toNat - 1 := by
    rw [BitVec.toNat_setWidth_of_le (by decide), BitVec.toNat_sub_of_le hnumber]
    rfl
  have hsize : (page.size.toBitVec.setWidth 64).toNat = page.size.toNat :=
    BitVec.toNat_setWidth_of_le (by decide)
  have hrows : ((page.number.toBitVec - 1).setWidth 64).toNat
      * (page.size.toBitVec.setWidth 64).toNat < 2 ^ 64 := by
    rw [hbefore, hsize]
    exact Nat.lt_of_le_of_lt (Nat.le_add_right ..) page.skip_add_size_lt
  rw [skip?, Word.difference?_eq_some hnumber, Option.bind_eq_bind, Option.bind_some,
    Word.product?_eq_some hrows]
  rfl

namespace SearchResult

variable {O : Type} {items : List O} {skipped total : UInt64}

/-- The result for items before which a number of rows was left out, if no
operation wraps. -/
def of? (items : List O) (skipped total : UInt64) : Option (SearchResult O) := do
  let first ← Word.sum? skipped.toBitVec 1
  let length ← Word.ofNat? 64 items.length
  let behind ← Word.sum? first length
  let last ← Word.difference? behind 1
  return { items, first := .ofBitVec first, last := .ofBitVec last, total }

theorem of?_eq_some (h : skipped.toNat + 1 + items.length < 2 ^ 64) :
    of? items skipped total = some (.of items skipped total) := by
  have hfirst : skipped.toBitVec.toNat + (1 : BitVec 64).toNat < 2 ^ 64 :=
    Nat.lt_of_le_of_lt (Nat.le_add_right ..) h
  have hlength : items.length < 2 ^ 64 := Nat.lt_of_le_of_lt (Nat.le_add_left ..) h
  have hbehind : (skipped.toBitVec + 1).toNat + (BitVec.ofNat 64 items.length).toNat < 2 ^ 64 := by
    rw [BitVec.toNat_add_of_lt hfirst, BitVec.toNat_ofNat, Nat.mod_eq_of_lt hlength]
    exact h
  have hlast : (1 : BitVec 64).toNat
      ≤ (skipped.toBitVec + 1 + BitVec.ofNat 64 items.length).toNat := by
    rw [BitVec.toNat_add_of_lt hbehind, BitVec.toNat_add_of_lt hfirst, Nat.add_right_comm]
    exact Nat.le_add_left ..
  simp only [of?, Word.sum?_eq_some hfirst, Word.ofNat?, if_pos hlength,
    Word.sum?_eq_some hbehind, Word.difference?_eq_some hlast, Option.bind_eq_bind,
    Option.bind_some]
  rfl

/-- The range of a result is worked out without wrapping and is that of the integers:
it begins behind a number of rows and is as long as the items are many. -/
structure RangeExact (items : List O) (skipped total : UInt64) (before : Int) : Prop where
  of?_eq : of? items skipped total = some (.of items skipped total)
  first_eq : ((SearchResult.of items skipped total).first.toNat : Int) = before + 1
  last_eq : ((SearchResult.of items skipped total).last.toNat : Int) = before + items.length

theorem rangeExact (h : skipped.toNat + 1 + items.length < 2 ^ 64) (total : UInt64) :
    RangeExact items skipped total skipped.toNat where
  of?_eq := of?_eq_some h
  first_eq := congrArg Nat.cast (toNat_first_of (Nat.lt_of_le_of_lt (Nat.le_add_right ..) h))
  last_eq := by
    rw [toNat_last_of (by omega)]
    exact Int.natCast_add ..

end SearchResult

/-! ## Pages -/

namespace Page

/-- The window of a page is worked out without wrapping and is that of its integers,
as are the ranges of all results that the page has room for. -/
structure WindowExact (page : Page) (number size : Int) : Prop where
  number_eq : (page.number.toNat : Int) = number
  size_eq : (page.size.toNat : Int) = size
  number_range : 1 ≤ number ∧ number < 2 ^ 32
  size_range : 1 ≤ size ∧ size < 2 ^ 32
  skip?_eq : page.skip? = some page.skip
  skip_eq : (page.skip.toNat : Int) = (number - 1) * size
  range : ∀ (O : Type) (items : List O) (total : UInt64), items.length ≤ page.take.toNat →
    SearchResult.RangeExact items page.skip total ((number - 1) * size)

theorem windowExact (page : Page) : page.WindowExact page.number.toNat page.size.toNat := by
  have hnumber := page.number_toNat_pos
  have hsize := page.size_toNat_pos
  have hnumberlt := page.number.toNat_lt
  have hsizelt := page.size.toNat_lt
  have hskip : (page.skip.toNat : Int) = (page.number.toNat - 1) * page.size.toNat := by
    rw [toNat_skip, Int.natCast_mul, Int.natCast_sub hnumber]
    rfl
  refine ⟨rfl, rfl, ⟨by omega, by omega⟩, ⟨by omega, by omega⟩, page.skip?_eq_some, hskip, ?_⟩
  intro O items total hlength
  -- `skip_add_size_lt` leaves no room for the one that is added
  have hroom : page.skip.toNat + 1 + items.length < 2 ^ 64 := by
    have hrows := page.skip_add_size_le
    rw [toNat_take] at hlength
    rw [toNat_skip]
    omega
  rw [← hskip]
  exact SearchResult.rangeExact hroom total

/-- Nothing wraps between a page and the range of what is fetched for it. Every page
that is made from two words has the window of these words, and every page that is
read from a document that of the integers in the document, none of which is zero or
too large; the range of at most as many items as the page takes is exact, and so is
the range of all items without a page. -/
theorem arithmetic_exact :
    (∀ (number size : UInt32) (page : Page), Page.of number size = .ok page →
        page.WindowExact number.toNat size.toNat)
      ∧ (∀ (configured : UInt32) (document : Json) (page : Page),
          optionalPage configured document = .ok (some page) →
            ∃ number size, pageIntegers configured document = .ok (number, size)
              ∧ page.WindowExact number size)
      ∧ ∀ (O : Type) (items : List O) (total : UInt64), items.length < 2 ^ 63 →
          SearchResult.RangeExact items 0 total 0 := by
  refine ⟨?_, ?_, ?_⟩
  · intro number size page hof
    obtain ⟨rfl, rfl⟩ := of_eq_ok.mp hof
    exact page.windowExact
  · intro configured document page hread
    exact ⟨_, _, optionalPage_eq_some.mp hread, page.windowExact⟩
  · intro O items total hlength
    have hroom : (0 : UInt64).toNat + 1 + items.length < 2 ^ 64 := by
      rw [UInt64.toNat_zero]
      omega
    exact SearchResult.rangeExact hroom total

/-- The largest page with the largest number, read from its document and full. -/
theorem arithmetic_exact_largest :
    let largest : Page := ⟨0xffffffff, 0xffffffff, by decide, by decide⟩
    let items := List.replicate 0xffffffff ()
    optionalPage defaultSize largest.toJson = .ok (some largest)
      ∧ items.length ≤ largest.take.toNat
      ∧ largest.skip? = some 18446744060824649730
      ∧ ∃ result, SearchResult.of? items largest.skip 0 = some result
        ∧ result.first = 18446744060824649731 ∧ result.last = 18446744065119617025 := by
  intro largest items
  have hread := largest.optionalPage_toJson defaultSize
  have hlength : items.length = 0xffffffff := List.length_replicate
  have hfits : items.length ≤ largest.take.toNat := Nat.le_of_eq hlength
  obtain ⟨-, hpages, -⟩ := arithmetic_exact
  obtain ⟨number, size, -, hwindow⟩ := hpages defaultSize largest.toJson largest hread
  obtain rfl : (0xffffffff : Int) = number := hwindow.number_eq
  obtain rfl : (0xffffffff : Int) = size := hwindow.size_eq
  obtain ⟨hrange, hfirst, hlast⟩ := hwindow.range Unit items 0 hfits
  rw [hlength] at hlast
  have hskip : largest.skip = 18446744060824649730 :=
    UInt64.toNat_inj.mp (Int.ofNat_inj.mp hwindow.skip_eq)
  exact ⟨hread, hfits, hwindow.skip?_eq.trans (congrArg some hskip), _, hrange,
    UInt64.toNat_inj.mp (Int.ofNat_inj.mp hfirst), UInt64.toNat_inj.mp (Int.ofNat_inj.mp hlast)⟩

end Page

end RowQuery
