import RowQuery.Proofs.Fault.Success
import RowQuery.Query.Decode

/-!
# The integers of a page

The document of a page carries a number and a size (`pageIntegers`), each an integer
of whatever range. The page that is made of them has them as its number and its size
(`Page.ofIntegers_eq_ok`): an integer that is no word is refused and never cut down
to one.
-/

namespace RowQuery

/-- The word of an integer has the value of the integer. -/
theorem wordOf?_eq_some {n : Int} {word : UInt32} :
    wordOf? n = some word ↔ (word.toNat : Int) = n := by
  constructor
  · intro h
    rw [wordOf?] at h
    split at h
    · next hrange =>
        cases h
        have hlt : n.toNat < 0x100000000 := by omega
        rw [UInt32.toNat_ofNat_of_lt' hlt]
        omega
    · cases h
  · rintro rfl
    have hlt : word.toNat < 0x100000000 := word.toNat_lt
    rw [wordOf?, if_pos ⟨Int.natCast_nonneg _, by omega⟩, Int.toNat_natCast, UInt32.ofNat_toNat]

namespace Page

theorem of_eq_ok {number size : UInt32} {page : Page} :
    Page.of number size = .ok page ↔ page.number = number ∧ page.size = size := by
  constructor
  · intro h
    rw [Page.of] at h
    split at h
    · split at h
      · cases h
        exact ⟨rfl, rfl⟩
      · cases h
    · cases h
  · rintro ⟨rfl, rfl⟩
    rw [Page.of, dif_pos page.number_pos, dif_pos page.size_pos]

/-- A page is made from its own number and size and from no other integers. -/
theorem ofIntegers_eq_ok {number size : Int} {page : Page} :
    Page.ofIntegers number size = .ok page
      ↔ (page.number.toNat : Int) = number ∧ (page.size.toNat : Int) = size := by
  constructor
  · intro h
    rw [Page.ofIntegers] at h
    split at h
    · next n hn =>
        split at h
        · next s hs =>
            obtain ⟨rfl, rfl⟩ := of_eq_ok.mp h
            exact ⟨wordOf?_eq_some.mp hn, wordOf?_eq_some.mp hs⟩
        · cases h
    · cases h
  · rintro ⟨hnumber, hsize⟩
    rw [Page.ofIntegers, wordOf?_eq_some.mpr hnumber, wordOf?_eq_some.mpr hsize]
    exact of_eq_ok.mpr ⟨rfl, rfl⟩

end Page

/-! ## Documents -/

/-- The number and the size that the document of a page carries, whatever they are. -/
def pageIntegers (configured : UInt32) : Json → Except DecodeFault (Int × Int)
  | .object entries => pageEntries 1 configured.toNat entries
  | .array items => do
      let found ← pageItems items
      checkLength 2 items
      return found
  | found => .error (.wrongType found .page)

theorem pageIntegers_array {configured : UInt32} {items : List Json} {number size : Int} :
    pageIntegers configured (.array items) = .ok (number, size)
      ↔ pageItems items = .ok (number, size) ∧ checkLength 2 items = .ok () := by
  constructor
  · intro h
    obtain ⟨found, hitems, h⟩ := Except.bind_eq_ok.mp h
    obtain ⟨⟨⟩, hlength, heq⟩ := Except.bind_eq_ok.mp h
    cases heq
    exact ⟨hitems, hlength⟩
  · rintro ⟨hitems, hlength⟩
    exact Except.bind_eq_ok.mpr ⟨_, hitems, Except.bind_eq_ok.mpr ⟨(), hlength, rfl⟩⟩

/-- A page is read from the documents that carry its number and its size. -/
theorem optionalPage_eq_some {configured : UInt32} {document : Json} {page : Page} :
    optionalPage configured document = .ok (some page)
      ↔ pageIntegers configured document = .ok (page.number.toNat, page.size.toNat) := by
  have hown : Page.ofIntegers page.number.toNat page.size.toNat = .ok page :=
    Page.ofIntegers_eq_ok.mpr ⟨rfl, rfl⟩
  cases document with
  | object entries =>
      constructor
      · intro h
        obtain ⟨⟨number, size⟩, hentries, h⟩ := Except.bind_eq_ok.mp h
        obtain ⟨found, hpage, heq⟩ := Except.bind_eq_ok.mp h
        cases heq
        obtain ⟨rfl, rfl⟩ := Page.ofIntegers_eq_ok.mp hpage
        exact hentries
      · intro hentries
        exact Except.bind_eq_ok.mpr ⟨_, hentries, Except.bind_eq_ok.mpr ⟨page, hown, rfl⟩⟩
  | array items =>
      rw [pageIntegers_array]
      constructor
      · intro h
        obtain ⟨⟨number, size⟩, hitems, h⟩ := Except.bind_eq_ok.mp h
        obtain ⟨⟨⟩, hlength, h⟩ := Except.bind_eq_ok.mp h
        obtain ⟨found, hpage, heq⟩ := Except.bind_eq_ok.mp h
        cases heq
        obtain ⟨rfl, rfl⟩ := Page.ofIntegers_eq_ok.mp hpage
        exact ⟨hitems, hlength⟩
      · rintro ⟨hitems, hlength⟩
        exact Except.bind_eq_ok.mpr ⟨_, hitems, Except.bind_eq_ok.mpr
          ⟨(), hlength, Except.bind_eq_ok.mpr ⟨page, hown, rfl⟩⟩⟩
  | null => simp [optionalPage, pageIntegers]
  | bool b => simp [optionalPage, pageIntegers]
  | number n => simp [optionalPage, pageIntegers]
  | string s => simp [optionalPage, pageIntegers]

end RowQuery
