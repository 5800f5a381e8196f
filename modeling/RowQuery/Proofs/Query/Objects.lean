import Mathlib.Logic.Basic
import RowQuery.Proofs.Query.Entries
import RowQuery.Proofs.Query.Grammar
import RowQuery.Proofs.Query.PageIntegers

/-!
# Reading objects

For each kind of part that a query is made of, when its decoder takes an object:
what has to stand under which keys, with the parts below read by their own
decoders.
-/

namespace RowQuery

/-! ## Parts that may be missing -/

section Optional

variable {α : Type} {key : String} {document : Json} {entries : List (String × Json)}

theorem fieldOf_eq_none {decode : Json → Except DecodeFault (Option α)}
    (hnull : ∀ d, decode d = .ok none ↔ d = .null) :
    fieldOf key decode none entries = .ok none ↔ Json.Vacant key entries := by
  rw [fieldOf, Json.Vacant]
  cases findKey key entries with
  | none => simp
  | some d => simp [hnull]

/-- A part that may be null is read if it is null or something is read from it. -/
theorem exists_of_eq_none {decode : Json → Except DecodeFault (Option α)}
    (hnull : decode document = .ok none ↔ document = .null) :
    (∃ a, decode document = .ok a) ↔ document ≠ .null → ∃ a, decode document = .ok (some a) := by
  rw [Option.exists, hnull, or_iff_not_imp_left]

variable {decoded : Except DecodeFault α}

theorem optionally_eq_none : optionally document decoded = .ok none ↔ document = .null := by
  cases document <;> simp [optionally, Except.map_eq_ok]

theorem exists_optionally :
    (∃ a, optionally document decoded = .ok a) ↔ document ≠ .null → ∃ a, decoded = .ok a := by
  cases document <;> simp [optionally, Except.exists_map_eq_ok]

theorem exists_fieldOf_optionally {decode : Json → Except DecodeFault α} :
    (∃ a, fieldOf key (fun d => optionally d (decode d)) none entries = .ok a)
      ↔ ∀ d, findKey key entries = some d → d ≠ .null → ∃ a, decode d = .ok a := by
  simp only [exists_fieldOf, exists_optionally]

theorem exists_optionally_some :
    (∃ a, optionally document decoded = .ok (some a))
      ↔ document ≠ .null ∧ ∃ a, decoded = .ok a := by
  cases document <;> simp [optionally, Except.map_eq_ok]

theorem optionalChildren_eq_none : optionalChildren document = .ok none ↔ document = .null := by
  cases document <;> simp [optionalChildren, Except.map_eq_ok]

theorem optionalLeaf_eq_none : optionalLeaf document = .ok none ↔ document = .null := by
  cases document with
  | object entries =>
      simp only [optionalLeaf, reduceCtorEq, iff_false]
      cases operationEntries .empty entries <;> simp [Except.map_eq_ok]
  | array items =>
      simp only [optionalLeaf, reduceCtorEq, iff_false]
      cases operationItems items with
      | error e => simp
      | ok parts => cases checkLength 3 items <;> simp [Except.map_eq_ok]
  | _ => simp [optionalLeaf]

theorem optionalPage_eq_none {size : UInt32} :
    optionalPage size document = .ok none ↔ document = .null := by
  cases document <;> simp [optionalPage, Except.bind_eq_ok, pure, Except.pure]

end Optional

/-! ## Filters -/

namespace Filter

variable {entries : List (String × Json)}

theorem exists_ofJsonAll {items : List Json} :
    (∃ fs, ofJsonAll items = .ok fs) ↔ ∀ item ∈ items, ∃ f, ofJson item = .ok f := by
  induction items with
  | nil => simp [ofJsonAll]
  | cons item rest ih =>
      rw [List.forall_mem_cons, ← ih, ofJsonAll]
      constructor
      · rintro ⟨fs, hfs⟩
        obtain ⟨f, hf, hrest⟩ := Except.bind_eq_ok.mp hfs
        obtain ⟨rest, hrest, -⟩ := Except.bind_eq_ok.mp hrest
        exact ⟨⟨f, hf⟩, _, hrest⟩
      · rintro ⟨⟨f, hf⟩, fs, hfs⟩
        exact ⟨_, Except.bind_eq_ok.mpr ⟨f, hf, Except.bind_eq_ok.mpr ⟨fs, hfs, rfl⟩⟩⟩

theorem exists_optionalChildren {document : Json} :
    (∃ children, optionalChildren document = .ok (some children))
      ↔ ∃ items, document = .array items ∧ ∀ item ∈ items, ∃ f, ofJson item = .ok f := by
  cases document <;> simp [optionalChildren, Except.map_eq_ok, ← exists_ofJsonAll]

/-- Exactly one of the four keys has to hold something. -/
theorem exists_ofJson_parts :
    (∃ f, ofJson (.object entries) = .ok f)
      ↔ (∃ children, filterEntries .empty entries = .ok ⟨some children, none, none, none⟩)
        ∨ (∃ children, filterEntries .empty entries = .ok ⟨none, some children, none, none⟩)
        ∨ (∃ child, filterEntries .empty entries = .ok ⟨none, none, some child, none⟩)
        ∨ ∃ leaf, filterEntries .empty entries = .ok ⟨none, none, none, some leaf⟩ := by
  rw [ofJson]
  cases filterEntries .empty entries with
  | error e => simp
  | ok parts =>
      obtain ⟨_ | _, _ | _, _ | _, _ | _⟩ := parts <;> simp [FilterParts.filter]

theorem exists_optionally_ofJson {document : Json} :
    (∃ f, optionally document (ofJson document) = .ok (some f))
      ↔ ∃ f, ofJson document = .ok f := by
  rw [exists_optionally_some, and_iff_right_iff_imp]
  rintro ⟨f, hf⟩ rfl
  cases hf

theorem exists_ofJson_object (hsorted : Json.SortedEntries entries) :
    (∃ f, ofJson (.object entries) = .ok f)
      ↔ (Json.Alone "and" entries ∧ ∃ part, findKey "and" entries = some part
          ∧ ∃ children, optionalChildren part = .ok (some children))
        ∨ (Json.Alone "or" entries ∧ ∃ part, findKey "or" entries = some part
          ∧ ∃ children, optionalChildren part = .ok (some children))
        ∨ (Json.Alone "not" entries ∧ ∃ part, findKey "not" entries = some part
          ∧ ∃ f, ofJson part = .ok f)
        ∨ (Json.Alone "where" entries ∧ ∃ part, findKey "where" entries = some part
          ∧ ∃ leaf, optionalLeaf part = .ok (some leaf)) := by
  rw [exists_ofJson_parts]
  simp only [filterEntries_eq_ok hsorted, FilterParts.empty,
    fieldOf_eq_none fun _ => optionalChildren_eq_none, fieldOf_eq_none fun _ => optionally_eq_none,
    fieldOf_eq_none fun _ => optionalLeaf_eq_none, exists_and_right, exists_and_left,
    exists_fieldOf_some, exists_optionally_ofJson]
  -- Both sides now say for each key that it holds a part and the others nothing.
  simp [Json.Alone, and_assoc, and_comm, and_left_comm]

end Filter

/-! ## Operations -/

theorem decodeString_eq_ok {document : Json} {s : String} :
    decodeString document = .ok s ↔ document = .string s := by
  cases document <;> simp [decodeString]

theorem fieldOf_string {key s : String} {entries : List (String × Json)} :
    fieldOf key (fun d => (decodeString d).map some) none entries = .ok (some s)
      ↔ findKey key entries = some (.string s) := by
  simp only [fieldOf_map_some, decodeString_eq_ok, exists_eq_right]

namespace Operand

/-- An operator can read what is written as its operand, or that nothing is. -/
def Readable (operator : Operator) (operand : Option Operand) : Prop :=
  ∃ value, (operand.getD .missing).value operator = .ok value

/-- Where nothing is written the operand is null, which every operator takes. -/
theorem readable_none (operator : Operator) : Readable operator none := by
  cases hquantifier : operator.isQuantifier <;>
    simp [Readable, value, missing, hquantifier, Json.isObject]

/-- Only objects under quantifiers have to be more than a value. -/
theorem readable_some {operator : Operator} {document : Json} :
    Readable operator (some { document, body := Filter.ofJson document })
      ↔ (operator.isQuantifier = true → ∀ body, document = .object body →
          ∃ f, Filter.ofJson (.object body) = .ok f) := by
  cases hquantifier : operator.isQuantifier <;> cases document <;>
    simp [Readable, value, hquantifier, Json.isObject, Except.exists_map_eq_ok]

theorem exists_readable {operator : Operator} {entries : List (String × Json)} :
    (∃ operand, fieldOf "value" (fun d => .ok (some { document := d, body := Filter.ofJson d }))
        none entries = .ok operand ∧ Readable operator operand)
      ↔ (operator.isQuantifier = true → ∀ body, findKey "value" entries = some (.object body) →
          ∃ f, Filter.ofJson (.object body) = .ok f) := by
  rw [exists_fieldOf_good (readable_none operator)]
  constructor
  · intro h hquantifier body hbody
    obtain ⟨operand, ⟨⟩, hreadable⟩ := h _ hbody
    exact readable_some.mp hreadable hquantifier body rfl
  · intro h d hd
    exact ⟨_, rfl, readable_some.mpr fun hquantifier body hbody =>
      h hquantifier body (hbody ▸ hd)⟩

end Operand

theorem OperationParts.exists_leaf (parts : OperationParts) :
    (∃ leaf, parts.leaf = .ok leaf)
      ↔ ∃ key operator, parts.key = some key ∧ parts.operator = some operator
        ∧ Operand.Readable operator parts.operand := by
  obtain ⟨_ | key, _ | operator, operand⟩ := parts <;>
    simp [leaf, required, leafOf, bind, Except.bind, Except.exists_map_eq_ok, Operand.Readable]

theorem optionalLeaf_object (entries : List (String × Json)) :
    optionalLeaf (.object entries)
      = operationEntries .empty entries >>= fun parts => parts.leaf.map some := by
  rw [optionalLeaf]
  cases operationEntries .empty entries <;> rfl

theorem exists_optionalLeaf_object {entries : List (String × Json)}
    (hsorted : Json.SortedEntries entries) :
    (∃ leaf, optionalLeaf (.object entries) = .ok (some leaf))
      ↔ ∃ key operator, findKey "key" entries = some (.string key)
        ∧ (∃ d, findKey "operator" entries = some d ∧ decodeOperator d = .ok operator)
        ∧ (operator.isQuantifier = true → ∀ body, findKey "value" entries = some (.object body) →
            ∃ f, Filter.ofJson (.object body) = .ok f) := by
  rw [optionalLeaf_object]
  constructor
  · rintro ⟨leaf, hleaf⟩
    obtain ⟨⟨_, _, operand⟩, hparts, hleaf⟩ := Except.bind_eq_ok.mp hleaf
    obtain ⟨leaf, hleaf, -⟩ := Except.map_eq_ok.mp hleaf
    obtain ⟨key, operator, rfl, rfl, hreadable⟩ := (OperationParts.exists_leaf _).mp ⟨leaf, hleaf⟩
    obtain ⟨hkey, hoperator, hoperand⟩ := (operationEntries_eq_ok hsorted).mp hparts
    exact ⟨key, operator, fieldOf_string.mp hkey, fieldOf_map_some.mp hoperator,
      Operand.exists_readable.mp ⟨operand, hoperand, hreadable⟩⟩
  · rintro ⟨key, operator, hkey, hoperator, hbody⟩
    obtain ⟨operand, hoperand, hreadable⟩ := Operand.exists_readable.mpr hbody
    have hparts : operationEntries .empty entries = .ok ⟨some key, some operator, operand⟩ :=
      (operationEntries_eq_ok hsorted).mpr
        ⟨fieldOf_string.mpr hkey, fieldOf_map_some.mpr hoperator, hoperand⟩
    obtain ⟨leaf, hleaf⟩ := (OperationParts.exists_leaf ⟨some key, some operator, operand⟩).mpr
      ⟨key, operator, rfl, rfl, hreadable⟩
    exact ⟨leaf, Except.bind_eq_ok.mpr ⟨_, hparts, Except.map_eq_ok.mpr ⟨leaf, hleaf, rfl⟩⟩⟩

/-! ## Orders -/

theorem OrderParts.exists_order (parts : OrderParts) :
    (∃ order, parts.order = .ok order) ↔ ∃ key, parts.key = some key := by
  obtain ⟨_ | key, direction, rest⟩ := parts <;> simp [order, required, Except.map]

theorem Order.ofJson_object (entries : List (String × Json)) :
    Order.ofJson (.object entries) = orderEntries .empty entries >>= OrderParts.order := by
  rw [Order.ofJson]
  cases orderEntries .empty entries <;> rfl

theorem Order.exists_ofJson_object {entries : List (String × Json)}
    (hsorted : Json.SortedEntries entries) :
    (∃ order, Order.ofJson (.object entries) = .ok order)
      ↔ (∃ key, findKey "by" entries = some (.string key))
        ∧ (∀ d, findKey "dir" entries = some d → ∃ direction, decodeDirection d = .ok direction)
        ∧ ∀ d, findKey "then" entries = some d → d ≠ .null →
            ∃ order, Order.ofJson d = .ok order := by
  rw [Order.ofJson_object, ← exists_fieldOf_optionally, ← exists_fieldOf]
  constructor
  · rintro ⟨order, horder⟩
    obtain ⟨⟨_, direction, rest⟩, hparts, horder⟩ := Except.bind_eq_ok.mp horder
    obtain ⟨key, rfl⟩ := (OrderParts.exists_order _).mp ⟨order, horder⟩
    obtain ⟨hkey, hdirection, hrest⟩ := (orderEntries_eq_ok hsorted).mp hparts
    exact ⟨⟨key, fieldOf_string.mp hkey⟩, ⟨direction, hdirection⟩, ⟨rest, hrest⟩⟩
  · rintro ⟨⟨key, hkey⟩, ⟨direction, hdirection⟩, ⟨rest, hrest⟩⟩
    have hparts : orderEntries .empty entries = .ok ⟨some key, direction, rest⟩ :=
      (orderEntries_eq_ok hsorted).mpr ⟨fieldOf_string.mpr hkey, hdirection, hrest⟩
    obtain ⟨order, horder⟩ := (OrderParts.exists_order ⟨some key, direction, rest⟩).mpr ⟨key, rfl⟩
    exact ⟨order, Except.bind_eq_ok.mpr ⟨_, hparts, horder⟩⟩

/-! ## Pages -/

theorem decodeInteger_eq_ok {document : Json} {n : Int} :
    decodeInteger document = .ok n
      ↔ n < 0x8000000000000000 ∧ ∃ h, document = .number (.whole n h) := by
  constructor
  · intro h
    unfold decodeInteger at h
    split at h
    · next m hrange =>
        split at h
        · next hlt =>
            cases h
            exact ⟨hlt, hrange, rfl⟩
        · cases h
    · cases h
  · rintro ⟨hlt, hrange, rfl⟩
    rw [decodeInteger, if_pos hlt]

theorem Json.isCount_iff {document : Json} :
    document.IsCount ↔ ∃ n, decodeInteger document = .ok n ∧ 1 ≤ n ∧ n < 0x100000000 := by
  constructor
  · rintro ⟨n, h, hdocument, hlow, hhigh⟩
    exact ⟨n, decodeInteger_eq_ok.mpr ⟨by omega, h, hdocument⟩, hlow, hhigh⟩
  · rintro ⟨n, hn, hlow, hhigh⟩
    obtain ⟨-, h, hdocument⟩ := decodeInteger_eq_ok.mp hn
    exact ⟨n, h, hdocument, hlow, hhigh⟩

theorem exists_wordOf?_pos {n : Int} :
    (∃ word, wordOf? n = some word ∧ 0 < word) ↔ 1 ≤ n ∧ n < 0x100000000 := by
  simp only [wordOf?_eq_some, UInt32.lt_iff_toNat_lt, UInt32.toNat_zero]
  constructor
  · rintro ⟨word, rfl, hpos⟩
    have hlt : word.toNat < 0x100000000 := word.toNat_lt
    omega
  · rintro ⟨hlow, hhigh⟩
    have hlt : n.toNat < 0x100000000 := by omega
    refine ⟨.ofNat n.toNat, ?_⟩
    rw [UInt32.toNat_ofNat_of_lt' hlt]
    omega

theorem Page.exists_of {number size : UInt32} :
    (∃ page, Page.of number size = .ok page) ↔ 0 < number ∧ 0 < size := by
  rw [Page.of]
  split_ifs with hnumber hsize <;> simp [*]

theorem Page.exists_ofIntegers {number size : Int} :
    (∃ page, Page.ofIntegers number size = .ok page)
      ↔ (1 ≤ number ∧ number < 0x100000000) ∧ 1 ≤ size ∧ size < 0x100000000 := by
  rw [← exists_wordOf?_pos, ← exists_wordOf?_pos, Page.ofIntegers]
  cases wordOf? number <;> cases wordOf? size <;> simp [Page.exists_of]

/-- A field of a page holds a count if it starts with one. -/
theorem exists_fieldOf_count {key : String} {entries : List (String × Json)} (initial : Int)
    (hlow : 1 ≤ initial) (hhigh : initial < 0x100000000) :
    (∃ n, fieldOf key decodeInteger initial entries = .ok n ∧ 1 ≤ n ∧ n < 0x100000000)
      ↔ ∀ d, findKey key entries = some d → d.IsCount := by
  simp only [Json.isCount_iff]
  exact exists_fieldOf_good ⟨hlow, hhigh⟩

theorem exists_optionalPage_object {size : UInt32} (hsize : 0 < size)
    {entries : List (String × Json)} (hsorted : Json.SortedEntries entries) :
    (∃ page, optionalPage size (.object entries) = .ok (some page))
      ↔ (∀ d, findKey "num" entries = some d → d.IsCount)
        ∧ ∀ d, findKey "size" entries = some d → d.IsCount := by
  have hpos : 0 < size.toNat := UInt32.lt_iff_toNat_lt.mp hsize
  have hlt := size.toNat_lt
  rw [← exists_fieldOf_count 1 (by decide) (by decide),
    ← exists_fieldOf_count size.toNat (by omega) (by omega)]
  constructor
  · rintro ⟨page, hpage⟩
    obtain ⟨hn, hs⟩ := (pageEntries_eq_ok hsorted).mp (optionalPage_eq_some.mp hpage)
    obtain ⟨hnrange, hsrange⟩ :=
      Page.exists_ofIntegers.mp ⟨page, Page.ofIntegers_eq_ok.mpr ⟨rfl, rfl⟩⟩
    exact ⟨⟨_, hn, hnrange⟩, ⟨_, hs, hsrange⟩⟩
  · rintro ⟨⟨n, hn, hnrange⟩, ⟨s, hs, hsrange⟩⟩
    obtain ⟨page, hpage⟩ := Page.exists_ofIntegers.mpr ⟨hnrange, hsrange⟩
    obtain ⟨rfl, rfl⟩ := Page.ofIntegers_eq_ok.mp hpage
    exact ⟨page, optionalPage_eq_some.mpr ((pageEntries_eq_ok hsorted).mpr ⟨hn, hs⟩)⟩

/-! ## Queries -/

theorem Query.exists_ofJson_object {size : UInt32} {entries : List (String × Json)}
    (hsorted : Json.SortedEntries entries) :
    (∃ query, Query.ofJson size (.object entries) = .ok query)
      ↔ (∀ d, findKey "filter" entries = some d → d ≠ .null → ∃ f, Filter.ofJson d = .ok f)
        ∧ (∀ d, findKey "order" entries = some d → d ≠ .null → ∃ order, Order.ofJson d = .ok order)
        ∧ ∀ d, findKey "page" entries = some d → d ≠ .null →
            ∃ page, optionalPage size d = .ok (some page) := by
  have hpage : (∃ page, fieldOf "page" (optionalPage size) none entries = .ok page)
      ↔ ∀ d, findKey "page" entries = some d → d ≠ .null →
          ∃ page, optionalPage size d = .ok (some page) := by
    simp only [exists_fieldOf, exists_of_eq_none optionalPage_eq_none]
  rw [Query.ofJson, ← exists_fieldOf_optionally, ← exists_fieldOf_optionally, ← hpage]
  constructor
  · rintro ⟨query, hquery⟩
    obtain ⟨hfilter, horder, hpage⟩ := (queryEntries_eq_ok hsorted).mp hquery
    exact ⟨⟨_, hfilter⟩, ⟨_, horder⟩, ⟨_, hpage⟩⟩
  · rintro ⟨⟨filter, hfilter⟩, ⟨order, horder⟩, ⟨page, hpage⟩⟩
    exact ⟨⟨filter, order, page⟩, (queryEntries_eq_ok hsorted).mpr ⟨hfilter, horder, hpage⟩⟩

end RowQuery
