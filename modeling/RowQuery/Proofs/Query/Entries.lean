import Mathlib.Tactic.SplitIfs
import RowQuery.Proofs.Fault.Success
import RowQuery.Proofs.Json.SortedKeys
import RowQuery.Query.Decode

/-!
# Reading the entries of an object

A choice that is written by name is one of the names. The entries of an object
are read one after the other, each into the field that its key names. No key
stands twice in an object, so no entry overwrites what another one left: in the
end a field holds what its own key tells, whatever else is there. `fieldOf` says
this for one field, and each of the decoders that walk through entries succeeds
if and only if all its fields do.
-/

namespace RowQuery

/-! ## Choices -/

section Choices

variable {document : Json}

theorem Operator.wireName_of_ofWireName? {name : String} {operator : Operator}
    (h : ofWireName? name = some operator) : operator.wireName = name :=
  eq_of_beq (List.find?_some (p := fun o : Operator => o.wireName == name) h)

theorem Direction.wireName_of_ofWireName? {name : String} {direction : Direction}
    (h : ofWireName? name = some direction) : direction.wireName = name :=
  eq_of_beq (List.find?_some (p := fun d : Direction => d.wireName == name) h)

/-- A choice that is not tagged is read from its name alone. -/
theorem decodeChoice_eq_ok {α : Type} {known : String → Except DecodeFault α} {a : α}
    {name : String} (hform : ∀ entries, document ≠ .object entries)
    (hname : known name = .ok a) (honly : ∀ other, known other = .ok a → name = other) :
    decodeChoice known document = .ok a ↔ document = .string name := by
  constructor
  · intro h
    cases document with
    | string other => rw [honly other h]
    | object entries => exact absurd rfl (hform entries)
    | _ => cases h
  · rintro rfl
    exact hname

theorem decodeOperator_wireName (operator : Operator) :
    decodeOperator (.string operator.wireName) = .ok operator := by
  cases operator <;> rfl

theorem decodeOperator_eq_ok {operator : Operator} (hform : ∀ entries, document ≠ .object entries) :
    decodeOperator document = .ok operator ↔ document = .string operator.wireName := by
  refine decodeChoice_eq_ok hform (decodeOperator_wireName operator) fun other hother => ?_
  split at hother
  · next found hfound =>
      cases hother
      exact Operator.wireName_of_ofWireName? hfound
  · cases hother

theorem decodeDirection_wireName (direction : Direction) :
    decodeDirection (.string direction.wireName) = .ok direction := by
  cases direction <;> rfl

theorem decodeDirection_eq_ok {direction : Direction}
    (hform : ∀ entries, document ≠ .object entries) :
    decodeDirection document = .ok direction ↔ document = .string direction.wireName := by
  refine decodeChoice_eq_ok hform (decodeDirection_wireName direction) fun other hother => ?_
  split at hother
  · next found hfound =>
      cases hother
      exact Direction.wireName_of_ofWireName? hfound
  · cases hother

end Choices

/-! ## One field -/

section Fields

variable {α : Type} {key : String} {decode : Json → Except DecodeFault α} {initial a : α}
  {entries : List (String × Json)}

/-- What a field holds when all entries are read: what stands under its key, or
what it held before. -/
def fieldOf (key : String) (decode : Json → Except DecodeFault α) (initial : α)
    (entries : List (String × Json)) : Except DecodeFault α :=
  match findKey key entries with
  | some document => decode document
  | none => .ok initial

@[simp] theorem fieldOf_nil : fieldOf key decode initial [] = .ok initial := rfl

theorem fieldOf_of_absent (h : findKey key entries = none) :
    fieldOf key decode initial entries = .ok initial := by
  rw [fieldOf, h]

@[simp] theorem fieldOf_cons_self (document : Json) (rest : List (String × Json)) :
    fieldOf key decode initial ((key, document) :: rest) = decode document := by
  rw [fieldOf, findKey, if_pos rfl]

theorem fieldOf_cons_of_ne {other : String} (h : other ≠ key) (document : Json)
    (rest : List (String × Json)) :
    fieldOf key decode initial ((other, document) :: rest) = fieldOf key decode initial rest := by
  rw [fieldOf, findKey, if_neg h, fieldOf]

/-- A field whose initial value is good ends with a good one if what stands under
its key is read as one. -/
theorem exists_fieldOf_good {P : α → Prop} (hinitial : P initial) :
    (∃ a, fieldOf key decode initial entries = .ok a ∧ P a)
      ↔ ∀ d, findKey key entries = some d → ∃ a, decode d = .ok a ∧ P a := by
  rw [fieldOf]
  cases findKey key entries with
  | none => simp [hinitial]
  | some d => simp

theorem exists_fieldOf :
    (∃ a, fieldOf key decode initial entries = .ok a)
      ↔ ∀ d, findKey key entries = some d → ∃ a, decode d = .ok a := by
  rw [fieldOf]
  cases findKey key entries with
  | none => simp
  | some d => simp

theorem exists_fieldOf_some {decode : Json → Except DecodeFault (Option α)} :
    (∃ a, fieldOf key decode none entries = .ok (some a))
      ↔ ∃ d, findKey key entries = some d ∧ ∃ a, decode d = .ok (some a) := by
  rw [fieldOf]
  cases findKey key entries with
  | none => simp
  | some d => simp

theorem fieldOf_map_some :
    fieldOf key (fun d => (decode d).map some) none entries = .ok (some a)
      ↔ ∃ d, findKey key entries = some d ∧ decode d = .ok a := by
  rw [fieldOf]
  cases findKey key entries with
  | none => simp
  | some d => simp [Except.map_eq_ok]

end Fields

/-! ## All fields -/

section Entries

variable {entries : List (String × Json)}

theorem filterEntries_eq_ok (hsorted : Json.SortedEntries entries)
    {parts result : FilterParts} :
    filterEntries parts entries = .ok result
      ↔ fieldOf "and" optionalChildren parts.and entries = .ok result.and
        ∧ fieldOf "or" optionalChildren parts.or entries = .ok result.or
        ∧ fieldOf "not" (fun d => optionally d (Filter.ofJson d)) parts.not entries
            = .ok result.not
        ∧ fieldOf "where" optionalLeaf parts.leaf entries = .ok result.leaf := by
  induction entries generalizing parts with
  | nil => cases parts; cases result; simp [filterEntries]
  | cons entry rest ih =>
      obtain ⟨key, document⟩ := entry
      have habsent := hsorted.findKey_rest
      replace ih := @ih hsorted.2.2
      rw [filterEntries]
      split_ifs with hand hor hnot hleaf
      · subst hand
        cases hread : optionalChildren document <;>
          simp [fieldOf_cons_of_ne, fieldOf_of_absent habsent, ih, hread]
      · subst hor
        cases hread : optionalChildren document <;>
          simp [fieldOf_cons_of_ne, fieldOf_of_absent habsent, ih, hread]
      · subst hnot
        cases hread : optionally document (Filter.ofJson document) <;>
          simp [fieldOf_cons_of_ne, fieldOf_of_absent habsent, ih, hread]
      · subst hleaf
        cases hread : optionalLeaf document <;>
          simp [fieldOf_cons_of_ne, fieldOf_of_absent habsent, ih, hread]
      · rw [ih, fieldOf_cons_of_ne hand, fieldOf_cons_of_ne hor, fieldOf_cons_of_ne hnot,
          fieldOf_cons_of_ne hleaf]

theorem operationEntries_eq_ok (hsorted : Json.SortedEntries entries)
    {parts result : OperationParts} :
    operationEntries parts entries = .ok result
      ↔ fieldOf "key" (fun d => (decodeString d).map some) parts.key entries = .ok result.key
        ∧ fieldOf "operator" (fun d => (decodeOperator d).map some) parts.operator entries
            = .ok result.operator
        ∧ fieldOf "value" (fun d => .ok (some { document := d, body := Filter.ofJson d }))
            parts.operand entries = .ok result.operand := by
  induction entries generalizing parts with
  | nil => cases parts; cases result; simp [operationEntries]
  | cons entry rest ih =>
      obtain ⟨key, document⟩ := entry
      have habsent := hsorted.findKey_rest
      replace ih := @ih hsorted.2.2
      rw [operationEntries]
      split_ifs with hkey hoperator hvalue
      · subst hkey
        cases hread : decodeString document <;>
          simp [fieldOf_cons_of_ne, fieldOf_of_absent habsent, ih, hread, Except.map]
      · subst hoperator
        cases hread : decodeOperator document <;>
          simp [fieldOf_cons_of_ne, fieldOf_of_absent habsent, ih, hread, Except.map]
      · subst hvalue
        simp [fieldOf_cons_of_ne, fieldOf_of_absent habsent, ih]
      · rw [ih, fieldOf_cons_of_ne hkey, fieldOf_cons_of_ne hoperator, fieldOf_cons_of_ne hvalue]

theorem orderEntries_eq_ok (hsorted : Json.SortedEntries entries) {parts result : OrderParts} :
    orderEntries parts entries = .ok result
      ↔ fieldOf "by" (fun d => (decodeString d).map some) parts.key entries = .ok result.key
        ∧ fieldOf "dir" decodeDirection parts.direction entries = .ok result.direction
        ∧ fieldOf "then" (fun d => optionally d (Order.ofJson d)) parts.rest entries
            = .ok result.rest := by
  induction entries generalizing parts with
  | nil => cases parts; cases result; simp [orderEntries]
  | cons entry rest ih =>
      obtain ⟨key, document⟩ := entry
      have habsent := hsorted.findKey_rest
      replace ih := @ih hsorted.2.2
      rw [orderEntries]
      split_ifs with hby hdir hthen
      · subst hby
        cases hread : decodeString document <;>
          simp [fieldOf_cons_of_ne, fieldOf_of_absent habsent, ih, hread, Except.map]
      · subst hdir
        cases hread : decodeDirection document <;>
          simp [fieldOf_cons_of_ne, fieldOf_of_absent habsent, ih, hread]
      · subst hthen
        cases hread : optionally document (Order.ofJson document) <;>
          simp [fieldOf_cons_of_ne, fieldOf_of_absent habsent, ih, hread]
      · rw [ih, fieldOf_cons_of_ne hby, fieldOf_cons_of_ne hdir, fieldOf_cons_of_ne hthen]

theorem pageEntries_eq_ok (hsorted : Json.SortedEntries entries) {number size n s : Int} :
    pageEntries number size entries = .ok (n, s)
      ↔ fieldOf "num" decodeInteger number entries = .ok n
        ∧ fieldOf "size" decodeInteger size entries = .ok s := by
  induction entries generalizing number size with
  | nil => simp [pageEntries]
  | cons entry rest ih =>
      obtain ⟨key, document⟩ := entry
      have habsent := hsorted.findKey_rest
      replace ih := @ih hsorted.2.2
      rw [pageEntries]
      split_ifs with hnum hsize
      · subst hnum
        cases hread : decodeInteger document <;>
          simp [fieldOf_cons_of_ne, fieldOf_of_absent habsent, ih, hread, bind, Except.bind]
      · subst hsize
        cases hread : decodeInteger document <;>
          simp [fieldOf_cons_of_ne, fieldOf_of_absent habsent, ih, hread, bind, Except.bind]
      · rw [ih, fieldOf_cons_of_ne hnum, fieldOf_cons_of_ne hsize]

theorem queryEntries_eq_ok (hsorted : Json.SortedEntries entries) {size : UInt32}
    {query result : Query} :
    queryEntries size query entries = .ok result
      ↔ fieldOf "filter" (fun d => optionally d (Filter.ofJson d)) query.filter entries
            = .ok result.filter
        ∧ fieldOf "order" (fun d => optionally d (Order.ofJson d)) query.order entries
            = .ok result.order
        ∧ fieldOf "page" (optionalPage size) query.page entries = .ok result.page := by
  induction entries generalizing query with
  | nil => cases query; cases result; simp [queryEntries]
  | cons entry rest ih =>
      obtain ⟨key, document⟩ := entry
      have habsent := hsorted.findKey_rest
      replace ih := @ih hsorted.2.2
      rw [queryEntries]
      split_ifs with hfilter horder hpage
      · subst hfilter
        cases hread : optionally document (Filter.ofJson document) <;>
          simp [fieldOf_cons_of_ne, fieldOf_of_absent habsent, ih, hread, bind, Except.bind]
      · subst horder
        cases hread : optionally document (Order.ofJson document) <;>
          simp [fieldOf_cons_of_ne, fieldOf_of_absent habsent, ih, hread, bind, Except.bind]
      · subst hpage
        cases hread : optionalPage size document <;>
          simp [fieldOf_cons_of_ne, fieldOf_of_absent habsent, ih, hread, bind, Except.bind]
      · rw [ih, fieldOf_cons_of_ne hfilter, fieldOf_cons_of_ne horder, fieldOf_cons_of_ne hpage]

end Entries

end RowQuery
