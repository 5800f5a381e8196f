import RowQuery.Json.Basic

/-!
# Equality of documents

Two documents are equal if and only if they are one document once no zero in
them has a sign (`Json.same_iff`), so that equality of documents is an equality:
reflexive, and equal documents are equal to the same documents.
-/

namespace RowQuery

/-! ## Tests of equality -/

/-- A test of equality: everything is equal to itself, and what is equal is equal
to the same things. -/
structure IsEquality {α : Type} (eq : α → α → Bool) : Prop where
  self : ∀ a, eq a a = true
  congr : ∀ {a b}, eq a b = true → ∀ c, eq a c = eq b c

namespace IsEquality

variable {α : Type} {eq : α → α → Bool}

theorem symm (h : IsEquality eq) {a b : α} (hab : eq a b = true) : eq b a = true :=
  (h.congr hab a).symm.trans (h.self a)

theorem comm (h : IsEquality eq) (a b : α) : eq a b = eq b a :=
  Bool.eq_iff_iff.mpr ⟨h.symm, h.symm⟩

theorem equivalence (h : IsEquality eq) : Equivalence fun a b => eq a b = true where
  refl := h.self
  symm := h.symm
  trans hab hbc := (h.congr hab _).trans hbc

theorem congr_right (h : IsEquality eq) {b b' : α} (hb : eq b b' = true) (a : α) :
    eq a b = eq a b' := by
  rw [h.comm a, h.comm a, h.congr hb]

end IsEquality

/-! ## Zeros -/

namespace Double

theorem numEq_iff {a b : Double} :
    a.numEq b = true ↔ a.place = b.place ∧ (a.negative = b.negative ∨ a.place = 0) := by
  rw [numEq, Bool.and_eq_true, Bool.or_eq_true, beq_iff_eq, beq_iff_eq, beq_iff_eq]

/-- The number; zero without its sign. -/
def unsignedZero (d : Double) : Double := if d.place = 0 then zero false else d

theorem numEq_iff_unsignedZero {a b : Double} :
    a.numEq b = true ↔ a.unsignedZero = b.unsignedZero := by
  obtain ⟨sign, place, _⟩ := a
  obtain ⟨sign', place', _⟩ := b
  rw [numEq_iff, unsignedZero, unsignedZero]
  dsimp only
  split <;> split <;> simp only [zero, mk.injEq] <;> grind

end Double

namespace JsonNumber

def unsignedZero : JsonNumber → JsonNumber
  | .whole n h => .whole n h
  | .double d => .double d.unsignedZero

theorem same_iff_unsignedZero {a b : JsonNumber} :
    a.same b = true ↔ a.unsignedZero = b.unsignedZero := by
  cases a <;> cases b <;> simp [same, unsignedZero, Double.numEq_iff_unsignedZero]

end JsonNumber

/-! ## Documents -/

namespace Json

mutual

/-- The document with every zero in it without its sign. -/
def unsignedZeros : Json → Json
  | .number n => .number n.unsignedZero
  | .array items => .array (unsignedItems items)
  | .object entries => .object (unsignedEntries entries)
  | document => document

def unsignedItems : List Json → List Json
  | [] => []
  | item :: rest => item.unsignedZeros :: unsignedItems rest

def unsignedEntries : List (String × Json) → List (String × Json)
  | [] => []
  | (key, value) :: rest => (key, value.unsignedZeros) :: unsignedEntries rest

end

mutual

/-- Signs of zeros are all that equality of documents does not see. -/
theorem same_iff : ∀ {a b : Json}, a.same b = true ↔ a.unsignedZeros = b.unsignedZeros
  | .null, b => by cases b <;> simp [same, unsignedZeros]
  | .bool _, b => by cases b <;> simp [same, unsignedZeros]
  | .number _, b => by
      cases b <;> simp [same, unsignedZeros, JsonNumber.same_iff_unsignedZero]
  | .string _, b => by cases b <;> simp [same, unsignedZeros]
  | .array _, b => by cases b <;> simp [same, unsignedZeros, sameItems_iff]
  | .object _, b => by cases b <;> simp [same, unsignedZeros, sameEntries_iff]

theorem sameItems_iff : ∀ {as bs : List Json},
    sameItems as bs = true ↔ unsignedItems as = unsignedItems bs
  | [], bs => by cases bs <;> simp [sameItems, unsignedItems]
  | _ :: _, [] => by simp [sameItems, unsignedItems]
  | _ :: _, _ :: _ => by simp [sameItems, unsignedItems, same_iff, sameItems_iff]

theorem sameEntries_iff : ∀ {as bs : List (String × Json)},
    sameEntries as bs = true ↔ unsignedEntries as = unsignedEntries bs
  | [], bs => by cases bs <;> simp [sameEntries, unsignedEntries]
  | (_, _) :: _, [] => by simp [sameEntries, unsignedEntries]
  | (_, _) :: _, (_, _) :: _ => by
      simp [sameEntries, unsignedEntries, same_iff, sameEntries_iff, and_assoc]

end

theorem isEquality_same : IsEquality same where
  self _ := same_iff.mpr rfl
  congr h c := by rw [Bool.eq_iff_iff, same_iff, same_iff, same_iff.mp h]

theorem same_self (document : Json) : document.same document = true :=
  isEquality_same.self document

end Json

end RowQuery
