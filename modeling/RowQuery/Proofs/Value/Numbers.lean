import RowQuery.Proofs.Value.Equality

/-!
# Numbers among values

Integers and decimals compare by the numbers they stand for, whichever of the
two they are, and filters see two of them as equal if these numbers are.
-/

namespace RowQuery

namespace Value

theorem exists_of_isNumeric {v : Value} (h : v.isNumeric = true) :
    (∃ n, v = .int n) ∨ ∃ d, v = .decimal d := by
  cases v with
  | int n => exact .inl ⟨n, rfl⟩
  | decimal d => exact .inr ⟨d, rfl⟩
  | _ => cases h

theorem isNumeric_iff_rank {v : Value} : v.isNumeric = true ↔ v.rank = 2 := by
  have h : v.isNumeric = (v.rank == 2) := by cases v <;> rfl
  rw [h, beq_iff_eq]

theorem isScalar_of_isNumeric {v : Value} (h : v.isNumeric = true) : v.isScalar = true := by
  rw [isScalar_eq, isNumeric_iff_rank.mp h]
  rfl

theorem strictOrder?_of_isNumeric {a b : Value} (ha : a.isNumeric = true)
    (hb : b.isNumeric = true) : strictOrder? a b = some (compare a.number b.number) := by
  obtain ⟨m, rfl⟩ | ⟨d, rfl⟩ := exists_of_isNumeric ha
  · obtain ⟨n, rfl⟩ | ⟨e, rfl⟩ := exists_of_isNumeric hb
    · rw [strictOrder?, number, number, compare_intCast]
    · rw [strictOrder?, number, number, Decimal.compare_eq_compare_value, Decimal.value_ofInt64]
  · obtain ⟨n, rfl⟩ | ⟨e, rfl⟩ := exists_of_isNumeric hb
    · rw [strictOrder?, number, number, Decimal.compare_eq_compare_value, Decimal.value_ofInt64]
    · rw [strictOrder?, number, number, Decimal.compare_eq_compare_value]

/-- Two numbers are equal to a filter if and only if they are one number. -/
theorem equal_iff_number_eq {a b : Value} (ha : a.isNumeric = true) (hb : b.isNumeric = true) :
    a.equal b = true ↔ a.number = b.number := by
  rw [equal_of_isScalar (isScalar_of_isNumeric ha), strictOrder?_of_isNumeric ha hb, beq_iff_eq,
    Option.some.injEq, compare_eq_iff_eq]

end Value

end RowQuery
