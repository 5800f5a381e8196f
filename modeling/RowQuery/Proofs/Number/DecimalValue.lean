import Mathlib.Algebra.Order.Field.Rat
import Mathlib.Order.Compare
import Mathlib.Tactic.FieldSimp
import Mathlib.Tactic.Positivity
import RowQuery.Number.Decimal

/-!
# The number of a decimal

`Decimal.value` is the rational number that a decimal stands for. Decimals
compare as these numbers do, whatever their scale and whichever sign their zero
carries. A machine integer keeps its number when it becomes a decimal, and a
decimal becomes a machine integer if and only if it has the number of one.
-/

namespace RowQuery

namespace Decimal

/-- The number that a decimal stands for. -/
def value (d : Decimal) : ℚ := d.signed / 10 ^ d.scale

/-- Cross-multiplying by the two powers of ten compares the numbers. -/
theorem compare_eq_compare_value (a b : Decimal) :
    a.compare b = Ord.compare a.value b.value := by
  have hpos : (0 : ℚ) < 10 ^ a.scale * 10 ^ b.scale := by positivity
  have ha : ((a.signed * Nat.pow 10 b.scale : ℤ) : ℚ)
      = a.value * (10 ^ a.scale * 10 ^ b.scale) := by
    push_cast [Nat.pow_eq, value]
    field_simp
  have hb : ((b.signed * Nat.pow 10 a.scale : ℤ) : ℚ)
      = b.value * (10 ^ a.scale * 10 ^ b.scale) := by
    push_cast [Nat.pow_eq, value]
    field_simp
  calc a.compare b
      = cmp (a.signed * Nat.pow 10 b.scale) (b.signed * Nat.pow 10 a.scale) :=
        (cmp_eq_compare _ _).symm
    _ = cmp (a.value * (10 ^ a.scale * 10 ^ b.scale))
          (b.value * (10 ^ a.scale * 10 ^ b.scale)) := by
        rw [← ha, ← hb, (Int.cast_strictMono (R := ℚ)).cmp_map_eq]
    _ = cmp a.value b.value := cmp_mul_pos_right hpos _ _
    _ = Ord.compare a.value b.value := cmp_eq_compare _ _

theorem numEq_iff {a b : Decimal} : a.numEq b = true ↔ a.value = b.value := by
  have hcompare : a.numEq b = true ↔ a.compare b = .eq := by
    rw [numEq, compare, beq_iff_eq, compare_eq_iff_eq]
  rw [hcompare, compare_eq_compare_value, compare_eq_iff_eq]

@[simp] theorem signed_ofInt (n : Int) (h : n.natAbs < coefficientLimit) :
    (ofInt n h).signed = n := by
  simp only [signed, ofInt, decide_eq_true_eq]
  split <;> omega

theorem value_of_scale_eq_zero {d : Decimal} (h : d.scale = 0) : d.value = d.signed := by
  rw [value, h, pow_zero, div_one]

@[simp] theorem value_ofInt (n : Int) (h : n.natAbs < coefficientLimit) :
    (ofInt n h).value = n := by
  rw [value_of_scale_eq_zero rfl, signed_ofInt]

@[simp] theorem value_ofInt64 (n : Int64) : (ofInt64 n).value = n.toInt := value_ofInt _ _

/-! ## Whole numbers -/

theorem value_eq_intCast_iff {d : Decimal} {n : Int} :
    d.value = n ↔ d.signed = n * Nat.pow 10 d.scale := by
  have hpos : (10 : ℚ) ^ d.scale ≠ 0 := by positivity
  rw [value, div_eq_iff hpos, Nat.pow_eq]
  exact_mod_cast Iff.rfl

theorem isWhole_iff {d : Decimal} :
    d.isWhole = true ↔ ((Nat.pow 10 d.scale : Nat) : Int) ∣ d.signed := by
  rw [isWhole, beq_iff_eq, ← Nat.dvd_iff_mod_eq_zero, ← Int.natCast_dvd_natCast, signed]
  split
  · rw [Int.dvd_neg]
  · rfl

theorem toInt64?_eq_some_iff {d : Decimal} {n : Int64} :
    d.toInt64? = some n ↔ d.value = n.toInt := by
  rw [value_eq_intCast_iff, toInt64?]
  constructor
  · intro h
    split at h
    · rename_i hrange
      obtain ⟨hwhole, hlower, hupper⟩ := hrange
      rw [← Option.some.inj h, Int64.toInt_ofInt_of_le hlower hupper]
      exact (Int.ediv_mul_cancel (isWhole_iff.mp hwhole)).symm
    · cases h
  · intro h
    have hpos : ((Nat.pow 10 d.scale : Nat) : Int) ≠ 0 := by
      rw [Nat.pow_eq]
      positivity
    have hwhole : d.isWhole = true := isWhole_iff.mpr ⟨n.toInt, by rw [h, mul_comm]⟩
    rw [h, Int.mul_ediv_cancel _ hpos, if_pos ⟨hwhole, n.le_toInt, n.toInt_lt⟩,
      Int64.ofInt_toInt]

end Decimal

end RowQuery
