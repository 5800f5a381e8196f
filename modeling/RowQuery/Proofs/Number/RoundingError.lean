import Mathlib.Algebra.Order.Field.Rat
import Mathlib.Algebra.Order.Ring.Abs
import Mathlib.Tactic.FieldSimp
import Mathlib.Tactic.Linarith
import Mathlib.Tactic.Positivity
import RowQuery.Proofs.Number.ShortestDigits

/-!
# How far rounding is off

`Double.magnitude` is the exact number of a double without its sign. One rounding of
a number that is not too large gives a double, and misses the number by at most
`2 ^ -52` of what is one more than it; the bound for products, quotients and sums
follows, since each of them is rounded once. A product of whole numbers is exact
if it has few enough bits, and a magnitude less than a half away from a whole
number is nearest to that number.
-/

namespace RowQuery

namespace Double

/-- The number of a double without its sign. -/
def magnitude (d : Double) : ℚ := d.units / one

theorem one_pos_rat : (0 : ℚ) < one := by exact_mod_cast one_pos

theorem magnitude_of_units {d : Double} {n : Nat} (h : d.units = n * one) : d.magnitude = n := by
  have hone := one_pos_rat
  rw [magnitude, h]
  push_cast
  field_simp

theorem le_units_of_le_magnitude {d : Double} {n : Nat} (h : (n : ℚ) ≤ d.magnitude) :
    n * one ≤ d.units := by
  rw [magnitude, le_div_iff₀ one_pos_rat] at h
  exact_mod_cast h

/-! ## One rounding -/

section Nearest

variable {num den top : Nat}

/-- The nearest place is off by at most half a step. -/
theorem nearestPlace_bounds (num : Nat) (hden : 0 < den) :
    2 * unitsAt (nearestPlace num den) * den
        ≤ 2 * (num * one) + 2 ^ shiftAt (nearestPlace num den) * den
      ∧ 2 * (num * one)
        ≤ 2 * unitsAt (nearestPlace num den) * den + 2 ^ shiftAt (nearestPlace num den) * den := by
  obtain ⟨hlow, hhigh, -⟩ := Interval.spans_iff.mp (spans_nearestPlace num hden)
  generalize nearestPlace num den = place at hlow hhigh ⊢
  have hnum : num * (2 * one) = 2 * (num * one) := by ring
  have hends := Nat.mul_le_mul_right den (ends_intervalAt place).2
  have htop : (intervalAt place).high = 2 * unitsAt place + 2 ^ shiftAt place := by
    rw [intervalAt, unitsAt_succ]
    ring
  rw [Nat.add_mul] at hends
  rw [htop, Nat.add_mul] at hhigh
  omega

/-- A step is small beside the number that is rounded. -/
theorem step_nearestPlace_le (num : Nat) (hden : 0 < den) :
    0x10000000000000 * (2 ^ shiftAt (nearestPlace num den) * den) ≤ 2 * ((num + den) * one) := by
  have hbound := (nearestPlace_bounds num hden).1
  generalize nearestPlace num den = place at hbound ⊢
  rcases shiftAt_eq_zero_or_le place with hzero | hle
  · obtain ⟨bits, hbits, hone⟩ := exists_one_eq
    have hsmall : 2 ^ 74 ≤ one := hone ▸ Nat.pow_le_pow_right Nat.two_pos (by omega)
    have hprod := Nat.mul_le_mul_left den hsmall
    rw [hzero, Nat.add_mul]
    omega
  · have hunits : 0x10000000000000 * (2 ^ shiftAt place * den) ≤ unitsAt place * den := by
      rw [unitsAt_eq, ← Nat.mul_assoc]
      exact Nat.mul_le_mul_right den (Nat.mul_le_mul_right _ hle)
    rw [Nat.mul_assoc] at hbound
    rw [Nat.add_mul]
    omega

/-- A number that is not too large has a double, which is near to it. -/
theorem exists_ofRatio_near (negative : Bool) (htop : top ≤ 900) (hden : 0 < den)
    (hlt : num < den * 2 ^ top) :
    ∃ d, ofRatio negative num den = some d
      ∧ |d.magnitude - num / den| ≤ (num / den + 1 : ℚ) / 2 ^ 52 := by
  have hplace := nearestPlace_lt_of_lt_two_pow htop hden hlt
  obtain ⟨hlow, hhigh⟩ := nearestPlace_bounds num hden
  have hstep := step_nearestPlace_le num hden
  refine ⟨⟨negative, nearestPlace num den, hplace⟩, dif_pos hplace, ?_⟩
  rw [magnitude, units]
  dsimp only
  generalize unitsAt (nearestPlace num den) = magnitude at hlow hhigh ⊢
  generalize 2 ^ shiftAt (nearestPlace num den) = step at hlow hhigh hstep
  have hdenpos : (0 : ℚ) < den := by exact_mod_cast hden
  have honepos := one_pos_rat
  have hlowq : (2 * magnitude * den : ℚ) ≤ 2 * (num * one) + step * den := by exact_mod_cast hlow
  have hhighq : (2 * (num * one) : ℚ) ≤ 2 * magnitude * den + step * den := by
    exact_mod_cast hhigh
  have hstepq : (2 ^ 52 * (step * den) : ℚ) ≤ 2 * ((num + den) * one) := by exact_mod_cast hstep
  have hdiff : (magnitude / one - num / den : ℚ) = (magnitude * den - num * one) / (one * den) := by
    field_simp
  have hbound : ((num / den + 1) / 2 ^ 52 : ℚ) = ((num + den) * one / 2 ^ 52) / (one * den) := by
    field_simp
  rw [hdiff, hbound, abs_div, abs_of_pos (mul_pos honepos hdenpos)]
  refine div_le_div_of_nonneg_right (abs_le.mpr ⟨?_, ?_⟩) (mul_pos honepos hdenpos).le
  · linarith
  · linarith

end Nearest

/-! ## Arithmetic -/

section Arithmetic

variable {a b : Double} {top : Nat}

theorem exists_div?_near (htop : top ≤ 900) (hb : 0 < b.units)
    (hlt : a.magnitude / b.magnitude < 2 ^ top) :
    ∃ d, a.div? b = some d
      ∧ |d.magnitude - a.magnitude / b.magnitude| ≤ (a.magnitude / b.magnitude + 1) / 2 ^ 52 := by
  have hbpos : (0 : ℚ) < b.units := by exact_mod_cast hb
  have hquotient : a.magnitude / b.magnitude = a.units / b.units :=
    div_div_div_cancel_right₀ one_pos_rat.ne' _ _
  rw [hquotient] at hlt ⊢
  rw [div_lt_iff₀ hbpos] at hlt
  refine exists_ofRatio_near _ htop hb ?_
  rw [Nat.mul_comm]
  exact_mod_cast hlt

theorem exists_mul?_near (htop : top ≤ 900) (hlt : a.magnitude * b.magnitude < 2 ^ top) :
    ∃ d, a.mul? b = some d
      ∧ |d.magnitude - a.magnitude * b.magnitude| ≤ (a.magnitude * b.magnitude + 1) / 2 ^ 52 := by
  have hone : (0 : ℚ) < (one * one : Nat) := by exact_mod_cast Nat.mul_pos one_pos one_pos
  have hproduct : a.magnitude * b.magnitude = (a.units * b.units : Nat) / (one * one : Nat) := by
    rw [magnitude, magnitude, div_mul_div_comm]
    push_cast
    rfl
  rw [hproduct] at hlt ⊢
  rw [div_lt_iff₀ hone] at hlt
  refine exists_ofRatio_near _ htop (Nat.mul_pos one_pos one_pos) ?_
  rw [Nat.mul_comm (one * one)]
  exact_mod_cast hlt

theorem exists_addMagnitudes?_near (htop : top ≤ 900)
    (hlt : a.magnitude + b.magnitude < 2 ^ top) :
    ∃ d, a.addMagnitudes? b = some d
      ∧ |d.magnitude - (a.magnitude + b.magnitude)|
        ≤ (a.magnitude + b.magnitude + 1) / 2 ^ 52 := by
  have hsum : a.magnitude + b.magnitude = (a.units + b.units : Nat) / one := by
    rw [magnitude, magnitude, ← add_div]
    push_cast
    rfl
  rw [hsum] at hlt ⊢
  rw [div_lt_iff₀ one_pos_rat] at hlt
  refine exists_ofRatio_near _ htop one_pos ?_
  rw [Nat.mul_comm one]
  exact_mod_cast hlt

/-- A product of whole numbers that has at most 53 bits before its zeros is
exact. -/
theorem exists_mul?_eq {m n bits twos : Nat} (ha : a.units = m * one) (hb : b.units = n * one)
    (hbits : bits < 0x20000000000000) (htwos : twos ≤ 900) (hproduct : m * n = bits * 2 ^ twos) :
    ∃ d, a.mul? b = some d ∧ d.units = m * n * one := by
  obtain ⟨place, hplace, hunits⟩ := exists_unitsAt_eq hbits htwos
  have hnearest : nearestPlace (a.units * b.units) (one * one) = place := by
    refine nearestPlace_eq_of_units (Nat.mul_pos one_pos one_pos) ?_
    rw [hunits, ha, hb, ← hproduct]
    ring
  rw [mul?, ofRatio, hnearest]
  refine ⟨_, dif_pos hplace, ?_⟩
  rw [units, hunits, hproduct]

/-- A magnitude close to a whole number is nearest to it. -/
theorem nearestWhole_eq {d : Double} {n : Nat} (h : |d.magnitude - n| < 1 / 2) :
    d.nearestWhole = n := by
  obtain ⟨hlow, hhigh⟩ := abs_lt.mp h
  have honepos := one_pos_rat
  have hunits : (d.units : ℚ) = d.magnitude * one := by
    rw [magnitude]
    field_simp
  have hlower : (n * (2 * one) : ℚ) ≤ 2 * d.units + one := by
    rw [hunits]
    nlinarith
  have hupper : (2 * d.units + one : ℚ) < (n + 1) * (2 * one) := by
    rw [hunits]
    nlinarith
  rw [nearestWhole]
  refine Nat.div_eq_of_lt_le ?_ ?_
  · exact_mod_cast hlower
  · exact_mod_cast hupper

end Arithmetic

end Double

end RowQuery
