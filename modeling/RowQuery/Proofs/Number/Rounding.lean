import Mathlib.Tactic.Ring
import RowQuery.Number.Shortest

/-!
# Rounding to the nearest double

The magnitudes of doubles ascend with their places. Each is nearest to the
numbers of one interval, whose ends are half way to its neighbours; two
intervals have no number in common, since of two neighbours only the one with an
even significand takes the end between them. `Double.nearestPlace` gives the
place whose interval has the quotient, so it is settled by any interval that has
it.
-/

namespace RowQuery

namespace Double

/-! ## Places -/

/-- A place counts the significands below it. -/
theorem shiftAt_mul_add_significandAt (place : Nat) :
    shiftAt place * 0x10000000000000 + significandAt place = place := by
  rw [shiftAt, significandAt]
  split <;> omega

theorem significandAt_lt (place : Nat) : significandAt place < 0x20000000000000 := by
  rw [significandAt]
  split <;> omega

theorem shiftAt_eq_zero_or_le (place : Nat) :
    shiftAt place = 0 ∨ 0x10000000000000 ≤ significandAt place := by
  rw [shiftAt, significandAt]
  split <;> omega

/-- Neighbours have significands of different parity. -/
theorem significandAt_mod_two (place : Nat) : significandAt place % 2 = place % 2 := by
  rw [significandAt]
  split <;> omega

theorem unitsAt_eq (place : Nat) : unitsAt place = significandAt place * 2 ^ shiftAt place :=
  Nat.shiftLeft_eq _ _

/-- The magnitude of a significand that stands at a shift. Twice the least
significand is that of the next shift. -/
theorem unitsAt_of_quotient {shift quotient : Nat} (hle : quotient ≤ 0x20000000000000)
    (hshift : shift = 0 ∨ 0x10000000000000 ≤ quotient) :
    unitsAt (shift * 0x10000000000000 + quotient) = quotient * 2 ^ shift := by
  rw [unitsAt_eq]
  rcases Nat.lt_or_eq_of_le hle with hlt | heq
  · have hparts : significandAt (shift * 0x10000000000000 + quotient) = quotient
        ∧ shiftAt (shift * 0x10000000000000 + quotient) = shift := by
      rw [shiftAt, significandAt]
      split <;> omega
    rw [hparts.1, hparts.2]
  · have hparts : significandAt (shift * 0x10000000000000 + quotient) = 0x10000000000000
        ∧ shiftAt (shift * 0x10000000000000 + quotient) = shift + 1 := by
      rw [shiftAt, significandAt]
      split <;> omega
    rw [hparts.1, hparts.2, heq, Nat.pow_succ]
    ring

theorem unitsAt_succ (place : Nat) : unitsAt (place + 1) = unitsAt place + 2 ^ shiftAt place := by
  have hplace := shiftAt_mul_add_significandAt place
  have hlt := significandAt_lt place
  have hshift := shiftAt_eq_zero_or_le place
  calc unitsAt (place + 1)
      = unitsAt (shiftAt place * 0x10000000000000 + (significandAt place + 1)) := by
        rw [← Nat.add_assoc, hplace]
    _ = (significandAt place + 1) * 2 ^ shiftAt place :=
        unitsAt_of_quotient hlt (by omega)
    _ = unitsAt place + 2 ^ shiftAt place := by rw [unitsAt_eq, Nat.succ_mul]

theorem unitsAt_strictMono : StrictMono unitsAt := by
  refine strictMono_nat_of_lt_succ fun place => ?_
  rw [unitsAt_succ]
  exact Nat.lt_add_of_pos_right (Nat.two_pow_pos _)

/-! ## Intervals -/

/-- One is a power of two. Its exponent is kept behind a name, so that the power
is never worked out. -/
theorem exists_one_eq : ∃ bits, bits = 1074 ∧ one = 2 ^ bits := by
  refine ⟨1074, rfl, ?_⟩
  generalize hbits : 1074 = bits
  rw [one, hbits, Nat.one_shiftLeft]

theorem one_pos : 0 < one := by
  obtain ⟨bits, -, hone⟩ := exists_one_eq
  rw [hone]
  exact Nat.two_pow_pos bits

theorem Interval.contains_iff (i : Interval) (n : Nat) :
    i.contains n = true
      ↔ i.low ≤ n ∧ n ≤ i.high ∧ (i.closed = false → i.low < n ∧ n < i.high) := by
  rw [contains]
  cases i.closed with
  | true => simp
  | false =>
      simp only [Bool.false_eq_true, reduceIte, Bool.and_eq_true, decide_eq_true_eq, forall_const]
      omega

/-- The interval has the number `num / den`. -/
def Interval.Spans (i : Interval) (num den : Nat) : Prop :=
  (i.scale den).contains (num * (2 * one)) = true

theorem Interval.spans_iff {i : Interval} {num den : Nat} :
    i.Spans num den ↔ i.low * den ≤ num * (2 * one) ∧ num * (2 * one) ≤ i.high * den
      ∧ (i.closed = false → i.low * den < num * (2 * one) ∧ num * (2 * one) < i.high * den) :=
  contains_iff (i.scale den) _

theorem Interval.contains_mul {i : Interval} {n k : Nat} (hk : 0 < k) (h : i.contains n = true) :
    (i.scale k).contains (n * k) = true := by
  rw [contains_iff] at h ⊢
  exact ⟨Nat.mul_le_mul_right k h.1, Nat.mul_le_mul_right k h.2.1,
    fun hopen => ⟨Nat.mul_lt_mul_of_pos_right (h.2.2 hopen).1 hk,
      Nat.mul_lt_mul_of_pos_right (h.2.2 hopen).2 hk⟩⟩

theorem Interval.scale_scale (i : Interval) (m n : Nat) :
    (i.scale m).scale n = i.scale (m * n) := by
  simp only [scale, Nat.mul_assoc]

theorem Interval.Spans.mul {i : Interval} {num den k : Nat} (hk : 0 < k) (h : i.Spans num den) :
    i.Spans (num * k) (den * k) := by
  have hnum : num * k * (2 * one) = num * (2 * one) * k := by ring
  rw [Spans, hnum, ← scale_scale]
  exact contains_mul hk h

theorem closed_intervalAt (place : Nat) : (intervalAt place).closed = (place % 2 == 0) := by
  simp only [intervalAt, significandAt_mod_two]

/-- The interval of a smaller place ends where that of a greater one starts, or
before. -/
theorem high_le_low_of_lt {p q : Nat} (h : p < q) : (intervalAt p).high ≤ (intervalAt q).low := by
  have hbelow := unitsAt_strictMono.monotone (show p ≤ q - 1 by omega)
  have habove := unitsAt_strictMono.monotone (show p + 1 ≤ q by omega)
  exact Nat.add_le_add hbelow habove

theorem high_lt_low_of_lt {p q : Nat} (h : p + 1 < q) :
    (intervalAt p).high < (intervalAt q).low := by
  have hbelow := unitsAt_strictMono.monotone (show p ≤ q - 1 by omega)
  have habove := unitsAt_strictMono h
  exact Nat.add_lt_add_of_le_of_lt hbelow habove

/-- A number is in the interval of one place only. -/
theorem Interval.Spans.place_le {p q num den : Nat} (hden : 0 < den)
    (hp : (intervalAt p).Spans num den) (hq : (intervalAt q).Spans num den) : q ≤ p := by
  rw [spans_iff] at hp hq
  by_contra hlt
  have hends : (intervalAt q).low * den ≤ (intervalAt p).high * den := hq.1.trans hp.2.1
  have hadjacent : q = p + 1 := by
    by_contra hne
    have hgap := Nat.mul_lt_mul_of_pos_right (high_lt_low_of_lt (show p + 1 < q by omega)) hden
    omega
  have hjoin := Nat.mul_le_mul_right den (high_le_low_of_lt (show p < q by omega))
  -- of two neighbours one is odd, and the interval of that one lacks the common end
  rcases Nat.mod_two_eq_zero_or_one p with heven | hodd
  · have hopen : (intervalAt q).closed = false := by
      rw [closed_intervalAt, beq_eq_false_iff_ne]
      omega
    have := hq.2.2 hopen
    omega
  · have hopen : (intervalAt p).closed = false := by
      rw [closed_intervalAt, beq_eq_false_iff_ne]
      omega
    have := hp.2.2 hopen
    omega

theorem Interval.Spans.place_eq {p q num den : Nat} (hden : 0 < den)
    (hp : (intervalAt p).Spans num den) (hq : (intervalAt q).Spans num den) : p = q :=
  Nat.le_antisymm (hq.place_le hden hp) (hp.place_le hden hq)

/-! ## The nearest place -/

section Nearest

variable {shift quotient rest num den : Nat}

theorem unitsAt_of_quotient_succ (hlt : quotient < 0x20000000000000)
    (hshift : shift = 0 ∨ 0x10000000000000 ≤ quotient) :
    unitsAt (shift * 0x10000000000000 + quotient + 1) = (quotient + 1) * 2 ^ shift := by
  rw [Nat.add_assoc]
  exact unitsAt_of_quotient (Nat.succ_le_of_lt hlt) (hshift.imp_right Nat.le_succ_of_le)

/-- The parity of a place is that of its quotient. -/
theorem closed_of_quotient (hlt : quotient % 2 = 0) :
    (intervalAt (shift * 0x10000000000000 + quotient)).closed = true := by
  rw [closed_intervalAt, beq_iff_eq]
  omega

/-- A quotient up to the middle between two magnitudes is in the interval of the
lower one. -/
theorem spans_of_rest_le (hlt : quotient < 0x20000000000000)
    (hshift : shift = 0 ∨ 0x10000000000000 ≤ quotient)
    (hnum : num * one = quotient * (den * 2 ^ shift) + rest) (hden : 0 < den)
    (hrest : 2 * rest ≤ den * 2 ^ shift) (htie : 2 * rest = den * 2 ^ shift → quotient % 2 = 0) :
    (intervalAt (shift * 0x10000000000000 + quotient)).Spans num den := by
  have hunits := unitsAt_of_quotient (Nat.le_of_lt hlt) hshift
  have hstep : 0 < den * 2 ^ shift := Nat.mul_pos hden (Nat.two_pow_pos _)
  have hscaled : num * (2 * one) = 2 * (quotient * (den * 2 ^ shift)) + 2 * rest := by
    rw [← Nat.mul_add, ← hnum]
    ring
  have hhigh : (intervalAt (shift * 0x10000000000000 + quotient)).high * den
      = 2 * (quotient * (den * 2 ^ shift)) + den * 2 ^ shift := by
    rw [intervalAt, hunits, unitsAt_of_quotient_succ hlt hshift]
    ring
  have hlow : (intervalAt (shift * 0x10000000000000 + quotient)).low * den
      = unitsAt (shift * 0x10000000000000 + quotient - 1) * den
        + quotient * (den * 2 ^ shift) := by
    rw [intervalAt, hunits]
    ring
  have hvalue : unitsAt (shift * 0x10000000000000 + quotient) * den
      = quotient * (den * 2 ^ shift) := by
    rw [hunits]
    ring
  have hbelow := Nat.mul_le_mul_right den (unitsAt_strictMono.monotone
    (Nat.sub_le (shift * 0x10000000000000 + quotient) 1))
  have hbelow_of_pos : 0 < shift * 0x10000000000000 + quotient →
      unitsAt (shift * 0x10000000000000 + quotient - 1) * den
        < unitsAt (shift * 0x10000000000000 + quotient) * den := fun hpos =>
    Nat.mul_lt_mul_of_pos_right (unitsAt_strictMono (Nat.sub_lt hpos Nat.one_pos)) hden
  rw [Interval.spans_iff, hscaled, hhigh, hlow]
  refine ⟨by omega, by omega, fun hopen => ?_⟩
  have hodd : quotient % 2 ≠ 0 := by
    intro heven
    rw [closed_of_quotient heven] at hopen
    cases hopen
  have hstrict := hbelow_of_pos (by omega)
  have hne : 2 * rest ≠ den * 2 ^ shift := fun htied => hodd (htie htied)
  omega

/-- A quotient from the middle between two magnitudes on is in the interval of
the upper one. -/
theorem spans_of_le_rest (hlt : quotient < 0x20000000000000)
    (hshift : shift = 0 ∨ 0x10000000000000 ≤ quotient)
    (hnum : num * one = quotient * (den * 2 ^ shift) + rest)
    (hrest : rest < den * 2 ^ shift) (hle : den * 2 ^ shift ≤ 2 * rest)
    (htie : 2 * rest = den * 2 ^ shift → quotient % 2 = 1) :
    (intervalAt (shift * 0x10000000000000 + (quotient + 1))).Spans num den := by
  have hunits := unitsAt_of_quotient (Nat.le_of_lt hlt) hshift
  have hnext := unitsAt_of_quotient_succ hlt hshift
  have hscaled : num * (2 * one) = 2 * (quotient * (den * 2 ^ shift)) + 2 * rest := by
    rw [← Nat.mul_add, ← hnum]
    ring
  have hlow : (intervalAt (shift * 0x10000000000000 + quotient + 1)).low * den
      = 2 * (quotient * (den * 2 ^ shift)) + den * 2 ^ shift := by
    rw [intervalAt, hnext, Nat.add_sub_cancel, hunits]
    ring
  have hhigh : 2 * (quotient * (den * 2 ^ shift)) + 2 * (den * 2 ^ shift)
      ≤ (intervalAt (shift * 0x10000000000000 + quotient + 1)).high * den := by
    have habove := unitsAt_strictMono.monotone
      (Nat.le_succ (shift * 0x10000000000000 + quotient + 1))
    calc 2 * (quotient * (den * 2 ^ shift)) + 2 * (den * 2 ^ shift)
        = ((quotient + 1) * 2 ^ shift + (quotient + 1) * 2 ^ shift) * den := by ring
      _ ≤ (intervalAt (shift * 0x10000000000000 + quotient + 1)).high * den := by
          rw [intervalAt, ← hnext]
          exact Nat.mul_le_mul_right den (Nat.add_le_add_left habove _)
  rw [← Nat.add_assoc, Interval.spans_iff, hscaled, hlow]
  refine ⟨by omega, by omega, fun hopen => ?_⟩
  have heven : (quotient + 1) % 2 ≠ 0 := by
    intro heven
    rw [Nat.add_assoc, closed_of_quotient heven] at hopen
    cases hopen
  have hne : 2 * rest ≠ den * 2 ^ shift := by
    intro htied
    have := htie htied
    omega
  omega

/-- The quotient at the shift of a number has at most 53 bits, and all of them
unless the shift is none. -/
theorem quotient_bounds (n : Nat) :
    n / 2 ^ (n.log2 - 52) < 0x20000000000000
      ∧ (n.log2 - 52 = 0 ∨ 0x10000000000000 ≤ n / 2 ^ (n.log2 - 52)) := by
  have hpos : 0 < 2 ^ (n.log2 - 52) := Nat.two_pow_pos _
  have hlt : n < 2 ^ (n.log2 + 1) := Nat.lt_log2_self
  rcases Nat.le_total n.log2 52 with hle | hge
  · have hzero : n.log2 - 52 = 0 := Nat.sub_eq_zero_of_le hle
    have hpow : 2 ^ (n.log2 + 1) ≤ 2 ^ 53 := Nat.pow_le_pow_right (by decide) (by omega)
    rw [hzero]
    omega
  · have hne : n ≠ 0 := by
      rintro rfl
      simp at hge
    have hle : 2 ^ n.log2 ≤ n := Nat.log2_self_le hne
    have hsplit : 2 ^ n.log2 = 2 ^ 52 * 2 ^ (n.log2 - 52) := by
      rw [← Nat.pow_add]
      congr 1
      omega
    rw [Nat.pow_succ, hsplit] at hlt
    rw [hsplit] at hle
    refine ⟨(Nat.div_lt_iff_lt_mul hpos).mpr ?_, .inr ((Nat.le_div_iff_mul_le hpos).mpr hle)⟩
    omega

/-- The nearest place is the one whose interval has the number. -/
theorem spans_nearestPlace (num : Nat) {den : Nat} (hden : 0 < den) :
    (intervalAt (nearestPlace num den)).Spans num den := by
  have hquotient : num * one / den / 2 ^ ((num * one / den).log2 - 52)
      = num * one / (den * 2 ^ ((num * one / den).log2 - 52)) := Nat.div_div_eq_div_mul _ _ _
  obtain ⟨hlt, hshift⟩ := quotient_bounds (num * one / den)
  rw [hquotient] at hlt hshift
  have hstep : 0 < den * 2 ^ ((num * one / den).log2 - 52) :=
    Nat.mul_pos hden (Nat.two_pow_pos _)
  have hnum : num * one
      = num * one / (den * 2 ^ ((num * one / den).log2 - 52))
          * (den * 2 ^ ((num * one / den).log2 - 52))
        + num * one % (den * 2 ^ ((num * one / den).log2 - 52)) := (Nat.div_add_mod' _ _).symm
  have hrest := Nat.mod_lt (num * one) hstep
  rw [nearestPlace, Nat.shiftLeft_eq]
  split
  · rename_i hup
    exact spans_of_le_rest hlt hshift hnum hrest (by omega) (by omega)
  · rename_i hdown
    exact spans_of_rest_le hlt hshift hnum hden (by omega) (by omega)

/-- Any place whose interval has a number is its nearest one. -/
theorem nearestPlace_eq_of_spans {place : Nat} (hden : 0 < den)
    (h : (intervalAt place).Spans num den) : nearestPlace num den = place :=
  (spans_nearestPlace num hden).place_eq hden h

/-- A magnitude is in its own interval. -/
theorem contains_value (place : Nat) :
    (intervalAt place).contains (intervalAt place).value = true := by
  have hbelow := unitsAt_strictMono.monotone (Nat.sub_le place 1)
  have habove : unitsAt place < unitsAt (place + 1) := unitsAt_strictMono (Nat.lt_succ_self place)
  have hbelow_of_pos : 0 < place → unitsAt (place - 1) < unitsAt place :=
    fun hpos => unitsAt_strictMono (Nat.sub_lt hpos Nat.one_pos)
  rw [Interval.contains_iff, closed_intervalAt, beq_eq_false_iff_ne]
  dsimp only [intervalAt]
  omega

/-- A magnitude is its own nearest one. -/
theorem nearestPlace_eq_of_units {place : Nat} (hden : 0 < den)
    (h : unitsAt place * den = num * one) : nearestPlace num den = place := by
  refine nearestPlace_eq_of_spans hden ?_
  have hscaled : num * (2 * one) = (intervalAt place).value * den := by
    rw [intervalAt, Nat.mul_assoc 2, h]
    ring
  rw [Interval.Spans, hscaled]
  exact Interval.contains_mul hden (contains_value place)

/-- A number below `2 ^ 53` times a power of two has a magnitude of its own. -/
theorem exists_unitsAt_eq {n twos : Nat} (hn : n < 0x20000000000000) (htwos : twos ≤ 900) :
    ∃ place, place < placeLimit ∧ unitsAt place = n * 2 ^ twos * one := by
  obtain ⟨bits, hbits, hone⟩ := exists_one_eq
  rcases Nat.eq_zero_or_pos n with rfl | hpos
  · refine ⟨0, by decide, ?_⟩
    rw [Nat.zero_mul, Nat.zero_mul]
    rfl
  · have hlog : n.log2 < 53 := (Nat.log2_lt (Nat.pos_iff_ne_zero.mp hpos)).mpr hn
    have hle : 2 ^ n.log2 ≤ n := Nat.log2_self_le (Nat.pos_iff_ne_zero.mp hpos)
    have hlt : n < 2 ^ n.log2 * 2 := by
      rw [← Nat.pow_succ]
      exact Nat.lt_log2_self
    have hfull : 2 ^ n.log2 * 2 ^ (52 - n.log2) = 0x10000000000000 := by
      rw [← Nat.pow_add, Nat.add_sub_cancel' (by omega)]
    have hpad : 0 < 2 ^ (52 - n.log2) := Nat.two_pow_pos _
    have hlow : 0x10000000000000 ≤ n * 2 ^ (52 - n.log2) :=
      hfull ▸ Nat.mul_le_mul_right _ hle
    have hhigh : n * 2 ^ (52 - n.log2) < 0x20000000000000 := by
      have hmul := Nat.mul_lt_mul_of_pos_right hlt hpad
      rw [Nat.mul_right_comm, hfull] at hmul
      exact hmul
    have hpowers : 2 ^ (52 - n.log2) * 2 ^ (bits + twos + n.log2 - 52) = 2 ^ twos * one := by
      have hsum : 52 - n.log2 + (bits + twos + n.log2 - 52) = twos + bits := by omega
      rw [hone, ← Nat.pow_add, ← Nat.pow_add, hsum]
    have hvalue : n * 2 ^ (52 - n.log2) * 2 ^ (bits + twos + n.log2 - 52) = n * 2 ^ twos * one := by
      rw [Nat.mul_assoc, hpowers, Nat.mul_assoc]
    have hshift : bits + twos + n.log2 - 52 ≤ 1974 := by omega
    refine ⟨_, ?_, (unitsAt_of_quotient (Nat.le_of_lt hhigh) (.inr hlow)).trans hvalue⟩
    rw [placeLimit]
    omega

/-- Numbers far below the largest magnitude are not too large. -/
theorem nearestPlace_lt_of_lt_two_pow {top : Nat} (htop : top ≤ 900) (hden : 0 < den)
    (h : num < den * 2 ^ top) : nearestPlace num den < placeLimit := by
  obtain ⟨bits, hbits, hone⟩ := exists_one_eq
  have hscaled : num * one / den < 2 ^ (bits + top) := by
    rw [Nat.div_lt_iff_lt_mul hden, Nat.pow_add, ← hone]
    calc num * one < den * 2 ^ top * one := Nat.mul_lt_mul_of_pos_right h one_pos
      _ = one * 2 ^ top * den := by ring
  have hlog : (num * one / den).log2 ≤ bits + top := by
    rcases Nat.eq_zero_or_pos (num * one / den) with hzero | hpos
    · rw [hzero, Nat.log2_zero]
      exact Nat.zero_le _
    · exact Nat.le_of_lt ((Nat.log2_lt (Nat.pos_iff_ne_zero.mp hpos)).mpr hscaled)
  obtain ⟨hlt, -⟩ := quotient_bounds (num * one / den)
  rw [Nat.div_div_eq_div_mul] at hlt
  rw [nearestPlace, Nat.shiftLeft_eq, placeLimit]
  split <;> omega

theorem nearestPlace_lt (hden : 0 < den) (h : num < den * 0x20000000000000) :
    nearestPlace num den < placeLimit :=
  nearestPlace_lt_of_lt_two_pow (show 53 ≤ 900 by decide) hden h

end Nearest

end Double

end RowQuery
