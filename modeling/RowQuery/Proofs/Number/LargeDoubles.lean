import Mathlib.Data.Nat.Log
import RowQuery.Proofs.Number.DecimalReading

/-!
# The digits of large doubles

The numbers nearest to a magnitude reach over more than one part in `10 ^ 16` of it,
so of every seventeen digits in a row one number is among them: the shortest digits
of a double are at most seventeen, or eighteen where they have been rounded up
(`Double.shortest_lt`). A double from `2 ^ 62` on is a whole number, and so are its
shortest digits with their exponent; the text of such a double is read as the
decimal of that whole number, if a decimal has room for it.
-/

namespace RowQuery

namespace Double

/-! ## Wide intervals -/

/-- An interval is wider than one part in `10 ^ 16` of its end. -/
theorem high_lt_width (place : Nat) :
    (intervalAt place).high
      < 10 ^ 16 * ((intervalAt place).high - (intervalAt place).low) := by
  cases place with
  | zero => decide
  | succ place =>
      have hbelow := unitsAt_succ place
      have habove := unitsAt_succ (place + 1)
      have hunits := unitsAt_eq (place + 1)
      have hsignificand := significandAt_lt (place + 1)
      have hshift : shiftAt (place + 1) = shiftAt place
          ∨ shiftAt (place + 1) = shiftAt place + 1
            ∧ significandAt (place + 1) = 0x10000000000000 := by
        rw [shiftAt, shiftAt, significandAt]
        split <;> omega
      dsimp only [intervalAt]
      rw [Nat.add_sub_cancel]
      rcases hshift with hsame | ⟨hnext, hleast⟩
      · have hle : significandAt (place + 1) * 2 ^ shiftAt place
            ≤ 0x1FFFFFFFFFFFFF * 2 ^ shiftAt place :=
          Nat.mul_le_mul_right _ (Nat.le_of_lt_succ hsignificand)
        have hpos := Nat.two_pow_pos (shiftAt place)
        rw [hsame] at habove hunits
        omega
      · have hpos := Nat.two_pow_pos (shiftAt place)
        rw [hnext, Nat.pow_succ] at habove hunits
        rw [hleast] at hunits
        omega

section Grid

variable {place n j : Nat}

theorem Interval.hasPoint_natCast_iff {i : Interval} {m : Nat} :
    i.HasPoint m j ↔ i.contains (m * (2 * one * 10 ^ j)) = true := by
  have hplaces : (-(j : Int)).toNat = 0 := Int.toNat_of_nonpos (by omega)
  have hscale : i.scale 1 = i := by simp only [scale, Nat.mul_one]
  rw [hasPoint_iff, hplaces, Nat.pow_zero, hscale, Int.toNat_natCast]

theorem Interval.hasPoint_natCast_iff_spans {i : Interval} {m : Nat} :
    i.HasPoint m j ↔ i.Spans (m * 10 ^ j) 1 := by
  have hplaces : (-(j : Int)).toNat = 0 := Int.toNat_of_nonpos (by omega)
  rw [HasPoint, hplaces, Nat.pow_zero, Int.toNat_natCast]

theorem le_high_of_spans (h : (intervalAt place).Spans n 1) :
    n * (2 * one) ≤ (intervalAt place).high := by
  have hle := (Interval.spans_iff.mp h).2.1
  rwa [Nat.mul_one] at hle

/-- Of the numbers with seventeen digits one is in the interval. -/
theorem exists_hasPoint_of_pow_le (h : (intervalAt place).Spans n 1) (hle : 10 ^ (j + 16) ≤ n) :
    ∃ m, 0 < m ∧ (intervalAt place).HasPoint m j := by
  have hwidth := high_lt_width place
  have hhigh := le_high_of_spans h
  have hnum : 2 * one * 10 ^ j * 10 ^ 16 ≤ n * (2 * one) := by
    rw [Nat.mul_assoc, ← Nat.pow_add, Nat.mul_comm n]
    exact Nat.mul_le_mul_left _ hle
  have hstep : 0 < 2 * one * 10 ^ j :=
    Nat.mul_pos (Nat.mul_pos Nat.two_pos one_pos) (Nat.pow_pos (by decide))
  obtain ⟨m, hpos, hm⟩ := Interval.exists_contains_mul hstep
    (show 2 * one * 10 ^ j < (intervalAt place).high - (intervalAt place).low by omega)
  exact ⟨m, hpos, Interval.hasPoint_natCast_iff.mpr hm⟩

end Grid

/-! ## Whole doubles -/

section Whole

variable {d : Double} {n j : Nat}

theorem place_ne_zero_of_spans (h : (intervalAt d.place).Spans n 1) (hn : 0 < n) :
    d.place ≠ 0 := by
  intro hzero
  have hhigh := le_high_of_spans h
  have hone := one_pos
  have hend : (intervalAt 0).high = 1 := by decide
  have hle := Nat.le_mul_of_pos_left (2 * one) hn
  rw [hzero, hend] at hhigh
  omega

/-- A large double is a whole number. -/
theorem exists_units_eq (h : 2 ^ 62 * one ≤ d.units) : ∃ n, 2 ^ 62 ≤ n ∧ d.units = n * one := by
  obtain ⟨unit, hunit, hone⟩ := exists_one_eq
  have hsignificand := significandAt_lt d.place
  rw [units, unitsAt_eq] at h ⊢
  have hshift : unit ≤ shiftAt d.place := by
    refine Nat.le_of_lt ((Nat.pow_lt_pow_iff_right Nat.one_lt_two).mp ?_)
    have hmul := Nat.mul_le_mul_right (2 ^ shiftAt d.place) (Nat.le_of_lt hsignificand)
    have hpos := Nat.two_pow_pos (shiftAt d.place)
    rw [hone] at h
    omega
  have hstep : 2 ^ shiftAt d.place = 2 ^ (shiftAt d.place - unit) * one := by
    rw [hone, ← Nat.pow_add, Nat.sub_add_cancel hshift]
  rw [hstep, ← Nat.mul_assoc] at h ⊢
  exact ⟨_, Nat.le_of_mul_le_mul_right h one_pos, rfl⟩

theorem spans_of_units_eq (h : d.units = n * one) : (intervalAt d.place).Spans n 1 := by
  have hvalue := Interval.contains_mul Nat.one_pos (contains_value d.place)
  have hnum : (intervalAt d.place).value * 1 = n * (2 * one) := by
    rw [units] at h
    rw [intervalAt, h]
    ring
  rwa [hnum] at hvalue

/-- No whole number that a double is nearest to has more than 1024 bits. -/
theorem lt_two_pow_of_spans {bits : Nat} (hbits : 1024 ≤ bits)
    (h : (intervalAt d.place).Spans n 1) : n < 2 ^ bits := by
  obtain ⟨unit, hunit, hone⟩ := exists_one_eq
  have hshift : shiftAt d.place ≤ 2045 := by
    have hplace := d.place_lt
    rw [placeLimit] at hplace
    rw [shiftAt]
    omega
  have hstep : 0x20000000000000 * 2 ^ shiftAt d.place ≤ 2 ^ bits * one := by
    calc 2 ^ 53 * 2 ^ shiftAt d.place
        = 2 ^ (53 + shiftAt d.place) := (Nat.pow_add ..).symm
      _ ≤ 2 ^ (bits + unit) := Nat.pow_le_pow_right Nat.two_pos (by omega)
      _ = 2 ^ bits * one := by rw [Nat.pow_add, hone]
  have hunits : unitsAt d.place ≤ 0x1FFFFFFFFFFFFF * 2 ^ shiftAt d.place := by
    rw [unitsAt_eq]
    exact Nat.mul_le_mul_right _ (Nat.le_of_lt_succ (significandAt_lt d.place))
  have hpos := Nat.two_pow_pos (shiftAt d.place)
  have hnum : 2 * (n * one) ≤ 2 * unitsAt d.place + 2 ^ shiftAt d.place := by
    have hhigh := le_high_of_spans h
    dsimp only [intervalAt] at hhigh
    rw [unitsAt_succ, Nat.mul_left_comm] at hhigh
    omega
  exact Nat.lt_of_mul_lt_mul_right (show n * one < 2 ^ bits * one by omega)

/-- Nor has it more than 309 digits. -/
theorem lt_of_pow_le (h : (intervalAt d.place).Spans n 1) (hle : 10 ^ j ≤ n) : j < 309 := by
  -- the exponents have names, for the powers are too large to be computed
  obtain ⟨bits, hbits⟩ : ∃ bits, bits = 1024 := ⟨_, rfl⟩
  obtain ⟨blocks, hblocks⟩ : ∃ blocks, blocks = 11 := ⟨_, rfl⟩
  have hlimit : 2 ^ bits ≤ 10 ^ (28 * blocks + 1) := by
    calc 2 ^ bits ≤ 2 ^ (93 * blocks + 1) := Nat.pow_le_pow_right Nat.two_pos (by omega)
      _ = 2 ^ (93 * blocks) * 2 := Nat.pow_succ ..
      _ ≤ 10 ^ (28 * blocks) * 10 := Nat.mul_le_mul (two_pow_mul_le blocks) (by decide)
      _ = 10 ^ (28 * blocks + 1) := (Nat.pow_succ ..).symm
  have hlt := lt_two_pow_of_spans (Nat.le_of_eq hbits.symm) h
  have hj : j < 28 * blocks + 1 := (Nat.pow_lt_pow_iff_right (show 1 < 10 by decide)).mp
    (Nat.lt_of_le_of_lt hle (Nat.lt_of_lt_of_le hlt hlimit))
  omega

/-- The shortest digits of a double stand on no finer grid than one on which the
interval has a whole number. -/
theorem le_shortest_of_hasPoint {m : Nat} (h : (intervalAt d.place).HasPoint m j) (hm : 0 < m) :
    (j : Int) ≤ d.shortest.2 := by
  have hspans := Interval.hasPoint_natCast_iff_spans.mp h
  have hpow : 10 ^ j ≤ m * 10 ^ j := Nat.le_mul_of_pos_left _ hm
  have hj := lt_of_pow_le hspans hpow
  have hplace := place_ne_zero_of_spans hspans (Nat.mul_pos hm (Nat.pow_pos (by decide)))
  have hexponent : finestGrid + (324 + j : Nat) = j := by
    rw [finestGrid]
    omega
  rw [← hexponent] at h
  have hfound := (Interval.hasPoint_searchGrid (show 324 + j ≤ 633 by omega)
    (contains_value d.place) h).2
  rw [shortest, if_neg hplace]
  rwa [hexponent] at hfound

/-- The exponent of the shortest digits leaves at most seventeen of them to a whole
number of the interval. -/
theorem le_shortest_of_pow_le (h : (intervalAt d.place).Spans n 1) (hle : 10 ^ (j + 16) ≤ n) :
    (j : Int) ≤ d.shortest.2 := by
  obtain ⟨m, hpos, hm⟩ := exists_hasPoint_of_pow_le h hle
  exact le_shortest_of_hasPoint hm hpos

/-- Twice a number in the interval of a large double is past its end. -/
theorem high_le_two_mul_low (h : (intervalAt d.place).Spans n 1) (hn : 0 < n) :
    (intervalAt d.place).high ≤ 2 * (intervalAt d.place).low := by
  have hhigh := le_high_of_spans h
  obtain ⟨hends, -⟩ := ends_intervalAt d.place
  have hlow : unitsAt d.place ≤ (intervalAt d.place).low := Nat.le_add_left _ _
  rcases shiftAt_eq_zero_or_le d.place with hzero | hle
  · obtain ⟨bits, hbits, hone⟩ := exists_one_eq
    have hlarge : 2 ^ 2 ≤ one := hone ▸ Nat.pow_le_pow_right Nat.two_pos (by omega)
    have hnum := Nat.le_mul_of_pos_left (2 * one) hn
    rw [hzero] at hends
    omega
  · have hunits : 2 * 2 ^ shiftAt d.place ≤ unitsAt d.place := by
      rw [unitsAt_eq]
      exact Nat.mul_le_mul_right _ (Nat.le_trans (by decide) hle)
    omega

/-- The shortest digits of a large double with their exponent. -/
def roundNumber (d : Double) : Nat := d.shortest.1 * 10 ^ d.shortest.2.toNat

/-- They are a whole number of the interval. -/
theorem spans_roundNumber (h : (intervalAt d.place).Spans n 1) :
    0 ≤ d.shortest.2 ∧ (intervalAt d.place).Spans d.roundNumber 1 := by
  obtain ⟨hpoint, hnonneg⟩ :=
    hasPoint_shortest (Nat.zero_le 324) (show (intervalAt d.place).Spans n (10 ^ 0) from h)
  have hexponent : 0 ≤ d.shortest.2 := by simpa using hnonneg
  have hwhole : (-d.shortest.2).toNat = 0 := Int.toNat_of_nonpos (by omega)
  rw [Interval.HasPoint, hwhole, Nat.pow_zero] at hpoint
  exact ⟨hexponent, hpoint⟩

/-- Whole numbers of one interval are near to each other. -/
theorem le_two_mul_of_spans {m : Nat} (hm : (intervalAt d.place).Spans m 1)
    (hn : (intervalAt d.place).Spans n 1) : m ≤ 2 * n := by
  rcases Nat.eq_zero_or_pos m with rfl | hpos
  · exact Nat.zero_le _
  · have hends := high_le_two_mul_low hm hpos
    have hhigh := le_high_of_spans hm
    have hlow := (Interval.spans_iff.mp hn).1
    refine Nat.le_of_mul_le_mul_right (show m * (2 * one) ≤ 2 * n * (2 * one) from ?_)
      (Nat.mul_pos Nat.two_pos one_pos)
    rw [Nat.mul_assoc 2]
    omega

theorem exists_pow_le (hn : 10 ^ 16 ≤ n) : ∃ j, 10 ^ (j + 16) ≤ n ∧ n < 10 ^ 17 * 10 ^ j := by
  have hlog : 16 ≤ Nat.log 10 n := (Nat.le_log_iff_pow_le (by decide) (by omega)).mpr hn
  refine ⟨Nat.log 10 n - 16, ?_, ?_⟩
  · rw [Nat.sub_add_cancel hlog]
    exact Nat.pow_log_le_self 10 (by omega)
  · rw [← Nat.pow_add, show 17 + (Nat.log 10 n - 16) = Nat.log 10 n + 1 by omega]
    exact Nat.lt_pow_succ_log_self (by decide) n

/-- The shortest digits of a large double are at most eighteen. -/
theorem shortest_lt (h : (intervalAt d.place).Spans n 1) (hn : 10 ^ 16 ≤ n) :
    d.shortest.1 < 10 ^ 18 := by
  obtain ⟨j, hle, hlt⟩ := exists_pow_le hn
  have hexponent := le_shortest_of_pow_le h hle
  have hdigits := le_two_mul_of_spans (spans_roundNumber h).2 h
  have hgrid : 10 ^ j ≤ 10 ^ d.shortest.2.toNat := Nat.pow_le_pow_right (by decide) (by omega)
  have hmul := Nat.mul_le_mul_left d.shortest.1 hgrid
  refine Nat.lt_of_mul_lt_mul_right (show d.shortest.1 * 10 ^ j < 10 ^ 18 * 10 ^ j from ?_)
  rw [roundNumber] at hdigits
  omega

/-- The shortest digits of a large double are at most seventeen before their zeros. -/
theorem exists_roundNumber_eq (h : (intervalAt d.place).Spans n 1)
    (hround : 10 ^ 16 ≤ d.roundNumber) : ∃ m k, m < 10 ^ 17 ∧ d.roundNumber = m * 10 ^ k := by
  obtain ⟨hnonneg, hspans⟩ := spans_roundNumber h
  obtain ⟨j, hle, hlt⟩ := exists_pow_le hround
  have hexponent := le_shortest_of_pow_le hspans hle
  have hsplit : d.roundNumber = d.shortest.1 * 10 ^ (d.shortest.2.toNat - j) * 10 ^ j := by
    rw [roundNumber, Nat.mul_assoc, ← Nat.pow_add, Nat.sub_add_cancel (by omega)]
  refine ⟨_, j, ?_, hsplit⟩
  rw [hsplit] at hlt
  exact Nat.lt_of_mul_lt_mul_right hlt

/-- Numbers of an interval that are some way apart are closer than its steps. -/
theorem mul_one_le_of_spans {a b gap : Nat} (ha : (intervalAt d.place).Spans a 1)
    (hb : (intervalAt d.place).Spans b 1) (hgap : a + gap ≤ b) :
    gap * one ≤ 2 ^ shiftAt d.place := by
  have hlow := (Interval.spans_iff.mp ha).1
  have hhigh := le_high_of_spans hb
  have hends := (ends_intervalAt d.place).1
  have hmul := Nat.mul_le_mul_right (2 * one) hgap
  rw [Nat.add_mul, Nat.mul_left_comm gap] at hmul
  omega

/-- A number of at most fifteen digits before its zeros that is a double is the shortest
digits of it. -/
theorem roundNumber_eq {m k : Nat} (hunits : d.units = m * 10 ^ k * one) (hpos : 0 < m)
    (hm : m < 0x10000000000000) : d.roundNumber = m * 10 ^ k := by
  have hspans := spans_of_units_eq hunits
  have hexponent := le_shortest_of_hasPoint (Interval.hasPoint_natCast_iff_spans.mpr hspans) hpos
  obtain ⟨-, hround⟩ := spans_roundNumber hspans
  have hsplit : d.roundNumber = d.shortest.1 * 10 ^ (d.shortest.2.toNat - k) * 10 ^ k := by
    rw [roundNumber, Nat.mul_assoc, ← Nat.pow_add, Nat.sub_add_cancel (by omega)]
  rw [hsplit] at hround ⊢
  generalize d.shortest.1 * 10 ^ (d.shortest.2.toNat - k) = digits at hround ⊢
  by_contra hne
  -- two numbers of the grid would make the steps so wide that the digits of one are more
  have hwide : 10 ^ k * one ≤ 2 ^ shiftAt d.place := by
    rcases Nat.lt_or_gt_of_ne (fun heq : digits = m => hne (heq ▸ rfl)) with hlt | hgt
    · refine mul_one_le_of_spans hround hspans ?_
      rw [← Nat.succ_mul]
      exact Nat.mul_le_mul_right _ hlt
    · refine mul_one_le_of_spans hspans hround ?_
      rw [← Nat.succ_mul]
      exact Nat.mul_le_mul_right _ hgt
  rw [units, unitsAt_eq] at hunits
  rcases shiftAt_eq_zero_or_le d.place with hzero | hle
  · obtain ⟨unit, hunit, hone⟩ := exists_one_eq
    have hlarge : 2 ^ 2 ≤ one := hone ▸ Nat.pow_le_pow_right Nat.two_pos (by omega)
    have hmul := Nat.le_mul_of_pos_left one (Nat.pow_pos (show 0 < 10 by decide) (n := k))
    rw [hzero] at hwide
    omega
  · have hlow := Nat.mul_le_mul_right (2 ^ shiftAt d.place) hle
    have hhigh := Nat.mul_le_mul_left m hwide
    have hmul := Nat.mul_le_mul_right (2 ^ shiftAt d.place) (Nat.le_of_lt_succ hm)
    have hpow := Nat.two_pow_pos (shiftAt d.place)
    rw [← Nat.mul_assoc] at hhigh
    omega

end Whole

end Double

namespace Decimal

/-! ## The decimal of a large double -/

/-- A number with one digit before its point is a whole number once the point is moved
past all its places. -/
theorem scaleUp?_of_scale_le {x : Decimal} {power : Nat} (hle : x.scale ≤ power)
    (hdigits : 10 ^ x.scale ≤ x.coefficient) :
    x.scaleUp? power = of? x.negative (x.coefficient * 10 ^ (power - x.scale)) 0 := by
  rw [scaleUp?]
  split
  · next hge => rw [Nat.le_antisymm hge hle, Nat.sub_self, Nat.pow_zero, Nat.mul_one]
  · split
    · next hlong =>
        have hwide : 10 ^ 29 ≤ x.coefficient * 10 ^ (power - x.scale) := by
          calc 10 ^ 29 ≤ 10 ^ power := Nat.pow_le_pow_right (by decide) hlong
            _ = 10 ^ x.scale * 10 ^ (power - x.scale) := by
                rw [← Nat.pow_add, Nat.add_sub_cancel' hle]
            _ ≤ x.coefficient * 10 ^ (power - x.scale) := Nat.mul_le_mul_right _ hdigits
        have hout : ¬x.coefficient * 10 ^ (power - x.scale) < coefficientLimit := by
          rw [coefficientLimit]
          omega
        have hnone : of? x.negative (x.coefficient * 10 ^ (power - x.scale)) 0 = none :=
          dif_neg fun hfits => hout hfits.1
        exact hnone.symm
    · rfl

theorem lt_length_digitsOf_add {digits zeros width : Nat} (h : 10 ^ width < digits * 10 ^ zeros) :
    width < (digitsOf digits).length + zeros := by
  refine (Nat.pow_lt_pow_iff_right (show 1 < 10 by decide)).mp (Nat.lt_of_lt_of_le h ?_)
  rw [Nat.pow_add]
  exact Nat.mul_le_mul_right _ (Nat.le_of_lt (lt_pow_length_digitsOf digits))

/-- The text of a large double is read as the whole number of its shortest digits. -/
theorem ofText?_text_of_large {d : Double} (h : 2 ^ 62 * Double.one ≤ d.units) :
    ofText? d.text = of? d.negative d.roundNumber 0 := by
  obtain ⟨n, hn, hunits⟩ := Double.exists_units_eq h
  have hspans := Double.spans_of_units_eq hunits
  have hdigits := Double.shortest_lt hspans (by omega)
  obtain ⟨hexponent, hround⟩ := Double.spans_roundNumber hspans
  have hvalue := Double.le_two_mul_of_spans hspans hround
  rw [Double.roundNumber] at hvalue ⊢
  rw [Double.text]
  generalize d.shortest = shortest at hexponent hvalue hdigits ⊢
  obtain ⟨digits, exponent⟩ := shortest
  dsimp only at hexponent hvalue hdigits ⊢
  have hpos : 0 < digits := by
    rcases Nat.eq_zero_or_pos digits with hzero | hpos
    · rw [hzero, Nat.zero_mul] at hvalue
      omega
    · exact hpos
  -- the digits with their exponent are past the range of positional text
  have hlong : 16 < (digitsOf digits).length + exponent.toNat :=
    lt_length_digitsOf_add (show 10 ^ 16 < digits * 10 ^ exponent.toNat by omega)
  have hshort : (digitsOf digits).length ≤ 18 := (length_digitsOf_le_iff (by decide)).mpr hdigits
  have hleast := pow_length_digitsOf_le hpos
  obtain ⟨m, hm, hscale, hcoefficient⟩ :=
    exists_scientificDigits_eq digits (exponent + (digitsOf digits).length - 1)
  have hfits : m.coefficient < coefficientLimit := by
    rw [hcoefficient, coefficientLimit]
    omega
  have hroom : m.scale ≤ maxScale := by
    rw [hscale, maxScale]
    omega
  have hlength := length_digitsOf_pos digits
  have hmoved : (exponent + (digitsOf digits).length - 1).natAbs - m.scale = exponent.toNat := by
    omega
  have hsign : (d.negative && decide (m.coefficient ≠ 0)) = d.negative := by
    rw [hcoefficient, decide_eq_true (Nat.pos_iff_ne_zero.mp hpos), Bool.and_true]
  rw [if_neg (by omega), hm, if_neg (by omega), ofText?_scientificUp hfits hroom,
    scaleUp?_of_scale_le (show m.scale ≤ _ by omega)
      (show 10 ^ m.scale ≤ m.coefficient by rwa [hscale, hcoefficient])]
  dsimp only [ofNumeral]
  rw [hsign, hmoved, hcoefficient]

end Decimal

end RowQuery
