import RowQuery.Proofs.Number.Rounding

/-!
# The shortest digits of a double

The digits that `Double.shortest` finds are a number in the interval of the
magnitude (`Double.hasPoint_digits`), on the coarsest decimal grid that has one
there; the finest grid it looks at has one in every interval. An interval that
stands below `2 ^ 52` units of a grid of at most 22 places has at most one point
of that grid, so if a number of fifteen digits is in it, then the shortest digits
are that number.
-/

namespace RowQuery

namespace Double

namespace Interval

variable {i : Interval}

/-! ## Points of a grid -/

/-- Between two numbers of the interval there are only numbers of it. -/
theorem contains_of_le {a b n : Nat} (ha : i.contains a = true) (hb : i.contains b = true)
    (hle : a ≤ n) (hge : n ≤ b) : i.contains n = true := by
  rw [contains_iff] at ha hb ⊢
  refine ⟨by omega, by omega, fun hopen => ?_⟩
  have hlow := (ha.2.2 hopen).1
  have hhigh := (hb.2.2 hopen).2
  omega

theorem contains_of_multiple?_eq_some {step n : Nat} (h : i.multiple? step = some n) :
    i.contains (n * step) = true := by
  rw [multiple?] at h
  split at h
  · cases h
  · rename_i hbelow _
    exact Option.some.inj h ▸ hbelow
  · rename_i _ habove
    exact Option.some.inj h ▸ habove
  · rename_i hbelow habove
    split at h
    · exact Option.some.inj h ▸ hbelow
    · exact Option.some.inj h ▸ habove

/-- If a multiple is in the interval, then so is one of those next to its
value. -/
theorem exists_multiple?_eq_some {step n : Nat} (hstep : 0 < step)
    (hvalue : i.contains i.value = true) (hn : i.contains (n * step) = true) :
    ∃ m, i.multiple? step = some m := by
  have hbelow : i.value / step * step ≤ i.value := Nat.div_mul_le_self _ _
  have habove : i.value ≤ (i.value / step + 1) * step :=
    Nat.le_of_lt (Nat.lt_mul_of_div_lt (Nat.lt_succ_self _) hstep)
  have hone : i.contains (i.value / step * step) = true
      ∨ i.contains ((i.value / step + 1) * step) = true := by
    rcases Nat.lt_or_ge (i.value / step) n with hlt | hge
    · exact .inr (contains_of_le hvalue hn habove (Nat.mul_le_mul_right step hlt))
    · exact .inl (contains_of_le hn hvalue (Nat.mul_le_mul_right step hge) hbelow)
  rw [multiple?]
  split
  · rename_i hleft hright
    rw [hleft, hright] at hone
    exact (hone.elim Bool.false_ne_true Bool.false_ne_true).elim
  · exact ⟨_, rfl⟩
  · exact ⟨_, rfl⟩
  · split <;> exact ⟨_, rfl⟩

/-- If a grid is finer than an interval, then the interval has a point of it. -/
theorem exists_contains_mul {step : Nat} (hstep : 0 < step)
    (hwide : step < i.high - i.low) : ∃ m, 0 < m ∧ i.contains (m * step) = true := by
  have hbelow := Nat.div_mul_le_self i.low step
  have habove := Nat.lt_mul_of_div_lt (Nat.lt_succ_self (i.low / step)) hstep
  refine ⟨i.low / step + 1, Nat.succ_pos _, ?_⟩
  rw [contains_iff]
  rw [Nat.succ_eq_add_one] at habove
  rw [Nat.add_mul, Nat.one_mul] at habove ⊢
  omega

/-- The interval has the number `n * 10 ^ exponent`. -/
def HasPoint (i : Interval) (n : Nat) (exponent : Int) : Prop :=
  i.Spans (n * 10 ^ exponent.toNat) (10 ^ (-exponent).toNat)

theorem hasPoint_neg_iff {n places : Nat} :
    i.HasPoint n (-places) ↔ i.Spans n (10 ^ places) := by
  rw [HasPoint, Int.toNat_of_nonpos (by omega), Int.neg_neg, Int.toNat_natCast, Nat.pow_zero,
    Nat.mul_one]

theorem hasPoint_iff {n : Nat} {exponent : Int} :
    i.HasPoint n exponent
      ↔ (i.scale (10 ^ (-exponent).toNat)).contains (n * (2 * one * 10 ^ exponent.toNat))
        = true := by
  have hnum : n * 10 ^ exponent.toNat * (2 * one) = n * (2 * one * 10 ^ exponent.toNat) := by ring
  rw [HasPoint, Spans, hnum]

/-- Grids finer than one are searched in smaller units. -/
theorem onGrid?_eq (exponent : Int) :
    i.onGrid? exponent
      = (i.scale (10 ^ (-exponent).toNat)).multiple? (2 * one * 10 ^ exponent.toNat) := by
  cases exponent with
  | ofNat k =>
      have hscale : i.scale (10 ^ (-Int.ofNat k).toNat) = i := by
        have hzero : (-Int.ofNat k).toNat = 0 := Int.toNat_of_nonpos (by simp)
        simp only [hzero, scale, Nat.pow_zero, Nat.mul_one]
      rw [hscale]
      rfl
  | negSucc k =>
      have hunits : 2 * one * 10 ^ (Int.negSucc k).toNat = 2 * one := by
        rw [Int.toNat_negSucc, Nat.pow_zero, Nat.mul_one]
      rw [hunits, Int.neg_negSucc]
      rfl

theorem hasPoint_of_onGrid?_eq_some {exponent : Int} {n : Nat}
    (h : i.onGrid? exponent = some n) : i.HasPoint n exponent := by
  rw [onGrid?_eq] at h
  exact hasPoint_iff.mpr (contains_of_multiple?_eq_some h)

theorem exists_onGrid?_eq_some {exponent : Int} {n : Nat} (hvalue : i.contains i.value = true)
    (hn : i.HasPoint n exponent) : ∃ m, i.onGrid? exponent = some m := by
  have hten : ∀ k, 0 < 10 ^ k := fun k => Nat.pow_pos (by decide)
  rw [onGrid?_eq]
  exact exists_multiple?_eq_some (Nat.mul_pos (Nat.mul_pos Nat.two_pos one_pos) (hten _))
    (contains_mul (hten _) hvalue) (hasPoint_iff.mp hn)

/-- A search finds a point, and on no finer grid than one that has a point. -/
theorem hasPoint_searchGrid {steps j : Nat} (hj : j ≤ steps) {n : Nat}
    (hvalue : i.contains i.value = true) (hn : i.HasPoint n (finestGrid + j)) :
    i.HasPoint (searchGrid i steps).1 (searchGrid i steps).2
      ∧ finestGrid + j ≤ (searchGrid i steps).2 := by
  obtain ⟨m, hm⟩ := exists_onGrid?_eq_some hvalue hn
  induction steps with
  | zero =>
      obtain rfl : j = 0 := Nat.le_zero.mp hj
      rw [Int.ofNat_zero, Int.add_zero] at hm
      rw [searchGrid, hm, Option.getD_some]
      exact ⟨hasPoint_of_onGrid?_eq_some hm, Int.le_refl _⟩
  | succ steps ih =>
      rw [searchGrid]
      split
      · rename_i k hk
        exact ⟨hasPoint_of_onGrid?_eq_some hk, by omega⟩
      · rename_i hnone
        refine ih (Nat.le_of_lt_succ (Nat.lt_of_le_of_ne hj ?_))
        rintro rfl
        rw [Int.natCast_succ] at hm
        exact absurd (hnone.symm.trans hm) nofun

end Interval

/-! ## Digits of few places -/

/-- The neighbours of a magnitude are at most a step away. -/
theorem ends_intervalAt (place : Nat) :
    (intervalAt place).high ≤ (intervalAt place).low + 2 * 2 ^ shiftAt place
      ∧ 2 * unitsAt place ≤ (intervalAt place).low + 2 ^ shiftAt place := by
  have hbelow : unitsAt place ≤ unitsAt (place - 1) + 2 ^ shiftAt place := by
    cases place with
    | zero => exact Nat.le_add_right _ _
    | succ place =>
        have hshift : shiftAt place ≤ shiftAt (place + 1) := by
          rw [shiftAt, shiftAt]
          omega
        rw [unitsAt_succ, Nat.add_sub_cancel]
        exact Nat.add_le_add_left (Nat.pow_le_pow_right Nat.two_pos hshift) _
  dsimp only [intervalAt]
  rw [unitsAt_succ]
  omega

/-- Two numbers of one grid in an interval are at least as far apart as the grid
is wide. -/
theorem one_le_of_spans {place m n den : Nat} (hm : (intervalAt place).Spans m den)
    (hn : (intervalAt place).Spans n den) (hne : m ≠ n) : one ≤ 2 ^ shiftAt place * den := by
  have hwidth := Nat.mul_le_mul_right den (ends_intervalAt place).1
  have hsteps : ((intervalAt place).low + 2 * 2 ^ shiftAt place) * den
      = (intervalAt place).low * den + 2 * (2 ^ shiftAt place * den) := by ring
  rw [Interval.spans_iff] at hm hn
  rcases Nat.lt_or_gt_of_ne hne with hlt | hgt
  · have hgap : (m + 1) * (2 * one) ≤ n * (2 * one) := Nat.mul_le_mul_right _ hlt
    rw [Nat.succ_mul] at hgap
    omega
  · have hgap : (n + 1) * (2 * one) ≤ m * (2 * one) := Nat.mul_le_mul_right _ hgt
    rw [Nat.succ_mul] at hgap
    omega

/-- An interval has at most one number of few digits on a grid of few places:
where it is wide, its numbers have more digits. -/
theorem Interval.Spans.num_eq {place m n den : Nat} (hm : (intervalAt place).Spans m den)
    (hn : (intervalAt place).Spans n den) (hden : den ≤ 10 ^ 22) (hlt : n < 0x10000000000000) :
    m = n := by
  by_contra hne
  have hone := one_le_of_spans hm hn hne
  have hshift : shiftAt place ≠ 0 := by
    intro hzero
    obtain ⟨bits, hbits, hpower⟩ := exists_one_eq
    have hle : 2 ^ 74 ≤ one := hpower ▸ Nat.pow_le_pow_right Nat.two_pos (by omega)
    rw [hzero] at hone
    omega
  have hsignificand : 0x10000000000000 ≤ significandAt place :=
    (shiftAt_eq_zero_or_le place).resolve_left hshift
  have hunits : 0x10000000000000 * (2 ^ shiftAt place * den) ≤ unitsAt place * den := by
    rw [unitsAt_eq, Nat.mul_assoc]
    exact Nat.mul_le_mul_right _ hsignificand
  have hends := Nat.mul_le_mul_right den (ends_intervalAt place).2
  have hlow := (Interval.spans_iff.mp hn).1
  have hnum : n * (2 * one) ≤ 0xFFFFFFFFFFFFF * (2 * one) :=
    Nat.mul_le_mul_right _ (Nat.le_of_lt_succ hlt)
  rw [Nat.add_mul, Nat.mul_assoc] at hends
  have hpos := one_pos
  omega

/-- The digits of a number on a grid of `places` places. -/
theorem Interval.HasPoint.spans {i : Interval} {n places : Nat} {exponent : Int}
    (h : i.HasPoint n exponent) (hle : -places ≤ exponent) :
    i.Spans (n * 10 ^ (exponent + places).toNat) (10 ^ places) := by
  have hten : 0 < 10 ^ (places - (-exponent).toNat) := Nat.pow_pos (by decide)
  have hplaces : 10 ^ (-exponent).toNat * 10 ^ (places - (-exponent).toNat) = 10 ^ places := by
    rw [← Nat.pow_add, Nat.add_sub_cancel' (by omega)]
  have hdigits : n * 10 ^ exponent.toNat * 10 ^ (places - (-exponent).toNat)
      = n * 10 ^ (exponent + places).toNat := by
    have hsum : exponent.toNat + (places - (-exponent).toNat) = (exponent + places).toNat := by
      omega
    rw [Nat.mul_assoc, ← Nat.pow_add, hsum]
  rw [← hplaces, ← hdigits]
  exact h.mul hten

theorem spans_zero {den : Nat} (hden : 0 < den) : (intervalAt 0).Spans 0 den := by
  have hunits : unitsAt 0 = 0 := rfl
  have hvalue := Interval.contains_mul hden (contains_value 0)
  have hnum : 0 * (2 * one) = (intervalAt 0).value * den := by
    rw [intervalAt, hunits, Nat.zero_mul, Nat.mul_zero, Nat.zero_mul]
  rw [Interval.Spans, hnum]
  exact hvalue

/-- The digits of a double are a number in its interval, and on no finer grid
than one that has a number there. -/
theorem hasPoint_shortest {d : Double} {n places : Nat} (hplaces : places ≤ 324)
    (h : (intervalAt d.place).Spans n (10 ^ places)) :
    (intervalAt d.place).HasPoint d.shortest.1 d.shortest.2 ∧ -places ≤ d.shortest.2 := by
  by_cases hzero : d.place = 0
  · rw [shortest, if_pos hzero, hzero]
    exact ⟨spans_zero Nat.one_pos, by omega⟩
  · have hexponent : finestGrid + (324 - places : Nat) = -places := by
      rw [finestGrid]
      omega
    have hpoint : (intervalAt d.place).HasPoint n (finestGrid + (324 - places : Nat)) := by
      rw [hexponent]
      exact Interval.hasPoint_neg_iff.mpr h
    have hsteps : 324 - places ≤ 633 := by omega
    have hfound := Interval.hasPoint_searchGrid hsteps (contains_value d.place) hpoint
    rw [shortest, if_neg hzero]
    rwa [hexponent] at hfound

/-! ## The finest grid -/

theorem two_pow_mul_le (k : Nat) : 2 ^ (93 * k) ≤ 10 ^ (28 * k) := by
  rw [Nat.pow_mul, Nat.pow_mul]
  exact Nat.pow_le_pow_left (by decide) k

/-- A unit is wider than the finest grid. -/
theorem exists_one_lt : ∃ places, places = 324 ∧ one < 10 ^ places := by
  obtain ⟨bits, hbits, hone⟩ := exists_one_eq
  obtain ⟨blocks, hblocks⟩ : ∃ blocks, blocks = 11 := ⟨_, rfl⟩
  refine ⟨28 * blocks + 16, by omega, ?_⟩
  have hsum : bits = 93 * blocks + 51 := by omega
  calc one = 2 ^ (93 * blocks) * 2 ^ 51 := by rw [hone, hsum, Nat.pow_add]
    _ < 10 ^ (28 * blocks) * 10 ^ 16 :=
        Nat.mul_lt_mul_of_le_of_lt (two_pow_mul_le blocks) (by decide) (Nat.pow_pos (by decide))
    _ = 10 ^ (28 * blocks + 16) := (Nat.pow_add ..).symm

/-- The interval of a double that is not zero is two half units wide at least, so it
has a number on the finest grid. -/
theorem exists_spans_of_ne_zero {place : Nat} (hplace : place ≠ 0) :
    ∃ n places, places = 324 ∧ (intervalAt place).Spans n (10 ^ places) := by
  obtain ⟨places, hplaces, hone⟩ := exists_one_lt
  have hwidth : (intervalAt place).low + 2 ≤ (intervalAt place).high := by
    obtain ⟨below, rfl⟩ := Nat.exists_eq_succ_of_ne_zero hplace
    dsimp only [intervalAt]
    have hpos := Nat.two_pow_pos (shiftAt below)
    have hpos' := Nat.two_pow_pos (shiftAt (below + 1))
    rw [Nat.succ_eq_add_one, Nat.add_sub_cancel, unitsAt_succ (below + 1), unitsAt_succ]
    omega
  have hscaled := Nat.mul_le_mul_right (10 ^ places) hwidth
  rw [Nat.add_mul] at hscaled
  have hwide : 2 * one < ((intervalAt place).scale (10 ^ places)).high
      - ((intervalAt place).scale (10 ^ places)).low := by
    dsimp only [Interval.scale]
    omega
  obtain ⟨n, -, hn⟩ := Interval.exists_contains_mul (Nat.mul_pos Nat.two_pos one_pos) hwide
  exact ⟨n, places, hplaces, hn⟩

/-- The shortest digits of a double are a number in its interval. -/
theorem hasPoint_digits (d : Double) : (intervalAt d.place).HasPoint d.shortest.1 d.shortest.2 := by
  by_cases hzero : d.place = 0
  · have hspans : (intervalAt d.place).Spans 0 (10 ^ 0) := by
      rw [hzero]
      exact spans_zero (Nat.pow_pos (by decide))
    exact (hasPoint_shortest (Nat.zero_le 324) hspans).1
  · obtain ⟨n, places, hplaces, hspans⟩ := exists_spans_of_ne_zero hzero
    exact (hasPoint_shortest (Nat.le_of_eq hplaces) hspans).1

/-- Only zero has no digits. -/
theorem shortest_of_eq_zero {d : Double} (h : d.shortest.1 = 0) : d.shortest.2 = 0 := by
  have hpoint := hasPoint_digits d
  have hden : 0 < 10 ^ (-d.shortest.2).toNat := Nat.pow_pos (by decide)
  rw [Interval.HasPoint, h, Nat.zero_mul] at hpoint
  have hzero : d.place = 0 := hpoint.place_eq hden (spans_zero hden)
  rw [shortest, if_pos hzero]

/-! ## Short digits -/

/-- If a number of few digits and places is in the interval of a double, then the
shortest digits are that number. -/
theorem shortest_of_spans {d : Double} {n places : Nat} (hlt : n < 0x10000000000000)
    (hplaces : places ≤ 22) (h : (intervalAt d.place).Spans n (10 ^ places)) :
    -places ≤ d.shortest.2 ∧ (d.shortest.1 = 0 → d.shortest.2 = 0)
      ∧ d.shortest.1 * 10 ^ (d.shortest.2 + places).toNat = n := by
  have hden : 10 ^ places ≤ 10 ^ 22 := Nat.pow_le_pow_right (by decide) hplaces
  obtain ⟨hpoint, hle⟩ := hasPoint_shortest (by omega) h
  exact ⟨hle, shortest_of_eq_zero, (hpoint.spans hle).num_eq h hden hlt⟩

/-- Whether a double is near to a number of at most fifteen digits and from one
to 22 places. -/
def IsShort (d : Double) : Prop :=
  ∃ n places, n < 0x10000000000000 ∧ 0 < places ∧ places ≤ 22
    ∧ d.place = nearestPlace n (10 ^ places)

end Double

end RowQuery
