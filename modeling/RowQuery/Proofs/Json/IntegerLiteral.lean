import RowQuery.Json.Parser
import RowQuery.Proofs.Json.NumberText
import RowQuery.Proofs.Number.RoundingError

/-!
# Reading whole numbers

The digits of a whole number are read wherever a document may stand in a text
(`Json.value?_intText`). A number that a word of 64 bits holds is read as it is. Of a
longer one as many digits are gathered as a word holds, and the double of those is
multiplied by a power of ten: the number that is read is a double of about the same
size, and the same number if it has few digits before its zeros.
-/

namespace RowQuery

namespace JsonNumber

/-! ## Gathering -/

/-- What gathering leaves of a number: the digits in front, all of them or nineteen at
least, and how many others there are. -/
structure Gathered (front : Nat × Nat) (n : Nat) : Prop where
  lt : front.1 < significandLimit
  le : front.1 * 10 ^ front.2 ≤ n
  lt_succ : n < (front.1 + 1) * 10 ^ front.2
  full : front.2 = 0 ∨ significandLimit ≤ 10 * front.1 + 9

theorem gathered {digits : List Char} (hdigits : ∀ c ∈ digits, c.isDigit = true) {n : Nat}
    (hn : n < significandLimit) : Gathered (gather n digits) (Nat.ofDigitChars 10 digits n) := by
  induction digits generalizing n with
  | nil =>
      rw [gather, Nat.ofDigitChars_nil]
      exact ⟨hn, by simp, by simp, .inl rfl⟩
  | cons c rest ih =>
      obtain ⟨hc, hrest⟩ := List.forall_mem_cons.mp hdigits
      have hdigit := digit_le hc
      have hlast := ofDigitChars_lt hdigits n
      have hfirst : n * 10 ^ (rest.length + 1) ≤ Nat.ofDigitChars 10 (c :: rest) n := by
        rw [Nat.ofDigitChars_eq_ofDigitChars_zero, List.length_cons, Nat.mul_comm n]
        exact Nat.le_add_right _ _
      rw [gather, digit?_of_isDigit hc, Option.getD_some]
      split
      · next hlt =>
          rw [Nat.ofDigitChars_cons, Nat.mul_comm 10]
          exact ih hrest hlt
      · next hge =>
          refine ⟨hn, hfirst, hlast, .inr ?_⟩
          dsimp only
          omega

namespace Gathered

variable {front : Nat × Nat} {n : Nat}

theorem eq_of_eq_zero (h : Gathered front n) (hzero : front.2 = 0) : front.1 = n := by
  have hle := h.le
  have hlt := h.lt_succ
  rw [hzero] at hle hlt
  omega

/-- What is gathered of a large number is about as large. -/
theorem le_mul (h : Gathered front n) (hn : 0x8000000000000000 ≤ n) :
    7 * n ≤ 8 * (front.1 * 10 ^ front.2) := by
  have hlt := h.lt_succ
  have hmul := Nat.mul_le_mul_right (10 ^ front.2) (show 7 * (front.1 + 1) ≤ 8 * front.1 by
    rcases h.full with hzero | hfull
    · have heq := h.eq_of_eq_zero hzero
      omega
    · rw [significandLimit] at hfull
      omega)
  rw [Nat.mul_assoc, Nat.mul_assoc] at hmul
  omega

theorem pos (h : Gathered front n) (hn : 0x8000000000000000 ≤ n) : 0 < front.1 := by
  rcases Nat.eq_zero_or_pos front.1 with hzero | hpos
  · have hmul := h.le_mul hn
    rw [hzero] at hmul
    omega
  · exact hpos

/-- A decimal has no more than ten digits past those that are gathered. -/
theorem leftOut_le (h : Gathered front n) (hn : n < 0x1000000000000000000000000) :
    front.2 ≤ 10 := by
  rcases h.full with hzero | hfull
  · omega
  · rw [significandLimit] at hfull
    have hmul := Nat.mul_le_mul_right (10 ^ front.2) (show 2 ^ 60 ≤ front.1 by omega)
    have hle := h.le
    have hpow : 10 ^ front.2 < 10 ^ 11 := by omega
    exact Nat.le_of_lt_succ ((Nat.pow_lt_pow_iff_right (by decide)).mp hpow)

/-- Of a number with few digits before its zeros only zeros are left out. -/
theorem mul_eq (h : Gathered front n) {m k : Nat} (hn : n = m * 10 ^ k)
    (hm : m < 0x10000000000000) : front.2 ≤ k ∧ front.1 * 10 ^ front.2 = m * 10 ^ k := by
  rcases h.full with hzero | hfull
  · rw [h.eq_of_eq_zero hzero, hzero, Nat.pow_zero, Nat.mul_one]
    exact ⟨Nat.zero_le k, hn⟩
  · rw [significandLimit] at hfull
    have hle := h.le
    have hlt := h.lt_succ
    have hk : front.2 ≤ k := by
      refine Nat.le_of_lt ((Nat.pow_lt_pow_iff_right (show 1 < 10 by decide)).mp ?_)
      have hfront := Nat.mul_le_mul_right (10 ^ front.2) (show 2 ^ 60 ≤ front.1 by omega)
      have hdigits := Nat.mul_le_mul_right (10 ^ k) (Nat.le_of_lt hm)
      have hpow := Nat.pow_pos (show 0 < 10 by decide) (n := k)
      omega
    have hsplit : n = m * 10 ^ (k - front.2) * 10 ^ front.2 := by
      rw [hn, Nat.mul_assoc, ← Nat.pow_add, Nat.sub_add_cancel hk]
    rw [hsplit] at hle hlt
    have hten := Nat.pow_pos (show 0 < 10 by decide) (n := front.2)
    have hbelow := Nat.le_of_mul_le_mul_right hle hten
    have habove := Nat.lt_of_mul_lt_mul_right hlt
    rw [← hn, hsplit, Nat.le_antisymm hbelow (Nat.le_of_lt_succ habove)]
    exact ⟨hk, rfl⟩

end Gathered

/-! ## Scaling up -/

section Scaling

variable (negative : Bool) {significand power : Nat}

/-- A power of ten that is exact is multiplied with one rounding. -/
theorem scaled?_of_mul? {a d : Double} (hpower : power ≤ 22)
    (ha : Double.ofNat? significand = some a) (hd : a.mul? (powerOfTen power) = some d) :
    scaled? negative significand power = some { d with negative } := by
  have hlargest : power ≤ largestPower := by
    rw [largestPower]
    omega
  rw [scaled?, ha, Option.bind_eq_bind, Option.bind_some, if_pos (Int.natCast_nonneg power),
    Int.natAbs_natCast, multiplyByPower, if_pos hlargest, hd]
  rfl

theorem magnitude_powerOfTen (hpower : power ≤ 22) : (powerOfTen power).magnitude = 10 ^ power := by
  rw [Double.magnitude_of_units (units_powerOfTen hpower)]
  push_cast
  rfl

/-- The double that digits in front and a power of ten are read as is not much
smaller. -/
theorem exists_scaled?_ge (hpos : 0 < significand) (hlt : significand < significandLimit)
    (hpower : power ≤ 22) :
    ∃ d, scaled? negative significand power = some d ∧ d.negative = negative
      ∧ (3 / 4 * (significand * 10 ^ power) : ℚ) ≤ d.magnitude := by
  have hten := magnitude_powerOfTen hpower
  have hone : (1 : ℚ) ≤ significand := by exact_mod_cast hpos
  have hpow : (1 : ℚ) ≤ 10 ^ power := one_le_pow₀ (by norm_num)
  obtain ⟨a, ha, hanear⟩ := Double.exists_ofRatio_near false (show 64 ≤ 900 by decide) Nat.one_pos
    (show significand < 1 * 2 ^ 64 from Nat.lt_of_lt_of_eq hlt (by decide))
  rw [Nat.cast_one, div_one] at hanear
  obtain ⟨hlow, hhigh⟩ := abs_le.mp hanear
  have hlarge : (7 / 8 * significand : ℚ) ≤ a.magnitude := by linarith
  have hbound : a.magnitude * (powerOfTen power).magnitude < 2 ^ 200 := by
    have hsmall : (significand : ℚ) < 2 ^ 64 := by exact_mod_cast hlt
    have hlimit : (10 ^ power : ℚ) ≤ 10 ^ 22 := pow_le_pow_right₀ (by norm_num) hpower
    rw [hten]
    calc a.magnitude * 10 ^ power
        ≤ 2 ^ 65 * 10 ^ 22 := mul_le_mul (by linarith) hlimit (by positivity) (by positivity)
      _ < 2 ^ 200 := by norm_num
  obtain ⟨d, hd, hdnear⟩ := Double.exists_mul?_near (by decide) hbound
  refine ⟨_, scaled?_of_mul? negative hpower ha hd, rfl, ?_⟩
  show (3 / 4 * (significand * 10 ^ power) : ℚ) ≤ d.magnitude
  rw [hten] at hdnear
  obtain ⟨hbelow, -⟩ := abs_le.mp hdnear
  have hproduct : (7 / 8 * (significand * 10 ^ power) : ℚ) ≤ a.magnitude * 10 ^ power := by
    rw [← mul_assoc]
    exact mul_le_mul_of_nonneg_right hlarge (by positivity)
  have hleast : (1 : ℚ) ≤ significand * 10 ^ power := one_le_mul_of_one_le_of_one_le hone hpow
  linarith

/-- Where the bits of a number before its zeros fit a double, its power of ten is
exact. -/
theorem power_le_of_mul_lt {m k : Nat} (hpos : 0 < m) (hm : m * 5 ^ k < 0x20000000000000) :
    k ≤ 22 := by
  have hfives := Nat.le_mul_of_pos_left (5 ^ k) hpos
  have hpow : 5 ^ k < 5 ^ 23 := by omega
  exact Nat.le_of_lt_succ ((Nat.pow_lt_pow_iff_right (by decide)).mp hpow)

/-- A number of few digits before its zeros is read as itself. -/
theorem exists_scaled?_eq {m k : Nat} (hn : significand * 10 ^ power = m * 10 ^ k)
    (hm : m * 5 ^ k < 0x20000000000000) (hpower : power ≤ k) (hk : k ≤ 22) :
    ∃ d, scaled? negative significand power = some d ∧ d.negative = negative
      ∧ d.units = m * 10 ^ k * Double.one := by
  have hfront : significand = m * 10 ^ (k - power) := by
    refine Nat.mul_right_cancel (Nat.pow_pos (show 0 < 10 by decide) (n := power)) ?_
    rw [hn, Nat.mul_assoc, ← Nat.pow_add, Nat.sub_add_cancel hpower]
  have hsplit : significand = m * 5 ^ (k - power) * 2 ^ (k - power) := by
    rw [hfront, Nat.mul_assoc, ← Nat.mul_pow]
  have hbits : m * 5 ^ (k - power) < 0x20000000000000 :=
    Nat.lt_of_le_of_lt
      (Nat.mul_le_mul_left m (Nat.pow_le_pow_right (by decide) (Nat.sub_le k power))) hm
  obtain ⟨a, ha, haunits⟩ := ofNat?_of_lt hbits (show k - power ≤ 900 by omega)
  rw [← hsplit] at ha haunits
  have hproduct : significand * 10 ^ power = m * 5 ^ k * 2 ^ k := by
    rw [hn, Nat.mul_assoc m, ← Nat.mul_pow]
  obtain ⟨d, hd, hunits⟩ := Double.exists_mul?_eq haunits
    (units_powerOfTen (Nat.le_trans hpower hk)) hm (show k ≤ 900 by omega) hproduct
  refine ⟨_, scaled?_of_mul? negative (Nat.le_trans hpower hk) ha hd, rfl, ?_⟩
  rw [← hn]
  exact hunits

end Scaling

/-! ## Whole numbers -/

section Large

variable {negative : Bool} {n : Nat}

theorem ofDigits?_of_not {significand leftOut : Nat}
    (h : ¬(leftOut = 0 ∧ -0x8000000000000000 ≤ signedNumber negative significand
      ∧ signedNumber negative significand < 0x10000000000000000)) :
    ofDigits? negative significand leftOut
      = (scaled? negative significand leftOut).map .double := by
  by_cases hrange : -0x8000000000000000 ≤ signedNumber negative significand
      ∧ signedNumber negative significand < 0x10000000000000000
  · exact (dif_pos hrange).trans (if_neg fun hexact => h ⟨hexact.1, hrange⟩)
  · exact dif_neg hrange

/-- A whole number that no word holds is read as a double. -/
theorem exists_ofText?_large (hlimit : n < 0x1000000000000000000000000)
    (hlarge : ¬(-0x8000000000000000 ≤ signedNumber negative n
      ∧ signedNumber negative n < 0x10000000000000000)) :
    ∃ d, ofText? (signedText negative (digitsOf n)) = some (.double d) ∧ d.negative = negative
      ∧ 2 ^ 62 * Double.one ≤ d.units
      ∧ ∀ m k, n = m * 10 ^ k → m < 0x10000000000000 → m * 5 ^ k < 0x20000000000000 →
          d.units = m * 10 ^ k * Double.one := by
  have hn : 0x8000000000000000 ≤ n := by
    rw [signedNumber] at hlarge
    split at hlarge <;> omega
  have hfront : Gathered (gather 0 (digitsOf n)) n := by
    have hread : Gathered (gather 0 (digitsOf n)) (Nat.ofDigitChars 10 (digitsOf n) 0) :=
      gathered (fun c hc => isDigit_of_mem_digitsOf hc) (by decide)
    rwa [ofDigitChars_digitsOf] at hread
  have htext : ofText? (signedText negative (digitsOf n))
      = ofDigits? negative (gather 0 (digitsOf n)).1 (gather 0 (digitsOf n)).2 :=
    ofText?_of_eq_nil (m := .ofNat n) negative rfl
  rw [htext]
  generalize gather 0 (digitsOf n) = front at hfront ⊢
  have hmul := hfront.le_mul hn
  have hpower := hfront.leftOut_le hlimit
  obtain ⟨d, hd, hsign, hle⟩ :=
    exists_scaled?_ge negative (hfront.pos hn) hfront.lt (show front.2 ≤ 22 by omega)
  have hnot : ¬(front.2 = 0 ∧ -0x8000000000000000 ≤ signedNumber negative front.1
      ∧ signedNumber negative front.1 < 0x10000000000000000) := by
    rintro ⟨hzero, hrange⟩
    rw [hfront.eq_of_eq_zero hzero] at hrange
    exact hlarge hrange
  refine ⟨d, ?_, hsign, ?_, ?_⟩
  · rw [ofDigits?_of_not hnot, hd, Option.map_some]
  · have hnat : (7 * 2 ^ 63 : ℚ) ≤ 8 * (front.1 * 10 ^ front.2) := by
      exact_mod_cast Nat.le_trans (Nat.mul_le_mul_left 7 hn) hmul
    refine Double.le_units_of_le_magnitude ?_
    push_cast
    linarith
  · intro m k heq hm hbits
    obtain ⟨hk, hdigits⟩ := hfront.mul_eq heq hm
    have hmpos : 0 < m := by
      rcases Nat.eq_zero_or_pos m with rfl | hpos
      · omega
      · exact hpos
    obtain ⟨d', hd', -, hunits⟩ :=
      exists_scaled?_eq negative hdigits hbits hk (power_le_of_mul_lt hmpos hbits)
    rwa [Option.some.inj (hd.symm.trans hd')]

end Large

end JsonNumber

namespace Json

/-! ## In a text -/

/-- Nothing but a number starts with a digit or a minus sign. -/
theorem value?_number {c : Char} (hc : c.isDigit = true ∨ c = '-') (nesting : Nat)
    (rest : List Char) :
    value? nesting (c :: rest)
      = (JsonNumber.read? (c :: rest)).map fun (n, rest) => (.number n, rest) := by
  have hne : ∀ other, other.isDigit = false → other ≠ '-' → c ≠ other := by
    rintro other hdigit hminus rfl
    rcases hc with h | h
    · rw [hdigit] at h
      cases h
    · exact hminus h
  have hblank : skipBlank (c :: rest) = c :: rest := by
    refine List.dropWhile_cons_of_neg ?_
    rw [isBlank]
    simp [hne]
  have hscalar : scalar? (c :: rest)
      = (JsonNumber.read? (c :: rest)).map fun (n, rest) => (.number n, rest) := by
    rw [scalar?]
    all_goals
      intro others heq
      exact absurd (List.cons.inj heq).1 (hne _ (by decide) (by decide))
  cases nesting with
  | zero =>
      rw [value?, hblank]
      split
      · next heq => exact absurd (List.cons.inj heq).1 (hne _ (by decide) (by decide))
      · next heq => exact absurd (List.cons.inj heq).1 (hne _ (by decide) (by decide))
      · exact hscalar
  | succ nesting =>
      rw [value?, hblank]
      split
      · next heq => exact absurd (List.cons.inj heq).1 (hne _ (by decide) (by decide))
      · next heq => exact absurd (List.cons.inj heq).1 (hne _ (by decide) (by decide))
      · exact hscalar

/-- The digits of an integer are read wherever a document may stand, if they end there. -/
theorem value?_intText (n : Int) (nesting : Nat) {rest : List Char}
    (hrest : JsonNumber.EndsBefore rest) :
    value? nesting ((intText n).toList ++ rest)
      = (JsonNumber.ofText? (intText n)).map fun number => (.number number, rest) := by
  have hfirst : ∃ c others, (intText n).toList = c :: others ∧ (c.isDigit = true ∨ c = '-') := by
    obtain ⟨c, others, hchars, hdigit⟩ := (Numeral.ofNat n.natAbs).exists_chars_eq_cons
    rw [Numeral.chars_ofNat] at hchars
    rw [intText, signedText, String.toList_ofList, hchars]
    split
    · exact ⟨'-', _, rfl, .inr rfl⟩
    · exact ⟨c, others, rfl, .inl hdigit⟩
  have hread : JsonNumber.read? ((intText n).toList ++ rest)
      = (JsonNumber.ofText? (intText n)).map (·, rest) := by
    have hnil : (Numeral.ofNat n.natAbs).places = [] := rfl
    rw [intText, ← Numeral.chars_ofNat, JsonNumber.read?_signedText,
      JsonNumber.readUnsigned?_of_eq_nil _ hnil hrest, JsonNumber.ofText?_of_eq_nil _ hnil]
  obtain ⟨c, others, hchars, hc⟩ := hfirst
  rw [hchars, List.cons_append, value?_number hc, ← List.cons_append, ← hchars, hread,
    Option.map_map]
  rfl

end Json

end RowQuery
