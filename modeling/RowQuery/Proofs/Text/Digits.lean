import Mathlib.Tactic.Ring
import RowQuery.Number.Shortest

/-!
# Runs of digits

What is read from a run of digits is the number that the run stands for, from
whatever number its reading starts. `Numeral` is the text of a number without
its sign and exponent: digits, and after a point more digits. Every text in
positional form is that of a numeral, and its digits are those of the number
that was laid out.
-/

namespace RowQuery

/-! ## Digits -/

theorem digit?_of_isDigit {c : Char} (h : c.isDigit = true) :
    digit? c = some (c.toNat - '0'.toNat) := by
  simp only [Char.isDigit, Bool.and_eq_true, decide_eq_true_eq, ge_iff_le] at h
  exact if_pos h

theorem digit?_of_not_isDigit {c : Char} (h : c.isDigit = false) : digit? c = none := by
  simp only [Char.isDigit, Bool.and_eq_false_iff, decide_eq_false_iff_not, ge_iff_le] at h
  exact if_neg (not_and_or.mpr h)

theorem isDigit_eq (c : Char) : isDigit c = c.isDigit := by
  rw [isDigit]
  cases h : c.isDigit with
  | true => rw [digit?_of_isDigit h, Option.isSome_some]
  | false => rw [digit?_of_not_isDigit h, Option.isSome_none]

/-- The digits in front of a text that goes on with something else. -/
theorem spanDigits_append {digits rest : List Char} (hdigits : ∀ c ∈ digits, c.isDigit = true)
    (hrest : ∀ c ∈ rest.head?, c.isDigit = false) :
    spanDigits (digits ++ rest) = (digits, rest) := by
  have hall : ∀ c ∈ digits, isDigit c = true := fun c hc => (isDigit_eq c).trans (hdigits c hc)
  have hstop : rest.takeWhile isDigit = [] ∧ rest.dropWhile isDigit = rest := by
    cases rest with
    | nil => exact ⟨rfl, rfl⟩
    | cons c rest =>
        have hc : isDigit c = false := (isDigit_eq c).trans (hrest c rfl)
        exact ⟨List.takeWhile_cons_of_neg (by simp [hc]), List.dropWhile_cons_of_neg (by simp [hc])⟩
  rw [spanDigits, List.takeWhile_append_of_pos hall, List.dropWhile_append_of_pos hall, hstop.1,
    hstop.2, List.append_nil]

theorem spanDigits_of_all {digits : List Char} (hdigits : ∀ c ∈ digits, c.isDigit = true) :
    spanDigits digits = (digits, []) := by
  have hnone : ∀ c ∈ ([] : List Char).head?, c.isDigit = false := by
    rintro c ⟨⟩
  have h := spanDigits_append hdigits hnone
  rwa [List.append_nil] at h

theorem readDigitsFrom_eq {digits : List Char} (hdigits : ∀ c ∈ digits, c.isDigit = true)
    (n : Nat) : readDigitsFrom n digits = some (Nat.ofDigitChars 10 digits n) := by
  induction digits generalizing n with
  | nil => rfl
  | cons c rest ih =>
      obtain ⟨hc, hrest⟩ := List.forall_mem_cons.mp hdigits
      rw [readDigitsFrom, digit?_of_isDigit hc, Nat.ofDigitChars_cons, Nat.mul_comm 10]
      exact ih hrest _

theorem readNat?_eq {digits : List Char} (hdigits : ∀ c ∈ digits, c.isDigit = true)
    (hne : digits ≠ []) : readNat? digits = some (Nat.ofDigitChars 10 digits 0) := by
  cases digits with
  | nil => exact absurd rfl hne
  | cons c rest => exact readDigitsFrom_eq hdigits 0

/-- More digits never make a number smaller. -/
theorem le_ofDigitChars (digits : List Char) (n : Nat) : n ≤ Nat.ofDigitChars 10 digits n := by
  rw [Nat.ofDigitChars_eq_ofDigitChars_zero]
  have hpos : 1 ≤ 10 ^ digits.length := Nat.one_le_pow _ _ (by decide)
  have hle : 1 * n ≤ 10 ^ digits.length * n := Nat.mul_le_mul_right n hpos
  omega

theorem digit_le {c : Char} (h : c.isDigit = true) : c.toNat - '0'.toNat ≤ 9 := by
  simp only [Char.isDigit, Bool.and_eq_true, decide_eq_true_eq, ge_iff_le,
    UInt32.le_iff_toNat_le] at h
  have hcode : c.toNat ≤ 57 := h.2
  have hzero : '0'.toNat = 48 := rfl
  omega

/-- Digits that follow a number do not reach the next one. -/
theorem ofDigitChars_lt {digits : List Char} (hdigits : ∀ c ∈ digits, c.isDigit = true) (n : Nat) :
    Nat.ofDigitChars 10 digits n < (n + 1) * 10 ^ digits.length := by
  induction digits generalizing n with
  | nil => exact Nat.lt_of_lt_of_eq (Nat.lt_succ_self n) (Nat.mul_one _).symm
  | cons c rest ih =>
      obtain ⟨hc, hrest⟩ := List.forall_mem_cons.mp hdigits
      have hdigit := digit_le hc
      rw [Nat.ofDigitChars_cons, List.length_cons, Nat.pow_succ, Nat.mul_comm _ 10,
        ← Nat.mul_assoc]
      exact Nat.lt_of_lt_of_le (ih hrest _) (Nat.mul_le_mul_right _ (by omega))

/-! ## The digits of a number -/

theorem isDigit_of_mem_digitsOf {n : Nat} {c : Char} (h : c ∈ digitsOf n) : c.isDigit = true :=
  Nat.isDigit_of_mem_toDigits (by decide) (by decide) h

theorem ofDigitChars_digitsOf (n : Nat) : Nat.ofDigitChars 10 (digitsOf n) 0 = n :=
  Nat.ofDigitChars_ten_toDigits

theorem digitsOf_ne_nil (n : Nat) : digitsOf n ≠ [] := Nat.toDigits_ne_nil

theorem length_digitsOf_pos (n : Nat) : 0 < (digitsOf n).length :=
  List.length_pos_iff.mpr (digitsOf_ne_nil n)

theorem length_digitsOf_le_iff {n width : Nat} (hwidth : 0 < width) :
    (digitsOf n).length ≤ width ↔ n < 10 ^ width :=
  Nat.length_toDigits_le_iff (by decide) hwidth

theorem lt_pow_length_digitsOf (n : Nat) : n < 10 ^ (digitsOf n).length :=
  (length_digitsOf_le_iff (length_digitsOf_pos n)).mp (Nat.le_refl _)

/-- A positive number has no zero in front. -/
theorem head?_digitsOf_ne {n : Nat} (h : 0 < n) : (digitsOf n).head? ≠ some '0' := by
  induction n using Nat.strongRecOn with
  | ind n ih =>
      rw [digitsOf, Nat.toDigits_eq_if (by decide)]
      split
      · rename_i hlt
        have hdigit : ∀ d < 10, 0 < d → some d.digitChar ≠ some '0' := by decide
        exact hdigit n hlt h
      · have hhead : (Nat.toDigits 10 (n / 10)).head? ≠ some '0' :=
          ih (n / 10) (by omega) (by omega)
        obtain ⟨c, rest, hdigits⟩ := List.exists_cons_of_ne_nil (digitsOf_ne_nil (n / 10))
        rw [← digitsOf, hdigits] at hhead ⊢
        exact hhead

theorem length_eq_one_of_head?_digitsOf {n : Nat} (h : (digitsOf n).head? = some '0') :
    (digitsOf n).length = 1 := by
  rcases Nat.eq_zero_or_pos n with rfl | hpos
  · rfl
  · exact absurd h (head?_digitsOf_ne hpos)

/-! ## Numerals -/

/-- The digits of a number without a sign, before the point and after it. A zero
in front stands alone before the point. -/
structure Numeral where
  whole : List Char
  places : List Char
  isDigit_of_mem : ∀ c ∈ whole ++ places, c.isDigit = true
  whole_ne_nil : whole ≠ []
  leading : whole.head? = some '0' → whole.length = 1

namespace Numeral

variable (m : Numeral)

/-- The number of all digits, as if there were no point. -/
def coefficient : Nat := Nat.ofDigitChars 10 (m.whole ++ m.places) 0

/-- How many places after the point there are. -/
def scale : Nat := m.places.length

/-- The text, which has a point only if there are places after it. -/
def chars : List Char := if m.places = [] then m.whole else m.whole ++ '.' :: m.places

theorem isDigit_of_mem_whole : ∀ c ∈ m.whole, c.isDigit = true :=
  fun c hc => m.isDigit_of_mem c (List.mem_append_left _ hc)

theorem isDigit_of_mem_places : ∀ c ∈ m.places, c.isDigit = true :=
  fun c hc => m.isDigit_of_mem c (List.mem_append_right _ hc)

theorem ofDigitChars_places :
    Nat.ofDigitChars 10 m.places (Nat.ofDigitChars 10 m.whole 0) = m.coefficient := by
  rw [coefficient, Nat.ofDigitChars_append]

/-- The first character is a digit, so it is no sign. -/
theorem exists_chars_eq_cons : ∃ c rest, m.chars = c :: rest ∧ c.isDigit = true := by
  obtain ⟨c, rest, hwhole⟩ := List.exists_cons_of_ne_nil m.whole_ne_nil
  have hdigit : c.isDigit = true := m.isDigit_of_mem_whole c (hwhole ▸ List.mem_cons_self ..)
  rw [chars, hwhole]
  split
  · exact ⟨c, rest, rfl, hdigit⟩
  · exact ⟨c, rest ++ '.' :: m.places, rfl, hdigit⟩

/-- Every character is a digit or the point. -/
theorem isDigit_or_eq_of_mem_chars {c : Char} (h : c ∈ m.chars) : c.isDigit = true ∨ c = '.' := by
  rw [chars] at h
  split at h
  · exact .inl (m.isDigit_of_mem_whole c h)
  · rcases List.mem_append.mp h with hwhole | hrest
    · exact .inl (m.isDigit_of_mem_whole c hwhole)
    · rcases List.mem_cons.mp hrest with hpoint | hplaces
      · exact .inr hpoint
      · exact .inl (m.isDigit_of_mem_places c hplaces)

/-- The digits of a natural number. -/
def ofNat (n : Nat) : Numeral where
  whole := digitsOf n
  places := []
  isDigit_of_mem := by
    intro c hc
    rw [List.append_nil] at hc
    exact isDigit_of_mem_digitsOf hc
  whole_ne_nil := digitsOf_ne_nil n
  leading := length_eq_one_of_head?_digitsOf

@[simp] theorem chars_ofNat (n : Nat) : (ofNat n).chars = digitsOf n := rfl

@[simp] theorem coefficient_ofNat (n : Nat) : (ofNat n).coefficient = n := by
  rw [coefficient, ofNat, List.append_nil, ofDigitChars_digitsOf]

/-- A numeral without places, with a zero as its only place. -/
def withZero (_ : m.places = []) : Numeral :=
  { m with
    places := ['0']
    isDigit_of_mem := by
      intro c hc
      rcases List.mem_append.mp hc with hwhole | hplace
      · exact m.isDigit_of_mem_whole c hwhole
      · rw [List.mem_singleton.mp hplace]
        decide }

theorem coefficient_withZero (h : m.places = []) :
    (m.withZero h).coefficient = m.coefficient * 10 := by
  have hcoefficient : m.coefficient = Nat.ofDigitChars 10 m.whole 0 := by
    rw [coefficient, h, List.append_nil]
  rw [hcoefficient, ← ofDigitChars_places, withZero, Nat.ofDigitChars_cons, Nat.ofDigitChars_nil,
    Nat.mul_comm]
  rfl

theorem not_mem_whole : '.' ∉ m.whole :=
  fun h => absurd (m.isDigit_of_mem_whole _ h) (by decide)

/-- The text with a point has a place more if it had none. -/
theorem exists_withPoint_eq : ∃ pointed : Numeral, Double.withPoint m.chars = pointed.chars
    ∧ pointed.scale = max 1 m.scale
    ∧ pointed.coefficient = m.coefficient * 10 ^ (pointed.scale - m.scale) := by
  by_cases h : m.places = []
  · refine ⟨m.withZero h, ?_, ?_, ?_⟩
    · have hpoint : m.chars.contains '.' = false := by
        rw [chars, if_pos h, List.contains_eq_mem, decide_eq_false m.not_mem_whole]
      rw [Double.withPoint, hpoint, chars, if_pos h, chars]
      rfl
    · rw [scale, scale, h]
      rfl
    · have hscale : m.scale = 0 := by rw [scale, h, List.length_nil]
      rw [coefficient_withZero, hscale]
      rfl
  · refine ⟨m, ?_, (Nat.max_eq_right (List.length_pos_iff.mpr h)).symm, ?_⟩
    · have hpoint : m.chars.contains '.' = true := by
        rw [chars, if_neg h, List.contains_eq_mem]
        exact decide_eq_true (List.mem_append_right _ (List.mem_cons_self ..))
      rw [Double.withPoint, hpoint, if_pos rfl]
    · rw [Nat.sub_self, Nat.pow_zero, Nat.mul_one]

end Numeral

/-! ## Layout -/

section Layout

variable {n : Nat} {exponent : Int}

theorem isDigit_of_mem_zeros {k : Nat} {c : Char} (h : c ∈ List.replicate k '0') :
    c.isDigit = true := by
  rw [(List.mem_replicate.mp h).2]
  decide

theorem exists_positionalDigits_of_nonneg (hle : 0 ≤ exponent) (hzero : n = 0 → exponent = 0) :
    ∃ m : Numeral, Double.positionalDigits (digitsOf n) exponent = m.chars
      ∧ m.scale = 0 ∧ m.coefficient = n * 10 ^ exponent.toNat := by
  refine ⟨⟨digitsOf n ++ List.replicate exponent.toNat '0', [], ?_, ?_, ?_⟩, ?_, rfl, ?_⟩
  · intro c hc
    rw [List.append_nil] at hc
    rcases List.mem_append.mp hc with hdigit | hpad
    · exact isDigit_of_mem_digitsOf hdigit
    · exact isDigit_of_mem_zeros hpad
  · exact List.append_ne_nil_of_left_ne_nil (digitsOf_ne_nil n) _
  · intro hhead
    obtain ⟨c, rest, hn⟩ := List.exists_cons_of_ne_nil (digitsOf_ne_nil n)
    rw [hn] at hhead
    have hn0 : n = 0 := by
      by_contra hne
      exact head?_digitsOf_ne (Nat.pos_of_ne_zero hne) (hn ▸ hhead)
    rw [hzero hn0, hn0]
    rfl
  · rw [Double.positionalDigits, if_pos hle, Numeral.chars, if_pos rfl]
  · rw [Numeral.coefficient, List.append_nil, Nat.ofDigitChars_append, ofDigitChars_digitsOf,
      Nat.ofDigitChars_replicate_zero, Nat.mul_comm]

/-- The point stands between the digits. -/
theorem exists_positionalDigits_of_lt (hneg : exponent < 0)
    (hlt : exponent.natAbs < (digitsOf n).length) :
    ∃ m : Numeral, Double.positionalDigits (digitsOf n) exponent = m.chars
      ∧ m.scale = exponent.natAbs ∧ m.coefficient = n := by
  have hlength : ((digitsOf n).drop ((digitsOf n).length - exponent.natAbs)).length
      = exponent.natAbs := by
    rw [List.length_drop]
    omega
  refine ⟨⟨(digitsOf n).take ((digitsOf n).length - exponent.natAbs),
    (digitsOf n).drop ((digitsOf n).length - exponent.natAbs), ?_, ?_, ?_⟩, ?_, hlength, ?_⟩
  · intro c hc
    rw [List.take_append_drop] at hc
    exact isDigit_of_mem_digitsOf hc
  · rw [← List.length_pos_iff, List.length_take]
    omega
  · intro hhead
    rw [List.head?_take, if_neg (by omega)] at hhead
    have hone := length_eq_one_of_head?_digitsOf hhead
    omega
  · have hne : (digitsOf n).drop ((digitsOf n).length - exponent.natAbs) ≠ [] := by
      rw [← List.length_pos_iff, hlength]
      omega
    rw [Double.positionalDigits, if_neg (by omega), if_pos hlt, Numeral.chars, if_neg hne]
  · rw [Numeral.coefficient, List.take_append_drop, ofDigitChars_digitsOf]

/-- All digits stand after the point. -/
theorem exists_positionalDigits_of_le (hneg : exponent < 0)
    (hle : (digitsOf n).length ≤ exponent.natAbs) :
    ∃ m : Numeral, Double.positionalDigits (digitsOf n) exponent = m.chars
      ∧ m.scale = exponent.natAbs ∧ m.coefficient = n := by
  refine ⟨⟨['0'], List.replicate (exponent.natAbs - (digitsOf n).length) '0' ++ digitsOf n,
    ?_, List.cons_ne_nil _ _, fun _ => rfl⟩, ?_, ?_, ?_⟩
  · intro c hc
    rw [← List.append_assoc, ← List.replicate_one, List.replicate_append_replicate] at hc
    rcases List.mem_append.mp hc with hpad | hdigit
    · exact isDigit_of_mem_zeros hpad
    · exact isDigit_of_mem_digitsOf hdigit
  · have hne := List.append_ne_nil_of_right_ne_nil
      (List.replicate (exponent.natAbs - (digitsOf n).length) '0') (digitsOf_ne_nil n)
    rw [Double.positionalDigits, if_neg (by omega), if_neg (by omega), Numeral.chars, if_neg hne]
    rfl
  · rw [Numeral.scale, List.length_append, List.length_replicate]
    omega
  · rw [Numeral.coefficient, List.singleton_append, Nat.ofDigitChars_cons,
      Nat.ofDigitChars_append, Nat.ofDigitChars_replicate_zero]
    exact ofDigitChars_digitsOf n

/-- Digits are laid out as a numeral: with zeros after them if the exponent is
positive, and otherwise with as many places as it says. -/
theorem exists_positionalDigits_eq (hzero : n = 0 → exponent ≤ 0) :
    ∃ m : Numeral, Double.positionalDigits (digitsOf n) exponent = m.chars
      ∧ m.scale = (-exponent).toNat ∧ m.coefficient = n * 10 ^ exponent.toNat := by
  by_cases hneg : exponent < 0
  · have hscale : (-exponent).toNat = exponent.natAbs := by omega
    have hpower : n * 10 ^ exponent.toNat = n := by
      rw [Int.toNat_of_nonpos (Int.le_of_lt hneg), Nat.pow_zero, Nat.mul_one]
    rw [hscale, hpower]
    rcases Nat.lt_or_ge exponent.natAbs (digitsOf n).length with hlt | hle
    · exact exists_positionalDigits_of_lt hneg hlt
    · exact exists_positionalDigits_of_le hneg hle
  · have hscale : (-exponent).toNat = 0 := by omega
    rw [hscale]
    exact exists_positionalDigits_of_nonneg (by omega) fun h => by
      have := hzero h
      omega

/-- An exponent follows a numeral with one digit before its point. -/
theorem exists_scientificDigits_eq (n : Nat) (power : Int) :
    ∃ m : Numeral,
      Double.scientificDigits (digitsOf n) power
          = m.chars ++ 'e' :: (if power < 0 then '-' else '+') :: digitsOf power.natAbs
        ∧ m.scale = (digitsOf n).length - 1 ∧ m.coefficient = n := by
  have hdigits : ∀ c ∈ digitsOf n, c.isDigit = true := fun c hc => isDigit_of_mem_digitsOf hc
  have hvalue := ofDigitChars_digitsOf n
  obtain ⟨first, rest, hn⟩ := List.exists_cons_of_ne_nil (digitsOf_ne_nil n)
  rw [hn] at hdigits hvalue ⊢
  refine ⟨⟨[first], rest, hdigits, List.cons_ne_nil _ _, fun _ => rfl⟩, ?_, rfl, hvalue⟩
  cases rest <;> rfl

/-- How long the digits of a number are says how great it is. -/
theorem pow_length_digitsOf_le (hpos : 0 < n) : 10 ^ ((digitsOf n).length - 1) ≤ n := by
  rcases Nat.eq_zero_or_pos ((digitsOf n).length - 1) with hzero | hlength
  · rw [hzero]
    exact hpos
  · have hlong : ¬(digitsOf n).length ≤ (digitsOf n).length - 1 := by omega
    exact Nat.not_lt.mp fun hlt => hlong ((length_digitsOf_le_iff hlength).mpr hlt)

end Layout

end RowQuery
