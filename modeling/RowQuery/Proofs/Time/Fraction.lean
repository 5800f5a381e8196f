import RowQuery.Proofs.Json.NumberText
import RowQuery.Proofs.Number.RoundingError
import RowQuery.Time.InstantParser

/-!
# Nine places of a second

The standard form sums the digits of a fraction one by one, each divided by its
power of ten, and rounds at every step. The powers are exact, and every digit
adds at most `6 / 2 ^ 52` to the error (`Instant.FractionNear.addDigit`), so nine
digits are off by far less than a nanosecond: the whole number nearest to the
nanoseconds of the sum is the number of the digits.
-/

namespace RowQuery

namespace Instant

/-- One digit of a fraction, and the power of ten for the next one. -/
def addDigit (state : Double × Option Double) (c : Char) : Double × Option Double :=
  let ten := (Double.ofNat? 10).getD (Double.zero false)
  match state.2 with
  | none => (state.1, none)
  | some p =>
      let digit := (Double.ofNat? ((digit? c).getD 0)).getD (Double.zero false)
      (((digit.div? p).bind state.1.addMagnitudes?).getD state.1, p.mul? ten)

theorem fractionOfDigits_eq (digits : List Char) :
    fractionOfDigits digits
      = (digits.foldl addDigit
          (Double.zero false, some ((Double.ofNat? 10).getD (Double.zero false)))).1 := rfl

theorem exists_ofNat?_units {n : Nat} (h : n < 0x20000000000000) :
    ∃ d, Double.ofNat? n = some d ∧ d.units = n * Double.one := by
  obtain ⟨d, hd, hunits⟩ := JsonNumber.ofNat?_of_lt h (Nat.zero_le 900)
  rw [Nat.pow_zero, Nat.mul_one] at hd hunits
  exact ⟨d, hd, hunits⟩

theorem units_ofNat?_of_lt {n : Nat} (h : n < 0x20000000000000) :
    ((Double.ofNat? n).getD (Double.zero false)).units = n * Double.one := by
  obtain ⟨d, hd, hunits⟩ := exists_ofNat?_units h
  rw [hd, Option.getD_some, hunits]

/-- What is summed up of the first `places` digits, whose number is `n`, and the
power of ten for the digit that comes next. -/
structure FractionNear (state : Double × Option Double) (n places : Nat) : Prop where
  lt : n < 10 ^ places
  exists_power : ∃ p, state.2 = some p ∧ p.units = 10 ^ (places + 1) * Double.one
  abs_sub_le : |state.1.magnitude - n / 10 ^ places| ≤ 6 * places / 2 ^ 52

theorem fractionNear_start :
    FractionNear (Double.zero false, some ((Double.ofNat? 10).getD (Double.zero false))) 0 0 := by
  refine ⟨Nat.one_pos, ⟨_, rfl, units_ofNat?_of_lt (by decide)⟩, ?_⟩
  have hzero : (Double.zero false).magnitude = 0 := by
    have hunits : (Double.zero false).units = 0 := rfl
    rw [Double.magnitude, hunits]
    simp
  rw [hzero]
  simp

theorem exists_power_succ {p : Double} {places : Nat} (hplaces : places ≤ 20)
    (hp : p.units = 10 ^ (places + 1) * Double.one) :
    ∃ q, p.mul? ((Double.ofNat? 10).getD (Double.zero false)) = some q
      ∧ q.units = 10 ^ (places + 1 + 1) * Double.one := by
  have hten : ((Double.ofNat? 10).getD (Double.zero false)).units = 10 * Double.one :=
    units_ofNat?_of_lt (by decide)
  have hfives : 5 ^ (places + 1 + 1) < 0x20000000000000 := by
    have hle := Nat.pow_le_pow_right (show 5 > 0 by decide) (show places + 1 + 1 ≤ 22 by omega)
    omega
  have hnext : 10 ^ (places + 1) * 10 = 10 ^ (places + 1 + 1) := (Nat.pow_succ ..).symm
  have hproduct : 10 ^ (places + 1) * 10 = 5 ^ (places + 1 + 1) * 2 ^ (places + 1 + 1) := by
    rw [← Nat.mul_pow, hnext]
  obtain ⟨q, hq, hunits⟩ :=
    Double.exists_mul?_eq hp hten hfives (show places + 1 + 1 ≤ 900 by omega) hproduct
  rw [hnext] at hunits
  exact ⟨q, hq, hunits⟩

/-- A quotient that is added to a sum adds six steps to its error, three for each of
the two roundings. -/
theorem exists_addQuotient_near {sum a b : Double} {x y e : ℚ} (hb : 0 < b.units)
    (hx : a.magnitude / b.magnitude = x) (hxle : x ≤ 1) (hyle : y ≤ 1) (hele : e ≤ 1 / 2)
    (hsum : |sum.magnitude - y| ≤ e) :
    ∃ total, (a.div? b).bind sum.addMagnitudes? = some total
      ∧ |total.magnitude - (y + x)| ≤ e + 6 / 2 ^ 52 := by
  have hquotient : a.magnitude / b.magnitude < 2 ^ 53 := by
    rw [hx]
    linarith
  obtain ⟨term, hterm, htermnear⟩ := Double.exists_div?_near (by decide) hb hquotient
  rw [hx] at htermnear
  obtain ⟨htermlow, htermhigh⟩ := abs_le.mp htermnear
  obtain ⟨hsumlow, hsumhigh⟩ := abs_le.mp hsum
  have hsmall : sum.magnitude + term.magnitude < 2 ^ 53 := by linarith
  obtain ⟨total, htotal, htotalnear⟩ := Double.exists_addMagnitudes?_near (by decide) hsmall
  obtain ⟨htotallow, htotalhigh⟩ := abs_le.mp htotalnear
  refine ⟨total, by rw [hterm, Option.bind_some, htotal], abs_le.mpr ⟨?_, ?_⟩⟩
  · linarith
  · linarith

/-- One more digit. -/
theorem FractionNear.addDigit {state : Double × Option Double} {n places : Nat} {c : Char}
    (h : FractionNear state n places) (hplaces : places ≤ 20) (hc : c.isDigit = true) :
    FractionNear (addDigit state c) (10 * n + (c.toNat - '0'.toNat)) (places + 1) := by
  obtain ⟨sum, power⟩ := state
  obtain ⟨hn, ⟨p, hpower, hp⟩, hnear⟩ := h
  dsimp only at hpower hnear
  subst hpower
  have hnext := exists_power_succ hplaces hp
  have hdigit := digit_le hc
  generalize hd : c.toNat - '0'.toNat = d at hdigit ⊢
  have hread : digit? c = some d := by rw [digit?_of_isDigit hc, hd]
  have hdunits : ((Double.ofNat? ((digit? c).getD 0)).getD (Double.zero false)).magnitude = d := by
    rw [hread, Option.getD_some]
    exact Double.magnitude_of_units (units_ofNat?_of_lt (by omega))
  rw [Instant.addDigit]
  dsimp only
  generalize (Double.ofNat? 10).getD (Double.zero false) = ten at hnext ⊢
  generalize (Double.ofNat? ((digit? c).getD 0)).getD (Double.zero false) = digit at hdunits ⊢
  have hppos : 0 < p.units := hp ▸ Nat.mul_pos (Nat.pow_pos (by decide)) Double.one_pos
  have hquotient : digit.magnitude / p.magnitude = d / 10 ^ (places + 1) := by
    rw [hdunits, Double.magnitude_of_units hp]
    push_cast
    rfl
  have htens : (1 : ℚ) ≤ 10 ^ places := one_le_pow₀ (by norm_num)
  have hdle : (d : ℚ) ≤ 9 := by exact_mod_cast hdigit
  have hnle : (n : ℚ) / 10 ^ places ≤ 1 := by
    rw [div_le_one (by positivity)]
    exact_mod_cast hn.le
  have hxle : (d : ℚ) / 10 ^ (places + 1) ≤ 1 := by
    rw [div_le_one (by positivity), pow_succ]
    linarith
  have herror : 6 * (places : ℚ) / 2 ^ 52 ≤ 1 / 2 := by
    have hle : (places : ℚ) ≤ 20 := by exact_mod_cast hplaces
    linarith
  obtain ⟨total, htotal, htotalnear⟩ :=
    exists_addQuotient_near hppos hquotient hxle hnle herror hnear
  rw [htotal, Option.getD_some]
  have hlt : 10 * n + d < 10 ^ (places + 1) := by
    rw [Nat.pow_succ]
    omega
  refine ⟨hlt, hnext, ?_⟩
  have hvalue : ((10 * n + d : Nat) : ℚ) / 10 ^ (places + 1)
      = n / 10 ^ places + d / 10 ^ (places + 1) := by
    push_cast
    rw [pow_succ]
    field_simp
  have hsteps : 6 * ((places + 1 : Nat) : ℚ) / 2 ^ 52 = 6 * places / 2 ^ 52 + 6 / 2 ^ 52 := by
    push_cast
    ring
  rw [hvalue, hsteps]
  exact htotalnear

/-- All digits, up to twenty. -/
theorem FractionNear.foldl {digits : List Char} (hdigits : ∀ c ∈ digits, c.isDigit = true)
    {state : Double × Option Double} {n places : Nat} (h : FractionNear state n places)
    (hplaces : places + digits.length ≤ 20) :
    FractionNear (digits.foldl Instant.addDigit state) (Nat.ofDigitChars 10 digits n)
        (places + digits.length) := by
  induction digits generalizing state n places with
  | nil => exact h
  | cons c rest ih =>
      obtain ⟨hc, hrest⟩ := List.forall_mem_cons.mp hdigits
      rw [List.length_cons] at hplaces ⊢
      rw [List.foldl_cons, Nat.ofDigitChars_cons, ← Nat.add_assoc, Nat.add_right_comm]
      exact ih hrest (h.addDigit (by omega) hc) (by omega)

/-- Nine places come back as the whole number of their nanoseconds. -/
theorem nearestWhole_timesNat {f : Double} {n : Nat} (hn : n < 10 ^ 9)
    (h : |f.magnitude - n / 10 ^ 9| ≤ 54 / 2 ^ 52) :
    (timesNat f nanosPerSecond).nearestWhole = n := by
  obtain ⟨giga, hgiga, hunits⟩ :=
    exists_ofNat?_units (show nanosPerSecond < 0x20000000000000 by decide)
  have hmagnitude : giga.magnitude = 10 ^ 9 := by
    rw [Double.magnitude_of_units hunits, nanosPerSecond]
    norm_num
  have hlt : (n : ℚ) < 10 ^ 9 := by exact_mod_cast hn
  obtain ⟨hlow, hhigh⟩ := abs_le.mp h
  have hproduct : f.magnitude * giga.magnitude < 2 ^ 53 := by
    rw [hmagnitude]
    linarith
  obtain ⟨d, hd, hnear⟩ := Double.exists_mul?_near (by decide) hproduct
  rw [hmagnitude] at hnear
  obtain ⟨hlower, hupper⟩ := abs_le.mp hnear
  rw [timesNat, hgiga, Option.bind_some, hd, Option.getD_some]
  refine Double.nearestWhole_eq (abs_lt.mpr ⟨?_, ?_⟩)
  · linarith
  · linarith

/-- Nine digits after the point are that many nanoseconds. -/
theorem ofSecondFraction?_nanos {digits : List Char} (hdigits : ∀ c ∈ digits, c.isDigit = true)
    (hlength : digits.length = 9) (hour minute second : Nat) :
    ofSecondFraction? hour minute second (some (fractionOfDigits digits))
      = TimeOfDay.of? hour minute second (Nat.ofDigitChars 10 digits 0) := by
  have hnear := fractionNear_start.foldl hdigits (by omega)
  rw [hlength, Nat.zero_add] at hnear
  have herror : (6 * (9 : Nat) / 2 ^ 52 : ℚ) = 54 / 2 ^ 52 := by norm_num
  have hsub := hnear.abs_sub_le
  rw [← fractionOfDigits_eq, herror] at hsub
  rw [ofSecondFraction?, Option.map_some, Option.getD_some, nearestWhole_timesNat hnear.lt hsub]

end Instant

end RowQuery
