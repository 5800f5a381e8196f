import RowQuery.Number.DecimalText
import RowQuery.Proofs.Number.ShortestDigits
import RowQuery.Proofs.Text.Digits

/-!
# Reading decimals

A numeral is read as the decimal of its digits and places, as long as a decimal
has room for them, and an exponent moves the point. So a double near to a number
of few digits and places is read as that number.
-/

namespace RowQuery

namespace Decimal

/-! ## Digits and the point -/

theorem readDigits_whole {digits : List Char} (hdigits : ∀ c ∈ digits, c.isDigit = true)
    (hne : digits ≠ []) {n : Nat} (h : Nat.ofDigitChars 10 digits n < coefficientLimit)
    (seen : Bool) (rest : List Char) :
    readDigits n 0 false seen (digits ++ rest)
      = readDigits (Nat.ofDigitChars 10 digits n) 0 false true rest := by
  induction digits generalizing n seen with
  | nil => exact absurd rfl hne
  | cons c digits ih =>
      obtain ⟨hc, htail⟩ := List.forall_mem_cons.mp hdigits
      rw [Nat.ofDigitChars_cons, Nat.mul_comm] at h ⊢
      have hnext := Nat.lt_of_le_of_lt (le_ofDigitChars digits _) h
      rw [List.cons_append, readDigits, digit?_of_isDigit hc]
      simp only [Bool.false_and, Bool.false_eq_true, reduceIte, if_neg (Nat.not_le.mpr hnext)]
      cases digits with
      | nil => rfl
      | cons d digits => exact ih htail (List.cons_ne_nil _ _) h true

theorem readDigits_places {digits : List Char} (hdigits : ∀ c ∈ digits, c.isDigit = true)
    {n scale : Nat} (h : Nat.ofDigitChars 10 digits n < coefficientLimit)
    (hscale : scale + digits.length ≤ maxScale) :
    readDigits n scale true true digits
      = some (Nat.ofDigitChars 10 digits n, scale + digits.length) := by
  induction digits generalizing n scale with
  | nil => rfl
  | cons c digits ih =>
      obtain ⟨hc, htail⟩ := List.forall_mem_cons.mp hdigits
      rw [List.length_cons] at hscale ⊢
      rw [Nat.ofDigitChars_cons, Nat.mul_comm] at h ⊢
      have hnext := Nat.lt_of_le_of_lt (le_ofDigitChars digits _) h
      have hroom : ¬maxScale ≤ scale := by omega
      rw [readDigits, digit?_of_isDigit hc]
      simp only [Bool.true_and, decide_eq_true_eq, reduceIte, if_neg hroom,
        if_neg (Nat.not_le.mpr hnext)]
      rw [ih htail h (by omega), Nat.add_assoc, Nat.add_comm 1]

/-- A numeral that fits is read with all its digits. -/
theorem readDigits_chars {m : Numeral} (hlt : m.coefficient < coefficientLimit)
    (hscale : m.scale ≤ maxScale) :
    readDigits 0 0 false false m.chars = some (m.coefficient, m.scale) := by
  have hvalue := m.ofDigitChars_places
  have hwhole : Nat.ofDigitChars 10 m.whole 0 < coefficientLimit :=
    Nat.lt_of_le_of_lt (hvalue ▸ le_ofDigitChars m.places _) hlt
  rw [Numeral.chars]
  split
  · rename_i hnil
    have hread := readDigits_whole m.isDigit_of_mem_whole m.whole_ne_nil hwhole false []
    rw [List.append_nil] at hread
    rw [hread, ← hvalue, Numeral.scale, hnil]
    rfl
  · have hpoint : digit? '.' = none := by decide
    rw [readDigits_whole m.isDigit_of_mem_whole m.whole_ne_nil hwhole, readDigits, hpoint]
    simp only [Bool.false_eq_true, not_false_eq_true, and_self, reduceIte]
    rw [readDigits_places m.isDigit_of_mem_places (hvalue ▸ hlt) (by rwa [Nat.zero_add]), hvalue,
      Nat.zero_add, Numeral.scale]

/-- A decimal with the digits of a numeral. -/
def ofNumeral (negative : Bool) (m : Numeral) (hlt : m.coefficient < coefficientLimit)
    (hscale : m.scale ≤ maxScale) : Decimal :=
  ⟨negative && m.coefficient ≠ 0, m.coefficient, m.scale, hlt, hscale⟩

theorem ofPositional?_chars (negative : Bool) {m : Numeral} (hlt : m.coefficient < coefficientLimit)
    (hscale : m.scale ≤ maxScale) :
    ofPositional? (if negative = true then '-' :: m.chars else m.chars)
      = some (ofNumeral negative m hlt hscale) := by
  have hread := readDigits_chars hlt hscale
  have hof : of? (negative && decide (m.coefficient ≠ 0)) m.coefficient m.scale
      = some (ofNumeral negative m hlt hscale) := dif_pos ⟨hlt, hscale⟩
  obtain ⟨c, rest, hchars, hdigit⟩ := m.exists_chars_eq_cons
  cases negative with
  | true =>
      rw [if_pos rfl, ofPositional?]
      simp only [hread, Option.bind_eq_bind, Option.bind_some]
      exact hof
  | false =>
      have hsign : ∀ sign rest, sign.isDigit = false → m.chars ≠ sign :: rest := by
        intro sign rest' hsign heq
        rw [hchars, List.cons.injEq] at heq
        rw [heq.1, hsign] at hdigit
        cases hdigit
      rw [if_neg Bool.false_ne_true, ofPositional?]
      · simp only [hread, Option.bind_eq_bind, Option.bind_some]
        exact hof
      · exact fun rest => hsign '-' rest (by decide)
      · exact fun rest => hsign '+' rest (by decide)

/-! ## Exponents -/

theorem splitExponent_of_forall {cs : List Char} (h : ∀ c ∈ cs, ¬(c = 'e' ∨ c = 'E')) :
    splitExponent cs = none := by
  induction cs with
  | nil => rfl
  | cons c rest ih =>
      obtain ⟨hc, hrest⟩ := List.forall_mem_cons.mp h
      rw [splitExponent, if_neg hc, ih hrest]
      rfl

theorem splitExponent_append {cs : List Char} (h : ∀ c ∈ cs, ¬(c = 'e' ∨ c = 'E'))
    (rest : List Char) : splitExponent (cs ++ 'e' :: rest) = some (cs, rest) := by
  induction cs with
  | nil => rfl
  | cons c cs ih =>
      obtain ⟨hc, hcs⟩ := List.forall_mem_cons.mp h
      rw [List.cons_append, splitExponent, if_neg hc, ih hcs]
      rfl

/-- No character of a numeral with its sign starts an exponent. -/
theorem not_mark_of_mem {negative : Bool} {m : Numeral} {c : Char}
    (h : c ∈ (if negative = true then '-' :: m.chars else m.chars)) : ¬(c = 'e' ∨ c = 'E') := by
  have hmem : c = '-' ∨ c.isDigit = true ∨ c = '.' := by
    split at h
    · exact (List.mem_cons.mp h).imp_right m.isDigit_or_eq_of_mem_chars
    · exact .inr (m.isDigit_or_eq_of_mem_chars h)
  rintro (rfl | rfl)
  · exact absurd hmem (by decide)
  · exact absurd hmem (by decide)

theorem ofText?_signedText {negative : Bool} {m : Numeral} (hlt : m.coefficient < coefficientLimit)
    (hscale : m.scale ≤ maxScale) :
    ofText? (signedText negative m.chars) = some (ofNumeral negative m hlt hscale) := by
  rw [ofText?, signedText, String.toList_ofList, splitExponent_of_forall fun c => not_mark_of_mem]
  exact ofPositional?_chars negative hlt hscale

theorem readPower?_digitsOf (power : Nat) : readPower? (digitsOf power) = some power := by
  rw [readPower?]
  · rw [readNat?_eq (fun c hc => isDigit_of_mem_digitsOf hc) (digitsOf_ne_nil power),
      ofDigitChars_digitsOf]
  · intro rest heq
    have hmem : '+' ∈ digitsOf power := heq ▸ List.mem_cons_self ..
    exact absurd (isDigit_of_mem_digitsOf hmem) (by decide)

theorem scaleDown?_of_le {d : Decimal} {power : Nat} (h : d.scale + power ≤ maxScale) :
    d.scaleDown? power = some { d with scale := d.scale + power, scale_le := h } := by
  have hpower : ¬maxScale < power := by omega
  have hexcess : d.scale + power - maxScale = 0 := Nat.sub_eq_zero_of_le h
  have hround : roundPlaces d.coefficient 0 = d.coefficient := by
    rw [roundPlaces, Nat.pow_eq]
    omega
  rw [scaleDown?, if_neg hpower]
  simp only [hexcess, hround, Nat.sub_zero]
  exact dif_pos ⟨d.coefficient_lt, h⟩

theorem ofText?_scientific (negative : Bool) (m : Numeral) (exponent : List Char) :
    ofText? (signedText negative (m.chars ++ 'e' :: exponent))
      = ofScientific? (if negative = true then '-' :: m.chars else m.chars) exponent := by
  have hchars : (if negative = true then '-' :: (m.chars ++ 'e' :: exponent)
      else m.chars ++ 'e' :: exponent)
      = (if negative = true then '-' :: m.chars else m.chars) ++ 'e' :: exponent := by
    cases negative <;> rfl
  rw [ofText?, signedText, String.toList_ofList, hchars,
    splitExponent_append fun c => not_mark_of_mem]

/-- A negative exponent gives a decimal more places if there is room for them. -/
theorem ofText?_scientificDown {negative : Bool} {m : Numeral} {power : Nat}
    (hlt : m.coefficient < coefficientLimit) (hscale : m.scale + power ≤ maxScale) :
    ofText? (signedText negative (m.chars ++ 'e' :: '-' :: digitsOf power))
      = some ⟨negative && m.coefficient ≠ 0, m.coefficient, m.scale + power, hlt, hscale⟩ := by
  have hmantissa := ofPositional?_chars negative hlt (Nat.le_of_add_right_le hscale)
  rw [ofText?_scientific]
  simp only [ofScientific?, hmantissa, readPower?_digitsOf, Option.bind_eq_bind, Option.bind_some]
  exact scaleDown?_of_le hscale

/-- A positive exponent uses up the places first. -/
theorem ofText?_scientificUp {negative : Bool} {m : Numeral} {power : Nat}
    (hlt : m.coefficient < coefficientLimit) (hscale : m.scale ≤ maxScale) :
    ofText? (signedText negative (m.chars ++ 'e' :: '+' :: digitsOf power))
      = (ofNumeral negative m hlt hscale).scaleUp? power := by
  have hmantissa := ofPositional?_chars negative hlt hscale
  have hpower : readPower? ('+' :: digitsOf power) = some power := by
    rw [readPower?, readNat?_eq (fun c hc => isDigit_of_mem_digitsOf hc) (digitsOf_ne_nil power),
      ofDigitChars_digitsOf]
  rw [ofText?_scientific]
  simp only [ofScientific?, hmantissa, Option.bind_eq_bind, Option.bind_some]
  exact congrArg (Option.bind · (ofNumeral negative m hlt hscale).scaleUp?) hpower

/-! ## The decimal of a double -/

/-- A decimal for the number `n / 10 ^ places`, with a place at least and none in
excess. -/
structure Holds (x : Decimal) (negative : Bool) (n places : Nat) : Prop where
  negative_eq : x.negative = (negative && decide (n ≠ 0))
  scale_pos : 0 < x.scale
  scale_le_places : x.scale ≤ places
  coefficient_mul : x.coefficient * 10 ^ (places - x.scale) = n

section Text

variable {negative : Bool} {digits n places : Nat} {exponent : Int}

/-- A numeral whose places run up to those of a number is read as that number. -/
theorem holds_of_eq {x : Decimal} (hdigits : x.coefficient * 10 ^ (places - x.scale) = n)
    (hsign : x.negative = (negative && decide (x.coefficient ≠ 0))) (hpos : 0 < x.scale)
    (hle : x.scale ≤ places) : x.Holds negative n places := by
  have hten : 10 ^ (places - x.scale) ≠ 0 := Nat.pos_iff_ne_zero.mp (Nat.pow_pos (by decide))
  have hzero : decide (x.coefficient ≠ 0) = decide (n ≠ 0) := by
    rw [← hdigits, decide_eq_decide, Nat.mul_ne_zero_iff, and_iff_left hten]
  exact ⟨hzero ▸ hsign, hpos, hle, hdigits⟩

/-- The same number with fewer places is nearest to the same place. -/
theorem Holds.nearestPlace_eq {x : Decimal} (h : x.Holds negative n places) :
    Double.nearestPlace n (10 ^ places) = Double.nearestPlace x.coefficient (10 ^ x.scale) := by
  have hten : ∀ k, 0 < 10 ^ k := fun k => Nat.pow_pos (by decide)
  have hspans := (Double.spans_nearestPlace x.coefficient (hten x.scale)).mul
    (hten (places - x.scale))
  rw [h.coefficient_mul, ← Nat.pow_add, Nat.add_sub_cancel' h.scale_le_places] at hspans
  exact Double.nearestPlace_eq_of_spans (hten places) hspans

theorem le_of_mul_pow_eq {k : Nat} (h : digits * 10 ^ k = n) : digits ≤ n :=
  h ▸ Nat.le_mul_of_pos_right digits (Nat.pow_pos (by decide))

/-- Positional digits are read with all their places. -/
theorem exists_holds_positional (negative : Bool) (hzero : digits = 0 → exponent = 0)
    (hle : -places ≤ exponent) (hdigits : digits * 10 ^ (exponent + places).toNat = n)
    (hlt : n < coefficientLimit) (hpos : 0 < places) (hplaces : places ≤ maxScale) :
    ∃ x, ofText? (signedText negative (Double.withPoint
        (Double.positionalDigits (digitsOf digits) exponent))) = some x
      ∧ x.Holds negative n places := by
  obtain ⟨m, hm, hscale, hcoefficient⟩ :=
    exists_positionalDigits_eq fun hk => Int.le_of_eq (hzero hk)
  obtain ⟨pointed, hpointed, hpscale, hpcoefficient⟩ := m.exists_withPoint_eq
  have hvalue : pointed.coefficient * 10 ^ (places - pointed.scale) = n := by
    have hsum : exponent.toNat + (pointed.scale - m.scale) + (places - pointed.scale)
        = (exponent + places).toNat := by omega
    rw [hpcoefficient, hcoefficient, Nat.mul_assoc, Nat.mul_assoc, ← Nat.pow_add, ← Nat.pow_add,
      ← Nat.add_assoc, hsum, hdigits]
  have hfits : pointed.coefficient < coefficientLimit :=
    Nat.lt_of_le_of_lt (le_of_mul_pow_eq hvalue) hlt
  have hroom : pointed.scale ≤ places := by omega
  have hplace : 0 < pointed.scale := by omega
  rw [hm, hpointed]
  exact ⟨_, ofText?_signedText hfits (hroom.trans hplaces), holds_of_eq hvalue rfl hplace hroom⟩

/-- Scientific digits with a negative power are read with all their places. -/
theorem exists_holds_scientific (negative : Bool) {power : Int}
    (hpower : power = exponent + (digitsOf digits).length - 1) (hneg : power < 0)
    (hle : -places ≤ exponent) (hdigits : digits * 10 ^ (exponent + places).toNat = n)
    (hlt : n < coefficientLimit) (hplaces : places ≤ maxScale) :
    ∃ x, ofText? (signedText negative (Double.scientificDigits (digitsOf digits) power)) = some x
      ∧ x.Holds negative n places := by
  obtain ⟨m, hm, hscale, hcoefficient⟩ := exists_scientificDigits_eq digits power
  rw [if_pos hneg] at hm
  have hlength := length_digitsOf_pos digits
  have hsum : m.scale + power.natAbs = (-exponent).toNat := by omega
  have hvalue : m.coefficient * 10 ^ (places - (m.scale + power.natAbs)) = n := by
    have hexponent : places - (m.scale + power.natAbs) = (exponent + places).toNat := by omega
    rw [hexponent, hcoefficient, hdigits]
  have hfits : m.coefficient < coefficientLimit :=
    Nat.lt_of_le_of_lt (le_of_mul_pow_eq hvalue) hlt
  have hroom : m.scale + power.natAbs ≤ places := by omega
  have hplace : 0 < m.scale + power.natAbs := by omega
  rw [hm]
  exact ⟨_, ofText?_scientificDown hfits (hroom.trans hplaces), holds_of_eq hvalue rfl hplace hroom⟩

/-- A double near to a number of few digits and places is read as that number. -/
theorem exists_holds_text {d : Double} (hlt : n < 0x10000000000000) (hpos : 0 < places)
    (hplaces : places ≤ 22) (hplace : d.place = Double.nearestPlace n (10 ^ places)) :
    ∃ x, ofText? d.text = some x ∧ x.Holds d.negative n places := by
  have hspans : (Double.intervalAt d.place).Spans n (10 ^ places) :=
    hplace ▸ Double.spans_nearestPlace n (Nat.pow_pos (by decide))
  obtain ⟨hle, hzero, hdigits⟩ := Double.shortest_of_spans hlt hplaces hspans
  have hlimit : n < coefficientLimit := by
    rw [coefficientLimit]
    omega
  have hroom : places ≤ maxScale := by
    rw [maxScale]
    omega
  rw [Double.text]
  generalize d.shortest = shortest at hle hzero hdigits
  obtain ⟨digits, exponent⟩ := shortest
  dsimp only at hle hzero hdigits ⊢
  split
  · exact exists_holds_positional d.negative hzero hle hdigits hlimit hpos hroom
  · rename_i hout
    refine exists_holds_scientific d.negative rfl ?_ hle hdigits hlimit hroom
    -- a power from the sixteenth on takes more digits than there are
    by_contra hge
    have hpositive : 0 < digits := by omega
    have hlong := pow_length_digitsOf_le hpositive
    have hwide : 10 ^ 16 ≤ n := by
      calc 10 ^ 16
          ≤ 10 ^ ((digitsOf digits).length - 1 + (exponent + places).toNat) :=
            Nat.pow_le_pow_right (by decide) (by omega)
        _ = 10 ^ ((digitsOf digits).length - 1) * 10 ^ (exponent + places).toNat := Nat.pow_add ..
        _ ≤ n := hdigits ▸ Nat.mul_le_mul_right _ hlong
    omega

end Text

end Decimal

end RowQuery
