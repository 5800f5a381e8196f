import RowQuery.Proofs.Json.IntegerLiteral
import RowQuery.Proofs.Number.LargeDoubles
import RowQuery.Proofs.Value.NumberRoundTrip

/-!
# Integers in documents

What becomes of an integer that a decimal holds when it stands in a document
(`Value.ofJson_intText`). Inside the signed words it is that integer, and up to the
end of the unsigned ones that decimal. Any other is read as a double, and what is left
of it are the shortest digits of this double: it is the same number only if it has at
most seventeen digits before its zeros, and always if it has at most fifteen and is
itself a double.
-/

namespace RowQuery

namespace Value

/-- Whether a value is a number, and which. -/
def IsNumber (v : Value) (n : Int) : Prop := v.isNumeric = true ∧ v.number = n

theorem isNumber_decimal_iff {d : Decimal} {n : Int} (hscale : d.scale = 0) :
    IsNumber (.decimal d) n ↔ d.signed = n := by
  have hnumber : (Value.decimal d).number = d.signed := Decimal.value_of_scale_eq_zero hscale
  rw [IsNumber, hnumber, Int.cast_inj]
  exact and_iff_right rfl

/-! ## Doubles -/

/-- What is left of a large double are its shortest digits. -/
theorem isNumber_double_iff {d : Double} {n : Int} (hn : n.natAbs < Decimal.coefficientLimit)
    (hlarge : 2 ^ 62 * Double.one ≤ d.units) (hsign : d.negative = decide (n < 0)) :
    IsNumber (ofJson (.number (.double d))) n ↔ d.roundNumber = n.natAbs := by
  rw [ofJson, ofJsonNumber, Decimal.ofText?_text_of_large hlarge, hsign]
  by_cases hfits : d.roundNumber < Decimal.coefficientLimit
  · have hof : Decimal.of? (n < 0) d.roundNumber 0
        = some ⟨n < 0, d.roundNumber, 0, hfits, Nat.zero_le _⟩ := dif_pos ⟨hfits, Nat.zero_le _⟩
    rw [hof]
    dsimp only
    rw [isNumber_decimal_iff rfl, Decimal.signed]
    simp only [decide_eq_true_eq]
    split <;> omega
  · have hof : Decimal.of? (n < 0) d.roundNumber 0 = none := dif_neg fun h => hfits h.1
    rw [hof]
    refine iff_of_false (fun h => Bool.false_ne_true h.1) ?_
    rintro heq
    exact hfits (heq ▸ hn)

/-! ## Integers -/

theorem signedNumber_natAbs (n : Int) : JsonNumber.signedNumber (n < 0) n.natAbs = n := by
  rw [JsonNumber.signedNumber]
  simp only [decide_eq_true_eq]
  split <;> omega

/-- Words of 64 bits are read as they are. -/
theorem ofText?_intText_of_word {n : Int}
    (h : -0x8000000000000000 ≤ n ∧ n < 0x10000000000000000) :
    JsonNumber.ofText? (intText n) = some (.whole n h) := by
  have hreads : JsonNumber.ReadsWhole (n < 0) (.ofNat n.natAbs) := by
    refine ⟨rfl, ?_, ?_⟩
    · rwa [Numeral.coefficient_ofNat, signedNumber_natAbs]
    · rw [Numeral.coefficient_ofNat, decide_eq_true_eq]
      omega
  have hread := JsonNumber.ofText?_of_readsWhole hreads
  rw [Numeral.chars_ofNat] at hread
  rw [intText, hread]
  simp only [Numeral.coefficient_ofNat, signedNumber_natAbs]

/-- An integer that no word holds is read as a double, and is the number that is left
of it only if it has few digits before its zeros. -/
theorem exists_ofText?_intText_large {n : Int} (hn : n.natAbs < Decimal.coefficientLimit)
    (hlarge : ¬(-0x8000000000000000 ≤ n ∧ n < 0x10000000000000000)) :
    ∃ d : Double, JsonNumber.ofText? (intText n) = some (.double d)
      ∧ (IsNumber (ofJson (.number (.double d))) n ↔ d.roundNumber = n.natAbs)
      ∧ (IsNumber (ofJson (.number (.double d))) n → ∃ m k, m < 10 ^ 17 ∧ n.natAbs = m * 10 ^ k)
      ∧ ∀ m k, n.natAbs = m * 10 ^ k → m < 0x10000000000000 → m * 5 ^ k < 0x20000000000000 →
          IsNumber (ofJson (.number (.double d))) n := by
  rw [← signedNumber_natAbs n] at hlarge
  obtain ⟨d, hread, hsign, hle, hfew⟩ := JsonNumber.exists_ofText?_large hn hlarge
  have hexact := isNumber_double_iff hn hle hsign
  have hlong : 10 ^ 16 ≤ n.natAbs := by
    rw [signedNumber_natAbs n] at hlarge
    omega
  refine ⟨d, hread, hexact, fun h => ?_, fun m k heq hm hfives => ?_⟩
  · obtain ⟨whole, -, hunits⟩ := Double.exists_units_eq hle
    have hround := hexact.mp h
    rw [← hround]
    exact Double.exists_roundNumber_eq (Double.spans_of_units_eq hunits) (hround ▸ hlong)
  · have hpos : 0 < m := by
      rcases Nat.eq_zero_or_pos m with rfl | hpos
      · omega
      · exact hpos
    rw [hexact, Double.roundNumber_eq (hfew m k heq hm hfives) hpos hm, heq]

/-- What an integer is read as wherever a document may stand in a text. -/
theorem ofJson_intText {n : Int} (hn : n.natAbs < Decimal.coefficientLimit) {rest : List Char}
    (hrest : JsonNumber.EndsBefore rest) (nesting : Nat) :
    ∃ number : JsonNumber,
      Json.value? nesting ((intText n).toList ++ rest) = some (.number number, rest)
      ∧ (-0x8000000000000000 ≤ n → n < 0x8000000000000000 →
          ∃ k : Int64, ofJson (.number number) = .int k ∧ k.toInt = n)
      ∧ (0x8000000000000000 ≤ n → n < 0x10000000000000000 →
          ∃ d : Decimal, ofJson (.number number) = .decimal d ∧ d.value = n)
      ∧ (n < -0x8000000000000000 ∨ 0x10000000000000000 ≤ n →
          ∃ d : Double, number = .double d
            ∧ (IsNumber (ofJson (.number number)) n ↔ d.roundNumber = n.natAbs)
            ∧ (IsNumber (ofJson (.number number)) n →
                ∃ m k, m < 10 ^ 17 ∧ n.natAbs = m * 10 ^ k)
            ∧ ∀ m k, n.natAbs = m * 10 ^ k → m < 0x10000000000000 → m * 5 ^ k < 0x20000000000000 →
                IsNumber (ofJson (.number number)) n) := by
  have hvalue := Json.value?_intText n nesting hrest
  by_cases hword : -0x8000000000000000 ≤ n ∧ n < 0x10000000000000000
  · rw [ofText?_intText_of_word hword] at hvalue
    refine ⟨.whole n hword, hvalue, ?_, ?_, ?_⟩
    · intro hlow hhigh
      rcases ofJsonNumber_whole_cases n hword with ⟨-, hint, hk⟩ | ⟨hge, -⟩
      · exact ⟨_, hint, hk⟩
      · omega
    · intro hlow hhigh
      rcases ofJsonNumber_whole_cases n hword with ⟨hlt, -⟩ | ⟨-, d, hdecimal, hd, hsigned⟩
      · omega
      · exact ⟨d, hdecimal, by rw [Decimal.value_of_scale_eq_zero hd.1, hsigned]⟩
    · intro hout
      omega
  · obtain ⟨d, hread, hexact⟩ := exists_ofText?_intText_large hn hword
    rw [hread] at hvalue
    refine ⟨.double d, hvalue, ?_, ?_, fun _ => ⟨d, rfl, hexact⟩⟩
    · intro hlow hhigh
      omega
    · intro hlow hhigh
      omega

/-- The second integer past the words is read as another number. -/
theorem ofJson_intText_pastWords :
    (18446744073709551617 : Int).natAbs < Decimal.coefficientLimit
      ∧ JsonNumber.EndsBefore [',']
      ∧ ∃ number : JsonNumber,
          Json.value? 127 ((intText 18446744073709551617).toList ++ [','])
              = some (.number number, [','])
            ∧ ¬IsNumber (ofJson (.number number)) 18446744073709551617 := by
  have hlimit : (18446744073709551617 : Int).natAbs < Decimal.coefficientLimit := by decide
  have hends : JsonNumber.EndsBefore [','] := by
    rintro c ⟨⟩
    decide
  obtain ⟨number, hread, -, -, hlarge⟩ := ofJson_intText hlimit hends 127
  obtain ⟨d, -, -, hdigits, -⟩ := hlarge (.inr (by decide))
  refine ⟨hlimit, hends, number, hread, fun h => ?_⟩
  obtain ⟨m, k, hm, heq⟩ := hdigits h
  cases k with
  | zero =>
      rw [Nat.pow_zero] at heq
      omega
  | succ k =>
      rw [Nat.pow_succ, ← Nat.mul_assoc] at heq
      omega

end Value

end RowQuery
