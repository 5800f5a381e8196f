import RowQuery.Proofs.Json.NumberText
import RowQuery.Proofs.Number.DecimalReading
import RowQuery.Proofs.Value.Numbers
import RowQuery.Value.Wire

/-!
# Numbers written and read again

An integer is written as a whole number and read from it unchanged. A decimal is
written as its text, and what becomes of it depends on what that text is read as:
a whole number keeps its value, but inside the signed words it is read as an
integer, and any other text goes through a double. A double keeps decimals of
fifteen digits and up to 22 places; of longer ones it keeps those that are its
shortest digits.
-/

namespace RowQuery

/-! ## Decimals and their texts -/

namespace Decimal

/-- The text of a decimal is a numeral with its sign. -/
theorem exists_text_eq (d : Decimal) : ∃ m : Numeral, d.text = signedText d.negative m.chars
    ∧ m.scale = d.scale ∧ m.coefficient = d.coefficient := by
  have hnone : d.coefficient = 0 → -(d.scale : Int) ≤ 0 := fun _ => by omega
  obtain ⟨m, hm, hscale, hcoefficient⟩ := exists_positionalDigits_eq hnone
  have hplaces : (- -(d.scale : Int)).toNat = d.scale := by omega
  have hzeros : (-(d.scale : Int)).toNat = 0 := by omega
  rw [hplaces] at hscale
  rw [hzeros, Nat.pow_zero, Nat.mul_one] at hcoefficient
  exact ⟨m, by rw [text, hm], hscale, hcoefficient⟩

/-- Whether the text of a decimal is read as a whole number. -/
def IsWord (d : Decimal) : Prop :=
  d.scale = 0 ∧ (-0x8000000000000000 ≤ d.signed ∧ d.signed < 0x10000000000000000)
    ∧ ¬(d.negative = true ∧ d.coefficient = 0)

theorem readsWhole_iff {d : Decimal} {m : Numeral} (hscale : m.scale = d.scale)
    (hcoefficient : m.coefficient = d.coefficient) :
    JsonNumber.ReadsWhole d.negative m ↔ d.IsWord := by
  rw [JsonNumber.ReadsWhole, JsonNumber.signedNumber, hscale, hcoefficient]
  exact Iff.rfl

theorem ofText?_of_isWord {d : Decimal} (h : d.IsWord) :
    JsonNumber.ofText? d.text = some (.whole d.signed h.2.1) := by
  obtain ⟨m, htext, hscale, hcoefficient⟩ := d.exists_text_eq
  have hread := JsonNumber.ofText?_of_readsWhole ((readsWhole_iff hscale hcoefficient).mpr h)
  rw [htext, hread]
  simp only [JsonNumber.signedNumber, hcoefficient, signed]

theorem ofText?_of_not_isWord {d : Decimal} (h : ¬d.IsWord) :
    ∃ read : Option Double, JsonNumber.ofText? d.text = read.map .double := by
  obtain ⟨m, htext, hscale, hcoefficient⟩ := d.exists_text_eq
  rw [htext]
  exact JsonNumber.ofText?_of_not_readsWhole (mt (readsWhole_iff hscale hcoefficient).mp h)

/-- A decimal of few digits and places is read as the double nearest to it. -/
theorem ofText?_of_places {d : Decimal} (hlt : d.coefficient < 0x20000000000000)
    (hpos : 0 < d.scale) (hle : d.scale ≤ 22) :
    ∃ y, JsonNumber.ofText? d.text = some (.double y) ∧ y.negative = d.negative
      ∧ y.place = Double.nearestPlace d.coefficient (10 ^ d.scale) := by
  obtain ⟨m, htext, hscale, hcoefficient⟩ := d.exists_text_eq
  rw [← hcoefficient] at hlt ⊢
  rw [← hscale] at hpos hle ⊢
  rw [htext]
  exact JsonNumber.exists_ofText?_eq d.negative hlt hpos hle

/-- Whether the text of a decimal is read as an integer. -/
def IsInteger (d : Decimal) : Prop := d.IsWord ∧ d.signed < 0x8000000000000000

/-- The decimal that is read from the text of a double, where the double is what
the text of a decimal is read as. -/
def throughDouble? (d : Decimal) : Option Decimal :=
  match JsonNumber.ofText? d.text with
  | some (.double y) => ofText? y.text
  | _ => none

/-- Whether a decimal keeps its value when it is written and read again. -/
def Kept (d : Decimal) : Prop := d.IsWord ∨ ∃ x, d.throughDouble? = some x ∧ x.numEq d = true

end Decimal

/-! ## Whole numbers -/

namespace Value

/-- What a whole number is read as. -/
theorem ofJsonNumber_whole_cases (i : Int) (h : -0x8000000000000000 ≤ i ∧ i < 0x10000000000000000) :
    (i < 0x8000000000000000 ∧ ofJsonNumber (.whole i h) = .int (Int64.ofInt i)
        ∧ (Int64.ofInt i).toInt = i)
      ∨ 0x8000000000000000 ≤ i ∧ ∃ d : Decimal, ofJsonNumber (.whole i h) = .decimal d
        ∧ d.IsWord ∧ d.signed = i := by
  by_cases hlt : i < 0x8000000000000000
  · exact .inl ⟨hlt, if_pos hlt, Int64.toInt_ofInt_of_le h.1 hlt⟩
  · have hlimit : i.natAbs < Decimal.coefficientLimit := by
      rw [Decimal.coefficientLimit]
      omega
    have hof : Decimal.of? (i < 0) i.natAbs 0 = some (.ofInt i hlimit) :=
      dif_pos ⟨hlimit, Nat.zero_le _⟩
    have hsigned : (Decimal.ofInt i hlimit).signed = i := Decimal.signed_ofInt i hlimit
    refine .inr ⟨by omega, .ofInt i hlimit, ?_, ⟨rfl, by rw [hsigned]; exact h, ?_⟩, hsigned⟩
    · rw [ofJsonNumber, if_neg hlt, hof]
    · simp only [Decimal.ofInt, decide_eq_true_eq]
      omega

end Value

/-! ## Decimals -/

namespace Value

/-- What a decimal is read as once it is written: where its text is a whole
number, an integer or a decimal of its value, and otherwise the decimal of a
double. -/
inductive Rereads (d : Decimal) : Value → Prop
  | integer (hinteger : d.IsInteger) {n : Int64} (hvalue : (n.toInt : ℚ) = d.value) :
      Rereads d (.int n)
  | word (hword : d.IsWord) (hinteger : ¬d.IsInteger) {x : Decimal} (hvalue : x.value = d.value) :
      Rereads d (.decimal x)
  | double (hword : ¬d.IsWord) {x : Decimal} (hdouble : d.throughDouble? = some x) :
      Rereads d (.decimal x)
  | other (hword : ¬d.IsWord) (hdouble : d.throughDouble? = none) {v : Value}
      (hnumeric : v.isNumeric = false) : Rereads d v

theorem rereads_of_isWord {d : Decimal} (h : d.IsWord) :
    Rereads d (ofJson (decimal d).toJson) := by
  have hvalue := Decimal.value_of_scale_eq_zero h.1
  have hread : ofJson (decimal d).toJson = ofJsonNumber (.whole d.signed h.2.1) := by
    rw [toJson, Decimal.toJson, Decimal.ofText?_of_isWord h, ofJson]
  rw [hread]
  rcases ofJsonNumber_whole_cases d.signed h.2.1 with
    ⟨hlt, hint, hn⟩ | ⟨hle, x, hx, hxword, hsigned⟩
  · rw [hint]
    exact .integer ⟨h, hlt⟩ (by rw [hn, hvalue])
  · rw [hx]
    refine .word h (fun hinteger => Int.not_lt.mpr hle hinteger.2) ?_
    rw [Decimal.value_of_scale_eq_zero hxword.1, hsigned, hvalue]

theorem rereads_of_not_isWord {d : Decimal} (h : ¬d.IsWord) :
    Rereads d (ofJson (decimal d).toJson) := by
  obtain ⟨read, hread⟩ := Decimal.ofText?_of_not_isWord h
  rw [toJson, Decimal.toJson, hread]
  cases read with
  | none =>
      have hdouble : d.throughDouble? = none := by
        rw [Decimal.throughDouble?, hread]
        rfl
      refine .other h hdouble ?_
      simp only [Option.map_none, ofJson]
      cases Instant.parse? d.text <;> rfl
  | some y =>
      have hdouble : d.throughDouble? = Decimal.ofText? y.text := by
        rw [Decimal.throughDouble?, hread]
        rfl
      simp only [Option.map_some, ofJson, ofJsonNumber]
      cases hy : Decimal.ofText? y.text with
      | none => exact .other h (hdouble.trans hy) rfl
      | some x => exact .double h (hdouble.trans hy)

theorem rereads (d : Decimal) : Rereads d (ofJson (decimal d).toJson) := by
  by_cases h : d.IsWord
  · exact rereads_of_isWord h
  · exact rereads_of_not_isWord h

/-- A decimal is read with its value if and only if it is kept. -/
theorem Rereads.equal_iff {d : Decimal} {v : Value} (h : Rereads d v) :
    v.equal (.decimal d) = true ↔ d.Kept := by
  cases h with
  | integer hinteger hvalue =>
      rw [equal_iff_number_eq rfl rfl]
      exact iff_of_true hvalue (.inl hinteger.1)
  | word hword _ hvalue =>
      rw [equal_iff_number_eq rfl rfl]
      exact iff_of_true hvalue (.inl hword)
  | double hword hdouble =>
      rw [equal_iff_number_eq rfl rfl, Decimal.Kept, hdouble, or_iff_right hword]
      simp only [Option.some.injEq, exists_eq_left', Decimal.numEq_iff]
      rfl
  | other hword hdouble hnumeric =>
      have hequal : v.equal (.decimal d) = false := by
        by_contra hequal
        have hrank := rank_eq_of_equal (Bool.eq_true_of_not_eq_false hequal)
        rw [isNumeric_iff_rank.mpr hrank] at hnumeric
        cases hnumeric
      rw [hequal, Decimal.Kept, hdouble, or_iff_right hword]
      simp only [Bool.false_eq_true, reduceCtorEq, false_and, exists_false]

/-- A decimal is read as the same value if and only if it is kept and is no
integer. -/
theorem Rereads.same_iff {d : Decimal} {v : Value} (h : Rereads d v) :
    v.same (.decimal d) = true ↔ d.Kept ∧ ¬d.IsInteger := by
  have hword_of_integer : d.IsInteger → d.IsWord := And.left
  cases h with
  | integer hinteger hvalue =>
      simp only [same]
      exact iff_of_false Bool.false_ne_true fun hkept => hkept.2 hinteger
  | word hword hinteger hvalue =>
      rw [same, Decimal.numEq_iff]
      exact iff_of_true hvalue ⟨.inl hword, hinteger⟩
  | double hword hdouble =>
      rw [same, Decimal.Kept, hdouble, or_iff_right hword, and_iff_left (mt hword_of_integer hword)]
      simp only [Option.some.injEq, exists_eq_left']
  | other hword hdouble hnumeric =>
      have hsame : v.same (.decimal d) = false := by
        cases v with
        | decimal _ => cases hnumeric
        | _ => simp only [same]
      rw [hsame, Decimal.Kept, hdouble, or_iff_right hword]
      simp only [Bool.false_eq_true, reduceCtorEq, false_and, exists_false]

end Value

/-! ## Few digits -/

namespace Decimal

/-- A decimal that holds the number of another has its value. -/
theorem Holds.numEq {x d : Decimal} (h : x.Holds d.negative d.coefficient d.scale) :
    x.numEq d = true := by
  have hpower : 10 ^ d.scale = 10 ^ (d.scale - x.scale) * 10 ^ x.scale := by
    rw [← Nat.pow_add, Nat.sub_add_cancel h.scale_le_places]
  have hdigits : x.coefficient * 10 ^ d.scale = d.coefficient * 10 ^ x.scale := by
    rw [hpower, ← Nat.mul_assoc, h.coefficient_mul]
  have hnumbers : (x.coefficient : Int) * Nat.pow 10 d.scale
      = d.coefficient * Nat.pow 10 x.scale := by
    rw [Nat.pow_eq, Nat.pow_eq]
    exact_mod_cast hdigits
  rw [Decimal.numEq, beq_iff_eq, signed, signed, h.negative_eq]
  cases d.negative with
  | false =>
      rw [Bool.false_and, if_neg Bool.false_ne_true, if_neg Bool.false_ne_true, hnumbers]
  | true =>
      rw [Bool.true_and, if_pos rfl, Int.neg_mul, ← hnumbers]
      split
      · rw [Int.neg_mul]
      · rename_i hzero
        have hnone : x.coefficient = 0 := by
          have hle := le_of_mul_pow_eq h.coefficient_mul
          simp only [decide_eq_true_eq] at hzero
          omega
        rw [hnone, Int.natCast_zero, Int.zero_mul, Int.neg_zero]

/-- The double of a decimal of few digits is read as the decimal again. -/
theorem kept_of_places {d : Decimal} (hlt : d.coefficient < 0x10000000000000) (hpos : 0 < d.scale)
    (hle : d.scale ≤ 22) : d.Kept := by
  obtain ⟨y, hy, hsign, hplace⟩ := ofText?_of_places (by omega) hpos hle
  obtain ⟨x, hx, hholds⟩ := exists_holds_text hlt hpos hle hplace
  rw [hsign] at hholds
  refine .inr ⟨x, ?_, hholds.numEq⟩
  rw [throughDouble?, hy]
  exact hx

/-- Zero with a sign and without places is no whole number. -/
theorem throughDouble?_minusZero :
    throughDouble? ⟨true, 0, 0, by decide, by decide⟩
      = some ⟨false, 0, 1, by decide, by decide⟩ := by
  decide +kernel

/-- A decimal of at most fifteen digits and 22 places is kept. -/
theorem kept_of_lt {d : Decimal} (hlt : d.coefficient < 0x10000000000000) (hle : d.scale ≤ 22) :
    d.Kept := by
  rcases Nat.eq_zero_or_pos d.scale with hzero | hpos
  · by_cases hsign : d.negative = true ∧ d.coefficient = 0
    · obtain ⟨negative, coefficient, scale, _, _⟩ := d
      obtain ⟨rfl, rfl⟩ := hsign
      obtain rfl : scale = 0 := hzero
      exact .inr ⟨_, throughDouble?_minusZero, rfl⟩
    · have hrange : -0x8000000000000000 ≤ d.signed ∧ d.signed < 0x10000000000000000 := by
        rw [signed]
        split <;> omega
      exact .inl ⟨hzero, hrange, hsign⟩
  · exact kept_of_places hlt hpos hle

end Decimal

namespace JsonNumber

/-- Whether a number that is read as a value, written and read again gives the
same value. -/
def Kept : JsonNumber → Prop
  | .whole _ _ => True
  | .double y => ∀ x, Decimal.ofText? y.text = some x → x.Kept ∧ ¬x.IsInteger

theorem kept_of_isShort {y : Double} (h : y.IsShort) : (JsonNumber.double y).Kept := by
  obtain ⟨n, places, hlt, hpos, hle, hplace⟩ := h
  obtain ⟨x, hx, hholds⟩ := Decimal.exists_holds_text hlt hpos hle hplace
  intro x' hx'
  obtain rfl : x = x' := Option.some.inj (hx.symm.trans hx')
  have hdigits := Decimal.le_of_mul_pow_eq hholds.coefficient_mul
  have hscale := hholds.scale_le_places
  refine ⟨Decimal.kept_of_lt (by omega) (by omega), fun hinteger => ?_⟩
  exact Nat.pos_iff_ne_zero.mp hholds.scale_pos hinteger.1.1

end JsonNumber

namespace Value

/-- A whole number is written as it was read. -/
theorem toJson_ofJsonNumber_whole (i : Int)
    (h : -0x8000000000000000 ≤ i ∧ i < 0x10000000000000000) :
    (ofJsonNumber (.whole i h)).toJson = .number (.whole i h) := by
  rcases ofJsonNumber_whole_cases i h with ⟨-, hint, hn⟩ | ⟨-, d, hd, hword, hsigned⟩
  · rw [hint, toJson, JsonNumber.ofInt64]
    simp only [hn]
  · rw [hd, toJson, Decimal.toJson, Decimal.ofText?_of_isWord hword]
    simp only [hsigned]

theorem same_ofJsonNumber_iff (n : JsonNumber) :
    (ofJson (ofJsonNumber n).toJson).same (ofJsonNumber n) = true ↔ n.Kept := by
  cases n with
  | whole i h =>
      rw [toJson_ofJsonNumber_whole, ofJson]
      refine iff_of_true ?_ trivial
      rcases ofJsonNumber_whole_cases i h with ⟨-, hint, -⟩ | ⟨-, d, hd, -, -⟩
      · rw [hint, same, beq_self_eq_true]
      · rw [hd, same, Decimal.numEq_iff]
  | double y =>
      rw [ofJsonNumber, JsonNumber.Kept]
      cases hy : Decimal.ofText? y.text with
      | none =>
          have hreread : ofJson (raw (.number (.double y))).toJson = raw (.number (.double y)) := by
            rw [toJson, ofJson, ofJsonNumber, hy]
          rw [hreread, same, Json.same, JsonNumber.same, Double.numEq, beq_self_eq_true,
            beq_self_eq_true]
          simp
      | some x =>
          simp only [(rereads x).same_iff, Option.some.injEq, forall_eq']

theorem ofJson_toJson_int (n : Int64) : ofJson (int n).toJson = .int n := by
  have hlt : n.toInt < 0x8000000000000000 := n.toInt_lt
  rw [toJson, JsonNumber.ofInt64, ofJson, ofJsonNumber, if_pos hlt, Int64.ofInt_toInt]

/-- What of a number is left when it is written and read again. An integer comes
back unchanged. A decimal comes back with its value if and only if it is kept,
and all decimals of at most fifteen digits and 22 places are. What a number of a
document was read as comes back as the same value if and only if the number is
kept: all whole numbers are, and all short doubles. -/
theorem ofJson_toJson_number (n : Int64) (d : Decimal) (number : JsonNumber) :
    ofJson (int n).toJson = .int n
      ∧ ((ofJson (decimal d).toJson).equal (.decimal d) = true ↔ d.Kept)
      ∧ (d.coefficient < 0x10000000000000 → d.scale ≤ 22 → d.Kept)
      ∧ ((ofJson (ofJson (.number number)).toJson).same (ofJson (.number number)) = true
          ↔ number.Kept)
      ∧ ∀ y : Double, number = .double y → y.IsShort → number.Kept := by
  refine ⟨ofJson_toJson_int n, (rereads d).equal_iff, Decimal.kept_of_lt, ?_, ?_⟩
  · rw [ofJson]
    exact same_ofJsonNumber_iff number
  · rintro y rfl hshort
    exact JsonNumber.kept_of_isShort hshort

/-- Nineteen digits are more than a double keeps. -/
example : (ofJson (decimal ⟨false, 1234567890123456789, 19, by decide, by decide⟩).toJson).equal
    (.decimal ⟨false, 1234567890123456789, 19, by decide, by decide⟩) = false := by
  decide +kernel

end Value

end RowQuery
