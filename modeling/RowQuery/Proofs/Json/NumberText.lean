import RowQuery.Json.Number
import RowQuery.Proofs.Number.Rounding
import RowQuery.Proofs.Text.Digits

/-!
# Reading the text of a number

What `JsonNumber.ofText?` makes of a numeral with a sign. Without places it is a
whole number if a word of 64 bits holds it, with negative zero as the exception.
Any other numeral is a double, and one whose digits fit a word is the number of
its digits, scaled down by its places.
-/

namespace RowQuery

namespace JsonNumber

/-! ## Gathering digits -/

/-- Digits whose number is below the limit are all gathered. -/
theorem gather_of_lt {digits : List Char} (hdigits : ∀ c ∈ digits, c.isDigit = true) {n : Nat}
    (h : Nat.ofDigitChars 10 digits n < significandLimit) :
    gather n digits = (Nat.ofDigitChars 10 digits n, 0) := by
  induction digits generalizing n with
  | nil => rfl
  | cons c rest ih =>
      obtain ⟨hc, hrest⟩ := List.forall_mem_cons.mp hdigits
      rw [Nat.ofDigitChars_cons, Nat.mul_comm] at h ⊢
      have hnext := Nat.lt_of_le_of_lt (le_ofDigitChars rest _) h
      rw [gather, digit?_of_isDigit hc, Option.getD_some, if_pos hnext, ih hrest h]

/-- If no digit is left out, the number of the digits is what was gathered. -/
theorem ofDigitChars_of_gather_eq_zero {digits : List Char}
    (hdigits : ∀ c ∈ digits, c.isDigit = true) {n : Nat} (h : (gather n digits).2 = 0) :
    (gather n digits).1 = Nat.ofDigitChars 10 digits n := by
  induction digits generalizing n with
  | nil => rfl
  | cons c rest ih =>
      obtain ⟨hc, hrest⟩ := List.forall_mem_cons.mp hdigits
      rw [gather, digit?_of_isDigit hc, Option.getD_some] at h ⊢
      rw [Nat.ofDigitChars_cons, Nat.mul_comm 10]
      split at h
      · rename_i hlt
        rw [if_pos hlt]
        exact ih hrest h
      · exact absurd h (Nat.succ_ne_zero _)

/-! ## Numerals -/

section Numeral

variable (negative : Bool) (m : Numeral)

/-- The sign is taken off and the digits are read. -/
theorem read?_signedText (rest : List Char) :
    read? ((signedText negative m.chars).toList ++ rest)
      = readUnsigned? negative (m.chars ++ rest) := by
  obtain ⟨c, others, hchars, hdigit⟩ := m.exists_chars_eq_cons
  rw [signedText, String.toList_ofList]
  cases negative with
  | true => rfl
  | false =>
      rw [if_neg Bool.false_ne_true, hchars]
      refine read?.eq_2 _ fun rest' heq => ?_
      rw [(List.cons.inj heq).1] at hdigit
      exact absurd hdigit (by decide)

variable {m}

theorem not_leading : ¬(m.whole = [] ∨ (m.whole.head? = some '0' ∧ m.whole.length ≠ 1)) := by
  rintro (hnil | ⟨hhead, hlength⟩)
  · exact m.whole_ne_nil hnil
  · exact hlength (m.leading hhead)

/-- Whether a whole number ends in front of a text. -/
def EndsBefore (rest : List Char) : Prop :=
  ∀ c ∈ rest.head?, c.isDigit = false ∧ c ≠ '.' ∧ c ≠ 'e' ∧ c ≠ 'E'

theorem endsBefore_nil : EndsBefore [] := by
  rintro c ⟨⟩

theorem readUnsigned?_of_eq_nil (h : m.places = []) {rest : List Char} (hrest : EndsBefore rest) :
    readUnsigned? negative (m.chars ++ rest)
      = (ofDigits? negative (gather 0 m.whole).1 (gather 0 m.whole).2).map (·, rest) := by
  rw [Numeral.chars, if_pos h, readUnsigned?,
    spanDigits_append m.isDigit_of_mem_whole fun c hc => (hrest c hc).1]
  dsimp only
  rw [if_neg not_leading]
  split
  · exact absurd rfl (hrest '.' rfl).2.1
  · next c others _ =>
      have hmark : ¬(c = 'e' ∨ c = 'E') := not_or.mpr (hrest c rfl).2.2
      rw [if_neg hmark]
  · rfl

theorem readUnsigned?_of_ne_nil (h : m.places ≠ []) :
    readUnsigned? negative m.chars
      = finish? negative (gather (gather 0 m.whole).1 m.places).1
          ((gather 0 m.whole).2
            - (m.places.length - (gather (gather 0 m.whole).1 m.places).2 : Nat)) [] := by
  have hpoint : ∀ c ∈ ('.' :: m.places).head?, c.isDigit = false := by
    rintro c ⟨⟩
    decide
  rw [Numeral.chars, if_neg h, readUnsigned?, spanDigits_append m.isDigit_of_mem_whole hpoint]
  dsimp only
  rw [if_neg not_leading]
  simp only [spanDigits_of_all m.isDigit_of_mem_places, if_neg h]

theorem ofText?_of_eq_nil (h : m.places = []) :
    ofText? (signedText negative m.chars)
      = ofDigits? negative (gather 0 m.whole).1 (gather 0 m.whole).2 := by
  have hread := read?_signedText negative m []
  rw [List.append_nil, readUnsigned?_of_eq_nil negative h endsBefore_nil] at hread
  rw [ofText?, hread]
  cases ofDigits? negative (gather 0 m.whole).1 (gather 0 m.whole).2 <;> rfl

theorem ofText?_of_ne_nil (h : m.places ≠ []) :
    ofText? (signedText negative m.chars)
      = (scaled? negative (gather (gather 0 m.whole).1 m.places).1
          ((gather 0 m.whole).2
            - (m.places.length - (gather (gather 0 m.whole).1 m.places).2 : Nat))).map .double := by
  have hread := read?_signedText negative m []
  rw [List.append_nil, List.append_nil] at hread
  rw [ofText?, hread, readUnsigned?_of_ne_nil negative h, finish?]
  cases scaled? negative (gather (gather 0 m.whole).1 m.places).1
    ((gather 0 m.whole).2
      - (m.places.length - (gather (gather 0 m.whole).1 m.places).2 : Nat)) <;> rfl

end Numeral

/-! ## Whole numbers and doubles -/

/-- The number of digits with a sign. -/
def signedNumber (negative : Bool) (n : Nat) : Int := if negative then -n else n

/-- Whether a numeral with a sign is read as a whole number. -/
def ReadsWhole (negative : Bool) (m : Numeral) : Prop :=
  m.scale = 0
    ∧ (-0x8000000000000000 ≤ signedNumber negative m.coefficient
      ∧ signedNumber negative m.coefficient < 0x10000000000000000)
    ∧ ¬(negative = true ∧ m.coefficient = 0)

/-- Digits that were all gathered are a whole number if a word holds it, and
anything else is a double. -/
theorem ofDigits?_cases (negative : Bool) (n leftOut : Nat) :
    (∃ h, leftOut = 0 ∧ ¬(negative = true ∧ n = 0)
        ∧ ofDigits? negative n leftOut = some (.whole (signedNumber negative n) h))
      ∨ ∃ read : Option Double, ofDigits? negative n leftOut = read.map .double := by
  by_cases hrange : -0x8000000000000000 ≤ signedNumber negative n
      ∧ signedNumber negative n < 0x10000000000000000
  · by_cases hexact : leftOut = 0 ∧ ¬(negative = true ∧ n = 0)
    · exact .inl ⟨hrange, hexact.1, hexact.2, (dif_pos hrange).trans (if_pos hexact)⟩
    · exact .inr ⟨_, (dif_pos hrange).trans (if_neg hexact)⟩
  · exact .inr ⟨_, dif_neg hrange⟩

section Numeral

variable {negative : Bool} {m : Numeral}

theorem places_eq_nil_iff : m.places = [] ↔ m.scale = 0 := List.length_eq_zero_iff.symm

theorem coefficient_eq_of_scale (h : m.scale = 0) :
    Nat.ofDigitChars 10 m.whole 0 = m.coefficient := by
  rw [← m.ofDigitChars_places, places_eq_nil_iff.mpr h, Nat.ofDigitChars_nil]

theorem ofText?_of_readsWhole (h : ReadsWhole negative m) :
    ofText? (signedText negative m.chars)
      = some (.whole (signedNumber negative m.coefficient) h.2.1) := by
  obtain ⟨hscale, hrange, hzero⟩ := h
  have hlt : m.coefficient < significandLimit := by
    rw [significandLimit]
    rw [signedNumber] at hrange
    split at hrange <;> omega
  have hgather : gather 0 m.whole = (m.coefficient, 0) := by
    have hvalue := coefficient_eq_of_scale hscale
    rw [gather_of_lt m.isDigit_of_mem_whole (hvalue ▸ hlt), hvalue]
  rw [ofText?_of_eq_nil negative (places_eq_nil_iff.mpr hscale), hgather, ofDigits?]
  exact (dif_pos hrange).trans (if_pos ⟨rfl, hzero⟩)

theorem ofText?_of_not_readsWhole (h : ¬ReadsWhole negative m) :
    ∃ read : Option Double, ofText? (signedText negative m.chars) = read.map .double := by
  by_cases hnil : m.places = []
  · rw [ofText?_of_eq_nil negative hnil]
    rcases ofDigits?_cases negative (gather 0 m.whole).1 (gather 0 m.whole).2 with
      ⟨hrange, hall, hzero, -⟩ | hdouble
    · have hscale := places_eq_nil_iff.mp hnil
      have hvalue := (ofDigitChars_of_gather_eq_zero m.isDigit_of_mem_whole hall).trans
        (coefficient_eq_of_scale hscale)
      rw [hvalue] at hrange hzero
      exact absurd ⟨hscale, hrange, hzero⟩ h
    · exact hdouble
  · exact ⟨_, ofText?_of_ne_nil negative hnil⟩

/-- Places scale a number of few digits down. -/
theorem ofText?_of_lt (hscale : 0 < m.scale) (hlt : m.coefficient < significandLimit) :
    ofText? (signedText negative m.chars)
      = (scaled? negative m.coefficient (-m.scale)).map .double := by
  have hvalue := m.ofDigitChars_places
  have hwhole : gather 0 m.whole = (Nat.ofDigitChars 10 m.whole 0, 0) :=
    gather_of_lt m.isDigit_of_mem_whole
      (Nat.lt_of_le_of_lt (hvalue ▸ le_ofDigitChars m.places _) hlt)
  have hplaces : gather (Nat.ofDigitChars 10 m.whole 0) m.places = (m.coefficient, 0) := by
    rw [gather_of_lt m.isDigit_of_mem_places (hvalue ▸ hlt), hvalue]
  rw [ofText?_of_ne_nil negative (List.length_pos_iff.mp hscale), hwhole]
  dsimp only
  rw [hplaces]
  congr 2
  exact Int.zero_sub _

end Numeral

/-! ## Scaling -/

theorem ofNat?_of_lt {n twos : Nat} (hn : n < 0x20000000000000) (htwos : twos ≤ 900) :
    ∃ d, Double.ofNat? (n * 2 ^ twos) = some d ∧ d.units = n * 2 ^ twos * Double.one := by
  obtain ⟨place, hplace, hunits⟩ := Double.exists_unitsAt_eq hn htwos
  have hnearest : Double.nearestPlace (n * 2 ^ twos) 1 = place :=
    Double.nearestPlace_eq_of_units Nat.one_pos ((Nat.mul_one _).trans hunits)
  refine ⟨⟨false, place, hplace⟩, ?_, hunits⟩
  rw [Double.ofNat?, Double.ofRatio, hnearest]
  exact dif_pos hplace

/-- Powers of ten up to the twenty-second are exact. -/
theorem units_powerOfTen {k : Nat} (h : k ≤ 22) : (powerOfTen k).units = 10 ^ k * Double.one := by
  have hpower : Nat.pow 10 k = 5 ^ k * 2 ^ k := Nat.mul_pow 5 2 k
  have hfives : 5 ^ k < 0x20000000000000 := by
    have hle := Nat.pow_le_pow_right (show 5 > 0 by decide) h
    omega
  obtain ⟨d, hd, hunits⟩ := ofNat?_of_lt hfives (show k ≤ 900 by omega)
  rw [powerOfTen, hpower, hd, Option.getD_some, hunits, ← hpower, Nat.pow_eq]

theorem divideByLargest_zero (d : Double) : divideByLargest 0 d = some d := rfl

/-- Up to the largest power there is a single division. -/
theorem divideByPower_of_le (d : Double) {power : Nat} (hpos : 0 < power)
    (hle : power ≤ largestPower) : divideByPower d power = d.div? (powerOfTen power) := by
  have hsteps : (power - 1) / largestPower = 0 :=
    Nat.div_eq_of_lt (Nat.lt_of_lt_of_le (Nat.sub_lt hpos Nat.one_pos) hle)
  rw [divideByPower, hsteps, Nat.zero_mul, Nat.sub_zero, divideByLargest_zero,
    Option.bind_eq_bind, Option.bind_some]

/-- A number of few digits is divided by a power of ten with one rounding. -/
theorem scaled?_of_lt (negative : Bool) {n scale : Nat} (hn : n < 0x20000000000000)
    (hpos : 0 < scale) (hle : scale ≤ 22) :
    ∃ d, scaled? negative n (-scale) = some d ∧ d.negative = negative
      ∧ d.place = Double.nearestPlace n (10 ^ scale) := by
  obtain ⟨d, hd, hunits⟩ := ofNat?_of_lt hn (Nat.zero_le 900)
  rw [Nat.pow_zero, Nat.mul_one] at hd hunits
  have hten : 0 < 10 ^ scale := Nat.pow_pos (by decide)
  have hplace : Double.nearestPlace d.units (powerOfTen scale).units
      = Double.nearestPlace n (10 ^ scale) := by
    rw [hunits, units_powerOfTen hle]
    exact Double.nearestPlace_eq_of_spans (Nat.mul_pos hten Double.one_pos)
      ((Double.spans_nearestPlace n hten).mul Double.one_pos)
  have hlt : Double.nearestPlace n (10 ^ scale) < Double.placeLimit :=
    Double.nearestPlace_lt hten (by omega)
  have hsign : ¬(0 : Int) ≤ -scale := by omega
  have hpower : scale ≤ largestPower := by
    rw [largestPower]
    omega
  rw [scaled?, hd, Option.bind_eq_bind, Option.bind_some, if_neg hsign, Int.natAbs_neg,
    Int.natAbs_natCast, divideByPower_of_le d hpos hpower, Double.div?, Double.ofRatio, hplace,
    dif_pos hlt]
  exact ⟨_, rfl, rfl, rfl⟩

/-- A numeral of few digits and places is read as the double nearest to it. -/
theorem exists_ofText?_eq (negative : Bool) {m : Numeral} (hlt : m.coefficient < 0x20000000000000)
    (hpos : 0 < m.scale) (hle : m.scale ≤ 22) :
    ∃ d, ofText? (signedText negative m.chars) = some (.double d) ∧ d.negative = negative
      ∧ d.place = Double.nearestPlace m.coefficient (10 ^ m.scale) := by
  obtain ⟨d, hd, hsign, hplace⟩ := scaled?_of_lt negative hlt hpos hle
  have hfits : m.coefficient < significandLimit := by
    rw [significandLimit]
    omega
  rw [ofText?_of_lt hpos hfits, hd]
  exact ⟨d, rfl, hsign, hplace⟩

end JsonNumber

end RowQuery
