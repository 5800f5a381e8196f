import RowQuery.Proofs.Json.NumberText
import RowQuery.Proofs.Number.ShortestDigits

/-!
# Numbers are told apart by their texts

The text of a number is a sign, a numeral and maybe an exponent
(`NumberLayout`), and these can be read off it, whatever follows that ends a
number. They are enough to tell which number it is: whole numbers have neither a
point nor an exponent and doubles have one of them, and the digits of a double
are a number of its interval, which no other double has.
-/

namespace RowQuery

open JsonNumber (EndsBefore)

/-! ## Numerals -/

/-- Digits can be read off a text that goes on with something else. -/
theorem digits_eq_of_append_eq {ds es rest other : List Char}
    (hds : ∀ c ∈ ds, c.isDigit = true) (hes : ∀ c ∈ es, c.isDigit = true)
    (hrest : ∀ c ∈ rest.head?, c.isDigit = false) (hother : ∀ c ∈ other.head?, c.isDigit = false)
    (h : ds ++ rest = es ++ other) : ds = es ∧ rest = other := by
  have hspan := congrArg spanDigits h
  rw [spanDigits_append hds hrest, spanDigits_append hes hother] at hspan
  exact Prod.mk.inj hspan

namespace Numeral

variable {m n : Numeral} {rest other : List Char}

theorem ext (hwhole : m.whole = n.whole) (hplaces : m.places = n.places) : m = n := by
  cases m
  cases n
  cases hwhole
  cases hplaces
  rfl

/-- What the text of a numeral has behind its first digits. -/
def pointed (m : Numeral) : List Char := if m.places = [] then [] else '.' :: m.places

theorem chars_eq (m : Numeral) : m.chars = m.whole ++ m.pointed := by
  rw [chars, pointed]
  split
  · rw [List.append_nil]
  · rfl

/-- Whether a numeral ends in front of a text. -/
def EndsBefore (rest : List Char) : Prop := ∀ c ∈ rest.head?, c.isDigit = false ∧ c ≠ '.'

theorem not_isDigit_of_mem_pointed (hrest : EndsBefore rest) :
    ∀ c ∈ (m.pointed ++ rest).head?, c.isDigit = false := by
  intro c hc
  rw [pointed] at hc
  split at hc
  · exact (hrest c hc).1
  · obtain rfl := Option.some.inj hc
    decide

theorem places_eq_of_append_eq (hrest : EndsBefore rest) (hother : EndsBefore other)
    (h : m.pointed ++ rest = n.pointed ++ other) : m.places = n.places ∧ rest = other := by
  rw [pointed, pointed] at h
  split at h <;> split at h
  · rename_i hm hn
    exact ⟨hm.trans hn.symm, h⟩
  · rw [List.nil_append, List.cons_append] at h
    exact absurd rfl (hrest '.' (h ▸ rfl)).2
  · rw [List.nil_append, List.cons_append] at h
    exact absurd rfl (hother '.' (h ▸ rfl)).2
  · exact digits_eq_of_append_eq m.isDigit_of_mem_places n.isDigit_of_mem_places
      (fun c hc => (hrest c hc).1) (fun c hc => (hother c hc).1) (List.cons.inj h).2

theorem eq_of_append_eq (hrest : EndsBefore rest) (hother : EndsBefore other)
    (h : m.chars ++ rest = n.chars ++ other) : m = n ∧ rest = other := by
  rw [chars_eq, chars_eq, List.append_assoc, List.append_assoc] at h
  obtain ⟨hwhole, hpointed⟩ := digits_eq_of_append_eq m.isDigit_of_mem_whole n.isDigit_of_mem_whole
    (not_isDigit_of_mem_pointed hrest) (not_isDigit_of_mem_pointed hother) h
  obtain ⟨hplaces, hend⟩ := places_eq_of_append_eq hrest hother hpointed
  exact ⟨ext hwhole hplaces, hend⟩

end Numeral

/-! ## Layouts -/

/-- The parts of the text of a number. -/
structure NumberLayout where
  negative : Bool
  numeral : Numeral
  exponent : Option Int

namespace NumberLayout

variable {a b : NumberLayout} {rest other : List Char}

def exponentChars : Option Int → List Char
  | none => []
  | some power => 'e' :: (if power < 0 then '-' else '+') :: digitsOf power.natAbs

/-- The text, from its parts. -/
def chars (layout : NumberLayout) : List Char :=
  (signedText layout.negative (layout.numeral.chars ++ exponentChars layout.exponent)).toList

/-- The text begins with a sign or with a digit. -/
theorem exists_chars_eq_cons (layout : NumberLayout) :
    ∃ c rest, layout.chars = c :: rest ∧ (c = '-' ∨ c.isDigit = true) := by
  obtain ⟨c, others, hchars, hdigit⟩ := layout.numeral.exists_chars_eq_cons
  rw [chars, signedText, String.toList_ofList, hchars]
  split
  · exact ⟨_, _, rfl, .inl rfl⟩
  · exact ⟨_, _, rfl, .inr hdigit⟩

theorem endsBefore_exponentChars (hrest : EndsBefore rest) (exponent : Option Int) :
    Numeral.EndsBefore (exponentChars exponent ++ rest) := by
  cases exponent with
  | none => exact fun c hc => ⟨(hrest c hc).1, (hrest c hc).2.1⟩
  | some power =>
      rintro c ⟨⟩
      decide

theorem power_eq {power other : Int}
    (hsign : (if power < 0 then '-' else '+') = if other < 0 then '-' else '+')
    (hdigits : digitsOf power.natAbs = digitsOf other.natAbs) : power = other := by
  have hnumber : power.natAbs = other.natAbs := by
    rw [← ofDigitChars_digitsOf power.natAbs, hdigits, ofDigitChars_digitsOf]
  split at hsign <;> split at hsign
  · omega
  · exact absurd hsign (by decide)
  · exact absurd hsign (by decide)
  · omega

theorem exponent_eq_of_append_eq (hrest : EndsBefore rest) (hother : EndsBefore other)
    {e f : Option Int} (h : exponentChars e ++ rest = exponentChars f ++ other) :
    e = f ∧ rest = other := by
  cases e with
  | none =>
      cases f with
      | none => exact ⟨rfl, h⟩
      | some power =>
          rw [exponentChars, exponentChars, List.nil_append] at h
          exact absurd rfl (hrest 'e' (h ▸ rfl)).2.2.1
  | some power =>
      cases f with
      | none =>
          rw [exponentChars, exponentChars, List.nil_append] at h
          exact absurd rfl (hother 'e' (h ▸ rfl)).2.2.1
      | some power' =>
          obtain ⟨hsign, hdigits⟩ := List.cons.inj (List.cons.inj h).2
          obtain ⟨hnumber, hend⟩ := digits_eq_of_append_eq
            (fun c hc => isDigit_of_mem_digitsOf hc) (fun c hc => isDigit_of_mem_digitsOf hc)
            (fun c hc => (hrest c hc).1) (fun c hc => (hother c hc).1) hdigits
          exact ⟨congrArg some (power_eq hsign hnumber), hend⟩

theorem head_ne_of_numeral (m : Numeral) {cs ds : List Char} : m.chars ++ cs ≠ '-' :: ds := by
  obtain ⟨c, others, hchars, hdigit⟩ := m.exists_chars_eq_cons
  rw [hchars, List.cons_append]
  rintro ⟨⟩
  exact absurd hdigit (by decide)

/-- The parts can be read off the text. -/
theorem eq_of_append_eq (hrest : EndsBefore rest) (hother : EndsBefore other)
    (h : a.chars ++ rest = b.chars ++ other) : a = b ∧ rest = other := by
  obtain ⟨negative, m, e⟩ := a
  obtain ⟨negative', n, f⟩ := b
  have hparts : negative = negative'
      ∧ m.chars ++ (exponentChars e ++ rest) = n.chars ++ (exponentChars f ++ other) := by
    simp only [chars, signedText, String.toList_ofList] at h
    cases negative <;> cases negative'
    · exact ⟨rfl, by simpa using h⟩
    · exact absurd (by simpa using h) (head_ne_of_numeral m)
    · exact absurd (by simpa using h.symm) (head_ne_of_numeral n)
    · exact ⟨rfl, by simpa using h⟩
  obtain ⟨rfl, hchars⟩ := hparts
  obtain ⟨rfl, htail⟩ := Numeral.eq_of_append_eq (endsBefore_exponentChars hrest e)
    (endsBefore_exponentChars hother f) hchars
  obtain ⟨rfl, hend⟩ := exponent_eq_of_append_eq hrest hother htail
  exact ⟨rfl, hend⟩

end NumberLayout

/-! ## Numbers -/

namespace Double

/-- A layout with the sign of a double and with digits that are a number of its
interval. It has a point or an exponent. -/
structure IsLaidOut (d : Double) (layout : NumberLayout) : Prop where
  negative : layout.negative = d.negative
  notWhole : layout.numeral.places ≠ [] ∨ layout.exponent ≠ none
  hasPoint : (intervalAt d.place).HasPoint layout.numeral.coefficient
    (layout.exponent.getD 0 - layout.numeral.scale)

theorem IsLaidOut.eq {a b : Double} {layout : NumberLayout} (ha : a.IsLaidOut layout)
    (hb : b.IsLaidOut layout) : a = b := by
  have hplace : a.place = b.place :=
    Interval.Spans.place_eq (Nat.pow_pos (by decide)) ha.hasPoint hb.hasPoint
  have hsign : a.negative = b.negative := ha.negative.symm.trans hb.negative
  cases a
  cases b
  cases hplace
  cases hsign
  rfl

theorem IsLaidOut.ne_whole {d : Double} {layout : NumberLayout} (h : d.IsLaidOut layout)
    (negative : Bool) (n : Nat) : layout ≠ ⟨negative, .ofNat n, none⟩ := by
  rintro rfl
  rcases h.notWhole with hplaces | hexponent
  · exact hplaces rfl
  · exact hexponent rfl

variable {d : Double} {n : Nat} {exponent : Int}

theorem exists_positional_isLaidOut (hpoint : (intervalAt d.place).HasPoint n exponent)
    (hzero : n = 0 → exponent ≤ 0) :
    ∃ layout : NumberLayout,
      (signedText d.negative (withPoint (positionalDigits (digitsOf n) exponent))).toList
          = layout.chars
        ∧ d.IsLaidOut layout := by
  obtain ⟨m, hm, hmscale, hmcoefficient⟩ := exists_positionalDigits_eq hzero
  obtain ⟨p, hp, hpscale, hpcoefficient⟩ := m.exists_withPoint_eq
  refine ⟨⟨d.negative, p, none⟩, ?_, rfl, .inl ?_, ?_⟩
  · rw [NumberLayout.chars, NumberLayout.exponentChars, List.append_nil, hm, hp]
  · have hpos : 0 < p.scale := by omega
    exact List.length_pos_iff.mp hpos
  · have hle : -(p.scale : Int) ≤ exponent := by omega
    have hspans := hpoint.spans hle
    have hpower : exponent.toNat + (p.scale - m.scale) = (exponent + p.scale).toNat := by omega
    have hcoefficient : p.coefficient = n * 10 ^ (exponent + p.scale).toNat := by
      rw [hpcoefficient, hmcoefficient, Nat.mul_assoc, ← Nat.pow_add, hpower]
    rw [Option.getD_none, Int.zero_sub, Interval.hasPoint_neg_iff, hcoefficient]
    exact hspans

theorem exists_scientific_isLaidOut (hpoint : (intervalAt d.place).HasPoint n exponent) :
    ∃ layout : NumberLayout,
      (signedText d.negative
          (scientificDigits (digitsOf n) (exponent + (digitsOf n).length - 1))).toList
          = layout.chars
        ∧ d.IsLaidOut layout := by
  obtain ⟨m, hm, hscale, hcoefficient⟩ :=
    exists_scientificDigits_eq n (exponent + (digitsOf n).length - 1)
  refine ⟨⟨d.negative, m, some (exponent + (digitsOf n).length - 1)⟩, ?_, rfl, .inr nofun, ?_⟩
  · rw [hm]
    rfl
  · have hlength := length_digitsOf_pos n
    have hexponent : exponent + (digitsOf n).length - 1 - m.scale = exponent := by omega
    rw [Option.getD_some, hexponent, hcoefficient]
    exact hpoint

/-- The text of a double is a layout of it. -/
theorem exists_isLaidOut (d : Double) :
    ∃ layout : NumberLayout, d.text.toList = layout.chars ∧ d.IsLaidOut layout := by
  have hpoint := hasPoint_digits d
  rw [text]
  dsimp only
  split
  · exact exists_positional_isLaidOut hpoint fun hzero => Int.le_of_eq (shortest_of_eq_zero hzero)
  · exact exists_scientific_isLaidOut hpoint

end Double

namespace JsonNumber

def IsLaidOut : JsonNumber → NumberLayout → Prop
  | .whole n _, layout => layout = ⟨n < 0, .ofNat n.natAbs, none⟩
  | .double d, layout => d.IsLaidOut layout

theorem IsLaidOut.eq {a b : JsonNumber} {layout : NumberLayout} (ha : a.IsLaidOut layout)
    (hb : b.IsLaidOut layout) : a = b := by
  cases a with
  | whole n hn =>
      cases b with
      | whole m hm =>
          obtain ⟨hsign, hnumeral, -⟩ := NumberLayout.mk.inj (ha.symm.trans hb)
          have hdigits : digitsOf n.natAbs = digitsOf m.natAbs := congrArg Numeral.whole hnumeral
          have hnumber : n.natAbs = m.natAbs := by
            rw [← ofDigitChars_digitsOf n.natAbs, hdigits, ofDigitChars_digitsOf]
          rw [decide_eq_decide] at hsign
          obtain rfl : n = m := by omega
          rfl
      | double d => exact absurd ha (Double.IsLaidOut.ne_whole hb _ _)
  | double d =>
      cases b with
      | whole m hm => exact absurd hb (Double.IsLaidOut.ne_whole ha _ _)
      | double e => rw [Double.IsLaidOut.eq ha hb]

theorem exists_isLaidOut (n : JsonNumber) :
    ∃ layout : NumberLayout, n.text.toList = layout.chars ∧ n.IsLaidOut layout := by
  cases n with
  | whole n h =>
      refine ⟨⟨n < 0, .ofNat n.natAbs, none⟩, ?_, rfl⟩
      rw [NumberLayout.chars, NumberLayout.exponentChars, List.append_nil]
      rfl
  | double d => exact d.exists_isLaidOut

/-- A number can be read off its text. -/
theorem eq_of_append_eq {a b : JsonNumber} {rest other : List Char} (hrest : EndsBefore rest)
    (hother : EndsBefore other) (h : a.text.toList ++ rest = b.text.toList ++ other) :
    a = b ∧ rest = other := by
  obtain ⟨layout, hlayout, ha⟩ := a.exists_isLaidOut
  obtain ⟨layout', hlayout', hb⟩ := b.exists_isLaidOut
  rw [hlayout, hlayout'] at h
  obtain ⟨rfl, hend⟩ := NumberLayout.eq_of_append_eq hrest hother h
  exact ⟨ha.eq hb, hend⟩

end JsonNumber

end RowQuery
