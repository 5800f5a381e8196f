import RowQuery.Proofs.Json.Sameness
import RowQuery.Proofs.Value.NumberRoundTrip
import RowQuery.Value.Cast

/-!
# Documents read and written again

A document that is read as a value and written again is not always what it was.
Texts that can be read as instants come back in the one form in which instants
are written, and numbers that are no whole numbers come back as what the text of
their decimal is read as. Everything else comes back as it is.
-/

namespace RowQuery

namespace Json

theorem same_double_congr {a b : Double} (h : a.numEq b = true) (other : Json) :
    other.same (.number (.double a)) = other.same (.number (.double b)) :=
  isEquality_same.congr_right (by rwa [same, JsonNumber.same]) other

/-! ## Recoding -/

/-- What is left of a document that is read as a value and written again. -/
def recoded (document : Json) : Json := (Value.ofJson document).toJson

/-- Whether a document is left as it was. -/
def Kept : Json → Prop
  | .string s => ∀ t, Instant.parse? s = some t → t.text? = some s
  | .number (.double y) => ∀ x, Decimal.ofText? y.text = some x →
      ∃ z, JsonNumber.ofText? x.text = some (.double z) ∧ y.numEq z = true
  | _ => True

theorem recoded_string (s : String) :
    (string s).recoded = match Instant.parse? s with
      | some t => t.toJson
      | none => .string s := by
  rw [recoded, Value.ofJson]
  cases Instant.parse? s with
  | none => simp only [Value.toJson]
  | some t => simp only [Value.toJson]

theorem recoded_double (y : Double) :
    (number (.double y)).recoded = match Decimal.ofText? y.text with
      | some x => x.toJson
      | none => .number (.double y) := by
  rw [recoded, Value.ofJson, Value.ofJsonNumber]
  cases Decimal.ofText? y.text with
  | none => simp only [Value.toJson]
  | some x => simp only [Value.toJson]

/-- A document comes back as one that is equal to the same documents, or as one
that it is not equal to. -/
def Settled (document written : Json) : Prop :=
  document.Kept ∧ (∀ other : Json, other.same written = other.same document)
    ∨ ¬document.Kept ∧ document.same written = false

theorem settled_string (s : String) : Settled (.string s) (string s).recoded := by
  rw [recoded_string]
  cases hs : Instant.parse? s with
  | none => exact .inl ⟨fun t ht => absurd (hs.symm.trans ht) nofun, fun _ => rfl⟩
  | some t =>
      by_cases htext : t.text? = some s
      · refine .inl ⟨fun t' ht' => ?_, fun other => ?_⟩
        · obtain rfl := Option.some.inj (hs.symm.trans ht')
          exact htext
        · simp only [Instant.toJson, htext]
      · refine .inr ⟨fun hkept => htext (hkept t hs), ?_⟩
        simp only [Instant.toJson]
        cases ht : t.text? with
        | none => simp only [same]
        | some s' =>
            have hne : s ≠ s' := fun heq => htext (heq ▸ ht)
            simp only [same, beq_eq_false_iff_ne.mpr hne]

theorem settled_double (y : Double) :
    Settled (.number (.double y)) (number (.double y)).recoded := by
  rw [recoded_double]
  cases hy : Decimal.ofText? y.text with
  | none => exact .inl ⟨fun x hx => absurd (hy.symm.trans hx) nofun, fun _ => rfl⟩
  | some x =>
      have hkept : (number (.double y)).Kept
          ↔ ∃ z, JsonNumber.ofText? x.text = some (.double z) ∧ y.numEq z = true := by
        simp only [Kept, hy, Option.some.injEq, forall_eq']
      rw [Settled, hkept]
      simp only [Decimal.toJson]
      cases hx : JsonNumber.ofText? x.text with
      | none => exact .inr ⟨by rintro ⟨z, ⟨⟩, -⟩, by simp only [same]⟩
      | some n =>
          cases n with
          | whole i h => exact .inr ⟨by rintro ⟨z, ⟨⟩, -⟩, by simp only [same, JsonNumber.same]⟩
          | double z =>
              cases hz : y.numEq z with
              | true =>
                  exact .inl ⟨⟨z, rfl, hz⟩, fun other => (same_double_congr hz other).symm⟩
              | false =>
                  refine .inr ⟨?_, by simp only [same, JsonNumber.same, hz]⟩
                  rintro ⟨z', ⟨⟩, hz'⟩
                  exact absurd (hz.symm.trans hz') Bool.false_ne_true

theorem settled (document : Json) : Settled document document.recoded := by
  cases document with
  | null => exact .inl ⟨trivial, fun _ => rfl⟩
  | bool b => exact .inl ⟨trivial, fun _ => rfl⟩
  | number n =>
      cases n with
      | whole i h =>
          refine .inl ⟨trivial, fun other => ?_⟩
          rw [recoded, Value.ofJson, Value.toJson_ofJsonNumber_whole]
      | double y => exact settled_double y
  | string s => exact settled_string s
  | array items => exact .inl ⟨trivial, fun _ => rfl⟩
  | object entries => exact .inl ⟨trivial, fun _ => rfl⟩

theorem kept_of_isShort {y : Double} (h : y.IsShort) : (number (.double y)).Kept := by
  obtain ⟨n, places, hlt, hpos, hle, hplace⟩ := h
  obtain ⟨x, hx, hholds⟩ := Decimal.exists_holds_text hlt hpos hle hplace
  have hdigits := Decimal.le_of_mul_pow_eq hholds.coefficient_mul
  obtain ⟨z, hz, hsign, hzplace⟩ := Decimal.ofText?_of_places
    (show x.coefficient < 0x20000000000000 by omega) hholds.scale_pos
    (hholds.scale_le_places.trans hle)
  intro x' hx'
  obtain rfl : x = x' := Option.some.inj (hx.symm.trans hx')
  rw [← hholds.nearestPlace_eq, ← hplace] at hzplace
  refine ⟨z, hz, Double.numEq_iff.mpr ⟨hzplace.symm, ?_⟩⟩
  by_cases hzero : n = 0
  · have hten : 0 < 10 ^ places := Nat.pow_pos (by decide)
    rw [hplace, hzero]
    exact .inr (Double.nearestPlace_eq_of_spans hten (Double.spans_zero hten))
  · rw [hsign, hholds.negative_eq, decide_eq_true hzero, Bool.and_true]
    exact .inl rfl

end Json

/-! ## Casting to documents -/

namespace Value

/-- What is read from a document is null only for null, and never a body. -/
theorem ofJson_plain {document : Json} (h : document ≠ .null) :
    (ofJson document).isNull = false ∧ (ofJson document).asFilter? = none := by
  cases document with
  | null => exact absurd rfl h
  | number n =>
      cases n with
      | whole i hi =>
          rcases ofJsonNumber_whole_cases i hi with ⟨-, hint, -⟩ | ⟨-, d, hd, -, -⟩
          · rw [ofJson, hint]
            exact ⟨rfl, rfl⟩
          · rw [ofJson, hd]
            exact ⟨rfl, rfl⟩
      | double y =>
          rw [ofJson, ofJsonNumber]
          cases Decimal.ofText? y.text <;> exact ⟨rfl, rfl⟩
  | string s =>
      rw [ofJson]
      cases Instant.parse? s <;> exact ⟨rfl, rfl⟩
  | _ => exact ⟨rfl, rfl⟩

/-- Anything else is cast to the document that it is written as. -/
theorem castTo?_raw {v : Value} (hnull : v.isNull = false) (hfilter : v.asFilter? = none) :
    v.castTo? .raw = some (.raw v.toJson) := by
  cases v with
  | null => exact absurd hnull.symm Bool.false_ne_true
  | filter f => cases hfilter
  | _ => simp only [castTo?, toJson]

/-- A literal of a document is cast to what is left of it. -/
theorem castTo?_ofJson_raw {document : Json} (h : document ≠ .null) :
    (ofJson document).castTo? .raw = some (.raw document.recoded) := by
  obtain ⟨hnull, hfilter⟩ := ofJson_plain h
  exact castTo?_raw hnull hfilter

/-- Only documents are equal to a document. -/
theorem equal_raw_iff {v : Value} {document : Json} :
    v.equal (.raw document) = true
      ↔ ∃ element, v = .raw element ∧ element.same document = true := by
  cases v with
  | raw element => simp only [equal, raw.injEq, exists_eq_left']
  | _ => simp [equal, strictOrder?]

theorem any_equal_raw {values : List Value} {document : Json} :
    values.any (·.equal (.raw document)) = true
      ↔ ∃ element, .raw element ∈ values ∧ element.same document = true := by
  rw [List.any_eq_true]
  constructor
  · rintro ⟨v, hmem, hequal⟩
    obtain ⟨element, rfl, hsame⟩ := equal_raw_iff.mp hequal
    exact ⟨element, hmem, hsame⟩
  · rintro ⟨element, hmem, hsame⟩
    exact ⟨.raw element, hmem, equal_raw_iff.mpr ⟨element, rfl, hsame⟩⟩

end Value

end RowQuery
