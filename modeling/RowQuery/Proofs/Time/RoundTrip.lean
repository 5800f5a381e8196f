import RowQuery.Proofs.Time.Fraction
import RowQuery.Proofs.Time.Writing
import RowQuery.Value.Wire

/-!
# Reading an instant again

An instant that has been read comes back from its own document, moment and offset
alike, unless its local year is below zero: then it has no text
(`Instant.parse?_toJson_iff`). The short form is read by the first reading. The long
form, which only a clock a day or more away from UTC takes, is refused by the first
reading because of its hours and read by the second, which sums up the nine places
of the second in floating point.
-/

namespace RowQuery

namespace Instant

variable {t : Instant}

/-! ## The internet form -/

/-- Up to the offset, the first reading takes every text of an instant. -/
theorem HasText.internet?_eq (h : HasText t) {fraction offset : List Char}
    (hfraction : internetFraction? (fraction ++ offset) = some (t.localTime.nanos, offset)) :
    internet? (t.dateChars ++ 'T' :: t.timeChars ++ fraction ++ offset)
      = (internetOffset? offset).bind fun (offset, rest) =>
          if rest = [] then ofReading? t.localDay t.localTime offset else none := by
  obtain ⟨hhour, hminute, hsecond, -⟩ := t.localTime_le
  have hreadHour := digits?_two (show t.localTime.hour ≤ 99 by omega)
  have hreadMinute := digits?_two (show t.localTime.minute ≤ 99 by omega)
  have hreadSecond := digits?_two (show t.localTime.second ≤ 99 by omega)
  rw [dateChars_eq, timeChars_eq]
  simp only [List.append_assoc, List.cons_append]
  rw [internet?]
  -- one step for each part of the text, in the order in which they stand
  refine (bind_of_eq_some (h.digits?_year _) _).trans ?_
  refine (bind_of_eq_some (char?_cons '-' _) _).trans ?_
  refine (bind_of_eq_some (h.digits?_month _) _).trans ?_
  refine (bind_of_eq_some (char?_cons '-' _) _).trans ?_
  refine (bind_of_eq_some (h.digits?_day _) _).trans ?_
  refine (bind_of_eq_some h.ofMonthDay?_natAbs _).trans ?_
  refine (bind_of_eq_some (a := ('T', _)) rfl _).trans ?_
  dsimp only
  rw [if_neg (show ¬128 ≤ 'T'.toNat by decide)]
  refine (bind_of_eq_some (hreadHour _) _).trans ?_
  refine (bind_of_eq_some (char?_cons ':' _) _).trans ?_
  refine (bind_of_eq_some (hreadMinute _) _).trans ?_
  refine (bind_of_eq_some (char?_cons ':' _) _).trans ?_
  refine (bind_of_eq_some (hreadSecond _) _).trans ?_
  refine (bind_of_eq_some hfraction _).trans ?_
  exact bind_of_eq_some t.of?_localTime _

/-- The first reading takes the short form. -/
theorem HasText.internet?_shortChars (h : HasText t) (hhours : t.offsetHours ≤ 23) :
    internet? t.shortChars = some t := by
  have hfraction := internetFraction?_dropLastZeros (fun c hc => isDigit_of_mem_fractionChars hc)
    t.length_fractionChars t.head?_shortOffset
  rw [ofDigitChars_fractionChars] at hfraction
  rw [shortChars, h.internet?_eq hfraction, internetOffset?_short h.isOffset hhours,
    Option.bind_some]
  exact t.ofReading?_localTime

/-- It refuses the long form because of its hours. -/
theorem HasText.internet?_longChars (h : HasText t) (hhours : 24 ≤ t.offsetHours) :
    internet? t.longChars = none := by
  have hfraction : internetFraction? ('.' :: t.fractionChars ++ t.offsetChars)
      = some (t.localTime.nanos, t.offsetChars) := by
    have hread := internetFraction?_digits (fun c hc => isDigit_of_mem_fractionChars hc)
      t.fractionChars_ne_nil fun c hc => (t.head?_offsetChars c hc).1
    have hnanos := nanosOfDigits_eq (fun c hc => isDigit_of_mem_fractionChars hc)
      (show t.fractionChars.length + 0 = 9 from t.length_fractionChars)
    rw [List.replicate_zero, List.append_nil, ofDigitChars_fractionChars] at hnanos
    rwa [hnanos] at hread
  rw [longChars, h.internet?_eq hfraction,
    internetOffset?_offsetChars_eq_none h.isOffset hhours, Option.bind_none]

/-! ## The standard form -/

theorem time?_longChars (t : Instant) :
    time? true ('T' :: (t.timeChars ++ '.' :: (t.fractionChars ++ t.offsetChars)))
      = some (t.localTime, t.offsetChars) := by
  obtain ⟨hhour, hminute, hsecond, -⟩ := t.localTime_le
  have hends : ∀ c ∈ t.offsetChars.head?, c.isDigit = false := fun c hc =>
    (t.head?_offsetChars c hc).1
  have hplaces := part?_places (show t.localTime.second ≤ 99 by omega)
    (fun c hc => isDigit_of_mem_fractionChars hc) t.fractionChars_ne_nil hends
  have hnanos := ofSecondFraction?_nanos (fun c hc => isDigit_of_mem_fractionChars hc)
    t.length_fractionChars t.localTime.hour t.localTime.minute t.localTime.second
  rw [ofDigitChars_fractionChars, of?_localTime] at hnanos
  have hsecondRead : second? true t.localTime.hour t.localTime.minute
      (paddedDigits 2 t.localTime.second ++ '.' :: (t.fractionChars ++ t.offsetChars))
        = some (t.localTime, t.offsetChars) := by
    rw [second?, hplaces]
    dsimp only
    rw [hnanos, Option.map_some]
  rw [timeChars_eq]
  simp only [List.append_assoc, List.cons_append]
  rw [time?]
  refine (bind_of_eq_some (char?_cons 'T' _) _).trans ?_
  refine (bind_of_eq_some (part?_colon (by omega) _) _).trans ?_
  dsimp only
  rw [char?_cons]
  dsimp only
  rw [if_pos rfl, minute?, part?_colon (by omega)]
  dsimp only
  rw [if_pos rfl, char?_cons]
  exact hsecondRead

theorem HasText.standardForm?_longChars (h : HasText t) :
    standardForm? t.longChars = some ⟨t.localDay, some t.localTime, some t.offset⟩ := by
  rw [longChars, dateChars_eq]
  simp only [List.append_assoc, List.cons_append]
  rw [standardForm?]
  refine (bind_of_eq_some (h.year?_eq _) _).trans ?_
  dsimp only
  rw [char?_cons, Option.getD_some, Option.isSome_some]
  refine (bind_of_eq_some (h.dateParts?_eq _) _).trans ?_
  refine (bind_of_eq_some h.ofMonthDay?_eq _).trans ?_
  dsimp only
  rw [t.time?_longChars]
  dsimp only
  rw [offset?_offsetChars h.isOffset]
  exact if_pos rfl

/-- The second reading takes it. -/
theorem HasText.standard?_longChars (h : HasText t) : standard? t.longChars = some t := by
  rw [standard?, h.standardForm?_longChars]
  refine (bind_of_eq_some rfl _).trans ?_
  dsimp only
  rw [Option.bind_some, t.ofReading?_localTime]

/-! ## Back from a document -/

/-- A text of an instant is read as this instant. -/
theorem HasText.exists_text?_eq (h : HasText t) : ∃ s, t.text? = some s ∧ parse? s = some t := by
  have hle := h.year_le
  have hnonneg := h.year_nonneg
  have hyear : ¬((Calendar.monthDay t.localDay).1 < 0
      ∨ 9999 < (Calendar.monthDay t.localDay).1) := by omega
  have hhours : t.offset.natAbs / 3600 = t.offsetHours := by
    rw [offsetHours, Nat.div_div_eq_div_mul]
  rw [text?, if_neg hyear, hhours]
  split
  · next hshort =>
      refine ⟨_, rfl, ?_⟩
      rw [parse?, String.toList_ofList, h.internet?_shortChars hshort]
  · next hlong =>
      refine ⟨_, rfl, ?_⟩
      rw [parse?, String.toList_ofList, h.internet?_longChars (by omega)]
      exact h.standard?_longChars

/-- An instant that has been read is read again from its document, with its offset,
if and only if its local year is not below zero. In a year below zero its document
is null. -/
theorem parse?_toJson_iff {s : String} {t : Instant} (h : parse? s = some t) :
    ((∃ text, (Value.instant t).toJson = .string text ∧ parse? text = some t)
        ↔ 0 ≤ (Calendar.monthDay t.localDay).1)
      ∧ ((Calendar.monthDay t.localDay).1 < 0 → (Value.instant t).toJson = .null) := by
  have hnull : (Calendar.monthDay t.localDay).1 < 0 → (Value.instant t).toJson = .null := by
    intro hyear
    rw [Value.toJson, toJson, text?, if_pos (.inl hyear)]
  refine ⟨⟨?_, ?_⟩, hnull⟩
  · rintro ⟨text, htext, -⟩
    refine Int.not_lt.mp fun hyear => ?_
    rw [hnull hyear] at htext
    cases htext
  · intro hyear
    obtain ⟨text, htext, hread⟩ := HasText.exists_text?_eq ⟨onCalendar_of_parse? h, hyear⟩
    refine ⟨text, ?_, hread⟩
    rw [Value.toJson, toJson, htext]

/-- The fifteenth of March in the year minus 44. -/
theorem parse?_toJson_iff_ides :
    parse? "-000044-03-15" = some ⟨-63549360000000000000, 0⟩
      ∧ (Value.instant ⟨-63549360000000000000, 0⟩).toJson = .null := by
  have hread : parse? "-000044-03-15" = some ⟨-63549360000000000000, 0⟩ := by decide
  exact ⟨hread, (parse?_toJson_iff hread).2 (by decide)⟩

end Instant

end RowQuery
