import RowQuery.Proofs.Text.Digits
import RowQuery.Proofs.Time.Reading

/-!
# The parts of the text of an instant

Each part of the text of an instant is read as what it was written from, whatever
follows it: the date if its year is not below zero (`Instant.HasText`), the time, the
fraction with or without the zeros at its end, and the offset. The internet form
refuses an offset of a day or more, the standard form takes it.
-/

namespace RowQuery

/-! ## Padded digits -/

section PaddedDigits

variable {width n : Nat}

theorem isDigit_of_mem_paddedDigits {c : Char} (h : c ∈ paddedDigits width n) :
    c.isDigit = true := by
  rcases List.mem_append.mp h with hpad | hdigit
  · exact isDigit_of_mem_zeros hpad
  · exact isDigit_of_mem_digitsOf hdigit

theorem length_paddedDigits (hwidth : 0 < width) (h : n < 10 ^ width) :
    (paddedDigits width n).length = width := by
  have hle := (length_digitsOf_le_iff hwidth).mpr h
  rw [paddedDigits, List.length_append, List.length_replicate]
  omega

theorem paddedDigits_ne_nil (width n : Nat) : paddedDigits width n ≠ [] :=
  List.append_ne_nil_of_right_ne_nil _ (digitsOf_ne_nil n)

theorem ofDigitChars_paddedDigits : Nat.ofDigitChars 10 (paddedDigits width n) 0 = n := by
  rw [paddedDigits, Nat.ofDigitChars_append, Nat.ofDigitChars_replicate_zero, Nat.mul_zero]
  exact ofDigitChars_digitsOf n

end PaddedDigits

namespace Instant

/-! ## Reading digits -/

section Digits

variable {width n low high : Nat}

theorem digits?_append {digits : List Char} (hdigits : ∀ c ∈ digits, c.isDigit = true)
    (hne : digits ≠ []) (rest : List Char) :
    digits? digits.length (digits ++ rest) = some (Nat.ofDigitChars 10 digits 0, rest) := by
  have hlong : ¬(digits ++ rest).length < digits.length := by
    rw [List.length_append]
    omega
  rw [digits?, if_neg hlong, List.take_left, List.drop_left, readNat?_eq hdigits hne,
    Option.map_some]

theorem digits?_paddedDigits (hwidth : 0 < width) (h : n < 10 ^ width) (rest : List Char) :
    digits? width (paddedDigits width n ++ rest) = some (n, rest) := by
  have hlength := length_paddedDigits hwidth h
  have hread := digits?_append (fun c hc => isDigit_of_mem_paddedDigits hc)
    (paddedDigits_ne_nil width n) rest
  rwa [hlength, ofDigitChars_paddedDigits] at hread

theorem digits?_two (h : n ≤ 99) (rest : List Char) :
    digits? 2 (paddedDigits 2 n ++ rest) = some (n, rest) :=
  digits?_paddedDigits Nat.two_pos (by omega) rest

theorem ranged?_two (h : n ≤ 99) (hlow : low ≤ n) (hhigh : n ≤ high) (rest : List Char) :
    ranged? 2 low high (paddedDigits 2 n ++ rest) = some (n, rest) := by
  rw [ranged?, digits?_two h]
  exact if_pos ⟨hlow, hhigh⟩

@[simp] theorem char?_cons (c : Char) (rest : List Char) : char? c (c :: rest) = some rest :=
  if_pos rfl

theorem sign?_of_isDigit {c : Char} (h : c.isDigit = true) (rest : List Char) :
    sign? (c :: rest) = none := by
  unfold sign?
  split
  · next heq =>
      cases heq
      exact absurd h (by decide)
  · next heq =>
      cases heq
      exact absurd h (by decide)
  · rfl

end Digits

/-! ## The local time -/

/-- The local time of day. -/
def localTime (t : Instant) : TimeOfDay where
  hour := t.localNanos / nanosPerSecond / 3600
  minute := t.localNanos / nanosPerSecond / 60 % 60
  second := t.localNanos / nanosPerSecond % 60
  nanos := t.localNanos % nanosPerSecond

section Time

variable (t : Instant)

theorem timeChars_eq :
    t.timeChars = paddedDigits 2 t.localTime.hour ++ ':' ::
      paddedDigits 2 t.localTime.minute ++ ':' :: paddedDigits 2 t.localTime.second := rfl

theorem localTime_le : t.localTime.hour ≤ 23 ∧ t.localTime.minute ≤ 59 ∧ t.localTime.second ≤ 59
    ∧ t.localTime.nanos < nanosPerSecond := by
  have hlt := t.localNanos_lt
  simp only [localTime, nanosPerSecond, secondsPerDay] at hlt ⊢
  omega

theorem of?_localTime :
    TimeOfDay.of? t.localTime.hour t.localTime.minute t.localTime.second t.localTime.nanos
      = some t.localTime := by
  obtain ⟨hhour, hminute, hsecond, hnanos⟩ := t.localTime_le
  exact if_pos ⟨hhour, hminute, by omega, hnanos⟩

/-- An instant from its local day, time and offset. -/
theorem ofReading?_localTime : ofReading? t.localDay t.localTime t.offset = some t := by
  have hseconds : t.localTime.seconds = t.localNanos / nanosPerSecond := by
    simp only [TimeOfDay.seconds, localTime]
    omega
  have hsecond : t.localTime.second ≠ 60 := by
    have hle := t.localTime_le.2.2.1
    omega
  rw [ofReading?, if_neg hsecond, hseconds]
  exact congrArg some t.ofLocal_localDay

end Time

/-! ## The date -/

section Date

/-- An instant that has been read, in a year that is not below zero. -/
structure HasText (t : Instant) : Prop extends OnCalendar t where
  year_nonneg : 0 ≤ (Calendar.monthDay t.localDay).1

theorem dateChars_eq (t : Instant) :
    t.dateChars = paddedDigits 4 (Calendar.monthDay t.localDay).1.natAbs ++ '-' ::
      paddedDigits 2 (Calendar.monthDay t.localDay).2.1 ++ '-' ::
      paddedDigits 2 (Calendar.monthDay t.localDay).2.2 := rfl

variable {t : Instant}

theorem OnCalendar.ofMonthDay?_eq (h : OnCalendar t) :
    Calendar.ofMonthDay? (Calendar.monthDay t.localDay).1 (Calendar.monthDay t.localDay).2.1
      (Calendar.monthDay t.localDay).2.2 = some t.localDay :=
  Calendar.ofMonthDay?_monthDay h.yearInRange

theorem OnCalendar.year_le (h : OnCalendar t) :
    (Calendar.monthDay t.localDay).1.natAbs ≤ 9999 := by
  obtain ⟨hyear, -⟩ := Calendar.ofMonthDay?_eq_some h.ofMonthDay?_eq
  exact of_decide_eq_true hyear

theorem OnCalendar.month_bounds (h : OnCalendar t) :
    1 ≤ (Calendar.monthDay t.localDay).2.1 ∧ (Calendar.monthDay t.localDay).2.1 ≤ 12 := by
  obtain ⟨-, hlow, hhigh, -⟩ := Calendar.ofMonthDay?_eq_some h.ofMonthDay?_eq
  exact ⟨hlow, hhigh⟩

theorem OnCalendar.day_bounds (h : OnCalendar t) :
    1 ≤ (Calendar.monthDay t.localDay).2.2 ∧ (Calendar.monthDay t.localDay).2.2 ≤ 31 := by
  obtain ⟨-, -, -, hlow, hhigh, -⟩ := Calendar.ofMonthDay?_eq_some h.ofMonthDay?_eq
  exact ⟨hlow, Nat.le_trans hhigh (Calendar.daysInMonth_le _ _)⟩

theorem HasText.ofMonthDay?_natAbs (h : HasText t) :
    Calendar.ofMonthDay? ((Calendar.monthDay t.localDay).1.natAbs : Int)
      (Calendar.monthDay t.localDay).2.1 (Calendar.monthDay t.localDay).2.2 = some t.localDay := by
  rw [Int.natAbs_of_nonneg h.year_nonneg]
  exact h.ofMonthDay?_eq

theorem HasText.digits?_year (h : HasText t) (rest : List Char) :
    digits? 4 (paddedDigits 4 (Calendar.monthDay t.localDay).1.natAbs ++ rest)
      = some ((Calendar.monthDay t.localDay).1.natAbs, rest) := by
  have hle := h.year_le
  exact digits?_paddedDigits (by decide) (by omega) rest

theorem OnCalendar.digits?_month (h : OnCalendar t) (rest : List Char) :
    digits? 2 (paddedDigits 2 (Calendar.monthDay t.localDay).2.1 ++ rest)
      = some ((Calendar.monthDay t.localDay).2.1, rest) := by
  have hle := h.month_bounds.2
  exact digits?_two (by omega) rest

theorem OnCalendar.digits?_day (h : OnCalendar t) (rest : List Char) :
    digits? 2 (paddedDigits 2 (Calendar.monthDay t.localDay).2.2 ++ rest)
      = some ((Calendar.monthDay t.localDay).2.2, rest) := by
  have hle := h.day_bounds.2
  exact digits?_two (by omega) rest

theorem HasText.year?_eq (h : HasText t) (rest : List Char) :
    year? (paddedDigits 4 (Calendar.monthDay t.localDay).1.natAbs ++ rest)
      = some ((Calendar.monthDay t.localDay).1, rest) := by
  have hread := h.digits?_year rest
  have hyear := Int.natAbs_of_nonneg h.year_nonneg
  obtain ⟨first, others, hdigits⟩ := List.exists_cons_of_ne_nil
    (paddedDigits_ne_nil 4 (Calendar.monthDay t.localDay).1.natAbs)
  have hfirst : first.isDigit = true :=
    isDigit_of_mem_paddedDigits (hdigits ▸ List.mem_cons_self ..)
  rw [hdigits, List.cons_append] at hread ⊢
  rw [year?, sign?_of_isDigit hfirst, hread]
  dsimp only
  rw [Option.map_some, hyear]

theorem OnCalendar.dateParts?_eq (h : OnCalendar t) (rest : List Char) :
    dateParts? true (paddedDigits 2 (Calendar.monthDay t.localDay).2.1 ++ '-' ::
        (paddedDigits 2 (Calendar.monthDay t.localDay).2.2 ++ rest))
      = some (.monthDay (Calendar.monthDay t.localDay).2.1 (Calendar.monthDay t.localDay).2.2,
          rest) := by
  obtain ⟨hmonthLow, hmonthHigh⟩ := h.month_bounds
  obtain ⟨hdayLow, hdayHigh⟩ := h.day_bounds
  have hmonth := ranged?_two (Nat.le_trans hmonthHigh (by decide)) hmonthLow hmonthHigh
  have hday := ranged?_two (Nat.le_trans hdayHigh (by decide)) hdayLow hdayHigh
  have hread : monthDay? true (paddedDigits 2 (Calendar.monthDay t.localDay).2.1 ++ '-' ::
        (paddedDigits 2 (Calendar.monthDay t.localDay).2.2 ++ rest))
      = some (((Calendar.monthDay t.localDay).2.1, (Calendar.monthDay t.localDay).2.2), rest) := by
    rw [monthDay?]
    refine (bind_of_eq_some (hmonth _) _).trans ?_
    refine (bind_of_eq_some (char?_cons '-' _) _).trans ?_
    exact bind_of_eq_some (hday _) _
  rw [dateParts?, hread]

end Date

/-! ## The parts of a time -/

section Fraction

variable {digits rest : List Char}

theorem exists_dropLastZeros_append (digits : List Char) :
    ∃ zeros, dropLastZeros digits ++ List.replicate zeros '0' = digits := by
  refine ⟨(digits.reverse.takeWhile (· = '0')).length, ?_⟩
  have hzeros : digits.reverse.takeWhile (· = '0')
      = List.replicate (digits.reverse.takeWhile (· = '0')).length '0' :=
    List.eq_replicate_of_mem fun c hc => by simpa using List.all_eq_true.mp List.all_takeWhile c hc
  rw [dropLastZeros, ← List.reverse_inj, List.reverse_append, List.reverse_replicate, ← hzeros,
    List.reverse_reverse]
  exact List.takeWhile_append_dropWhile

/-- Digits are read as nanoseconds as if zeros filled them up to nine. -/
theorem nanosOfDigits_eq {zeros : Nat} (hdigits : ∀ c ∈ digits, c.isDigit = true)
    (hlength : digits.length + zeros = 9) :
    nanosOfDigits digits = Nat.ofDigitChars 10 (digits ++ List.replicate zeros '0') 0 := by
  have hnine : (digits ++ List.replicate 9 '0').take 9 = digits ++ List.replicate zeros '0' := by
    rw [List.take_append, List.take_of_length_le (by omega), List.take_replicate]
    congr 2
    omega
  have hall : ∀ c ∈ digits ++ List.replicate zeros '0', c.isDigit = true := fun c hc =>
    (List.mem_append.mp hc).elim (hdigits c) isDigit_of_mem_zeros
  have hne : digits ++ List.replicate zeros '0' ≠ [] := by
    refine List.ne_nil_of_length_pos ?_
    rw [List.length_append, List.length_replicate]
    omega
  rw [nanosOfDigits, hnine, readNat?_eq hall hne, Option.getD_some]

theorem takeWhile_isDigit_append (hdigits : ∀ c ∈ digits, c.isDigit = true)
    (hrest : ∀ c ∈ rest.head?, c.isDigit = false) :
    (digits ++ rest).takeWhile isDigit = digits :=
  congrArg Prod.fst (spanDigits_append hdigits hrest)

theorem internetFraction?_digits (hdigits : ∀ c ∈ digits, c.isDigit = true) (hne : digits ≠ [])
    (hrest : ∀ c ∈ rest.head?, c.isDigit = false) :
    internetFraction? ('.' :: (digits ++ rest)) = some (nanosOfDigits digits, rest) := by
  rw [internetFraction?, takeWhile_isDigit_append hdigits hrest, if_neg hne, List.drop_left]

theorem internetFraction?_eq_zero (hrest : ∀ c ∈ rest.head?, c ≠ '.') :
    internetFraction? rest = some (0, rest) := by
  unfold internetFraction?
  split
  · exact absurd rfl (hrest '.' rfl)
  · rfl

/-- A fraction without the zeros at its end, or none at all where only zeros are
left out. -/
theorem internetFraction?_dropLastZeros (hdigits : ∀ c ∈ digits, c.isDigit = true)
    (hlength : digits.length = 9) (hrest : ∀ c ∈ rest.head?, c.isDigit = false ∧ c ≠ '.') :
    internetFraction?
        ((if dropLastZeros digits = [] then [] else '.' :: dropLastZeros digits) ++ rest)
      = some (Nat.ofDigitChars 10 digits 0, rest) := by
  obtain ⟨zeros, hzeros⟩ := exists_dropLastZeros_append digits
  generalize dropLastZeros digits = kept at hzeros ⊢
  rw [← hzeros] at hdigits hlength ⊢
  rw [List.length_append, List.length_replicate] at hlength
  have hkept : ∀ c ∈ kept, c.isDigit = true := fun c hc => hdigits c (List.mem_append_left _ hc)
  split
  · next hnone =>
      have hzero : Nat.ofDigitChars 10 (kept ++ List.replicate zeros '0') 0 = 0 := by
        rw [hnone, List.nil_append, Nat.ofDigitChars_replicate_zero, Nat.mul_zero]
      rw [hzero, List.nil_append]
      exact internetFraction?_eq_zero fun c hc => (hrest c hc).2
  · next hsome =>
      rw [List.cons_append, internetFraction?_digits hkept hsome fun c hc => (hrest c hc).1,
        nanosOfDigits_eq hkept hlength]

theorem part?_colon {n : Nat} (h : n ≤ 99) (rest : List Char) :
    part? (paddedDigits 2 n ++ ':' :: rest) = some ((n, none), ':' :: rest) := by
  rw [part?, digits?_two h]
  rfl

theorem part?_places {n : Nat} (h : n ≤ 99)
    (hdigits : ∀ c ∈ digits, c.isDigit = true) (hne : digits ≠ [])
    (hrest : ∀ c ∈ rest.head?, c.isDigit = false) :
    part? (paddedDigits 2 n ++ '.' :: (digits ++ rest))
      = some ((n, some (fractionOfDigits digits)), rest) := by
  have hspan := takeWhile_isDigit_append hdigits hrest
  rw [part?, digits?_two h]
  dsimp only
  rw [if_pos (.inl rfl), hspan, if_neg hne, List.drop_left]

theorem isDigit_of_mem_fractionChars {t : Instant} {c : Char} (h : c ∈ t.fractionChars) :
    c.isDigit = true :=
  isDigit_of_mem_paddedDigits h

theorem length_fractionChars (t : Instant) : t.fractionChars.length = 9 :=
  length_paddedDigits (by decide) t.localTime_le.2.2.2

theorem ofDigitChars_fractionChars (t : Instant) :
    Nat.ofDigitChars 10 t.fractionChars 0 = t.localTime.nanos := ofDigitChars_paddedDigits

theorem fractionChars_ne_nil (t : Instant) : t.fractionChars ≠ [] := paddedDigits_ne_nil _ _

end Fraction

/-! ## The offset -/

section Offset

variable {t : Instant}

/-- The hours of an offset, without its sign. -/
def offsetHours (t : Instant) : Nat := t.offset.natAbs / 60 / 60

def offsetMinutes (t : Instant) : Nat := t.offset.natAbs / 60 % 60

theorem IsOffset.eq_signed (h : IsOffset t.offset) :
    (if decide (t.offset < 0) then -((t.offsetHours * 60 + t.offsetMinutes) * 60 : Int)
      else (t.offsetHours * 60 + t.offsetMinutes) * 60) = t.offset := by
  have hminutes := h.minutes
  rw [offsetHours, offsetMinutes]
  split
  · next hneg =>
      have := of_decide_eq_true hneg
      omega
  · next hpos =>
      have := of_decide_eq_false (Bool.eq_false_iff.mpr hpos)
      omega

theorem offsetMinutes_le (t : Instant) : t.offsetMinutes ≤ 59 := by
  rw [offsetMinutes]
  omega

theorem IsOffset.offsetHours_le (h : IsOffset t.offset) : t.offsetHours ≤ 25 := by
  have hlt := h.lt
  rw [offsetHours]
  omega

theorem exists_offsetChars_eq (t : Instant) :
    ∃ c, t.offsetChars
        = c :: (paddedDigits 2 t.offsetHours ++ ':' :: paddedDigits 2 t.offsetMinutes)
      ∧ (c.isDigit = false ∧ c ≠ '.') ∧ c ≠ 'Z' ∧ c ≠ 'z'
      ∧ ∀ rest, sign? (c :: rest) = some (decide (t.offset < 0), rest) := by
  rcases Int.lt_or_le t.offset 0 with hneg | hpos
  · refine ⟨'-', ?_, by decide, by decide, by decide, fun rest => ?_⟩
    · rw [offsetChars, if_pos hneg]
      rfl
    · rw [decide_eq_true hneg]
      rfl
  · refine ⟨'+', ?_, by decide, by decide, by decide, fun rest => ?_⟩
    · rw [offsetChars, if_neg (by omega)]
      rfl
    · rw [decide_eq_false (by omega)]
      rfl

theorem ranged?_offsetMinutes (t : Instant) :
    ranged? 2 0 59 (paddedDigits 2 t.offsetMinutes) = some (t.offsetMinutes, []) := by
  have hle := t.offsetMinutes_le
  have hread := ranged?_two (show t.offsetMinutes ≤ 99 by omega) (Nat.zero_le _) hle []
  rwa [List.append_nil] at hread

theorem IsOffset.digits?_offsetHours (h : IsOffset t.offset) (rest : List Char) :
    digits? 2 (paddedDigits 2 t.offsetHours ++ rest) = some (t.offsetHours, rest) := by
  have hhours := h.offsetHours_le
  exact digits?_paddedDigits Nat.two_pos (by omega) rest

theorem IsOffset.ranged?_offsetHours (h : IsOffset t.offset) (high : Nat) (rest : List Char) :
    ranged? 2 0 high (paddedDigits 2 t.offsetHours ++ rest)
      = if t.offsetHours ≤ high then some (t.offsetHours, rest) else none := by
  rw [ranged?, h.digits?_offsetHours]
  dsimp only
  simp only [Nat.zero_le, true_and]

/-- The first reading takes an offset below a day. -/
theorem internetOffset?_offsetChars (h : IsOffset t.offset) (hhours : t.offsetHours ≤ 23) :
    internetOffset? t.offsetChars = some (t.offset, []) := by
  obtain ⟨c, hchars, -, hZ, hz, hsign⟩ := t.exists_offsetChars_eq
  have hreadHours := fun rest => (h.ranged?_offsetHours 23 rest).trans (if_pos hhours)
  rw [hchars]
  unfold internetOffset?
  split
  · next heq => exact absurd (List.cons.inj heq).1 hZ
  · next heq => exact absurd (List.cons.inj heq).1 hz
  · simp only [hsign, hreadHours, ranged?_offsetMinutes, char?_cons, Option.bind_eq_bind,
      Option.bind_some, h.eq_signed, Option.pure_def]

/-- It refuses a longer one. -/
theorem internetOffset?_offsetChars_eq_none (h : IsOffset t.offset) (hhours : 24 ≤ t.offsetHours) :
    internetOffset? t.offsetChars = none := by
  obtain ⟨c, hchars, -, hZ, hz, hsign⟩ := t.exists_offsetChars_eq
  have hreadHours := fun rest => (h.ranged?_offsetHours 23 rest).trans (if_neg (by omega))
  rw [hchars]
  unfold internetOffset?
  split
  · next heq => exact absurd (List.cons.inj heq).1 hZ
  · next heq => exact absurd (List.cons.inj heq).1 hz
  · simp only [hsign, hreadHours, Option.bind_eq_bind, Option.bind_some, Option.bind_none]

/-- The standard form takes both. -/
theorem offset?_offsetChars (h : IsOffset t.offset) :
    offset? true t.offsetChars = some (t.offset, []) := by
  obtain ⟨c, hchars, -, hZ, -, hsign⟩ := t.exists_offsetChars_eq
  have hreadHours := fun rest => (h.ranged?_offsetHours 25 rest).trans (if_pos h.offsetHours_le)
  rw [hchars]
  unfold offset?
  split
  · next heq => exact absurd (List.cons.inj heq).1 hZ
  · simp only [hsign, hreadHours, ranged?_offsetMinutes, char?_cons, Option.bind_eq_bind,
      Option.bind_some, h.eq_signed, Option.pure_def, Option.getD_some, if_true]

/-- The offset of the short form. -/
theorem internetOffset?_short (h : IsOffset t.offset) (hhours : t.offsetHours ≤ 23) :
    internetOffset? (if t.offset = 0 then ['Z'] else t.offsetChars) = some (t.offset, []) := by
  split
  · next hzero =>
      rw [hzero]
      rfl
  · exact internetOffset?_offsetChars h hhours

/-- No offset goes on with the digits or the point before it. -/
theorem head?_offsetChars (t : Instant) :
    ∀ c ∈ t.offsetChars.head?, c.isDigit = false ∧ c ≠ '.' := by
  obtain ⟨first, hchars, hends, -⟩ := t.exists_offsetChars_eq
  rw [hchars]
  intro c hc
  rwa [← Option.mem_some.mp hc]

theorem head?_shortOffset (t : Instant) :
    ∀ c ∈ (if t.offset = 0 then ['Z'] else t.offsetChars).head?, c.isDigit = false ∧ c ≠ '.' := by
  split
  · intro c hc
    rw [← Option.mem_some.mp hc]
    decide
  · exact t.head?_offsetChars

end Offset

end Instant

end RowQuery
