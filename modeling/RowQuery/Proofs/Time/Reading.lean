import RowQuery.Proofs.Time.Calendar
import RowQuery.Time.InstantParser

/-!
# What a reading gives

Whatever text an instant is read from, its local day is in a year of the calendar,
and its offset is a number of whole minutes below 26 hours
(`Instant.onCalendar_of_parse?`). Of the four readings one finds the day, the time and
the offset on its own; that what they find is in range is shown part by part.
-/

namespace RowQuery

namespace Instant

/-! ## Steps of a reading -/

theorem bind_eq_some_iff {α β : Type} {o : Option α} {f : α → Option β} {b : β} :
    (o >>= f) = some b ↔ ∃ a, o = some a ∧ f a = some b := Option.bind_eq_some_iff

theorem bind_of_eq_some {α β : Type} {o : Option α} {a : α} (h : o = some a) (f : α → Option β) :
    (o >>= f) = f a := by
  rw [h]
  rfl

/-! ## Local time -/

section Local

variable {day offset : Int} {seconds nanos : Nat}

theorem localDay_ofLocal (hseconds : seconds < secondsPerDay) (hnanos : nanos < nanosPerSecond) :
    (ofLocal day seconds nanos offset).localDay = day := by
  rw [secondsPerDay] at hseconds
  rw [nanosPerSecond] at hnanos
  rw [localDay, ofLocal, secondsPerDay, nanosPerSecond]
  dsimp only
  omega

/-- An instant from its local day and time. -/
theorem ofLocal_localDay (t : Instant) :
    ofLocal t.localDay (t.localNanos / nanosPerSecond) (t.localNanos % nanosPerSecond) t.offset
      = t := by
  obtain ⟨unixNanos, offset⟩ := t
  rw [ofLocal, localDay, localNanos, secondsPerDay, nanosPerSecond]
  dsimp only
  congr 1
  omega

theorem localNanos_lt (t : Instant) : t.localNanos < secondsPerDay * nanosPerSecond := by
  rw [localNanos, secondsPerDay, nanosPerSecond]
  omega

end Local

/-! ## What is in range -/

/-- An offset that can be written and read: whole minutes, below 26 hours. -/
structure IsOffset (offset : Int) : Prop where
  minutes : offset % 60 = 0
  lt : offset.natAbs < 26 * 3600

/-- A time of day whose second may be 60. -/
structure TimeOfDay.InRange (time : TimeOfDay) : Prop where
  hour_le : time.hour ≤ 23
  minute_le : time.minute ≤ 59
  second_le : time.second ≤ 60
  nanos_lt : time.nanos < nanosPerSecond

/-- An instant on a day of the calendar, by a clock that can be written. -/
structure OnCalendar (t : Instant) : Prop where
  yearInRange : Calendar.yearInRange (Calendar.yearDay t.localDay).1 = true
  isOffset : IsOffset t.offset

theorem isOffset_zero : IsOffset 0 := ⟨rfl, by decide⟩

theorem isOffset_signed {hours minutes : Nat} (hhours : hours ≤ 25) (hminutes : minutes ≤ 59)
    (negative : Bool) :
    IsOffset (if negative then -((hours * 60 + minutes) * 60 : Int)
      else (hours * 60 + minutes) * 60) := by
  constructor
  · split <;> omega
  · split <;> omega

theorem onCalendar_ofLocal {day offset : Int} {seconds nanos : Nat}
    (hday : Calendar.yearInRange (Calendar.yearDay day).1 = true)
    (hseconds : seconds < secondsPerDay) (hnanos : nanos < nanosPerSecond)
    (hoffset : IsOffset offset) : OnCalendar (ofLocal day seconds nanos offset) :=
  ⟨by rwa [localDay_ofLocal hseconds hnanos], hoffset⟩

theorem TimeOfDay.InRange.seconds_lt {time : TimeOfDay} (h : time.InRange)
    (hsecond : time.second ≠ 60) : time.seconds < secondsPerDay := by
  have hhour := h.hour_le
  have hminute := h.minute_le
  have hle := h.second_le
  rw [TimeOfDay.seconds, secondsPerDay]
  omega

/-- Second 60 counts as the last of its minute. -/
theorem onCalendar_of_ofReading? {day offset : Int} {time : TimeOfDay} {t : Instant}
    (hday : Calendar.yearInRange (Calendar.yearDay day).1 = true) (htime : time.InRange)
    (hoffset : IsOffset offset) (h : ofReading? day time offset = some t) : OnCalendar t := by
  rw [ofReading?] at h
  split at h
  · next hsixty =>
      have hhour := htime.hour_le
      have hminute := htime.minute_le
      have hseconds : time.seconds - 1 < secondsPerDay := by
        rw [TimeOfDay.seconds, secondsPerDay]
        omega
      dsimp only at h
      split at h
      · cases h
        exact onCalendar_ofLocal hday hseconds (by decide) hoffset
      · cases h
  · next hsecond =>
      cases h
      exact onCalendar_ofLocal hday (htime.seconds_lt hsecond) htime.nanos_lt hoffset

/-! ## Parts of a text -/

section Parts

variable {cs rest : List Char}

theorem ranged?_eq_some {count low high n : Nat} (h : ranged? count low high cs = some (n, rest)) :
    low ≤ n ∧ n ≤ high := by
  rw [ranged?] at h
  split at h
  · split at h
    · next hrange =>
        cases h
        exact hrange
    · cases h
  · cases h

theorem yearInRange_of_day? {year day : Int} {parts : DateParts} (h : parts.day? year = some day) :
    Calendar.yearInRange (Calendar.yearDay day).1 = true := by
  cases parts with
  | monthDay month dayOfMonth =>
      obtain ⟨hyear, hrange⟩ := Calendar.yearDay_of_ofMonthDay? h
      rwa [hyear]
  | ordinal ordinal =>
      obtain ⟨hyear, hrange⟩ := Calendar.yearDay_of_ofOrdinal? h
      rwa [hyear]
  | week week weekday => exact Calendar.yearInRange_of_ofWeek? h

theorem TimeOfDay.inRange_of_of? {hour minute second nanos : Nat} {time : TimeOfDay}
    (h : TimeOfDay.of? hour minute second nanos = some time) : time.InRange := by
  rw [TimeOfDay.of?] at h
  split at h
  · next hrange =>
      cases h
      obtain ⟨hhour, hminute, hsecond, hnanos⟩ := hrange
      exact ⟨hhour, hminute, hsecond, hnanos⟩
  · cases h

theorem TimeOfDay.inRange_of_map {hour minute second nanos : Nat} {time : TimeOfDay}
    {remaining : List Char}
    (h : (TimeOfDay.of? hour minute second nanos).map (·, remaining) = some (time, rest)) :
    time.InRange := by
  obtain ⟨found, hfound, heq⟩ := Option.map_eq_some_iff.mp h
  cases heq
  exact TimeOfDay.inRange_of_of? hfound

theorem inRange_of_second? {extended : Bool} {hour minute : Nat} {time : TimeOfDay}
    (h : second? extended hour minute cs = some (time, rest)) : time.InRange := by
  rw [second?] at h
  split at h
  · exact TimeOfDay.inRange_of_map h
  · split at h
    · cases h
    · exact TimeOfDay.inRange_of_map h

theorem inRange_of_minute? {extended : Bool} {hour : Nat} {time : TimeOfDay}
    (h : minute? extended hour cs = some (time, rest)) : time.InRange := by
  rw [minute?] at h
  split at h
  · exact TimeOfDay.inRange_of_map h
  · split at h
    · split at h
      · exact inRange_of_second? h
      · exact TimeOfDay.inRange_of_map h
    · exact inRange_of_second? h
  · split at h
    · cases h
    · exact TimeOfDay.inRange_of_map h

theorem inRange_of_time? {extended : Bool} {time : TimeOfDay}
    (h : time? extended cs = some (time, rest)) : time.InRange := by
  simp only [time?, bind_eq_some_iff] at h
  obtain ⟨afterT, -, ⟨⟨hour, fraction⟩, afterHour⟩, -, h⟩ := h
  dsimp only at h
  split at h
  · exact TimeOfDay.inRange_of_map h
  · split at h
    · split at h
      · exact inRange_of_minute? h
      · cases h
    · exact inRange_of_minute? h

theorem isOffset_of_offset? {extended : Bool} {offset : Int}
    (h : offset? extended cs = some (offset, rest)) : IsOffset offset := by
  unfold offset? at h
  split at h
  · cases h
    exact isOffset_zero
  · simp only [bind_eq_some_iff] at h
    obtain ⟨⟨negative, afterSign⟩, -, ⟨hours, afterHours⟩, hhours, h⟩ := h
    dsimp only at h
    generalize (if extended then _ else afterHours) = afterColon at h
    -- what cannot be read as minutes stands for none
    have hminutes : ((ranged? 2 0 59 afterColon).getD (0, afterColon)).1 ≤ 59 := by
      cases hread : ranged? 2 0 59 afterColon with
      | none => exact Nat.zero_le _
      | some found => exact (ranged?_eq_some hread).2
    cases h
    exact isOffset_signed (ranged?_eq_some hhours).2 hminutes negative

theorem isOffset_of_internetOffset? {offset : Int}
    (h : internetOffset? cs = some (offset, rest)) : IsOffset offset := by
  unfold internetOffset? at h
  split at h
  · cases h
    exact isOffset_zero
  · cases h
    exact isOffset_zero
  · simp only [bind_eq_some_iff] at h
    obtain ⟨⟨negative, afterSign⟩, -, ⟨hours, afterHours⟩, hhours, afterColon, -,
      ⟨minutes, afterMinutes⟩, hminutes, h⟩ := h
    cases h
    have hle := (ranged?_eq_some hhours).2
    exact isOffset_signed (by omega) (ranged?_eq_some hminutes).2 negative

end Parts

/-! ## The readings -/

theorem onCalendar_of_internet? {cs : List Char} {t : Instant} (h : internet? cs = some t) :
    OnCalendar t := by
  simp only [internet?, bind_eq_some_iff] at h
  obtain ⟨⟨year, _⟩, -, _, -, ⟨month, _⟩, -, _, -, ⟨dayOfMonth, _⟩, -, day, hday, separator, -,
    h⟩ := h
  split at h
  · cases h
  · simp only [bind_eq_some_iff] at h
    obtain ⟨⟨hour, _⟩, -, _, -, ⟨minute, _⟩, -, _, -, ⟨second, _⟩, -, ⟨nanos, _⟩, -, time, htime,
      ⟨offset, rest⟩, hoffset, h⟩ := h
    split at h
    · have hread : (DateParts.monthDay month dayOfMonth).day? year = some day := hday
      have hrange := yearInRange_of_day? hread
      exact onCalendar_of_ofReading? hrange (TimeOfDay.inRange_of_of? htime)
        (isOffset_of_internetOffset? hoffset) h
    · cases h

/-- The day and the time of the standard form are in range, and so is the offset. -/
theorem inRange_of_standardForm? {cs : List Char} {form : StandardForm}
    (h : standardForm? cs = some form) :
    Calendar.yearInRange (Calendar.yearDay form.day).1 = true
      ∧ (∀ time ∈ form.time, time.InRange) ∧ ∀ offset ∈ form.offset, IsOffset offset := by
  simp only [standardForm?, bind_eq_some_iff] at h
  obtain ⟨⟨year, _⟩, -, ⟨parts, afterDate⟩, -, day, hday, h⟩ := h
  have hrange := yearInRange_of_day? hday
  split at h
  · split at h
    · cases h
      exact ⟨hrange, nofun, nofun⟩
    · cases h
  · next time afterTime htime =>
      split at h
      · split at h
        · cases h
          exact ⟨hrange, fun _ ht => Option.mem_some.mp ht ▸ inRange_of_time? htime, nofun⟩
        · cases h
      · next offset afterOffset hoffset =>
          split at h
          · cases h
            exact ⟨hrange, fun _ ht => Option.mem_some.mp ht ▸ inRange_of_time? htime,
              fun _ ho => Option.mem_some.mp ho ▸ isOffset_of_offset? hoffset⟩
          · cases h

theorem onCalendar_of_standard? {cs : List Char} {t : Instant} (h : standard? cs = some t) :
    OnCalendar t := by
  simp only [standard?, bind_eq_some_iff] at h
  obtain ⟨form, hform, h⟩ := h
  obtain ⟨hday, htime, hoffset⟩ := inRange_of_standardForm? hform
  have hmidnight : OnCalendar (ofLocal form.day 0 0 0) :=
    onCalendar_ofLocal hday (by decide) (by decide) isOffset_zero
  split at h
  · cases h
    exact hmidnight
  · next time hread =>
      have hrange := htime time hread
      split at h
      · next hreading =>
          cases h
          obtain ⟨offset, ho, ht⟩ := Option.bind_eq_some_iff.mp hreading
          exact onCalendar_of_ofReading? hday hrange (hoffset offset ho) ht
      · split at h
        · cases h
          exact hmidnight
        · next hsecond =>
            cases h
            exact onCalendar_ofLocal hday (hrange.seconds_lt hsecond) hrange.nanos_lt isOffset_zero

/-- What is read is on a day of the calendar, by a clock that can be written. -/
theorem onCalendar_of_parse? {s : String} {t : Instant} (h : parse? s = some t) : OnCalendar t := by
  rw [parse?] at h
  split at h
  · next hinternet =>
      cases h
      exact onCalendar_of_internet? hinternet
  · exact onCalendar_of_standard? h

end Instant

end RowQuery
