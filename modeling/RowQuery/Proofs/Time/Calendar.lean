import Mathlib.Algebra.Ring.Nat
import RowQuery.Time.Calendar

/-!
# Days and their dates

A year begins where the year before it ends, so every day is in exactly one
year. `Calendar.yearDay` finds this year, and `Calendar.monthDay` a month and a
day of the month that name the day again.
-/

namespace RowQuery

namespace Calendar

/-! ## Years -/

theorem isLeap_iff {year : Int} :
    isLeap year = true ↔ year % 4 = 0 ∧ (year % 100 ≠ 0 ∨ year % 400 = 0) := by
  simp [isLeap]

theorem yearStart_succ (year : Int) : yearStart (year + 1) = yearStart year + daysInYear year := by
  have hleap := @isLeap_iff year
  rw [yearStart, yearStart, daysInYear]
  split
  · next h =>
      rw [hleap] at h
      omega
  · next h =>
      rw [hleap] at h
      omega

theorem yearStart_le_add (year : Int) (years : Nat) :
    yearStart year ≤ yearStart (year + years) := by
  induction years with
  | zero => simp
  | succ years ih =>
      have hnext := yearStart_succ (year + years)
      rw [Int.natCast_succ, ← Int.add_assoc]
      omega

/-- A later year begins when an earlier one has ended. -/
theorem yearStart_add_le {a b : Int} (h : a < b) : yearStart a + daysInYear a ≤ yearStart b := by
  have hsum : b = a + 1 + (b - a - 1).toNat := by omega
  rw [← yearStart_succ, hsum]
  exact yearStart_le_add _ _

/-- A day is in one year only. -/
theorem year_eq {a b : Int} {m n : Nat} (hm : m < daysInYear a) (hn : n < daysInYear b)
    (h : yearStart a + m = yearStart b + n) : a = b := by
  rcases Int.lt_trichotomy a b with hlt | heq | hgt
  · have := yearStart_add_le hlt
    omega
  · exact heq
  · have := yearStart_add_le hgt
    omega

/-- The start of a year by its place in the cycles of 400, 100 and 4 years. -/
theorem yearStart_cycles (cycles : Int) {centuries fours years : Nat} (hcenturies : centuries ≤ 3)
    (hfours : fours ≤ 24) (hyears : years ≤ 3) :
    yearStart (cycles * 400 + (centuries * 100 + fours * 4 + years : Nat) + 1)
      = 146097 * cycles + 36524 * centuries + 1461 * fours + 365 * years := by
  rw [yearStart]
  omega

theorem daysInYear_cycles (cycles : Int) {centuries fours years : Nat} (hcenturies : centuries ≤ 3)
    (hfours : fours ≤ 24) (hyears : years ≤ 3) :
    daysInYear (cycles * 400 + (centuries * 100 + fours * 4 + years : Nat) + 1)
      = if years = 3 ∧ (fours ≠ 24 ∨ centuries = 3) then 366 else 365 := by
  rw [daysInYear]
  congr 1
  rw [isLeap_iff, eq_iff_iff]
  omega

/-- A day is in the year that is found for it, at the place that is found. -/
theorem yearDay_spec (day : Int) :
    yearStart (yearDay day).1 + (yearDay day).2 = day
      ∧ (yearDay day).2 < daysInYear (yearDay day).1 := by
  rw [yearDay]
  dsimp only
  have hcenturies : min ((day % 146097).toNat / 36524) 3 ≤ 3 := Nat.min_le_right _ _
  generalize hcentury : min ((day % 146097).toNat / 36524) 3 = centuries at hcenturies ⊢
  generalize hrest : (day % 146097).toNat - centuries * 36524 = rest
  have hfours : rest / 1461 ≤ 24 := by omega
  have hyears : min (rest % 1461 / 365) 3 ≤ 3 := Nat.min_le_right _ _
  rw [yearStart_cycles _ hcenturies hfours hyears, daysInYear_cycles _ hcenturies hfours hyears]
  constructor
  · omega
  · split <;> omega

theorem yearDay_eq {year : Int} {place : Nat} (h : place < daysInYear year) :
    yearDay (yearStart year + place) = (year, place) := by
  obtain ⟨hday, hplace⟩ := yearDay_spec (yearStart year + place)
  have hyear := year_eq hplace h hday
  rw [hyear] at hday
  exact Prod.ext hyear (by omega)

/-! ## Months -/

theorem sum_monthLengths (year : Int) : (monthLengths year).sum = daysInYear year := by
  rw [monthLengths, daysInYear]
  split <;> rfl

theorem daysBeforeMonth_eq (year : Int) (month : Nat) :
    daysBeforeMonth year month = ((monthLengths year).take (month - 1)).sum := by
  rw [daysBeforeMonth, List.sum_eq_foldl]

/-- The month that is found holds the place, and the months before it do not reach
it. -/
theorem exists_findMonth_eq {lengths : List Nat} {rest : Nat} (h : rest < lengths.sum)
    (month : Nat) :
    ∃ i, ∃ hi : i < lengths.length,
      findMonth month lengths rest = (month + i, rest - (lengths.take i).sum + 1)
        ∧ (lengths.take i).sum ≤ rest ∧ rest < (lengths.take i).sum + lengths[i] := by
  induction lengths generalizing month rest with
  | nil => exact absurd h (Nat.not_lt_zero _)
  | cons length lengths ih =>
      rw [findMonth]
      split
      · next hlt => exact ⟨0, Nat.succ_pos _, rfl, Nat.zero_le _, by simpa using hlt⟩
      · next hge =>
          rw [List.sum_cons] at h
          obtain ⟨i, hi, hfound, hle, hlt⟩ :=
            ih (show rest - length < lengths.sum by omega) (month + 1)
          refine ⟨i + 1, Nat.succ_lt_succ hi, ?_, ?_, ?_⟩
          · rw [hfound, List.take_succ_cons, List.sum_cons, Nat.sub_sub, Nat.add_assoc,
              Nat.add_comm 1]
          · rw [List.take_succ_cons, List.sum_cons]
            omega
          · rw [List.take_succ_cons, List.sum_cons, List.getElem_cons_succ]
            omega

/-- The date of a day names the day again, if the calendar has its year. -/
theorem ofMonthDay?_monthDay {day : Int} (h : yearInRange (yearDay day).1 = true) :
    ofMonthDay? (monthDay day).1 (monthDay day).2.1 (monthDay day).2.2 = some day := by
  obtain ⟨hday, hplace⟩ := yearDay_spec day
  rw [monthDay]
  generalize yearDay day = date at h hday hplace
  obtain ⟨year, place⟩ := date
  dsimp only at h hday hplace ⊢
  rw [← sum_monthLengths] at hplace
  obtain ⟨i, hi, hfound, hle, hlt⟩ := exists_findMonth_eq hplace 1
  have htwelve : i < 12 := hi
  have hmonth : 1 + i - 1 = i := Nat.add_sub_cancel_left 1 i
  have hlength : daysInMonth year (1 + i) = (monthLengths year)[i] := by
    rw [daysInMonth, hmonth, List.getElem?_eq_getElem hi]
    rfl
  have hbefore : daysBeforeMonth year (1 + i) = ((monthLengths year).take i).sum := by
    rw [daysBeforeMonth_eq, hmonth]
  rw [hfound, ofMonthDay?, hlength, hbefore, if_pos ⟨h, by omega, by omega, by omega, by omega⟩]
  congr 1
  omega

/-! ## Days that have been named -/

theorem ofMonthDay?_eq_some {year day : Int} {month dayOfMonth : Nat}
    (h : ofMonthDay? year month dayOfMonth = some day) :
    yearInRange year = true ∧ 1 ≤ month ∧ month ≤ 12 ∧ 1 ≤ dayOfMonth
      ∧ dayOfMonth ≤ daysInMonth year month
      ∧ day = yearStart year + (daysBeforeMonth year month + (dayOfMonth - 1) : Nat) := by
  rw [ofMonthDay?] at h
  split at h
  · next hdate =>
      cases h
      obtain ⟨hyear, hlow, hhigh, hfirst, hlast⟩ := hdate
      exact ⟨hyear, hlow, hhigh, hfirst, hlast, by omega⟩
  · cases h

theorem daysInMonth_le (year : Int) (month : Nat) : daysInMonth year month ≤ 31 := by
  have hall : ∀ length ∈ monthLengths year, length ≤ 31 := by
    rw [monthLengths]
    split <;> decide
  rw [daysInMonth]
  cases h : (monthLengths year)[month - 1]? with
  | none => exact Nat.zero_le _
  | some length => exact hall length (List.mem_of_getElem? h)

/-- No month reaches past the end of its year. -/
theorem daysBeforeMonth_add_le {month : Nat} (year : Int) (hlow : 1 ≤ month) (hhigh : month ≤ 12) :
    daysBeforeMonth year month + daysInMonth year month ≤ daysInYear year := by
  have hi : month - 1 < (monthLengths year).length := by
    have hlength : (monthLengths year).length = 12 := rfl
    omega
  have hsplit := congrArg List.sum (List.take_append_drop (month - 1) (monthLengths year))
  rw [List.drop_eq_getElem_cons hi, List.sum_append, List.sum_cons, sum_monthLengths] at hsplit
  rw [daysBeforeMonth_eq, daysInMonth, List.getElem?_eq_getElem hi, Option.getD_some]
  omega

/-- The year of a day that has been named by its month is the one it was named
with. -/
theorem yearDay_of_ofMonthDay? {year day : Int} {month dayOfMonth : Nat}
    (h : ofMonthDay? year month dayOfMonth = some day) :
    (yearDay day).1 = year ∧ yearInRange year = true := by
  obtain ⟨hyear, hlow, hhigh, hfirst, hlast, rfl⟩ := ofMonthDay?_eq_some h
  have hend := daysBeforeMonth_add_le year hlow hhigh
  rw [yearDay_eq (by omega)]
  exact ⟨rfl, hyear⟩

theorem yearDay_of_ofOrdinal? {year day : Int} {ordinal : Nat}
    (h : ofOrdinal? year ordinal = some day) :
    (yearDay day).1 = year ∧ yearInRange year = true := by
  rw [ofOrdinal?] at h
  split at h
  · next hdate =>
      cases h
      obtain ⟨hyear, hfirst, hlast⟩ := hdate
      rw [yearDay_eq (by omega)]
      exact ⟨rfl, hyear⟩
  · cases h

/-- A week may reach into the next year or start in the one before; either way
the calendar has the year. -/
theorem yearInRange_of_ofWeek? {year day : Int} {week weekday : Nat}
    (h : ofWeek? year week weekday = some day) : yearInRange (yearDay day).1 = true := by
  rw [ofWeek?] at h
  split at h
  · dsimp only at h
    split at h
    · next hyear =>
        cases h
        exact hyear
    · cases h
  · cases h

end Calendar

end RowQuery
