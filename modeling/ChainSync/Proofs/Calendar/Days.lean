import ChainSync.Proofs.Calendar.Order
import Mathlib.Tactic.IntervalCases

/-!
# Day after Day

The dates of consecutive days are consecutive dates.

A date is computed from the number of its day by dividing, first into cycles of four
hundred years and last into the five months between two whole numbers of days. What a
calendar is says nothing of that. Its months have their days, February one more in a leap
year, and after the last one of a month the next one begins. `Date.ofDayNumber_succ` is
that rule, for the days before 1970 as well as for those after it, and with the date of
one day it says everything there is to say about the others.

A year that starts in March has its leap day at the end, where it only makes the last
month longer. So one day after another is mostly a matter of one month, which no leap
year has a part in, and of the last day of February.

## Main definitions

* `Date.IsLeap`, `Date.daysIn`: The lengths of years and months.
* `Date.next`: The date of the next day.
* `Date.IsValid`: Dates there are.

## Theorems

* `Date.lt_firstDay_add`, `Date.yearOf_succ`: The days of a year that starts in March.
* `Date.next_civil`, `Date.next_civil_last`: The next day in such a year, and after it.
* `Date.ofDayNumber_succ`: The next day has the next date.
* `Date.isValid_ofDayNumber`: Every day has a date that there is.
-/

namespace ChainSync

namespace Date

/-! ## The calendar -/

/-- A year with a leap day. -/
def IsLeap (year : Int) : Prop := year % 4 = 0 ∧ (year % 100 ≠ 0 ∨ year % 400 = 0)

instance (year : Int) : Decidable (IsLeap year) := inferInstanceAs (Decidable (_ ∧ _))

/-- The days of a month. -/
def daysIn (year : Int) (month : Nat) : Nat :=
  if month = 2 then if IsLeap year then 29 else 28
  else if month = 4 ∨ month = 6 ∨ month = 9 ∨ month = 11 then 30
  else 31

/-- The date of the next day. -/
def next (d : Date) : Date :=
  if d.day < daysIn d.year d.month then { d with day := d.day + 1 }
  else if d.month < 12 then { d with month := d.month + 1, day := 1 }
  else { year := d.year + 1, month := 1, day := 1 }

/-- A date that some day has. -/
structure IsValid (d : Date) : Prop where
  month_pos : 1 ≤ d.month
  month_le : d.month ≤ 12
  day_pos : 1 ≤ d.day
  day_le : d.day ≤ daysIn d.year d.month

/-! ## Years that start in March -/

/-- The days of a year that starts in March, whose leap day is that of the next year. -/
def yearLength (y : Nat) : Nat := if IsLeap (y + 1) then 366 else 365

theorem firstDay_succ {y : Nat} (hy : y < 399) : firstDay (y + 1) = firstDay y + yearLength y := by
  unfold firstDay yearLength
  split
  · next hleap =>
      unfold IsLeap at hleap
      omega
  · next hleap =>
      unfold IsLeap at hleap
      omega

/-- No year goes on into the next cycle. -/
theorem firstDay_add_le {y : Nat} (hy : y < 400) : firstDay y + yearLength y ≤ 146097 := by
  rcases Nat.lt_or_ge y 399 with hnext | hlast
  · rw [← firstDay_succ hnext]
    unfold firstDay
    omega
  · obtain rfl : y = 399 := by omega
    decide

theorem firstDay_last : firstDay 399 + yearLength 399 = 146097 := rfl

theorem lt_firstDay_add {d : Nat} (h : d < 146097) :
    d < firstDay (yearOf d) + yearLength (yearOf d) := by
  refine Nat.lt_of_not_le fun hle => ?_
  have hyear := yearOf_lt h
  rcases Nat.lt_or_ge (yearOf d) 399 with hnext | hlast
  · -- The first day of the next year is no later, so that year is none either.
    rw [← firstDay_succ hnext] at hle
    have hmono := yearOf_mono hle h
    rw [yearOf_firstDay _ (by omega)] at hmono
    exact Nat.lt_irrefl _ hmono
  · obtain hlast : yearOf d = 399 := by omega
    rw [hlast, firstDay_last] at hle
    omega

/-- The next day is of the same year, unless that is over. -/
theorem yearOf_succ {d : Nat} (h : d + 1 < 146097)
    (hmore : d + 1 < firstDay (yearOf d) + yearLength (yearOf d)) :
    yearOf (d + 1) = yearOf d := by
  have hmono := yearOf_mono (Nat.le_succ d) h
  have hyear := yearOf_lt h
  refine Nat.le_antisymm (Nat.le_of_lt_succ ?_) hmono
  rcases Nat.lt_or_ge (yearOf d) 399 with hnext | hlast
  · rw [← firstDay_succ hnext] at hmore
    have hfirst : firstDay (yearOf d + 1) < 146097 := by
      unfold firstDay
      omega
    have hle : yearOf (d + 1) ≤ yearOf (firstDay (yearOf d + 1) - 1) :=
      yearOf_mono (by omega) (by omega)
    exact Nat.lt_of_le_of_lt hle (yearOf_before_firstDay _ (by omega) (Nat.succ_pos _))
  · omega

/-! ## Months -/

/-- Leap years come again in every cycle. -/
theorem isLeap_cycle (c : Int) (y : Nat) : IsLeap (c * 400 + y + 1) ↔ IsLeap (y + 1) := by
  unfold IsLeap
  omega

/-- The days before a month, counted from March on. -/
def daysBefore (m : Nat) : Nat := (153 * m + 2) / 5

variable {c : Int} {y m day doy : Nat}

theorem daysIn_civil (c : Int) (y day : Nat) (hm : m ≤ 10) :
    daysIn (civil c y m day).year (civil c y m day).month = daysBefore (m + 1) - daysBefore m := by
  interval_cases m <;> rfl

/-- The last month takes what is left of the year. -/
theorem daysIn_civil_last (c : Int) (y day : Nat) :
    daysIn (civil c y 11 day).year (civil c y 11 day).month + daysBefore 11 = yearLength y := by
  change (if IsLeap (c * 400 + y + 1) then 29 else 28) + 337 = if IsLeap (y + 1) then 366 else 365
  simp only [isLeap_cycle]
  split <;> rfl

theorem next_civil_of_lt (h : day < daysIn (civil c y m day).year (civil c y m day).month) :
    (civil c y m day).next = civil c y m (day + 1) := by
  have hday : (civil c y m day).day < daysIn (civil c y m day).year (civil c y m day).month := h
  rw [next, if_pos hday]
  rfl

theorem next_civil_of_le (hm : m ≤ 10)
    (h : daysIn (civil c y m day).year (civil c y m day).month ≤ day) :
    (civil c y m day).next = civil c y (m + 1) 1 := by
  have hday : ¬(civil c y m day).day < daysIn (civil c y m day).year (civil c y m day).month :=
    Nat.not_lt.mpr h
  rw [next, if_neg hday]
  interval_cases m <;> simp [civil]

/-- The month of a day is the last one that has begun. -/
theorem daysBefore_le_iff : daysBefore m ≤ doy ↔ m ≤ monthOf doy := by
  unfold daysBefore monthOf
  omega

theorem lt_daysBefore_iff : doy < daysBefore m ↔ monthOf doy < m := by
  rw [← Nat.not_le, daysBefore_le_iff, Nat.not_le]

theorem dayOf_eq (doy : Nat) : dayOf doy + daysBefore (monthOf doy) = doy + 1 := by
  have hbegun := daysBefore_le_iff.mpr (Nat.le_refl (monthOf doy))
  unfold dayOf
  change doy - daysBefore (monthOf doy) + 1 + daysBefore (monthOf doy) = doy + 1
  omega

/-- The next day is of the same month. -/
theorem monthOf_succ_of_lt (h : dayOf doy < daysBefore (monthOf doy + 1) -
    daysBefore (monthOf doy)) :
    monthOf (doy + 1) = monthOf doy ∧ dayOf (doy + 1) = dayOf doy + 1 := by
  have hday := dayOf_eq doy
  have hnext := dayOf_eq (doy + 1)
  have hmonth : monthOf (doy + 1) = monthOf doy := by
    have hbegun : monthOf doy ≤ monthOf (doy + 1) := daysBefore_le_iff.mp (by omega)
    have hsoon : monthOf (doy + 1) < monthOf doy + 1 := lt_daysBefore_iff.mp (by omega)
    omega
  rw [hmonth] at hnext
  exact ⟨hmonth, by omega⟩

/-- The next day is the first one of the next month. -/
theorem monthOf_succ_of_le (h : daysBefore (monthOf doy + 1) - daysBefore (monthOf doy) ≤
    dayOf doy) : monthOf (doy + 1) = monthOf doy + 1 ∧ dayOf (doy + 1) = 1 := by
  have hday := dayOf_eq doy
  have hnext := dayOf_eq (doy + 1)
  have hlong : daysBefore (monthOf doy) + 30 ≤ daysBefore (monthOf doy + 1) := by
    unfold daysBefore
    omega
  have hlast : doy < daysBefore (monthOf doy + 1) := lt_daysBefore_iff.mpr (Nat.lt_succ_self _)
  have hmonth : monthOf (doy + 1) = monthOf doy + 1 := by
    have hlonger : doy + 1 < daysBefore (monthOf doy + 1 + 1) := by
      unfold daysBefore at *
      omega
    have hbegun : monthOf doy + 1 ≤ monthOf (doy + 1) := daysBefore_le_iff.mp (by omega)
    have hsoon : monthOf (doy + 1) < monthOf doy + 1 + 1 := lt_daysBefore_iff.mp hlonger
    omega
  rw [hmonth] at hnext
  exact ⟨hmonth, by omega⟩

theorem yearLength_le (y : Nat) : yearLength y ≤ 366 := by
  unfold yearLength
  split <;> decide

/-- The next day within a year that starts in March. -/
theorem next_civil (c : Int) (h : doy + 1 < yearLength y) :
    (civil c y (monthOf doy) (dayOf doy)).next =
      civil c y (monthOf (doy + 1)) (dayOf (doy + 1)) := by
  have hlength := yearLength_le y
  have hmonth := monthOf_le (show doy < 366 by omega)
  rcases Nat.lt_or_eq_of_le hmonth with hfull | hlast
  · have hdays := daysIn_civil c y (dayOf doy) (Nat.le_of_lt_succ hfull)
    by_cases hmore : dayOf doy < daysBefore (monthOf doy + 1) - daysBefore (monthOf doy)
    · rw [next_civil_of_lt (by rwa [hdays]), (monthOf_succ_of_lt hmore).1,
        (monthOf_succ_of_lt hmore).2]
    · have hmore := Nat.le_of_not_lt hmore
      rw [next_civil_of_le (Nat.le_of_lt_succ hfull) (by rwa [hdays]),
        (monthOf_succ_of_le hmore).1, (monthOf_succ_of_le hmore).2]
  · -- The last month is shorter than the others, and the year is not over.
    have hday := dayOf_eq doy
    rw [hlast] at hday
    have hdays := daysIn_civil_last c y (dayOf doy)
    have hmore : dayOf doy < daysBefore (monthOf doy + 1) - daysBefore (monthOf doy) := by
      rw [hlast]
      change _ < 30
      change _ + 337 = _ at hday
      omega
    rw [(monthOf_succ_of_lt hmore).1, (monthOf_succ_of_lt hmore).2, hlast]
    exact next_civil_of_lt (by omega)

/-- Behind its last day the next year starts in March. -/
theorem next_civil_last (c : Int) (h : doy + 1 = yearLength y) :
    (civil c y (monthOf doy) (dayOf doy)).next = civil c (y + 1) 0 1 := by
  have hlength : 365 ≤ yearLength y := by
    unfold yearLength
    split <;> decide
  have hmonth := monthOf_le (show doy < 366 by have := yearLength_le y; omega)
  -- Leap year or not, the last day is one of February.
  have hlast : monthOf doy = 11 :=
    Nat.le_antisymm hmonth (daysBefore_le_iff.mp (show 337 ≤ doy by omega))
  have hday := dayOf_eq doy
  rw [hlast] at hday ⊢
  have hdays := daysIn_civil_last c y (dayOf doy)
  have hover : ¬(civil c y 11 (dayOf doy)).day <
      daysIn (civil c y 11 (dayOf doy)).year (civil c y 11 (dayOf doy)).month := by
    change ¬dayOf doy < _
    omega
  rw [next, if_neg hover]
  simp [civil, Int.add_assoc]

/-! ## Days -/

/-- The place of a day in its cycle, and its date. -/
theorem exists_civil (n : Int) : ∃ (c : Int) (d : Nat), n + 719468 = c * 146097 + d ∧ d < 146097 ∧
    ofDayNumber n = civil c (yearOf d) (monthOf (d - firstDay (yearOf d)))
      (dayOf (d - firstDay (yearOf d))) := by
  refine ⟨(n + 719468).fdiv 146097, ((n + 719468).fmod 146097).toNat, ?_, ?_, ofDayNumber_eq n⟩
  · rw [Int.fdiv_eq_ediv_of_nonneg _ (by decide), Int.fmod_eq_emod_of_nonneg _ (by decide)]
    omega
  · rw [Int.fmod_eq_emod_of_nonneg _ (by decide)]
    omega

/-- The next day has the next date. -/
theorem ofDayNumber_succ (n : Int) : ofDayNumber (n + 1) = (ofDayNumber n).next := by
  rcases exists_civil n with ⟨c, d, hplace, hd, hdate⟩
  rcases exists_civil (n + 1) with ⟨c', d', hplace', hd', hdate'⟩
  have hfirst := firstDay_le hd
  have hyear := yearOf_lt hd
  have hfits := lt_firstDay_add hd
  have hcycle := firstDay_add_le hyear
  rw [hdate, hdate']
  by_cases hmore : d + 1 < firstDay (yearOf d) + yearLength (yearOf d)
  · -- The year goes on.
    obtain rfl : d' = d + 1 := by omega
    obtain rfl : c' = c := by omega
    rw [yearOf_succ hd' hmore, next_civil _ (by omega),
      show d + 1 - firstDay (yearOf d) = d - firstDay (yearOf d) + 1 by omega]
  rw [next_civil_last c (by omega)]
  rcases Nat.lt_or_ge (yearOf d) 399 with hnext | hlast
  · -- The next one begins.
    have hsucc := firstDay_succ hnext
    obtain rfl : d' = firstDay (yearOf d + 1) := by
      unfold firstDay at *
      omega
    obtain rfl : c' = c := by omega
    rw [yearOf_firstDay _ (by omega), Nat.sub_self]
    rfl
  · -- With it the next cycle begins.
    obtain hyear : yearOf d = 399 := by omega
    rw [hyear, firstDay_last] at hmore
    obtain rfl : d' = 0 := by omega
    obtain rfl : c' = c + 1 := by omega
    rw [hyear]
    change civil (c + 1) 0 0 1 = civil c 400 0 1
    simp [civil, Int.add_mul]

example : ofDayNumber 0 = ⟨1970, 1, 1⟩ := rfl

/-- A month that starts in March has all its days in the calendar. -/
theorem isValid_civil (c : Int) (h : doy < yearLength y) :
    (civil c y (monthOf doy) (dayOf doy)).IsValid := by
  have hmonth := monthOf_le (show doy < 366 by have := yearLength_le y; omega)
  have hday := dayOf_eq doy
  have hbegun := daysBefore_le_iff.mpr (Nat.le_refl (monthOf doy))
  refine ⟨?_, ?_, ?_, ?_⟩
  · simp only [civil]
    split <;> omega
  · simp only [civil]
    split <;> omega
  · change 1 ≤ dayOf doy
    omega
  · change dayOf doy ≤ _
    rcases Nat.lt_or_eq_of_le hmonth with hfull | hlast
    · have hsoon := lt_daysBefore_iff.mpr (Nat.lt_succ_self (monthOf doy))
      rw [daysIn_civil c y _ (Nat.le_of_lt_succ hfull)]
      change doy < daysBefore (monthOf doy + 1) at hsoon
      omega
    · have hdays := daysIn_civil_last c y (dayOf doy)
      rw [hlast] at hday ⊢
      omega

/-- Every day has a date that there is. -/
theorem isValid_ofDayNumber (n : Int) : (ofDayNumber n).IsValid := by
  rcases exists_civil n with ⟨c, d, _, hd, hdate⟩
  have hfirst := firstDay_le hd
  have hfits := lt_firstDay_add hd
  rw [hdate]
  exact isValid_civil c (by omega)

end Date

end ChainSync
