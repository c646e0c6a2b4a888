import ChainSync.Proofs.Calendar.Days

/-!
# Times as Shown

The two ways a timestamp is shown, and when they show the same.

Both look for the timestamp in the calendar first, so they fall back to the bare number
together. Otherwise each has formats of its own. That the long one is the two short ones
with a blank between is said of their parts, and what the parts are is read off the
format strings (`format_dateTimeFormat`). No part holds a blank, so there is one way only
to cut the long form in two.

Which of the short ones is shown is decided by the age in whole seconds. What is left of a
second is cut off before the comparison, not after it. So a timestamp that is more than a
day old is still shown by its time of day until it is a day and a second old, which is the
extent of the difference to the rule that is meant (`times_agree`).

## Main definitions

* `ShowsDate`, `ShowsTime`: Texts of dates and times of day.

## Theorems

* `Moment.format_dateTimeFormat`: The long form is the two short ones.
* `Moment.showsDate`, `Moment.showsTime`: What the short ones are.
* `Date.year_mono`, `Moment.inCalendar_iff`: The years of the calendar.
* `Now.day_lt_ageOf_iff`: The age is cut off.
* `times_agree`: Both ways to show a timestamp.
-/

namespace ChainSync

/-! ## Formats -/

/-- A text of a date: year, month and day with dashes between. -/
structure ShowsDate (d : Date) (text : String) : Prop where
  chars : text.toList = Date.yearChars d.year ++ '-' :: Text.padded 2 d.month ++
    '-' :: Text.padded 2 d.day
  valid : d.IsValid
  noBlank : ' ' ∉ text.toList

/-- A text of a second of a day: hours, minutes and seconds with colons between. -/
structure ShowsTime (second : Nat) (text : String) : Prop where
  chars : ∃ hour minute rest, text.toList = Text.padded 2 hour ++ ':' :: Text.padded 2 minute ++
      ':' :: Text.padded 2 rest ∧ hour < 24 ∧ minute < 60 ∧ rest < 60 ∧
    second = 3600 * hour + 60 * minute + rest
  noBlank : ' ' ∉ text.toList

namespace Moment

variable (m : Moment)

theorem format_dateTimeFormat :
    m.format dateTimeFormat = m.format dateFormat ++ " " ++ m.format timeFormat := by
  have hitems : dateTimeFormat.items = dateFormat.items ++ [.literal ' '] ++ timeFormat.items := rfl
  rw [← String.toList_inj, String.toList_append, String.toList_append, toList_format, toList_format,
    toList_format, hitems, List.flatMap_append, List.flatMap_append]
  rfl

theorem showsDate {d : Date} (second : Nat) (hvalid : d.IsValid) :
    ShowsDate d ((Moment.mk d second).format dateFormat) where
  chars := by
    rw [toList_format]
    simp [dateFormat, itemChars]
  valid := hvalid
  noBlank := not_mem_format _ (by decide) (by decide) (by decide) (by decide)

theorem showsTime (d : Date) {second : Nat} (hsecond : second < 86400) :
    ShowsTime second ((Moment.mk d second).format timeFormat) where
  chars := by
    refine ⟨second / 3600, second / 60 % 60, second % 60, ?_, ?_⟩
    · rw [toList_format]
      simp [timeFormat, itemChars]
    · omega
  noBlank := not_mem_format _ (by decide) (by decide) (by decide) (by decide)

end Moment

/-! ## The calendar's range -/

theorem Date.year_mono {n n' : Int} (h : n ≤ n') :
    (ofDayNumber n).year ≤ (ofDayNumber n').year := by
  rcases Int.lt_or_eq_of_le h with hlt | rfl
  · rcases earlier_ofDayNumber hlt with hyear | ⟨hyear, _⟩
    · exact Int.le_of_lt hyear
    · exact Int.le_of_eq hyear
  · exact Int.le_refl _

theorem Moment.ofTimestamp_eq (t : Int) :
    ofTimestamp t = ⟨Date.ofDayNumber (t / 86400), (t % 86400).toNat⟩ := by
  rw [ofTimestamp, Int.fdiv_eq_ediv_of_nonneg _ (by decide),
    Int.fmod_eq_emod_of_nonneg _ (by decide)]

/-- The calendar holds whole years. -/
theorem Moment.inCalendar_iff (t : Int) : firstTimestamp ≤ t ∧ t ≤ lastTimestamp ↔
    -262143 ≤ (Date.ofDayNumber (t / 86400)).year ∧
      (Date.ofDayNumber (t / 86400)).year ≤ 262142 := by
  have hbefore : (Date.ofDayNumber (-96465293)).year = -262144 := by decide +kernel
  have hfirst : (Date.ofDayNumber (-96465292)).year = -262143 := by decide +kernel
  have hlast : (Date.ofDayNumber 95026236).year = 262142 := by decide +kernel
  have hafter : (Date.ofDayNumber 95026237).year = 262143 := by decide +kernel
  unfold firstTimestamp lastTimestamp
  constructor
  · rintro ⟨hlow, hhigh⟩
    have hlow := Date.year_mono (show -96465292 ≤ t / 86400 by omega)
    have hhigh := Date.year_mono (show t / 86400 ≤ 95026236 by omega)
    omega
  · -- The day before the first one and the day after the last one are of other years.
    rintro ⟨hlow, hhigh⟩
    constructor
    · refine Int.not_lt.mp fun hlt => ?_
      have hyear := Date.year_mono (show t / 86400 ≤ -96465293 by omega)
      omega
    · refine Int.not_lt.mp fun hlt => ?_
      have hyear := Date.year_mono (show 95026237 ≤ t / 86400 by omega)
      omega

/-! ## Ages -/

/-- What is left of a second does not count. -/
theorem Now.day_lt_ageOf_iff (now : Now) (t : Int) :
    86400 < now.ageOf t ↔ 86401 * 1000000000 ≤ now.since t := by
  unfold ageOf
  by_cases h : 0 ≤ now.since t
  · rw [Int.tdiv_eq_ediv_of_nonneg h]
    omega
  · have hnegative := Int.tdiv_le_tdiv (show (0 : Int) < 1000000000 by decide)
      (Int.le_of_lt (Int.not_le.mp h))
    rw [Int.zero_tdiv] at hnegative
    omega

/-- Outside a leap second the age is the difference. -/
theorem Now.since_eq {now : Now} (h : now.nanos < 1000000000) (t : Int) :
    now.since t = (now.seconds - t) * 1000000000 + now.nanos := by
  have hordinary : ¬(1000000000 ≤ now.nanos ∧ now.seconds.fmod 86400 < t.fmod 86400) :=
    fun hleap => absurd hleap.1 (Nat.not_le.mpr h)
  unfold since
  rw [if_neg hordinary]
  simp only [Int.sub_zero]

/-- A timestamp is shown as the bare number in both ways, and then its year is none of the
    calendar's, or in the one way as date and time of day with a blank between and in the
    other as one of the two: the date if it is at least a day and a second old. For every age
    but those less than a second past a day, that is the date of what is more than a day old. -/
theorem times_agree (now : Now) (t : Int) :
    let day := t / 86400
    let year := (Date.ofDayNumber day).year
    let age := now.since t
    (now.nanos < 1000000000 → age = (now.seconds - t) * 1000000000 + now.nanos) ∧
    (¬(-262143 ≤ year ∧ year ≤ 262142) →
      utcText t = toString t ∧ dateOrTimeText now t = toString t) ∧
    (-262143 ≤ year ∧ year ≤ 262142 → ∃ date time,
      ShowsDate (Date.ofDayNumber day) date ∧ ShowsTime (t % 86400).toNat time ∧
      utcText t = date ++ " " ++ time ∧
      dateOrTimeText now t = (if 86401 * 1000000000 ≤ age then date else time) ∧
      (¬(86400 * 1000000000 < age ∧ age < 86401 * 1000000000) →
        dateOrTimeText now t = if 86400 * 1000000000 < age then date else time)) := by
  intro day year age
  obtain ⟨m, hm⟩ : ∃ m, m = Moment.ofTimestamp t := ⟨_, rfl⟩
  have hparts := hm.trans (Moment.ofTimestamp_eq t)
  have hdate : ShowsDate (Date.ofDayNumber day) (m.format dateFormat) := by
    rw [hparts]
    exact Moment.showsDate _ (Date.isValid_ofDayNumber day)
  have htime : ShowsTime (t % 86400).toNat (m.format timeFormat) := by
    rw [hparts]
    exact Moment.showsTime _ (by omega)
  refine ⟨fun hnanos => Now.since_eq hnanos t, fun hyear => ?_, fun hyear => ?_⟩
  · have hnone : Moment.ofTimestamp? t = none :=
      if_neg fun h => hyear ((Moment.inCalendar_iff t).mp h)
    simp only [utcText, dateOrTimeText, hnone, and_self]
  · have hsome : Moment.ofTimestamp? t = some m := by
      rw [hm]
      exact if_pos ((Moment.inCalendar_iff t).mpr hyear)
    have htext : dateOrTimeText now t =
        if 86401 * 1000000000 ≤ age then m.format dateFormat else m.format timeFormat := by
      simp only [dateOrTimeText, hsome, Now.day_lt_ageOf_iff]
      rfl
    refine ⟨_, _, hdate, htime, ?_, htext, fun hclear => ?_⟩
    · simp only [utcText, hsome, Moment.format_dateTimeFormat]
    · rw [htext]
      by_cases hold : 86401 * 1000000000 ≤ age
      · rw [if_pos hold, if_pos (by omega)]
      · rw [if_neg hold, if_neg (by omega)]

/-- A timestamp that is a day and half a second old is shown by its time of day. -/
theorem old_but_shown_by_time :
    (Now.mk 1700086400 500000000).since 1700000000 = 86400 * 1000000000 + 500000000 ∧
    (∃ date time, ShowsDate ⟨2023, 11, 14⟩ date ∧ ShowsTime 80000 time ∧
      utcText 1700000000 = date ++ " " ++ time ∧
      dateOrTimeText ⟨1700086400, 500000000⟩ 1700000000 = time) ∧
    dateOrTimeText ⟨1700086400, 500000000⟩ 1700000000 = "22:13:20" ∧
    utcText 9223372036854775807 = toString (9223372036854775807 : Int) := by
  rcases times_agree ⟨1700086400, 500000000⟩ 1700000000 with ⟨hage, _, hshown⟩
  rcases times_agree ⟨1700086400, 500000000⟩ 9223372036854775807 with ⟨_, hbare, _⟩
  rcases hshown (by decide +kernel) with ⟨date, time, hdate, htime, hutc, htext, _⟩
  rw [if_neg (by decide)] at htext
  exact ⟨hage (by decide), ⟨date, time, hdate, htime, hutc, htext⟩, by decide +kernel,
    (hbare (by decide +kernel)).1⟩

end ChainSync
