import ChainSync.Calendar
import ChainSync.Proofs.Text.Digits

/-!
# Stamps in Order

The sortable form of a timestamp sorts.

A later second has a later date or a later time of that day, and all parts of the form
have a fixed width, the greatest unit first. So comparing the texts compares the parts
in turn. The year has four digits only from 0 to 9999; other years have a sign, and
there the order is a different one.

Years are counted from March on inside, so a date is first compared in those years. In
one of them the months from January on belong to the next year of the calendar, which
is why they stay behind the others of their year.

## Main definitions

* `Date.yearOf`, `Date.firstDay`: The years of a cycle, and the days they begin with.
* `Date.Earlier`: Dates in order.
* `HasPlainYear`: Timestamps of the years 0 to 9999.

## Theorems

* `Date.yearOf_mono`, `Date.firstDay_le`, `Date.lt_firstDay`: The year of a day.
* `Date.earlier_ofDayNumber`: Later days have later dates.
* `hasPlainYear_iff`: The seconds of the years 0 to 9999.
* `Moment.not_mem_format`: What does not stand in a format stands in no text of it.
* `stampText_lt_stampText`: Later seconds have greater stamps.
-/

namespace ChainSync

namespace Date

/-! ## Years of a cycle -/

/-- The year of a day within a cycle of four hundred years. -/
def yearOf (d : Nat) : Nat := (d - d / 1460 + d / 36524 - d / 146096) / 365

/-- The first day of a year of a cycle. -/
def firstDay (y : Nat) : Nat := 365 * y + y / 4 - y / 100

theorem yearOf_mono {d e : Nat} (h : d ≤ e) (he : e < 146097) : yearOf d ≤ yearOf e := by
  refine Nat.div_le_div_right ?_
  omega

theorem yearOf_lt {d : Nat} (h : d < 146097) : yearOf d < 400 := by
  unfold yearOf
  omega

/-- The day before the first one of a year lies in an earlier year. -/
theorem yearOf_before_firstDay : ∀ y < 400, 0 < y → yearOf (firstDay y - 1) < y := by
  decide +kernel

theorem yearOf_firstDay : ∀ y < 400, yearOf (firstDay y) = y := by
  decide +kernel

theorem firstDay_le {d : Nat} (h : d < 146097) : firstDay (yearOf d) ≤ d := by
  refine Nat.le_of_not_lt fun hlt => ?_
  rcases Nat.eq_zero_or_pos (yearOf d) with hzero | hpos
  · rw [hzero] at hlt
    exact absurd hlt (Nat.not_lt_zero d)
  · have hyear := yearOf_lt h
    have hfirst : firstDay (yearOf d) < 146097 := by
      unfold firstDay
      omega
    have hle : yearOf d ≤ yearOf (firstDay (yearOf d) - 1) :=
      yearOf_mono (Nat.le_sub_one_of_lt hlt) (by omega)
    exact Nat.lt_irrefl _ (Nat.lt_of_le_of_lt hle (yearOf_before_firstDay _ hyear hpos))

/-- A year has at most 366 days. -/
theorem lt_firstDay {d : Nat} (h : d < 146097) : d < firstDay (yearOf d) + 366 := by
  refine Nat.lt_of_not_le fun hle => ?_
  have hyear := yearOf_lt h
  rcases Nat.lt_or_ge (yearOf d + 1) 400 with hnext | hlast
  · have hfirst : firstDay (yearOf d + 1) ≤ d := by
      refine Nat.le_trans ?_ hle
      unfold firstDay
      omega
    have hmono := yearOf_mono hfirst h
    rw [yearOf_firstDay _ hnext] at hmono
    exact Nat.lt_irrefl _ hmono
  · have hlast : yearOf d = 399 := by omega
    rw [hlast] at hle
    have : firstDay 399 + 366 = 146097 := rfl
    omega

/-! ## Dates -/

/-- Dates in order. -/
def Earlier (a b : Date) : Prop :=
  a.year < b.year ∨ a.year = b.year ∧ (a.month < b.month ∨ a.month = b.month ∧ a.day < b.day)

/-- The month of a day of a year, counted from March on. -/
def monthOf (dayOfYear : Nat) : Nat := (5 * dayOfYear + 2) / 153

/-- The day of a month. -/
def dayOf (dayOfYear : Nat) : Nat := dayOfYear - (153 * monthOf dayOfYear + 2) / 5 + 1

/-- The date of a year and month that are counted from March on. -/
def civil (cycle : Int) (y m day : Nat) : Date :=
  let month := if m < 10 then m + 3 else m - 9
  { year := cycle * 400 + y + (if month ≤ 2 then 1 else 0), month, day }

theorem ofDayNumber_eq (n : Int) :
    let z := n + 719468
    let d := (z.fmod 146097).toNat
    let dayOfYear := d - firstDay (yearOf d)
    ofDayNumber n =
      civil (z.fdiv 146097) (yearOf d) (monthOf dayOfYear) (dayOf dayOfYear) := rfl

theorem monthOf_le {dayOfYear : Nat} (h : dayOfYear < 366) : monthOf dayOfYear ≤ 11 := by
  unfold monthOf
  omega

theorem dayOf_le (dayOfYear : Nat) : dayOf dayOfYear ≤ 31 := by
  unfold dayOf monthOf
  omega

theorem monthOf_dayOf_lt {a b : Nat} (h : a < b) :
    monthOf a < monthOf b ∨ monthOf a = monthOf b ∧ dayOf a < dayOf b := by
  unfold dayOf monthOf
  omega

/-- Years from March on and years of the calendar are in the same order, month by
    month. -/
theorem earlier_civil {c c' : Int} {y y' m m' day day' : Nat} (hy : y < 400) (hm : m ≤ 11)
    (hm' : m' ≤ 11)
    (h : c < c' ∨ c = c' ∧ (y < y' ∨ y = y' ∧ (m < m' ∨ m = m' ∧ day < day'))) :
    Earlier (civil c y m day) (civil c' y' m' day') := by
  simp only [Earlier, civil]
  by_cases hlate : m < 10 <;> by_cases hlate' : m' < 10 <;>
    simp only [hlate, hlate', if_true, if_false] <;> omega

theorem earlier_ofDayNumber {n n' : Int} (h : n < n') :
    Earlier (ofDayNumber n) (ofDayNumber n') := by
  rw [ofDayNumber_eq n, ofDayNumber_eq n', Int.fdiv_eq_ediv_of_nonneg _ (by decide),
    Int.fdiv_eq_ediv_of_nonneg _ (by decide), Int.fmod_eq_emod_of_nonneg _ (by decide),
    Int.fmod_eq_emod_of_nonneg _ (by decide)]
  generalize hdays : ((n + 719468) % 146097).toNat = d
  generalize hdays' : ((n' + 719468) % 146097).toNat = d'
  have hd : d < 146097 := by omega
  have hd' : d' < 146097 := by omega
  have hfirst := firstDay_le hd
  have hlast := lt_firstDay hd
  have hfirst' := firstDay_le hd'
  have hlast' := lt_firstDay hd'
  refine earlier_civil (yearOf_lt hd) (monthOf_le (by omega)) (monthOf_le (by omega)) ?_
  by_cases hcycle : (n + 719468) / 146097 < (n' + 719468) / 146097
  · exact .inl hcycle
  have hday : d < d' := by omega
  refine .inr ⟨by omega, ?_⟩
  rcases Nat.lt_or_eq_of_le (yearOf_mono (Nat.le_of_lt hday) hd') with hyear | hyear
  · exact .inl hyear
  · refine .inr ⟨hyear, monthOf_dayOf_lt ?_⟩
    rw [hyear] at hfirst ⊢
    omega

theorem year_ofDayNumber_mono {n n' : Int} (h : n ≤ n') :
    (ofDayNumber n).year ≤ (ofDayNumber n').year := by
  rcases Int.lt_or_eq_of_le h with hlt | rfl
  · rcases earlier_ofDayNumber hlt with hyear | ⟨hyear, _⟩
    · exact Int.le_of_lt hyear
    · exact Int.le_of_eq hyear
  · exact Int.le_refl _

theorem month_ofDayNumber (n : Int) : (ofDayNumber n).month < 100 ∧ (ofDayNumber n).day < 100 := by
  rw [ofDayNumber_eq, Int.fmod_eq_emod_of_nonneg _ (by decide)]
  generalize hdays : ((n + 719468) % 146097).toNat = d
  have hd : d < 146097 := by omega
  have hlast := lt_firstDay hd
  have hmonth := monthOf_le (show d - firstDay (yearOf d) < 366 by omega)
  have hday := dayOf_le (d - firstDay (yearOf d))
  refine ⟨?_, Nat.lt_of_le_of_lt hday (by decide)⟩
  simp only [civil]
  split <;> omega

end Date

/-! ## Stamps -/

/-- A timestamp whose year has four digits and no sign. -/
def HasPlainYear (t : Int) : Prop :=
  0 ≤ (Moment.ofTimestamp t).date.year ∧ (Moment.ofTimestamp t).date.year ≤ 9999

instance (t : Int) : Decidable (HasPlainYear t) :=
  inferInstanceAs (Decidable (_ ∧ _))

/-- They are the seconds from the first one of the year 0 to the last one of the year 9999. -/
theorem hasPlainYear_iff {t : Int} : HasPlainYear t ↔ -62167219200 ≤ t ∧ t ≤ 253402300799 := by
  have hdate : (Moment.ofTimestamp t).date = Date.ofDayNumber (t / 86400) := by
    rw [Moment.ofTimestamp, Int.fdiv_eq_ediv_of_nonneg _ (by decide)]
  have hbefore : (Date.ofDayNumber (-719529)).year = -1 := rfl
  have hfirst : (Date.ofDayNumber (-719528)).year = 0 := rfl
  have hlast : (Date.ofDayNumber 2932896).year = 9999 := rfl
  have hafter : (Date.ofDayNumber 2932897).year = 10000 := rfl
  rw [HasPlainYear, hdate]
  constructor
  · rintro ⟨hlow, hhigh⟩
    refine ⟨Int.not_lt.mp fun hearly => ?_, Int.not_lt.mp fun hlate => ?_⟩
    · have hyear := Date.year_ofDayNumber_mono (show t / 86400 ≤ -719529 by omega)
      omega
    · have hyear := Date.year_ofDayNumber_mono (show 2932897 ≤ t / 86400 by omega)
      omega
  · rintro ⟨hearly, hlate⟩
    have hlow := Date.year_ofDayNumber_mono (show -719528 ≤ t / 86400 by omega)
    have hhigh := Date.year_ofDayNumber_mono (show t / 86400 ≤ 2932896 by omega)
    omega

/-- A date is before another one, or it is the same and the time of day is. -/
theorem Moment.earlier_ofTimestamp {t t' : Int} (h : t < t') :
    (ofTimestamp t).date.Earlier (ofTimestamp t').date ∨
      (ofTimestamp t).date = (ofTimestamp t').date ∧
        (ofTimestamp t).second < (ofTimestamp t').second := by
  simp only [ofTimestamp, Int.fdiv_eq_ediv_of_nonneg _ (show (0 : Int) ≤ 86400 by decide),
    Int.fmod_eq_emod_of_nonneg _ (show (0 : Int) ≤ 86400 by decide)]
  by_cases hday : t / 86400 < t' / 86400
  · exact .inl (Date.earlier_ofDayNumber hday)
  · have hsame : t / 86400 = t' / 86400 := by omega
    refine .inr ⟨by rw [hsame], ?_⟩
    omega

theorem Moment.second_ofTimestamp (t : Int) : (ofTimestamp t).second < 86400 := by
  simp only [ofTimestamp, Int.fmod_eq_emod_of_nonneg _ (show (0 : Int) ≤ 86400 by decide)]
  omega

namespace Moment

/-- Hours, minutes and seconds, each of a fixed width. -/
def clockChars (second : Nat) : List Char :=
  Text.padded 2 (second / 3600) ++
    (Text.padded 2 (second / 60 % 60) ++ Text.padded 2 (second % 60))

theorem clockChars_lt_clockChars {a b : Nat} (hb : b < 86400) (h : a < b) :
    clockChars a < clockChars b := by
  refine Text.padded_append_lt (by decide) (show _ < 100 by omega) (show _ < 100 by omega) ?_
  by_cases hhour : a / 3600 < b / 3600
  · exact .inl hhour
  refine .inr ⟨by omega, Text.padded_append_lt (by decide) (show _ < 100 by omega)
    (show _ < 100 by omega) ?_⟩
  by_cases hminute : a / 60 % 60 < b / 60 % 60
  · exact .inl hminute
  exact .inr ⟨by omega, Text.padded_lt_padded (by decide) (show _ < 100 by omega) (by omega)⟩

/-- The digits of date and time, a dash between the two. -/
def stampChars (m : Moment) : List Char :=
  Date.yearChars m.date.year ++ Text.padded 2 m.date.month ++ Text.padded 2 m.date.day
    ++ '-' :: Text.padded 2 (m.second / 3600) ++ Text.padded 2 (m.second / 60 % 60)
    ++ Text.padded 2 (m.second % 60)

theorem toList_format (m : Moment) (f : Format) :
    (m.format f).toList = f.items.flatMap m.itemChars := by
  rw [format, String.toList_ofList]

/-- Only numbers and signs are put into a format. -/
theorem not_mem_format (m : Moment) {f : Format} {c : Char} (hdigit : c.isDigit = false)
    (hplus : c ≠ '+') (hminus : c ≠ '-') (hf : .literal c ∉ f.items) :
    c ∉ (m.format f).toList := by
  have hpadded : ∀ width n, c ∉ Text.padded width n := fun width n h => by
    rw [Text.isDigit_of_mem_padded h] at hdigit
    exact Bool.noConfusion hdigit
  have hyear : ∀ y, c ∉ Date.yearChars y := fun y => by
    unfold Date.yearChars
    split
    · simp [hpadded, hminus]
    · split <;> simp [hpadded, hplus]
  rw [toList_format, List.mem_flatMap]
  rintro ⟨item, hitem, hc⟩
  cases item with
  | literal d =>
      rw [itemChars, List.mem_singleton] at hc
      exact hf (hc ▸ hitem)
  | year => exact hyear _ hc
  | month => exact hpadded _ _ hc
  | day => exact hpadded _ _ hc
  | hour => exact hpadded _ _ hc
  | minute => exact hpadded _ _ hc
  | second => exact hpadded _ _ hc

/-- A stamp is what its format says. -/
theorem toList_format_stampFormat (m : Moment) : (m.format stampFormat).toList = m.stampChars := by
  rw [toList_format]
  simp [stampFormat, itemChars, stampChars]

/-- The parts of a stamp. -/
theorem stampChars_eq {m : Moment} (hyear : 0 ≤ m.date.year ∧ m.date.year ≤ 9999) :
    m.stampChars = Text.padded 4 m.date.year.toNat ++ (Text.padded 2 m.date.month ++
      (Text.padded 2 m.date.day ++ '-' :: clockChars m.second)) := by
  have hchars : Date.yearChars m.date.year = Text.padded 4 m.date.year.toNat := by
    rw [Date.yearChars, if_neg (Int.not_lt.mpr hyear.1), if_neg (Int.not_lt.mpr hyear.2)]
    congr 1
    omega
  simp only [stampChars, clockChars, hchars, List.append_assoc, List.cons_append]

end Moment

/-- Later seconds have greater stamps. -/
theorem stampText_lt_stampText {t t' : Int} (ht : HasPlainYear t) (ht' : HasPlainYear t')
    (h : t < t') : stampText t < stampText t' := by
  rw [stampText, stampText, String.lt_iff, Moment.toList_format_stampFormat,
    Moment.toList_format_stampFormat, Moment.stampChars_eq ht, Moment.stampChars_eq ht']
  have hmoment := Moment.earlier_ofTimestamp h
  have hparts : ∀ t, (Moment.ofTimestamp t).date.month < 100 ∧
      (Moment.ofTimestamp t).date.day < 100 := fun t => Date.month_ofDayNumber (t.fdiv 86400)
  rcases hparts t with ⟨hmonth, hday⟩
  rcases hparts t' with ⟨hmonth', hday'⟩
  have hsecond' := Moment.second_ofTimestamp t'
  rcases ht with ⟨hyear, hyearMax⟩
  rcases ht' with ⟨hyear', hyearMax'⟩
  generalize Moment.ofTimestamp t = m at *
  generalize Moment.ofTimestamp t' = m' at *
  -- The first part that differs decides, and everything before it is the same.
  have hlexicographic : m.date.year < m'.date.year ∨ m.date.year = m'.date.year ∧
      (m.date.month < m'.date.month ∨ m.date.month = m'.date.month ∧
        (m.date.day < m'.date.day ∨ m.date.day = m'.date.day ∧ m.second < m'.second)) := by
    rcases hmoment with (hlt | ⟨hsame, hlt | ⟨hsame', hlt⟩⟩) | ⟨hsame, hlt⟩
    · exact .inl hlt
    · exact .inr ⟨hsame, .inl hlt⟩
    · exact .inr ⟨hsame, .inr ⟨hsame', .inl hlt⟩⟩
    · exact .inr ⟨by rw [hsame], .inr ⟨by rw [hsame], .inr ⟨by rw [hsame], hlt⟩⟩⟩
  refine Text.padded_append_lt (by decide) (show _ < 10000 by omega)
    (show _ < 10000 by omega) ?_
  rcases hlexicographic with hlt | ⟨hsame, hrest⟩
  · exact .inl (by omega)
  refine .inr ⟨by rw [hsame], Text.padded_append_lt (by decide) hmonth hmonth' ?_⟩
  rcases hrest with hlt | ⟨hsame, hrest⟩
  · exact .inl hlt
  refine .inr ⟨hsame, Text.padded_append_lt (by decide) hday hday' ?_⟩
  rcases hrest with hlt | ⟨hsame, hlt⟩
  · exact .inl hlt
  refine .inr ⟨hsame, List.cons_lt_cons_iff.mpr (.inr ⟨rfl, ?_⟩)⟩
  exact Moment.clockChars_lt_clockChars hsecond' hlt

/-- No point stands in a stamp. -/
theorem point_not_mem_stampText (t : Int) : '.' ∉ (stampText t).toList :=
  Moment.not_mem_format _ (by decide) (by decide) (by decide) (by decide)

end ChainSync
