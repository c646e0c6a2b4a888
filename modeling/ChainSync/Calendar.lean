import ChainSync.Text.Digits

/-!
# UTC Calendar

Seconds since 1970 as UTC dates and times of day.

A timestamp splits into a day number and a second of that day. The day number
is turned into a proleptic Gregorian date by counting in years that start on
the first of March, so that a leap day is the last day of its year. Years
before 1 and after 9999 are allowed within the calendar's range; outside that
range a timestamp has no date and is shown as the bare number.

## Main definitions

* `Date`, `Date.ofDayNumber`: Civil dates.
* `Moment`, `Moment.ofTimestamp?`: A date and a second of the day.
* `Format`, `Moment.format`: What a format makes of a moment.
* `Now.since`: The time since a timestamp.
* `utcText`: Date and time of day.
* `dateOrTimeText`: The date of an old moment, the time of day of a recent one.
* `stampText`: The sortable form used in file names.
* `Zone`: How far a clock on the wall is from UTC.
-/

namespace ChainSync

/-- A day of the proleptic Gregorian calendar. -/
structure Date where
  year : Int
  month : Nat
  day : Nat
deriving DecidableEq

namespace Date

/-- The date of a day, counted from 1970-01-01. -/
def ofDayNumber (n : Int) : Date :=
  -- Days since 0000-03-01, split into cycles of four hundred years.
  let z := n + 719468
  let cycle := z.fdiv 146097
  let d := (z.fmod 146097).toNat
  let y := (d - d / 1460 + d / 36524 - d / 146096) / 365
  let dayOfYear := d - (365 * y + y / 4 - y / 100)
  -- Months from March on have 153 days in every five.
  let m := (5 * dayOfYear + 2) / 153
  let day := dayOfYear - (153 * m + 2) / 5 + 1
  let month := if m < 10 then m + 3 else m - 9
  { year := cycle * 400 + y + (if month ≤ 2 then 1 else 0), month, day }

/-- A year in four digits; a sign and at least four digits outside 0 to 9999. -/
def yearChars (year : Int) : List Char :=
  if year < 0 then '-' :: Text.padded 4 year.natAbs
  else if 9999 < year then '+' :: Text.padded 4 year.natAbs
  else Text.padded 4 year.natAbs

end Date

/-- A date and a second of that day. -/
structure Moment where
  date : Date
  second : Nat
deriving DecidableEq

namespace Moment

/-- The moment a number of seconds after 1970. -/
def ofTimestamp (t : Int) : Moment :=
  { date := Date.ofDayNumber (t.fdiv 86400), second := (t.fmod 86400).toNat }

/-- The first second of the calendar, in the year -262143. -/
def firstTimestamp : Int := -8334601228800

/-- The last second of the calendar, in the year 262142. -/
def lastTimestamp : Int := 8210266876799

/-- The moment of a timestamp that lies in the calendar's range. -/
def ofTimestamp? (t : Int) : Option Moment :=
  if firstTimestamp ≤ t ∧ t ≤ lastTimestamp then some (ofTimestamp t) else none

end Moment

/-! ## Formats -/

namespace Format

/-- A part of a format. -/
inductive Item where
  | year | month | day | hour | minute | second
  /-- A character that stands for itself. -/
  | literal (c : Char)
deriving DecidableEq

/-- The part that a letter behind a percent sign stands for. -/
def Item.ofLetter? : Char → Option Item
  | 'Y' => some .year
  | 'm' => some .month
  | 'd' => some .day
  | 'H' => some .hour
  | 'M' => some .minute
  | 'S' => some .second
  | _ => none

/-- The parts of a format, or nothing if it holds a letter that stands for no part. -/
def items? : List Char → Option (List Item)
  | [] => some []
  | '%' :: letter :: rest => do return (← Item.ofLetter? letter) :: (← items? rest)
  | ['%'] => none
  | c :: rest => (items? rest).map (.literal c :: ·)

end Format

/-- A format and its parts. -/
structure Format where
  text : String
  items : List Format.Item
  parsed : Format.items? text.toList = some items

/-- Year, month and day. -/
def dateFormat : Format where
  text := "%Y-%m-%d"
  items := [.year, .literal '-', .month, .literal '-', .day]
  parsed := by decide

/-- Hours, minutes and seconds. -/
def timeFormat : Format where
  text := "%H:%M:%S"
  items := [.hour, .literal ':', .minute, .literal ':', .second]
  parsed := by decide

/-- Date and time of day. -/
def dateTimeFormat : Format where
  text := "%Y-%m-%d %H:%M:%S"
  items := [.year, .literal '-', .month, .literal '-', .day, .literal ' ',
    .hour, .literal ':', .minute, .literal ':', .second]
  parsed := by decide

/-- The digits of date and time, a dash between the two. -/
def stampFormat : Format where
  text := "%Y%m%d-%H%M%S"
  items := [.year, .month, .day, .literal '-', .hour, .minute, .second]
  parsed := by decide

namespace Moment

/-- What a part of a format is replaced by. -/
def itemChars (m : Moment) : Format.Item → List Char
  | .year => Date.yearChars m.date.year
  | .month => Text.padded 2 m.date.month
  | .day => Text.padded 2 m.date.day
  | .hour => Text.padded 2 (m.second / 3600)
  | .minute => Text.padded 2 (m.second / 60 % 60)
  | .second => Text.padded 2 (m.second % 60)
  | .literal c => [c]

/-- A moment written in a format. -/
def format (m : Moment) (f : Format) : String := String.ofList (f.items.flatMap m.itemChars)

end Moment

/-! ## Shown times -/

/-- A point in time: whole seconds since 1970, and nanoseconds after them. In a leap second
    these go on past the end of the second before it. -/
structure Now where
  seconds : Int
  nanos : Nat := 0

/-- So many nanoseconds later. A leap second lasts twice as long as others. -/
def Now.after (now : Now) (n : Nat) : Now :=
  let second := if now.nanos < 1000000000 then 1000000000 else 2000000000
  if now.nanos + n < second then { now with nanos := now.nanos + n }
  else
    let rest := now.nanos + n - second
    { seconds := now.seconds + 1 + (rest / 1000000000 : Nat), nanos := rest % 1000000000 }

/-- The nanoseconds since a timestamp, by days and times of day. From within a leap second to a
    later time of day there is a second more than the two of them count. -/
def Now.since (now : Now) (t : Int) : Int :=
  let uncounted : Int :=
    if 1000000000 ≤ now.nanos ∧ now.seconds.fmod 86400 < t.fmod 86400 then 1 else 0
  (now.seconds - t - uncounted) * 1000000000 + now.nanos

/-- The age of a timestamp in whole seconds, cut off toward zero. -/
def Now.ageOf (now : Now) (t : Int) : Int := (now.since t).tdiv 1000000000

/-- Date and time of day of a timestamp. -/
def utcText (t : Int) : String :=
  match Moment.ofTimestamp? t with
  | some m => m.format dateTimeFormat
  | none => toString t

/-- The date of a moment more than a day old, otherwise its time of day. -/
def dateOrTimeText (now : Now) (t : Int) : String :=
  match Moment.ofTimestamp? t with
  | some m => if 86400 < now.ageOf t then m.format dateFormat else m.format timeFormat
  | none => toString t

/-- The sortable form of a timestamp. -/
def stampText (t : Int) : String := (Moment.ofTimestamp t).format stampFormat

/-! ## Time zones -/

/-- The seconds that the clock on the wall is ahead of UTC, at each timestamp. They change
    where clocks are set forward or back. -/
abbrev Zone := Int → Int

namespace Zone

/-- The zone of UTC itself. -/
def utc : Zone := fun _ => 0

/-- The second that the clock on the wall shows at a timestamp, as if it were UTC. -/
def wallSecond (zone : Zone) (t : Int) : Int := t + zone t

/-- The sortable form of what the clock on the wall shows. -/
def stamp (zone : Zone) (t : Int) : String := stampText (zone.wallSecond t)

@[simp] theorem stamp_utc (t : Int) : utc.stamp t = stampText t :=
  congrArg stampText (Int.add_zero t)

end Zone

end ChainSync
