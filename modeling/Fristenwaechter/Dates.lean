import Fristenwaechter.Text

/-!
Owns the calendar of `app/dates.py`: Gregorian dates in the years 1 to 9999, month
arithmetic with clamping, the obligation constructors, instants on the UTC line
and the Europe/Berlin zone by its EU rule (one hour ahead of UTC, two between
01:00 UTC on the last Sundays of March and October).

A `Date` carries the proof that it is a calendar date, so the constructors return
`none` exactly where Python raises `ValueError` or `OverflowError`.
-/

namespace Fristenwaechter

/-! ### Dates -/

/-- `calendar.isleap`. -/
def isLeap (year : Nat) : Bool :=
  year % 4 = 0 ∧ (year % 100 ≠ 0 ∨ year % 400 = 0)

/-- `calendar.monthrange(year, month)[1]`. -/
def daysInMonth (year month : Nat) : Nat :=
  if month = 2 then (if isLeap year then 29 else 28)
  else if month = 4 ∨ month = 6 ∨ month = 9 ∨ month = 11 then 30
  else 31

/-- The year, month and day of a `datetime.date`. -/
def IsDate (year month day : Nat) : Prop :=
  1 ≤ year ∧ year ≤ 9999 ∧ 1 ≤ month ∧ month ≤ 12 ∧ 1 ≤ day ∧ day ≤ daysInMonth year month

instance (year month day : Nat) : Decidable (IsDate year month day) := by
  unfold IsDate
  infer_instance

/-- `datetime.date`. -/
structure Date where
  year : Nat
  month : Nat
  day : Nat
  valid : IsDate year month day
deriving DecidableEq

namespace Date

/-- `date(year, month, day)`, `none` where it raises. -/
def of? (year month day : Nat) : Option Date :=
  if valid : IsDate year month day then some ⟨year, month, day, valid⟩ else none

/-- Days before January 1st of a year. -/
def daysBeforeYear (year : Nat) : Nat :=
  (year - 1) * 365 + (year - 1) / 4 - (year - 1) / 100 + (year - 1) / 400

/-- Days before the first of a month within its year. -/
def daysBeforeMonth (year month : Nat) : Nat :=
  ((List.range (month - 1)).map fun before => daysInMonth year (before + 1)).sum

/-- `date.toordinal`; the first of January of year 1 is day 1. -/
def toOrdinal (date : Date) : Nat :=
  daysBeforeYear date.year + daysBeforeMonth date.year date.month + date.day

/-- `date.fromordinal`, with the cycle arithmetic of the `datetime` module. -/
def ofOrdinal? (ordinal : Int) : Option Date :=
  if 1 ≤ ordinal ∧ ordinal ≤ 3652059 then
    let n := (ordinal - 1).toNat
    let n400 := n / 146097
    let n100 := n % 146097 / 36524
    let n4 := n % 146097 % 36524 / 1461
    let n1 := n % 146097 % 36524 % 1461 / 365
    let rest := n % 146097 % 36524 % 1461 % 365
    let year := n400 * 400 + n100 * 100 + n4 * 4 + n1 + 1
    if n1 = 4 ∨ n100 = 4 then of? (year - 1) 12 31
    else
      let guess := (rest + 50) / 32
      let month := if daysBeforeMonth year guess > rest then guess - 1 else guess
      of? year month (rest - daysBeforeMonth year month + 1)
  else none

/-- `date + timedelta(days)`. -/
def plusDays (date : Date) (days : Int) : Option Date :=
  ofOrdinal? (date.toOrdinal + days)

/-- `date.isoformat`. -/
def isoformat (date : Date) : Str :=
  digits 10 4 date.year ++ '-' :: (twoDigits date.month ++ '-' :: twoDigits date.day)

/-- `f"{date:%d.%m.%Y}"`. -/
def german (date : Date) : Str :=
  twoDigits date.day ++ '.' :: (twoDigits date.month ++ '.' :: decimal date.year)

/-- `_isoweek1monday`: the ordinal of the Monday that starts ISO week 1. -/
def isoWeekOneMonday (year : Nat) : Int :=
  let firstDay : Int := daysBeforeYear year + 1
  let firstWeekday := (firstDay + 6) % 7
  if firstWeekday > 3 then firstDay - firstWeekday + 7 else firstDay - firstWeekday

/-- `date.isocalendar()[:2]`: the ISO year and week. -/
def isoWeek (date : Date) : Nat × Nat :=
  let today : Int := date.toOrdinal
  let week := (today - isoWeekOneMonday date.year) / 7
  if week < 0 then
    (date.year - 1, ((today - isoWeekOneMonday (date.year - 1)) / 7 + 1).toNat)
  else if week ≥ 52 ∧ today ≥ isoWeekOneMonday (date.year + 1) then (date.year + 1, 1)
  else (date.year, (week + 1).toNat)

/-- `date1 <= date2`. -/
instance : LE Date where
  le first second := first.toOrdinal ≤ second.toOrdinal

instance : LT Date where
  lt first second := first.toOrdinal < second.toOrdinal

instance (first second : Date) : Decidable (first < second) :=
  inferInstanceAs (Decidable (first.toOrdinal < second.toOrdinal))

/-! ### `date.fromisoformat` -/

/-- A run of exactly `count` ASCII digits and what follows it. -/
def parseDigits : (count : Nat) → (value : Nat) → Str → Option (Nat × Str)
  | 0, value, rest => some (value, rest)
  | count + 1, value, c :: rest =>
      if '0' ≤ c ∧ c ≤ '9' then parseDigits count (value * 10 + (c.toNat - 48)) rest else none
  | _ + 1, _, [] => none

/-- Drop a dash where the year was followed by one. -/
def separator (used : Bool) : Str → Option Str
  | '-' :: rest => if used then some rest else some ('-' :: rest)
  | rest => if used then none else some rest

/-- The date of an ISO year, week and weekday. -/
def ofIsoWeek? (year week day : Nat) : Option Date :=
  let firstWeekday := ((daysBeforeYear year : Int) + 7) % 7
  if year < 1 ∨ 9999 < year then none
  else if week = 0 ∨ 53 < week then none
  else if week = 53 ∧ ¬ (firstWeekday = 3 ∨ firstWeekday = 2 ∧ isLeap year) then none
  else if day = 0 ∨ 7 < day then none
  else ofOrdinal? (isoWeekOneMonday year + ((week : Int) - 1) * 7 + ((day : Int) - 1))

/-- `date.fromisoformat` of Python 3.11, `none` where it raises `ValueError`: the
calendar and the ISO-week forms, each with or without dashes. As in the `datetime`
module the length is checked in UTF-8 bytes and nothing is required of what
follows a complete date. -/
def fromIsoFormat (text : Str) : Option Date := do
  let length := (text.map Char.utf8Size).sum
  guard (length = 7 ∨ length = 8 ∨ length = 10)
  let (year, afterYear) ← parseDigits 4 0 text
  let dashed := afterYear.head? = some '-'
  let rest ← separator dashed afterYear
  match rest with
  | 'W' :: week => do
      let (week, afterWeek) ← parseDigits 2 0 week
      if afterWeek.isEmpty then ofIsoWeek? year week 1
      else do
        let rest ← separator dashed afterWeek
        let (day, _) ← parseDigits 1 0 rest
        ofIsoWeek? year week day
  | rest => do
      let (month, afterMonth) ← parseDigits 2 0 rest
      let rest ← separator dashed afterMonth
      let (day, _) ← parseDigits 2 0 rest
      of? year month day

end Date

/-! ### Month arithmetic and obligation constructors -/

/-- `add_months`: shift by whole months, clamping to the last valid day. -/
def addMonths (sourceDate : Date) (months : Int) : Option Date :=
  let total : Int := (sourceDate.month : Int) - 1 + months
  let year : Int := sourceDate.year + total / 12
  let month : Nat := (total % 12).toNat + 1
  if 1 ≤ year then
    Date.of? year.toNat month (min sourceDate.day (daysInMonth year.toNat month))
  else none

/-- `last_day_of_month`. -/
def lastDayOfMonth (d : Date) : Option Date :=
  Date.of? d.year d.month (daysInMonth d.year d.month)

/-- `next_fsk_due`. -/
def nextFskDue (lastCheck : Date) (intervalMonths : Int) : Option Date :=
  addMonths lastCheck intervalMonths

/-- The default `interval_months` of `next_fsk_due` and `first_fsk_due`. -/
def fskIntervalMonths : Int := 6

/-- `next_uvv_due`. -/
def nextUvvDue (lastInspection : Date) : Option Date :=
  addMonths lastInspection 12

/-- `next_hu_due`. -/
def nextHuDue (inspectedOn : Date) (intervalMonths : Int) : Option Date :=
  (addMonths inspectedOn intervalMonths).bind lastDayOfMonth

/-- `first_hu_due`. -/
def firstHuDue (firstRegistration : Date) (firstIntervalMonths : Int) : Option Date :=
  (addMonths firstRegistration firstIntervalMonths).bind lastDayOfMonth

/-- The default `first_interval_months` of `first_hu_due`. -/
def firstHuIntervalMonths : Int := 36

/-- `first_uvv_due`. -/
def firstUvvDue (inServiceOn : Date) : Option Date :=
  addMonths inServiceOn 12

/-- `first_fsk_due`. -/
def firstFskDue (hiredOn : Date) (intervalMonths : Int) : Option Date :=
  addMonths hiredOn intervalMonths

/-- `days_forward`. -/
def daysForward (anchor : Date) (days : Int) : Option Date :=
  anchor.plusDays days

/-- `days_until`. -/
def daysUntil (due today : Date) : Int :=
  due.toOrdinal - today.toOrdinal

/-! ### Instants and the Berlin zone -/

/-- An aware `datetime`, as microseconds on the UTC line since 1970. -/
abbrev Instant := Int

/-- The ordinal of 1970-01-01. -/
def epochOrdinal : Int := 719163

/-- Microseconds of a second and of a day. -/
def microsPerSecond : Int := 1000000

def microsPerDay : Int := 86400 * microsPerSecond

/-- The ordinal of the last Sunday of a month. -/
def lastSunday (year month : Nat) : Int :=
  let last : Int := Date.daysBeforeYear year + Date.daysBeforeMonth year month +
    daysInMonth year month
  last - last % 7

/-- 01:00 UTC on the last Sunday of a month. -/
def euTransition (year month : Nat) : Instant :=
  (lastSunday year month - epochOrdinal) * microsPerDay + 3600 * microsPerSecond

/-- The year of a point on a microsecond line that starts in 1970. -/
def yearOf (micros : Int) : Nat :=
  match Date.ofOrdinal? (micros / microsPerDay + epochOrdinal) with
  | some date => date.year
  | none => 1

/-- The UTC offset in Berlin at an instant, in microseconds: the rule of the EU since 1996,
taken for all years; `zoneinfo` has other changes in the years before. -/
def berlinOffset (t : Instant) : Int :=
  let year := yearOf t
  if euTransition year 3 ≤ t ∧ t < euTransition year 10 then 7200 * microsPerSecond
  else 3600 * microsPerSecond

/-- The UTC offset `zoneinfo` gives to a Berlin wall time with `fold=0`: the offset
before the change in the skipped hour, the first of the two in the repeated one. -/
def berlinOffsetOfWall (wall : Int) : Int :=
  let year := yearOf wall
  if euTransition year 3 + 7200 * microsPerSecond ≤ wall ∧
      wall < euTransition year 10 + 7200 * microsPerSecond then 7200 * microsPerSecond
  else 3600 * microsPerSecond

/-- The Berlin wall time of an instant. -/
def wallOf (t : Instant) : Int :=
  t + berlinOffset t

/-- The instant of a Berlin wall time with `fold=0`. -/
def instantOfWall (wall : Int) : Instant :=
  wall - berlinOffsetOfWall wall

/-- `t.astimezone(BERLIN).date()`. -/
def berlinDate (t : Instant) : Option Date :=
  Date.ofOrdinal? (wallOf t / microsPerDay + epochOrdinal)

/-- `datetime.combine(day, time(seconds), tzinfo=BERLIN)`. -/
def berlinAt (day : Date) (secondOfDay : Int) : Instant :=
  instantOfWall
    (((day.toOrdinal : Int) - epochOrdinal) * microsPerDay + secondOfDay * microsPerSecond)

/-- `t + timedelta(seconds=…)` on an aware Berlin `datetime`: wall-clock time. -/
def plusSeconds (t : Instant) (seconds : Int) : Instant :=
  instantOfWall (wallOf t + seconds * microsPerSecond)

/-- `escalation_deadline`: 23:59:59 Berlin time on the `days`-th civil day after the
opening. -/
def escalationDeadline (openedAt : Instant) (days : Int) : Option Instant := do
  let localDay ← berlinDate openedAt
  let endDay ← localDay.plusDays days
  return berlinAt endDay 86399

/-- `instant_months_ago`: the start of the civil day `months` months before today. -/
def instantMonthsAgo (today : Date) (months : Int) : Option Instant :=
  (addMonths today (-months)).map fun cutoffDay => berlinAt cutoffDay 0

/-- `f"{t:%d.%m.%Y}"` of an instant in Berlin. -/
def germanDay (t : Instant) : Str :=
  (berlinDate t).elim [] Date.german

example : addMonths ⟨2023, 8, 31, by decide⟩ 6 = some ⟨2024, 2, 29, by decide⟩ := by decide

example : (Date.mk 2024 12 30 (by decide)).isoWeek = (2025, 1) := by decide

/-- Opened on a Wednesday before the spring change, due a Wednesday after it. -/
example :
    escalationDeadline (berlinAt ⟨2026, 3, 25, by decide⟩ (14 * 3600)) 7 =
      some (berlinAt ⟨2026, 4, 1, by decide⟩ 86399) := by
  decide

end Fristenwaechter
