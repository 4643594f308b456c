import Mathlib

/-! Unix time in a zone with a fixed offset, with the calendar of Go's `time` package.
Days are counted from 1970-01-01. A date with an overflowing month or day is
normalised, and durations are signed 64-bit nanosecond counts that wrap around. -/
namespace CalendarTime

def secondsPerDay : ℤ := 86400

def nanosPerSecond : ℤ := 1000000000

/-- The value a signed 64-bit integer keeps of an exact result. -/
def wrap64 (x : ℤ) : ℤ := (x + 2 ^ 63) % 2 ^ 64 - 2 ^ 63

structure Civil where
  year : ℤ
  month : ℤ
  day : ℤ
  deriving DecidableEq

/-- Years are taken from March on, so that the leap day is the last day of its year. -/
def civilOfDays (days : ℤ) : Civil :=
  let z := days + 719468
  let era := z / 146097
  let doe := z % 146097
  let yoe := (doe - doe / 1460 + doe / 36524 - doe / 146096) / 365
  let doy := doe - (365 * yoe + yoe / 4 - yoe / 100)
  let mp := (5 * doy + 2) / 153
  let month := if mp < 10 then mp + 3 else mp - 9
  { year := yoe + era * 400 + (if month ≤ 2 then 1 else 0)
    month := month
    day := doy - (153 * mp + 2) / 5 + 1 }

/-- `month` is any integer: December of one year plus one is January of the next. -/
def daysOfDate (year month day : ℤ) : ℤ :=
  let m := (month - 1) % 12 + 1
  let y := year + (month - 1) / 12 - (if m ≤ 2 then 1 else 0)
  let mp := if m ≤ 2 then m + 9 else m - 3
  let yoe := y % 400
  let doe := yoe * 365 + yoe / 4 - yoe / 100 + (153 * mp + 2) / 5 + (day - 1)
  y / 400 * 146097 + doe - 719468

def localDays (zone unix : ℤ) : ℤ := (unix + zone) / secondsPerDay

def localClock (zone unix : ℤ) : ℤ := (unix + zone) % secondsPerDay

def unixOfLocal (zone days clock : ℤ) : ℤ := days * secondsPerDay + clock - zone

/-- Sunday is 0. -/
def weekday (zone unix : ℤ) : ℤ := (localDays zone unix + 4) % 7

/-- `time.Date(y, m, d, 0, 0, 0, 0, loc)` of the date fields of `unix`. -/
def startOfDay (zone unix : ℤ) : ℤ := unixOfLocal zone (localDays zone unix) 0

def startOfMonth (zone unix : ℤ) : ℤ :=
  let c := civilOfDays (localDays zone unix)
  unixOfLocal zone (daysOfDate c.year c.month 1) 0

def addDate (zone unix years months days : ℤ) : ℤ :=
  let c := civilOfDays (localDays zone unix)
  unixOfLocal zone (daysOfDate (c.year + years) (c.month + months) (c.day + days))
    (localClock zone unix)

/-- `t.Add(d).Unix()` for a time on a whole second and a duration in nanoseconds. -/
def addDuration (unix d : ℤ) : ℤ := (unix * nanosPerSecond + d) / nanosPerSecond

/-- The duration of a number of units of `unit` seconds each. -/
def durationOf (count unit : ℤ) : ℤ := wrap64 (count * (unit * nanosPerSecond))

example : civilOfDays 19782 = ⟨2024, 2, 29⟩ := by decide

example : daysOfDate 2024 2 30 = daysOfDate 2024 3 1 := by decide

end CalendarTime
