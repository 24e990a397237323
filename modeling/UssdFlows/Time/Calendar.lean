/-!
# The calendar

Days are counted from the first of January of the year one, by the leap-year
rule of today in all years.
-/

namespace UssdFlows.Calendar

/-- Whether a year has a leap day. -/
def isLeap (year : Nat) : Bool := year % 4 == 0 && (year % 100 != 0 || year % 400 == 0)

/-- The number of days of a month. -/
def daysIn (year month : Nat) : Nat :=
  if month = 2 then (if isLeap year then 29 else 28)
  else if [4, 6, 9, 11].contains month then 30
  else 31

/-- The days of the years before a year. -/
def daysBeforeYear (year : Nat) : Nat :=
  let y := year - 1
  365 * y + y / 4 - y / 100 + y / 400

/-- The days of a year before one of its months. -/
def daysBeforeMonth (year month : Nat) : Nat :=
  ((List.range (month - 1)).map fun m => daysIn year (m + 1)).foldl Nat.add 0

/-- The number of a day. -/
def dayNumber (year month day : Nat) : Nat :=
  daysBeforeYear year + daysBeforeMonth year month + (day - 1)

/-- The month and the day of the month of a day of the year, counted from zero;
`months` are the months from `month` on. -/
def monthAndDay (year : Nat) : (months : List Nat) → (day : Nat) → Nat × Nat
  | [], day => (12, day + 1)
  | m :: rest, day =>
    if day < daysIn year m then (m, day + 1) else monthAndDay year rest (day - daysIn year m)

/-- The year that the day with a number lies in.  The day is counted in cycles
of four hundred years, of one hundred, of four, and of one. -/
def yearOf (day : Nat) : Nat :=
  let cycle := day % 146097
  let century := min (cycle / 36524) 3
  let inCentury := cycle - century * 36524
  let leap := inCentury / 1461
  let single := min (inCentury % 1461 / 365) 3
  400 * (day / 146097) + 100 * century + 4 * leap + single + 1

/-- Year, month and day of the day with a number. -/
def ofDayNumber (day : Nat) : Nat × Nat × Nat :=
  let year := yearOf day
  let (month, dayOfMonth) :=
    monthAndDay year [1, 2, 3, 4, 5, 6, 7, 8, 9, 10, 11, 12] (day - daysBeforeYear year)
  (year, month, dayOfMonth)

example : dayNumber 2024 1 1 = 738885 := by decide +kernel

example : ofDayNumber 738885 = (2024, 1, 1) := by decide +kernel

example : ofDayNumber (dayNumber 2000 12 31) = (2000, 12, 31) := by decide +kernel

example : ofDayNumber (dayNumber 9999 12 31) = (9999, 12, 31) := by decide +kernel

end UssdFlows.Calendar
