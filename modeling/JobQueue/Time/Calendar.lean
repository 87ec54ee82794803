import JobQueue.Time

/-!
# The civil calendar

Dates of the proleptic Gregorian calendar and their place on the time line: the length of months,
the number of a day counted from 1970-01-01, the day of the week, and the split of a number of
seconds into its date and time of day.
-/

namespace JobQueue.Calendar

def isLeap (year : Nat) : Bool := year % 4 == 0 && (year % 100 != 0 || year % 400 == 0)

/-- The number of days of a month, numbered from 1 to 12. -/
def daysInMonth (year month : Nat) : Nat :=
  if month = 2 then if isLeap year then 29 else 28
  else if month = 4 ∨ month = 6 ∨ month = 9 ∨ month = 11 then 30
  else 31

def daysInYear (year : Nat) : Nat := if isLeap year then 366 else 365

/-- Days of a year before the first day of a month. -/
def daysBeforeMonth (year : Nat) : Nat → Nat
  | 0 => 0
  | 1 => 0
  | month + 1 => daysBeforeMonth year month + daysInMonth year month

/-- Days from the first day of year zero to the first day of `year`. -/
def daysBeforeYear : Nat → Nat
  | 0 => 0
  | year + 1 => 365 * (year + 1) + year / 4 - year / 100 + year / 400 + 1

/-- A date with a time of day, in whole seconds. -/
structure DateTime where
  year : Nat
  month : Nat
  day : Nat
  hour : Nat
  minute : Nat
  second : Nat
deriving DecidableEq, Repr, Inhabited

/-- The number of 1970-01-01 when days are counted from the first day of year zero. -/
def epochDay : Nat := 719528

/-- The number of a date when days are counted from the first day of year zero. -/
def dayNumber (year month day : Nat) : Nat :=
  daysBeforeYear year + daysBeforeMonth year month + (day - 1)

/-- The day of the week, from 1 for Sunday to 7 for Saturday. -/
def weekday (year month day : Nat) : Nat := (dayNumber year month day + 6) % 7 + 1

/-- Seconds since 1970-01-01T00:00:00Z. -/
def DateTime.seconds (d : DateTime) : Int :=
  ((dayNumber d.year d.month d.day : Int) - epochDay) * 86400
    + d.hour * 3600 + d.minute * 60 + d.second

/-- The year that a day falls in, with the number of the day within it, counted from zero. -/
def yearOfDay (day : Nat) : Nat × Nat :=
  let guess := day / 366
  let rec settle : Nat → Nat → Nat × Nat
    | 0, year => (year, day - daysBeforeYear year)
    | fuel + 1, year =>
      if day < daysBeforeYear (year + 1) then (year, day - daysBeforeYear year)
      else settle fuel (year + 1)
  settle (guess / 400 + 2) guess

/-- The month that a day of a year falls in, with the day of the month, both counted from one. -/
def monthOfDay (year : Nat) (dayOfYear : Nat) : Nat × Nat :=
  let rec settle : Nat → Nat → Nat → Nat × Nat
    | 0, month, rest => (month, rest + 1)
    | fuel + 1, month, rest =>
      if rest < daysInMonth year month then (month, rest + 1)
      else settle fuel (month + 1) (rest - daysInMonth year month)
  settle 11 1 dayOfYear

/-- The date and time of day of a number of seconds since 1970-01-01T00:00:00Z. Seconds before
year zero have none. -/
def DateTime.ofSeconds? (seconds : Int) : Option DateTime :=
  let total := seconds + epochDay * 86400
  if total < 0 then none
  else
    let n := total.toNat
    let (year, dayOfYear) := yearOfDay (n / 86400)
    let (month, day) := monthOfDay year dayOfYear
    let rest := n % 86400
    some ⟨year, month, day, rest / 3600, rest % 3600 / 60, rest % 60⟩

end JobQueue.Calendar
