import JobQueue.Cron.Field
import JobQueue.Time.Calendar

/-!
# Cron schedules

A schedule holds, for each unit of time, the values that an occurrence may have. It is read from six
or seven fields, or from a keyword, and it answers what its first occurrence after an instant is.
-/

namespace JobQueue.Cron

open Calendar (DateTime)

/-- The values an occurrence may have, each list in increasing order. -/
structure Schedule where
  seconds : List Nat
  minutes : List Nat
  hours : List Nat
  days : List Nat
  months : List Nat
  weekdays : List Nat
  years : List Nat
deriving DecidableEq, Repr

/-! ## Reading -/

/-- The schedules that have a keyword. -/
def keywords : List (String × Schedule) :=
  let hourly : Schedule := {
    seconds := [0]
    minutes := [0]
    hours := Unit.hour.values
    days := Unit.dayOfMonth.values
    months := Unit.month.values
    weekdays := Unit.dayOfWeek.values
    years := Unit.year.values }
  let daily := { hourly with hours := [0] }
  [("@yearly", { daily with days := [1], months := [1] }),
   ("@monthly", { daily with days := [1] }),
   ("@weekly", { daily with weekdays := [1] }),
   ("@daily", daily),
   ("@hourly", hourly)]

/-- A keyword, with the blanks around it. -/
def readKeyword (cs : List Char) : Option (Schedule × List Char) :=
  let cs := skipBlanks cs
  keywords.findSome? fun (word, schedule) =>
    if word.toList.isPrefixOf cs then some (schedule, skipBlanks (cs.drop word.length)) else none

/-- Six fields and, if one can be read, a seventh for the years. -/
def readFields (cs : List Char) : Option (Schedule × List Char) := do
  let (seconds, cs) ← readValues .second false cs
  let (minutes, cs) ← readValues .minute false cs
  let (hours, cs) ← readValues .hour false cs
  let (days, cs) ← readValues .dayOfMonth true cs
  let (months, cs) ← readValues .month false cs
  let (weekdays, cs) ← readValues .dayOfWeek true cs
  let (years, cs) := (readValues .year false cs).getD (Unit.year.values, cs)
  if cs.isEmpty then some ({ seconds, minutes, hours, days, months, weekdays, years }, cs)
  else none

/-- The schedule of an expression, if it is one. -/
def Schedule.ofText? (expression : String) : Option Schedule := do
  let cs := expression.toList
  let (schedule, rest) ← readKeyword cs <|> readFields cs
  if rest.isEmpty then some schedule else none

/-- What is wrong with an expression that has no schedule. -/
def invalidExpression : String := "Invalid expression: Invalid cron expression."

/-! ## Occurrences -/

/-- Whether the schedule has an occurrence at this date and time of day. -/
def Schedule.admits (s : Schedule) (d : DateTime) : Bool :=
  s.seconds.contains d.second && s.minutes.contains d.minute && s.hours.contains d.hour
    && s.days.contains d.day && d.day ≤ Calendar.daysInMonth d.year d.month
    && s.months.contains d.month
    && s.weekdays.contains (Calendar.weekday d.year d.month d.day) && s.years.contains d.year

/-- The values that are at least a bound, if there is one. -/
def fromBound (values : List Nat) : Option Nat → List Nat
  | none => values
  | some low => values.filter (low ≤ ·)

/-- The first time of day that is not before the bound. -/
def Schedule.firstTime? (s : Schedule) (bound : Option (Nat × Nat × Nat)) :
    Option (Nat × Nat × Nat) :=
  (fromBound s.hours (bound.map (·.1))).findSome? fun h =>
    let bound := bound.bind fun (h', rest) => if h = h' then some rest else none
    (fromBound s.minutes (bound.map (·.1))).findSome? fun m =>
      let bound := bound.bind fun (m', rest) => if m = m' then some rest else none
      (fromBound s.seconds bound).head?.map fun second => (h, m, second)

/-- The first occurrence in a month, from a day and a time of day on if there is such a bound. The
day of the bound is moved to the end of a month that is too short for it, and the time of day only
holds on that day, and only if the schedule has the day of the bound itself. -/
def Schedule.firstInMonth? (s : Schedule) (year month : Nat) (bound : Option DateTime) :
    Option DateTime :=
  let length := Calendar.daysInMonth year month
  let start := bound.map fun b => min b.day length
  let days := (fromBound s.days start).filter fun day =>
    day ≤ length && s.weekdays.contains (Calendar.weekday year month day)
  days.findSome? fun day =>
    let time := bound.bind fun b =>
      if day = min b.day length ∧ s.days.contains b.day then some (b.hour, b.minute, b.second)
      else none
    (s.firstTime? time).map fun (hour, minute, second) => { year, month, day, hour, minute, second }

/-- The first occurrence in a year, from a month on if there is such a bound. The rest of the bound
only holds in that month. -/
def Schedule.firstInYear? (s : Schedule) (year : Nat) (bound : Option DateTime) : Option DateTime :=
  (fromBound s.months (bound.map (·.month))).findSome? fun month =>
    s.firstInMonth? year month (bound.filter (·.month = month))

/-- The first occurrence in the year of `start` or later. What `start` says of the month, the day
and the time of day bounds the occurrences in the first year that the schedule has, be it the year
of `start` or a later one, and no other year. -/
def Schedule.firstFrom? (s : Schedule) (start : DateTime) : Option DateTime :=
  match fromBound s.years (some start.year) with
  | [] => none
  | year :: later =>
    s.firstInYear? year (some start) <|> later.findSome? fun year => s.firstInYear? year none

/-- What asking for the next occurrence comes to. -/
inductive Next
  | at (t : Instant)
  | never
  /-- The instant asked about is within a second of the end of the calendar. -/
  | overflow
deriving DecidableEq

/-- One second. -/
def oneSecond : Delta := Delta.ofSeconds 1

/-- The first occurrence strictly after `now`, on a whole second. -/
def Schedule.next (s : Schedule) (now : Instant) : Next :=
  match now.add? oneSecond with
  | none => .overflow
  | some start =>
    match (DateTime.ofSeconds? start.seconds).bind s.firstFrom? with
    | none => .never
    | some d =>
      match Instant.ofNanos? (d.seconds * 1000000000) with
      | none => .never
      | some t => .at t

end JobQueue.Cron
