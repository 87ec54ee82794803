import JobQueue.Time.Calendar
import Mathlib.Tactic.ByContra
import Mathlib.Tactic.SplitIfs

/-!
# Dates and their place on the time line

A year has the days of its twelve months, the next one starts when they are over, and so dates that
exist are ordered as their seconds are: by the year, then the month, the day and the time of day.
Splitting a number of seconds finds the one date and time of day that it is the place of.
-/

namespace JobQueue.Calendar

/-! ## 1. Years -/

/-- The next year starts when the days of this one are over. -/
theorem daysBeforeYear_succ (year : Nat) :
    daysBeforeYear (year + 1) = daysBeforeYear year + daysInYear year := by
  cases year with
  | zero => rfl
  | succ y =>
    -- the three quotients grow exactly where the leap rule looks for a multiple
    have h4 := Nat.succ_div (a := y) (b := 4)
    have h100 := Nat.succ_div (a := y) (b := 100)
    have h400 := Nat.succ_div (a := y) (b := 400)
    have hle : y / 100 ≤ y / 4 := Nat.div_le_div_left (by decide) (by decide)
    have h25 : (y + 1) % 100 = 0 → (y + 1) % 4 = 0 := by omega
    have h16 : (y + 1) % 400 = 0 → (y + 1) % 100 = 0 := by omega
    simp only [Nat.dvd_iff_mod_eq_zero] at h4 h100 h400
    simp only [daysBeforeYear, daysInYear, isLeap, Bool.and_eq_true, Bool.or_eq_true, beq_iff_eq,
      bne_iff_ne, h4, h100, h400]
    generalize (y + 1) % 4 = r4 at *
    generalize (y + 1) % 100 = r100 at *
    generalize (y + 1) % 400 = r400 at *
    generalize y / 4 = q4 at *
    generalize y / 100 = q100 at *
    split_ifs <;> omega

theorem daysBeforeYear_le {y y' : Nat} (h : y ≤ y') : daysBeforeYear y ≤ daysBeforeYear y' := by
  induction h with
  | refl => exact Nat.le_refl _
  | @step z _ ih =>
    rw [daysBeforeYear_succ]
    omega

/-- A year that is over does not reach into a later one. -/
theorem yearEnd_le {y y' : Nat} (h : y < y') :
    daysBeforeYear y + daysInYear y ≤ daysBeforeYear y' := by
  rw [← daysBeforeYear_succ]
  exact daysBeforeYear_le h

/-! ## 2. Months -/

theorem daysBeforeMonth_succ {month : Nat} (h : 1 ≤ month) (year : Nat) :
    daysBeforeMonth year (month + 1) = daysBeforeMonth year month + daysInMonth year month := by
  cases month with
  | zero => omega
  | succ m => rfl

/-- Twelve months make a year. -/
theorem daysBeforeMonth_thirteen (year : Nat) : daysBeforeMonth year 13 = daysInYear year := by
  simp only [daysBeforeMonth, daysInMonth, daysInYear]
  cases isLeap year <;> rfl

/-- A month that is over does not reach into a later one. -/
theorem monthEnd_le {year m m' : Nat} (hm : 1 ≤ m) (h : m < m') :
    daysBeforeMonth year m + daysInMonth year m ≤ daysBeforeMonth year m' := by
  rw [← daysBeforeMonth_succ hm]
  induction h with
  | refl => exact Nat.le_refl _
  | @step k hk ih =>
    have hk : m + 1 ≤ k := hk
    rw [daysBeforeMonth_succ (by omega : 1 ≤ k)]
    omega

/-! ## 3. Dates that exist -/

/-- A date of the calendar and a time of day. -/
structure DateTime.Valid (d : DateTime) : Prop where
  month_pos : 1 ≤ d.month
  month_le : d.month ≤ 12
  day_pos : 1 ≤ d.day
  day_le : d.day ≤ daysInMonth d.year d.month
  hour_lt : d.hour < 24
  minute_lt : d.minute < 60
  second_lt : d.second < 60

/-- Seconds since midnight. -/
def DateTime.timeOfDay (d : DateTime) : Nat := d.hour * 3600 + d.minute * 60 + d.second

variable {d e : DateTime}

theorem DateTime.seconds_eq (d : DateTime) :
    d.seconds = ((dayNumber d.year d.month d.day : Int) - epochDay) * 86400 + d.timeOfDay := by
  unfold seconds timeOfDay
  omega

theorem DateTime.Valid.timeOfDay_lt (hd : d.Valid) : d.timeOfDay < 86400 := by
  have hhour := hd.hour_lt
  have hminute := hd.minute_lt
  have hsecond := hd.second_lt
  unfold timeOfDay
  omega

/-- The days of a year that come before a date of that year. -/
theorem DateTime.Valid.dayOfYear_lt (hd : d.Valid) :
    daysBeforeMonth d.year d.month + (d.day - 1) < daysInYear d.year := by
  have hday := hd.day_pos
  have hle := hd.day_le
  have hmonth := hd.month_le
  have hend : daysBeforeMonth d.year d.month + daysInMonth d.year d.month ≤
      daysBeforeMonth d.year 13 := monthEnd_le hd.month_pos (by omega)
  rw [daysBeforeMonth_thirteen] at hend
  omega

/-- A time of day does not carry over to the next day. -/
theorem seconds_lt_of_dayNumber_lt (hd : d.Valid)
    (h : dayNumber d.year d.month d.day < dayNumber e.year e.month e.day) :
    d.seconds < e.seconds := by
  have htime := hd.timeOfDay_lt
  rw [d.seconds_eq, e.seconds_eq]
  omega

theorem seconds_lt_of_year_lt (hd : d.Valid) (h : d.year < e.year) : d.seconds < e.seconds := by
  apply seconds_lt_of_dayNumber_lt hd
  have hday := hd.dayOfYear_lt
  have hyear := yearEnd_le h
  unfold dayNumber
  omega

theorem seconds_lt_of_month_lt (hd : d.Valid) (hyear : d.year = e.year) (h : d.month < e.month) :
    d.seconds < e.seconds := by
  apply seconds_lt_of_dayNumber_lt hd
  have hday := hd.day_pos
  have hle := hd.day_le
  have hmonth : daysBeforeMonth d.year d.month + daysInMonth d.year d.month ≤
      daysBeforeMonth d.year e.month := monthEnd_le hd.month_pos h
  unfold dayNumber
  rw [← hyear]
  omega

theorem seconds_lt_of_day_lt (hd : d.Valid) (hyear : d.year = e.year) (hmonth : d.month = e.month)
    (h : d.day < e.day) : d.seconds < e.seconds := by
  apply seconds_lt_of_dayNumber_lt hd
  have hday := hd.day_pos
  unfold dayNumber
  rw [← hyear, ← hmonth]
  omega

theorem seconds_le_iff_of_same_day (hyear : d.year = e.year) (hmonth : d.month = e.month)
    (hday : d.day = e.day) : d.seconds ≤ e.seconds ↔ d.timeOfDay ≤ e.timeOfDay := by
  rw [d.seconds_eq, e.seconds_eq, hyear, hmonth, hday]
  omega

/-- Dates that exist are ordered by the year, then the month, the day and the time of day. -/
theorem seconds_le_iff (hd : d.Valid) (he : e.Valid) :
    d.seconds ≤ e.seconds ↔ d.year < e.year ∨ d.year = e.year ∧ (d.month < e.month ∨
      d.month = e.month ∧ (d.day < e.day ∨ d.day = e.day ∧ d.timeOfDay ≤ e.timeOfDay)) := by
  rcases Nat.lt_trichotomy d.year e.year with hyear | hyear | hyear
  · have hlt := seconds_lt_of_year_lt hd hyear
    omega
  · rcases Nat.lt_trichotomy d.month e.month with hmonth | hmonth | hmonth
    · have hlt := seconds_lt_of_month_lt hd hyear hmonth
      omega
    · rcases Nat.lt_trichotomy d.day e.day with hday | hday | hday
      · have hlt := seconds_lt_of_day_lt hd hyear hmonth hday
        omega
      · have hsame := seconds_le_iff_of_same_day hyear hmonth hday
        omega
      · have hlt := seconds_lt_of_day_lt he hyear.symm hmonth.symm hday
        omega
    · have hlt := seconds_lt_of_month_lt he hyear.symm hmonth
      omega
  · have hlt := seconds_lt_of_year_lt he hyear
    omega

/-- No two dates and times have the same place. -/
theorem eq_of_seconds_eq (hd : d.Valid) (he : e.Valid) (h : d.seconds = e.seconds) : d = e := by
  have hle := (seconds_le_iff hd he).1 (by omega)
  have hge := (seconds_le_iff he hd).1 (by omega)
  have hd₁ := hd.minute_lt
  have hd₂ := hd.second_lt
  have he₁ := he.minute_lt
  have he₂ := he.second_lt
  have htime : d.year = e.year ∧ d.month = e.month ∧ d.day = e.day ∧
      d.timeOfDay = e.timeOfDay := by omega
  obtain ⟨hyear, hmonth, hday, htime⟩ := htime
  unfold DateTime.timeOfDay at htime
  have hclock : d.hour = e.hour ∧ d.minute = e.minute ∧ d.second = e.second := by omega
  obtain ⟨hhour, hminute, hsecond⟩ := hclock
  cases d
  cases e
  simp only [DateTime.mk.injEq]
  exact ⟨hyear, hmonth, hday, hhour, hminute, hsecond⟩

/-! ## 4. Splitting a number of seconds -/

/-- The years are gone through until one has not ended before the day. -/
theorem settleYear_spec {day fuel year : Nat} (hle : daysBeforeYear year ≤ day)
    (hlt : day < daysBeforeYear (year + fuel + 1)) :
    ∃ y, yearOfDay.settle day fuel year = (y, day - daysBeforeYear y) ∧
      daysBeforeYear y ≤ day ∧ day < daysBeforeYear (y + 1) := by
  induction fuel generalizing year with
  | zero => exact ⟨year, rfl, hle, hlt⟩
  | succ fuel ih =>
    rw [yearOfDay.settle]
    by_cases h : day < daysBeforeYear (year + 1)
    · rw [if_pos h]
      exact ⟨year, rfl, hle, h⟩
    · rw [if_neg h]
      apply ih (by omega)
      rwa [show year + 1 + fuel + 1 = year + (fuel + 1) + 1 by omega]

/-- A day falls in a year that has begun and has not ended. -/
theorem yearOfDay_spec (day : Nat) :
    ∃ y, yearOfDay day = (y, day - daysBeforeYear y) ∧
      daysBeforeYear y ≤ day ∧ day < daysBeforeYear (y + 1) := by
  apply settleYear_spec
  · cases h : day / 366 with
    | zero => exact Nat.zero_le _
    | succ y =>
      simp only [daysBeforeYear]
      omega
  -- years of 366 days fall behind by less than one in 400 years
  · simp only [daysBeforeYear]
    omega

theorem settleMonth_spec {year fuel month rest : Nat} (hmonth : 1 ≤ month)
    (hlt : daysBeforeMonth year month + rest < daysBeforeMonth year (month + fuel + 1)) :
    ∃ m day, monthOfDay.settle year fuel month rest = (m, day) ∧ month ≤ m ∧ m ≤ month + fuel ∧
      1 ≤ day ∧ day ≤ daysInMonth year m ∧
      daysBeforeMonth year m + (day - 1) = daysBeforeMonth year month + rest := by
  induction fuel generalizing month rest with
  | zero =>
    rw [Nat.add_zero, daysBeforeMonth_succ hmonth] at hlt
    exact ⟨month, rest + 1, rfl, by omega⟩
  | succ fuel ih =>
    rw [monthOfDay.settle]
    by_cases h : rest < daysInMonth year month
    · rw [if_pos h]
      exact ⟨month, rest + 1, rfl, by omega⟩
    · rw [if_neg h]
      have hnext := daysBeforeMonth_succ hmonth year
      have hleft : daysBeforeMonth year (month + 1) + (rest - daysInMonth year month) <
          daysBeforeMonth year (month + 1 + fuel + 1) := by
        rw [hnext, show month + 1 + fuel + 1 = month + (fuel + 1) + 1 by omega]
        omega
      obtain ⟨m, day, heq, hm, hle, hday⟩ := ih (by omega : 1 ≤ month + 1) hleft
      exact ⟨m, day, heq, by omega⟩

/-- A day of a year falls in one of its months. -/
theorem monthOfDay_spec {year dayOfYear : Nat} (h : dayOfYear < daysInYear year) :
    ∃ m day, monthOfDay year dayOfYear = (m, day) ∧ 1 ≤ m ∧ m ≤ 12 ∧ 1 ≤ day ∧
      day ≤ daysInMonth year m ∧ daysBeforeMonth year m + (day - 1) = dayOfYear := by
  have hlt : daysBeforeMonth year 1 + dayOfYear < daysBeforeMonth year (1 + 11 + 1) := by
    rw [daysBeforeMonth_thirteen]
    show 0 + dayOfYear < _
    omega
  obtain ⟨m, day, heq, hm, hle, hday, hmonth, hplace⟩ := settleMonth_spec (Nat.le_refl 1) hlt
  have hfirst : daysBeforeMonth year 1 = 0 := rfl
  exact ⟨m, day, heq, hm, by omega, hday, hmonth, by omega⟩

theorem DateTime.seconds_ge (d : DateTime) : 0 ≤ d.seconds + epochDay * 86400 := by
  rw [d.seconds_eq]
  omega

/-- Every number of seconds from year zero on is the place of a date that exists. -/
theorem exists_ofSeconds? {seconds : Int} (h : 0 ≤ seconds + epochDay * 86400) :
    ∃ d, DateTime.ofSeconds? seconds = some d ∧ d.Valid ∧ d.seconds = seconds := by
  unfold DateTime.ofSeconds?
  simp only [if_neg (by omega : ¬ seconds + epochDay * 86400 < 0)]
  generalize hn : (seconds + epochDay * 86400).toNat = n
  obtain ⟨year, hyear, hbegun, hend⟩ := yearOfDay_spec (n / 86400)
  rw [daysBeforeYear_succ] at hend
  obtain ⟨month, day, hmonth, h₁, h₂, h₃, h₄, hplace⟩ :=
    monthOfDay_spec (by omega : n / 86400 - daysBeforeYear year < daysInYear year)
  simp only [hyear, hmonth]
  refine ⟨_, rfl, ⟨h₁, h₂, h₃, h₄, ?_, ?_, ?_⟩, ?_⟩
  · show n % 86400 / 3600 < 24
    omega
  · show n % 86400 % 3600 / 60 < 60
    omega
  · show n % 86400 % 60 < 60
    omega
  · simp only [DateTime.seconds, dayNumber]
    omega

theorem DateTime.ofSeconds?_eq_some_iff {seconds : Int} :
    DateTime.ofSeconds? seconds = some d ↔ d.Valid ∧ d.seconds = seconds := by
  constructor
  · intro h
    have hstart : 0 ≤ seconds + epochDay * 86400 := by
      by_contra hneg
      simp [ofSeconds?, show seconds + epochDay * 86400 < 0 by omega] at h
    obtain ⟨e, he, hvalid, hplace⟩ := exists_ofSeconds? hstart
    rw [h] at he
    cases he
    exact ⟨hvalid, hplace⟩
  · rintro ⟨hd, rfl⟩
    obtain ⟨e, he, hvalid, hplace⟩ := exists_ofSeconds? d.seconds_ge
    rw [he, eq_of_seconds_eq hvalid hd hplace]

end JobQueue.Calendar
