import JobQueue.Proofs.Cron.Field
import JobQueue.Proofs.Time.Calendar

/-!
# The search for an occurrence

The search goes through the years, months, days and times of day of a schedule in turn. In a unit of
time it is bounded by the second that it starts from only as long as all longer units stand where
that second has them, but for one case: the first year that the schedule has is bounded even if it
is a later one. What is found is the first of all dates and times that the search goes through.
-/

namespace JobQueue.Cron

open Calendar (DateTime daysInMonth)

/-! ## 1. First of a kind -/

/-- Whether something is the first that has a property, or nothing has it. -/
def IsFirst {α : Type} (place : α → Int) (P : α → Prop) : Option α → Prop
  | none => ∀ a, ¬ P a
  | some a => P a ∧ ∀ b, P b → place a ≤ place b

section

variable {α β : Type} {place : α → Int} {P Q : α → Prop} {o : Option α}

theorem IsFirst.congr (h : IsFirst place P o) (hiff : ∀ a, Q a ↔ P a) : IsFirst place Q o := by
  cases o with
  | none => exact fun a ha => h a ((hiff a).1 ha)
  | some a => exact ⟨(hiff a).2 h.1, fun b hb => h.2 b ((hiff b).1 hb)⟩

/-- The first of all is found by going through the values of a unit in order, and looking for the
first that has the value. -/
theorem IsFirst.findSome? {values : List Nat} {f : Nat → Option α} (unit : α → Nat)
    (hsorted : values.Pairwise (· < ·)) (hmem : ∀ a, P a → unit a ∈ values)
    (horder : ∀ a b, P a → P b → unit a < unit b → place a ≤ place b)
    (hfirst : ∀ v ∈ values, IsFirst place (fun a => P a ∧ unit a = v) (f v)) :
    IsFirst place P (values.findSome? f) := by
  cases h : values.findSome? f with
  | none =>
    intro a ha
    have hnone := List.findSome?_eq_none_iff.1 h _ (hmem a ha)
    have hv := hfirst _ (hmem a ha)
    rw [hnone] at hv
    exact hv a ⟨ha, rfl⟩
  | some a =>
    obtain ⟨before, v, after, rfl, hv, hbefore⟩ := List.findSome?_eq_some_iff.1 h
    have hfound := hfirst v (by simp)
    rw [hv] at hfound
    obtain ⟨⟨ha, hunit⟩, hleast⟩ := hfound
    refine ⟨ha, fun b hb => ?_⟩
    rcases List.mem_append.1 (hmem b hb) with hmem | hmem
    · have hnone := hfirst _ (List.mem_append_left _ hmem)
      rw [hbefore _ hmem] at hnone
      exact absurd ⟨hb, rfl⟩ (hnone b)
    · rcases List.mem_cons.1 hmem with hsame | hlater
      · exact hleast b ⟨hb, hsame⟩
      · have hlt := (List.pairwise_cons.1 (List.pairwise_append.1 hsorted).2.1).1 _ hlater
        exact horder a b ha hb (hunit ▸ hlt)

theorem IsFirst.map {place' : β → Int} {Q : β → Prop} (g : α → β) (h : IsFirst place P o)
    (hiff : ∀ b, Q b ↔ ∃ a, P a ∧ g a = b) (hplace : ∀ a b, P a → P b → place a ≤ place b →
      place' (g a) ≤ place' (g b)) : IsFirst place' Q (o.map g) := by
  cases o with
  | none =>
    intro b hb
    obtain ⟨a, ha, -⟩ := (hiff b).1 hb
    exact h a ha
  | some a =>
    refine ⟨(hiff _).2 ⟨a, h.1, rfl⟩, fun b hb => ?_⟩
    obtain ⟨c, hc, rfl⟩ := (hiff b).1 hb
    exact hplace a c h.1 hc (h.2 c hc)

end

theorem findSome?_congr {α β : Type} {l : List α} {f g : α → Option β}
    (h : ∀ a ∈ l, f a = g a) : l.findSome? f = l.findSome? g := by
  induction l with
  | nil => rfl
  | cons a l ih =>
    rw [List.findSome?_cons, List.findSome?_cons, h a List.mem_cons_self,
      ih fun b hb => h b (List.mem_cons_of_mem a hb)]

theorem mem_fromBound {values : List Nat} {bound : Option Nat} {v : Nat} :
    v ∈ fromBound values bound ↔ v ∈ values ∧ ∀ low, bound = some low → low ≤ v := by
  cases bound with
  | none => simp [fromBound]
  | some low => simp [fromBound]

theorem fromBound_sorted {values : List Nat} (h : values.Pairwise (· < ·)) (bound : Option Nat) :
    (fromBound values bound).Pairwise (· < ·) := by
  cases bound with
  | none => exact h
  | some low => exact h.filter _

namespace Schedule

variable {s : Schedule} {d e start : DateTime}

/-! ## 2. Dates and times of a schedule -/

theorem admits_iff : s.admits d = true ↔ d.second ∈ s.seconds ∧ d.minute ∈ s.minutes ∧
    d.hour ∈ s.hours ∧ d.day ∈ s.days ∧ d.day ≤ daysInMonth d.year d.month ∧
    d.month ∈ s.months ∧ Calendar.weekday d.year d.month d.day ∈ s.weekdays ∧
    d.year ∈ s.years := by
  simp only [admits, Bool.and_eq_true, List.contains_iff_mem, decide_eq_true_eq, and_assoc]

/-- The schedule only has dates that exist. -/
theorem WellFormed.valid (hs : s.WellFormed) (h : s.admits d = true) : d.Valid := by
  obtain ⟨hsecond, hminute, hhour, hday, hlength, hmonth, -, -⟩ := admits_iff.1 h
  exact ⟨hs.months.low_le _ hmonth, hs.months.le_high _ hmonth, hs.days.low_le _ hday, hlength,
    Nat.lt_succ_of_le (hs.hours.le_high _ hhour), Nat.lt_succ_of_le (hs.minutes.le_high _ hminute),
    Nat.lt_succ_of_le (hs.seconds.le_high _ hsecond)⟩

/-- The time of day is not before that of the bound, on the day of the bound; in a month that is too
short for that day, on its last one, and there only if the schedule has the day of the bound. -/
def FromDay (s : Schedule) (start d : DateTime) : Prop :=
  min start.day (daysInMonth d.year d.month) < d.day ∨
    min start.day (daysInMonth d.year d.month) = d.day ∧
      (start.day ∈ s.days → start.timeOfDay ≤ d.timeOfDay)

/-- The date and time are not before those of the bound, in the year of the date. -/
def FromMonth (s : Schedule) (start d : DateTime) : Prop :=
  start.month < d.month ∨ start.month = d.month ∧ s.FromDay start d

/-- The first year of the schedule that is not before the given one. -/
def FirstYear (s : Schedule) (since year : Nat) : Prop :=
  year ∈ s.years ∧ since ≤ year ∧ ∀ y ∈ s.years, since ≤ y → year ≤ y

/-- In a year in which the bound is a date, the search is bounded by nothing but its place. -/
theorem fromMonth_iff_of_same_year (hs : s.WellFormed) (hstart : start.Valid)
    (hd : s.admits d = true) (hyear : start.year = d.year) :
    s.FromMonth start d ↔ start.seconds ≤ d.seconds := by
  have hday := (admits_iff.1 hd).2.2.2.1
  rw [Calendar.seconds_le_iff hstart (hs.valid hd), FromMonth, FromDay]
  by_cases hmonth : start.month = d.month
  · have hlength := hstart.day_le
    rw [hyear, hmonth] at hlength
    rw [Nat.min_eq_left hlength]
    by_cases hsame : start.day = d.day
    · simp [hyear, hmonth, hsame, hday]
    · simp [hyear, hmonth, hsame]
  · simp [hyear, hmonth]

/-- What is before the bound comes before what is not. -/
theorem seconds_lt_of_fromMonth (hd : d.Valid) (he : e.Valid) (hyear : d.year = e.year)
    (hbefore : ¬ s.FromMonth start d) (hfrom : s.FromMonth start e) : d.seconds < e.seconds := by
  unfold FromMonth FromDay at hbefore hfrom
  by_contra hle
  have hplace := (Calendar.seconds_le_iff he hd).1 (by omega)
  by_cases hmonth : d.month = e.month
  · rw [hyear, hmonth] at hbefore
    by_cases hmem : start.day ∈ s.days
    · simp only [hmem, true_imp_iff] at hbefore hfrom
      omega
    · simp only [hmem, false_imp_iff, and_true] at hbefore hfrom
      omega
  · omega

/-! ## 3. The search -/

/-- Seconds since midnight of an hour, minute and second. -/
def clockPlace (t : Nat × Nat × Nat) : Int := t.1 * 3600 + t.2.1 * 60 + t.2.2

/-- What a bound says of the shorter units while this one stands where the bound has it. -/
def within {β : Type} (bound : Option (Nat × β)) (v : Nat) : Option β :=
  bound.bind fun (v', rest) => if v = v' then some rest else none

theorem within_eq_some_iff {β : Type} {bound : Option (Nat × β)} {v : Nat} {rest : β} :
    within bound v = some rest ↔ bound = some (v, rest) := by
  cases bound with
  | none => simp [within]
  | some b =>
    obtain ⟨v', rest'⟩ := b
    by_cases h : v = v'
    · simp [within, h]
    · simp [within, h, Ne.symm h]

def firstOfMinute? (s : Schedule) (h m : Nat) (bound : Option Nat) : Option (Nat × Nat × Nat) :=
  (fromBound s.seconds bound).head?.map fun second => (h, m, second)

def firstOfHour? (s : Schedule) (h : Nat) (bound : Option (Nat × Nat)) :
    Option (Nat × Nat × Nat) :=
  (fromBound s.minutes (bound.map (·.1))).findSome? fun m => s.firstOfMinute? h m (within bound m)

theorem firstTime?_eq (s : Schedule) (bound : Option (Nat × Nat × Nat)) :
    s.firstTime? bound = (fromBound s.hours (bound.map (·.1))).findSome? fun h =>
      s.firstOfHour? h (within bound h) := rfl

theorem firstOfMinute?_isFirst (hs : s.WellFormed) (h m : Nat) (bound : Option Nat) :
    IsFirst clockPlace (fun t => t.1 = h ∧ t.2.1 = m ∧ t.2.2 ∈ s.seconds ∧
      ∀ b, bound = some b → b ≤ t.2.2) (s.firstOfMinute? h m bound) := by
  have hsorted := fromBound_sorted hs.seconds.sorted bound
  unfold firstOfMinute?
  cases hlist : fromBound s.seconds bound with
  | nil =>
    rintro ⟨h', m', sec⟩ ⟨-, -, hsec, hb⟩
    have hmem := mem_fromBound.2 ⟨hsec, hb⟩
    rw [hlist] at hmem
    cases hmem
  | cons first rest =>
    rw [hlist] at hsorted
    obtain ⟨hmem, hlow⟩ := mem_fromBound.1 (hlist ▸ List.mem_cons_self : first ∈ _)
    refine ⟨⟨rfl, rfl, hmem, hlow⟩, ?_⟩
    rintro ⟨h', m', sec⟩ ⟨rfl, rfl, hsec, hb⟩
    have hsec := mem_fromBound.2 ⟨hsec, hb⟩
    rw [hlist] at hsec
    have hle : first ≤ sec := by
      rcases List.mem_cons.1 hsec with hsame | hlater
      · exact Nat.le_of_eq hsame.symm
      · exact Nat.le_of_lt ((List.pairwise_cons.1 hsorted).1 sec hlater)
    simp only [clockPlace]
    omega

theorem firstOfHour?_isFirst (hs : s.WellFormed) (h : Nat) {bound : Option (Nat × Nat)}
    (hbound : ∀ b, bound = some b → b.2 < 60) :
    IsFirst clockPlace (fun t => t.1 = h ∧ t.2.1 ∈ s.minutes ∧ t.2.2 ∈ s.seconds ∧
      ∀ b, bound = some b → b.1 * 60 + b.2 ≤ t.2.1 * 60 + t.2.2) (s.firstOfHour? h bound) := by
  have hsecond : ∀ v ∈ s.seconds, v ≤ 59 := hs.seconds.le_high
  apply IsFirst.findSome? (fun t => t.2.1) (fromBound_sorted hs.minutes.sorted _)
  · rintro ⟨h', m, sec⟩ ⟨-, hm, hsec, hb⟩
    refine mem_fromBound.2 ⟨hm, fun low hlow => ?_⟩
    obtain ⟨b, hb', rfl⟩ := Option.map_eq_some_iff.1 hlow
    have hplace : b.1 * 60 + b.2 ≤ m * 60 + sec := hb b hb'
    have hsec := hsecond sec hsec
    show b.1 ≤ m
    omega
  · rintro ⟨h₁, m, sec⟩ ⟨h₂, m', sec'⟩ ⟨rfl, -, hsec, -⟩ ⟨rfl, -⟩ hlt
    have hsec := hsecond sec hsec
    have hlt : m < m' := hlt
    simp only [clockPlace]
    omega
  · intro m hm
    obtain ⟨hm, hlow⟩ := mem_fromBound.1 hm
    apply (firstOfMinute?_isFirst hs h m (within bound m)).congr
    rintro ⟨h', m', sec⟩
    constructor
    · rintro ⟨⟨rfl, -, hsec, hb⟩, rfl⟩
      refine ⟨rfl, rfl, hsec, fun b hwithin => ?_⟩
      have hplace := hb _ (within_eq_some_iff.1 hwithin)
      show b ≤ sec
      simp only at hplace
      omega
    · rintro ⟨rfl, rfl, hsec, hb⟩
      refine ⟨⟨rfl, hm, hsec, ?_⟩, rfl⟩
      rintro ⟨m, low⟩ rfl
      have hle : m ≤ m' := hlow m rfl
      have hlt : low < 60 := hbound _ rfl
      show m * 60 + low ≤ m' * 60 + sec
      -- the seconds are bounded in the minute of the bound only
      by_cases hsame : m = m'
      · have hle : low ≤ sec := hb low (within_eq_some_iff.2 (hsame ▸ rfl))
        omega
      · omega

/-- The search finds the first time of day of the schedule that is not before the bound. -/
theorem firstTime?_isFirst (hs : s.WellFormed) {bound : Option (Nat × Nat × Nat)}
    (hbound : ∀ b, bound = some b → b.2.1 < 60 ∧ b.2.2 < 60) :
    IsFirst clockPlace (fun t => t.1 ∈ s.hours ∧ t.2.1 ∈ s.minutes ∧ t.2.2 ∈ s.seconds ∧
      ∀ b, bound = some b → clockPlace b ≤ clockPlace t) (s.firstTime? bound) := by
  have hminute : ∀ v ∈ s.minutes, v ≤ 59 := hs.minutes.le_high
  have hsecond : ∀ v ∈ s.seconds, v ≤ 59 := hs.seconds.le_high
  rw [firstTime?_eq]
  apply IsFirst.findSome? (fun t => t.1) (fromBound_sorted hs.hours.sorted _)
  · rintro ⟨h, m, sec⟩ ⟨hh, hm, hsec, hb⟩
    refine mem_fromBound.2 ⟨hh, fun low hlow => ?_⟩
    obtain ⟨b, hb', rfl⟩ := Option.map_eq_some_iff.1 hlow
    have hplace := hb b hb'
    have hm := hminute m hm
    have hsec := hsecond sec hsec
    simp only [clockPlace] at hplace
    show b.1 ≤ h
    omega
  · rintro ⟨h, m, sec⟩ ⟨h', m', sec'⟩ ⟨-, hm, hsec, -⟩ - hlt
    have hm := hminute m hm
    have hsec := hsecond sec hsec
    have hlt : h < h' := hlt
    simp only [clockPlace]
    omega
  · intro h hh
    obtain ⟨hh, hlow⟩ := mem_fromBound.1 hh
    have hinner : ∀ b, within bound h = some b → b.2 < 60 := fun b hb =>
      (hbound _ (within_eq_some_iff.1 hb)).2
    apply (firstOfHour?_isFirst hs h hinner).congr
    rintro ⟨h', m, sec⟩
    constructor
    · rintro ⟨⟨-, hm, hsec, hb⟩, rfl⟩
      refine ⟨rfl, hm, hsec, fun b hwithin => ?_⟩
      have hplace := hb _ (within_eq_some_iff.1 hwithin)
      simp only [clockPlace] at hplace
      show b.1 * 60 + b.2 ≤ m * 60 + sec
      omega
    · rintro ⟨rfl, hm, hsec, hb⟩
      refine ⟨⟨hh, hm, hsec, ?_⟩, rfl⟩
      rintro ⟨h, m', sec'⟩ rfl
      have hle : h ≤ h' := hlow h rfl
      obtain ⟨hm', hsec'⟩ : m' < 60 ∧ sec' < 60 := hbound _ rfl
      simp only [clockPlace]
      by_cases hsame : h = h'
      · have hle : m' * 60 + sec' ≤ m * 60 + sec :=
          hb (m', sec') (within_eq_some_iff.2 (hsame ▸ rfl))
        omega
      · omega

/-- What the bound says of the time of day, on the day on which the search starts. -/
def timeBound (s : Schedule) (length day : Nat) (bound : Option DateTime) :
    Option (Nat × Nat × Nat) :=
  bound.bind fun b =>
    if day = min b.day length ∧ s.days.contains b.day then some (b.hour, b.minute, b.second)
    else none

theorem timeBound_eq_some_iff {length day : Nat} {bound : Option DateTime} {t : Nat × Nat × Nat} :
    s.timeBound length day bound = some t ↔ ∃ b, bound = some b ∧ day = min b.day length ∧
      b.day ∈ s.days ∧ t = (b.hour, b.minute, b.second) := by
  simp only [timeBound, Option.bind_eq_some_iff, Option.ite_none_right_eq_some, Option.some.injEq,
    List.contains_iff_mem, and_assoc, @eq_comm _ t]

/-- The search in a month finds the first date and time there that the bound allows. -/
theorem firstInMonth?_isFirst (hs : s.WellFormed) {year month : Nat} (hyear : year ∈ s.years)
    (hmonth : month ∈ s.months) {bound : Option DateTime}
    (hbound : ∀ b, bound = some b → b.Valid) :
    IsFirst DateTime.seconds (fun d => s.admits d = true ∧ d.year = year ∧ d.month = month ∧
      ∀ b, bound = some b → s.FromDay b d) (s.firstInMonth? year month bound) := by
  apply IsFirst.findSome? (fun d => d.day) ((fromBound_sorted hs.days.sorted _).filter _)
  · rintro d ⟨hd, rfl, rfl, hb⟩
    obtain ⟨-, -, -, hday, hlength, -, hweekday, -⟩ := admits_iff.1 hd
    rw [List.mem_filter, mem_fromBound, Bool.and_eq_true, decide_eq_true_eq,
      List.contains_iff_mem]
    refine ⟨⟨hday, fun low hlow => ?_⟩, hlength, hweekday⟩
    obtain ⟨b, hb', rfl⟩ := Option.map_eq_some_iff.1 hlow
    rcases hb b hb' with hlater | ⟨hsame, -⟩ <;> omega
  · rintro d e ⟨hd, hd₁, hd₂, -⟩ ⟨-, he₁, he₂, -⟩ hlt
    exact Int.le_of_lt
      (Calendar.seconds_lt_of_day_lt (hs.valid hd) (hd₁.trans he₁.symm) (hd₂.trans he₂.symm) hlt)
  · intro day hday
    rw [List.mem_filter, mem_fromBound, Bool.and_eq_true, decide_eq_true_eq,
      List.contains_iff_mem] at hday
    obtain ⟨⟨hday, hlow⟩, hlength, hweekday⟩ := hday
    have htime : ∀ b, s.timeBound (daysInMonth year month) day bound = some b →
        b.2.1 < 60 ∧ b.2.2 < 60 := by
      intro b hb
      obtain ⟨start, hstart, -, -, rfl⟩ := timeBound_eq_some_iff.1 hb
      exact ⟨(hbound start hstart).minute_lt, (hbound start hstart).second_lt⟩
    refine (firstTime?_isFirst hs htime).map _ ?_ ?_
    · intro d
      constructor
      · rintro ⟨⟨hd, rfl, rfl, hb⟩, rfl⟩
        obtain ⟨hsecond, hminute, hhour, -⟩ := admits_iff.1 hd
        refine ⟨(d.hour, d.minute, d.second), ⟨hhour, hminute, hsecond, fun t ht => ?_⟩, rfl⟩
        obtain ⟨b, hb', hsame, hmem, rfl⟩ := timeBound_eq_some_iff.1 ht
        rcases hb b hb' with hlater | ⟨-, hafter⟩
        · omega
        · have hle := hafter hmem
          simp only [DateTime.timeOfDay] at hle
          simp only [clockPlace]
          omega
      · rintro ⟨⟨h, m, sec⟩, ⟨hh, hm, hsec, ht⟩, rfl⟩
        refine ⟨⟨admits_iff.2 ⟨hsec, hm, hh, hday, hlength, hmonth, hweekday, hyear⟩, rfl, rfl,
          fun b hb => ?_⟩, rfl⟩
        have hle : min b.day (daysInMonth year month) ≤ day := hlow _ (by rw [hb]; rfl)
        rcases Nat.lt_or_eq_of_le hle with hlater | hsame
        · exact Or.inl hlater
        · refine Or.inr ⟨hsame, fun hmem => ?_⟩
          have hplace := ht _ (timeBound_eq_some_iff.2 ⟨b, hb, hsame.symm, hmem, rfl⟩)
          simp only [clockPlace] at hplace
          simp only [DateTime.timeOfDay]
          omega
    · rintro ⟨h, m, sec⟩ ⟨h', m', sec'⟩ - - hle
      apply (Calendar.seconds_le_iff_of_same_day (d := ⟨year, month, day, h, m, sec⟩)
        (e := ⟨year, month, day, h', m', sec'⟩) rfl rfl rfl).2
      simp only [clockPlace] at hle
      simp only [DateTime.timeOfDay]
      omega

/-- The search in a year finds the first date and time there that the bound allows. -/
theorem firstInYear?_isFirst (hs : s.WellFormed) {year : Nat} (hyear : year ∈ s.years)
    {bound : Option DateTime} (hbound : ∀ b, bound = some b → b.Valid) :
    IsFirst DateTime.seconds (fun d => s.admits d = true ∧ d.year = year ∧
      ∀ b, bound = some b → s.FromMonth b d) (s.firstInYear? year bound) := by
  apply IsFirst.findSome? (fun d => d.month) (fromBound_sorted hs.months.sorted _)
  · rintro d ⟨hd, -, hb⟩
    refine mem_fromBound.2 ⟨(admits_iff.1 hd).2.2.2.2.2.1, fun low hlow => ?_⟩
    obtain ⟨b, hb', rfl⟩ := Option.map_eq_some_iff.1 hlow
    rcases hb b hb' with hlater | ⟨hsame, -⟩ <;> omega
  · rintro d e ⟨hd, hd₁, -⟩ ⟨-, he₁, -⟩ hlt
    exact Int.le_of_lt
      (Calendar.seconds_lt_of_month_lt (hs.valid hd) (hd₁.trans he₁.symm) hlt)
  · intro month hmonth
    obtain ⟨hmonth, hlow⟩ := mem_fromBound.1 hmonth
    have hinner : ∀ b, bound.filter (·.month = month) = some b → b.Valid := fun b hb =>
      hbound b (Option.filter_eq_some_iff.1 hb).1
    apply (firstInMonth?_isFirst hs hyear hmonth hinner).congr
    intro d
    constructor
    · rintro ⟨⟨hd, hd₁, hb⟩, hd₂⟩
      refine ⟨hd, hd₁, hd₂, fun b hfilter => ?_⟩
      obtain ⟨hb', hsame⟩ := Option.filter_eq_some_iff.1 hfilter
      have hsame : b.month = month := by simpa using hsame
      rcases hb b hb' with hlater | ⟨-, hfrom⟩
      · omega
      · exact hfrom
    · rintro ⟨hd, hd₁, hd₂, hb⟩
      refine ⟨⟨hd, hd₁, fun b hb' => ?_⟩, hd₂⟩
      have hle : b.month ≤ month := hlow _ (by rw [hb']; rfl)
      rcases Nat.lt_or_eq_of_le hle with hlater | hsame
      · exact Or.inl (by omega)
      · exact Or.inr ⟨by omega, hb b (Option.filter_eq_some_iff.2 ⟨hb', by simpa using hsame⟩)⟩

/-- The dates and times that the search goes through: they are not in an earlier year than the
bound, and in the first year that the schedule has they are not before the bound in that year. -/
def Searches (s : Schedule) (start d : DateTime) : Prop :=
  s.admits d = true ∧ start.year ≤ d.year ∧
    (s.FirstYear start.year d.year → s.FromMonth start d)

/-- The search finds the first date and time that it goes through. -/
theorem firstFrom?_isFirst (hs : s.WellFormed) (hstart : start.Valid) :
    IsFirst DateTime.seconds (s.Searches start) (s.firstFrom? start) := by
  have hsorted := fromBound_sorted hs.years.sorted (some start.year)
  have hmem : ∀ y, y ∈ fromBound s.years (some start.year) ↔ y ∈ s.years ∧ start.year ≤ y := by
    intro y
    simp [mem_fromBound]
  unfold firstFrom?
  cases hyears : fromBound s.years (some start.year) with
  | nil =>
    rintro d ⟨hd, hle, -⟩
    have hd := (hmem d.year).2 ⟨(admits_iff.1 hd).2.2.2.2.2.2.2, hle⟩
    rw [hyears] at hd
    cases hd
  | cons first later =>
    rw [hyears] at hsorted hmem
    have hlater := (List.pairwise_cons.1 hsorted).1
    have hfirst : ∀ y, s.FirstYear start.year y ↔ y = first := by
      intro y
      obtain ⟨hfirst, hle⟩ := (hmem first).1 List.mem_cons_self
      constructor
      · rintro ⟨hy, hsince, hleast⟩
        rcases List.mem_cons.1 ((hmem y).2 ⟨hy, hsince⟩) with hsame | hy
        · exact hsame
        · have hlt := hlater y hy
          have hge := hleast first hfirst hle
          omega
      · rintro rfl
        refine ⟨hfirst, hle, fun z hz hsince => ?_⟩
        rcases List.mem_cons.1 ((hmem z).2 ⟨hz, hsince⟩) with hsame | hz
        · omega
        · exact Nat.le_of_lt (hlater z hz)
    -- all years are searched alike, but for the bound in the first
    have hsearch : (s.firstInYear? first (some start) <|>
        later.findSome? fun year => s.firstInYear? year none) =
        (first :: later).findSome? fun year =>
          s.firstInYear? year (if year = first then some start else none) := by
      have hrest : ∀ year ∈ later, s.firstInYear? year (if year = first then some start else none) =
          s.firstInYear? year none := fun year hyear => by
        rw [if_neg (Nat.ne_of_gt (hlater year hyear))]
      rw [List.findSome?_cons, if_pos rfl, findSome?_congr hrest]
      cases s.firstInYear? first (some start) <;> rfl
    show IsFirst DateTime.seconds _ (s.firstInYear? first (some start) <|> _)
    rw [hsearch]
    apply IsFirst.findSome? (fun d => d.year) hsorted
    · rintro d ⟨hd, hle, -⟩
      exact (hmem d.year).2 ⟨(admits_iff.1 hd).2.2.2.2.2.2.2, hle⟩
    · rintro d e ⟨hd, -⟩ - hlt
      exact Int.le_of_lt (Calendar.seconds_lt_of_year_lt (hs.valid hd) hlt)
    · intro year hyear
      obtain ⟨hyear, hsince⟩ := (hmem year).1 hyear
      have hbound : ∀ b, (if year = first then some start else none) = some b → b.Valid := by
        intro b hb
        rw [Option.ite_none_right_eq_some] at hb
        exact Option.some.inj hb.2 ▸ hstart
      apply (firstInYear?_isFirst hs hyear hbound).congr
      intro d
      simp only [Option.ite_none_right_eq_some, Option.some.injEq]
      constructor
      · rintro ⟨⟨hd, -, hfrom⟩, rfl⟩
        refine ⟨hd, rfl, ?_⟩
        rintro b ⟨hsame, rfl⟩
        exact hfrom ((hfirst _).2 hsame)
      · rintro ⟨hd, rfl, hfrom⟩
        exact ⟨⟨hd, hsince, fun hy => hfrom start ⟨(hfirst _).1 hy, rfl⟩⟩, rfl⟩

end Schedule

end JobQueue.Cron
