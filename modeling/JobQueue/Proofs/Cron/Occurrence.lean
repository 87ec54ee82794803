import JobQueue.Proofs.Cron.Search
import JobQueue.Proofs.Draft
import JobQueue.Proofs.Worker.Verdict

/-!
# Which occurrence comes next

The next occurrence is searched from the second after now on. It is the first one after now, unless
the schedule does not have the year of that second: then the month, day and time of day of that
second bound the search in the first year that it has, and earlier occurrences there are left out.
-/

namespace JobQueue.Cron

open Calendar (DateTime)

namespace Schedule

variable {s : Schedule} {d start : DateTime} {now t : Instant}

/-! ## 1. Occurrences as instants -/

/-- The schedule has an occurrence at the instant. -/
def OccursAt (s : Schedule) (t : Instant) : Prop :=
  ∃ d, s.admits d = true ∧ t.nanos = d.seconds * 1000000000

/-- The search after the instant leaves an occurrence out: the schedule does not have the year of
the next second, and in the first later year that it has there is an occurrence before the month,
day and time of day of that second. -/
def PassesOver (s : Schedule) (now : Instant) : Prop :=
  ∃ start d, DateTime.ofSeconds? (now.seconds + 1) = some start ∧ s.admits d = true ∧
    start.year < d.year ∧ s.FirstYear start.year d.year ∧ ¬ s.FromMonth start d

/-- Schedules reach from 1970 to the end of 2100. -/
theorem WellFormed.seconds_range (hs : s.WellFormed) (hd : s.admits d = true) :
    0 ≤ d.seconds ∧ d.seconds < 4133980800 := by
  have hyear := (admits_iff.1 hd).2.2.2.2.2.2.2
  have hlow : 1970 ≤ d.year := hs.years.low_le _ hyear
  have hhigh : d.year ≤ 2100 := hs.years.le_high _ hyear
  have hbefore : DateTime.seconds ⟨1969, 12, 31, 23, 59, 59⟩ < d.seconds :=
    Calendar.seconds_lt_of_year_lt ⟨by decide, by decide, by decide, by decide, by decide,
      by decide, by decide⟩ (show 1969 < d.year by omega)
  have hafter : d.seconds < DateTime.seconds ⟨2101, 1, 1, 0, 0, 0⟩ :=
    Calendar.seconds_lt_of_year_lt (hs.valid hd) (show d.year < 2101 by omega)
  rw [show DateTime.seconds ⟨1969, 12, 31, 23, 59, 59⟩ = -1 by decide] at hbefore
  rw [show DateTime.seconds ⟨2101, 1, 1, 0, 0, 0⟩ = 4133980800 by decide] at hafter
  omega

/-- Every date and time of a schedule is on the calendar, which ends much later. -/
theorem WellFormed.exists_instant (hs : s.WellFormed) (hd : s.admits d = true) :
    ∃ t, Instant.ofNanos? (d.seconds * 1000000000) = some t ∧ t.nanos = d.seconds * 1000000000 := by
  have hrange := hs.seconds_range hd
  refine ⟨⟨d.seconds * 1000000000, ?_, ?_⟩, Instant.ofNanos?_eq_some_iff.2 rfl, rfl⟩
  · unfold Instant.minNanos
    omega
  · unfold Instant.maxNanos
    omega

theorem OccursAt.lt (hs : s.WellFormed) (h : s.OccursAt t) :
    t.nanos < 4133980800 * 1000000000 := by
  obtain ⟨d, hd, ht⟩ := h
  have hrange := hs.seconds_range hd
  omega

/-- A whole second is after now exactly if it is not before the second after now. -/
theorem lt_iff_of_whole {seconds : Int} (ht : t.nanos = seconds * 1000000000) :
    now < t ↔ now.seconds + 1 ≤ seconds := by
  rw [Instant.seconds, Int.fdiv_eq_ediv_of_nonneg _ (by decide)]
  show now.nanos < t.nanos ↔ _
  omega

end Schedule

/-- The answer that names the instant, or says that there is none. -/
def Next.of : Option Instant → Next
  | some t => .at t
  | none => .never

theorem Next.of_injective {o o' : Option Instant} (h : Next.of o = Next.of o') : o = o' := by
  cases o <;> cases o' <;> cases h <;> rfl

namespace Schedule

variable {s : Schedule} {d start : DateTime} {now : Instant}

/-! ## 2. The first one after now -/

/-- What is found is the first date and time that the search goes through, as an instant. -/
theorem next_spec (hs : s.WellFormed) (hstart : DateTime.ofSeconds? (now.seconds + 1) = some start)
    (hend : now.nanos + 1000000000 ≤ Instant.maxNanos) :
    ∃ o, s.next now = .of o ∧
      IsFirst Instant.nanos (fun t => ∃ d, s.Searches start d ∧ t.nanos = d.seconds * 1000000000)
        o := by
  have hmin := now.min_le
  have hsum : now.add? oneSecond =
      some ⟨now.nanos + 1000000000, by omega, hend⟩ := Instant.ofNanos?_eq_some_iff.2 rfl
  have hsecond : (⟨now.nanos + 1000000000, by omega, hend⟩ : Instant).seconds =
      now.seconds + 1 := by
    simp only [Instant.seconds, Int.fdiv_eq_ediv_of_nonneg _ (by decide : (0 : Int) ≤ 1000000000)]
    omega
  have hfirst := firstFrom?_isFirst hs (DateTime.ofSeconds?_eq_some_iff.1 hstart).1
  unfold next
  simp only [hsum, hsecond, hstart, Option.bind_some]
  cases hfound : s.firstFrom? start with
  | none =>
    rw [hfound] at hfirst
    refine ⟨none, rfl, ?_⟩
    rintro t ⟨d, hd, -⟩
    exact hfirst d hd
  | some d =>
    rw [hfound] at hfirst
    obtain ⟨hd, hleast⟩ := hfirst
    obtain ⟨t, hon, ht⟩ := hs.exists_instant hd.1
    simp only [hon]
    refine ⟨some t, rfl, ⟨d, hd, ht⟩, ?_⟩
    rintro t' ⟨e, he, ht'⟩
    have hle := hleast e he
    omega

/-- The search goes through all that comes next, if it leaves nothing out. -/
theorem searches_iff (hs : s.WellFormed)
    (hstart : DateTime.ofSeconds? (now.seconds + 1) = some start) (hall : ¬ s.PassesOver now) :
    s.Searches start d ↔ s.admits d = true ∧ now.seconds + 1 ≤ d.seconds := by
  obtain ⟨hvalid, hplace⟩ := DateTime.ofSeconds?_eq_some_iff.1 hstart
  rw [← hplace]
  constructor
  · rintro ⟨hd, hyear, hfrom⟩
    refine ⟨hd, ?_⟩
    rcases Nat.lt_or_eq_of_le hyear with hlater | hsame
    · exact Int.le_of_lt (Calendar.seconds_lt_of_year_lt hvalid hlater)
    · apply (fromMonth_iff_of_same_year hs hvalid hd hsame).1
      have hmem := (admits_iff.1 hd).2.2.2.2.2.2.2
      exact hfrom ⟨hmem, hyear, fun y _ hsince => hsame ▸ hsince⟩
  · rintro ⟨hd, hle⟩
    have hyear : start.year ≤ d.year := by
      have horder := (Calendar.seconds_le_iff hvalid (hs.valid hd)).1 hle
      omega
    refine ⟨hd, hyear, fun hfirst => ?_⟩
    rcases Nat.lt_or_eq_of_le hyear with hlater | hsame
    · by_contra hfrom
      exact hall ⟨start, d, hstart, hd, hlater, hfirst, hfrom⟩
    · exact (fromMonth_iff_of_same_year hs hvalid hd hsame).2 hle

/-- What the search finds comes after anything that it leaves out. -/
theorem seconds_lt_of_searches (hs : s.WellFormed) {e : DateTime} (hd : s.admits d = true)
    (hfirst : s.FirstYear start.year d.year) (hbefore : ¬ s.FromMonth start d)
    (he : s.Searches start e) : d.seconds < e.seconds := by
  obtain ⟨he, hyear, hfrom⟩ := he
  have hle := hfirst.2.2 e.year (admits_iff.1 he).2.2.2.2.2.2.2 hyear
  rcases Nat.lt_or_eq_of_le hle with hlater | hsame
  · exact Calendar.seconds_lt_of_year_lt (hs.valid hd) hlater
  · exact seconds_lt_of_fromMonth (hs.valid hd) (hs.valid he) hsame hbefore (hfrom (hsame ▸ hfirst))

/-- A schedule that has the year of the next second is searched from that second on. -/
theorem not_passesOver_of_mem (hstart : DateTime.ofSeconds? (now.seconds + 1) = some start)
    (hyear : start.year ∈ s.years) : ¬ s.PassesOver now := by
  rintro ⟨start', d, hstart', -, hlater, hfirst, -⟩
  rw [hstart] at hstart'
  cases hstart'
  have hle := hfirst.2.2 start.year hyear (Nat.le_refl _)
  omega

/-- **Which occurrence comes next.** Whoever asks for the next occurrence of an expression that can
be read, to build a recurrent job or to return one to the schedule, gets one and the same answer. It
is the first whole second after now whose date and time the schedule has, or that there is none up
to the end of 2100, exactly if the search leaves nothing out: if the schedule has no occurrence, in
the first later year that it has, before the month, day and time of day of the next second, or if it
has the year of that second. -/
theorem next_first_iff {text : String} (htext : ofText? text = some s) (hstart : 0 ≤ now.nanos)
    (hend : now.nanos + 1000000000 ≤ Instant.maxNanos) :
    (∀ t, s.OccursAt t → t.nanos < 4133980800 * 1000000000) ∧
    ∃ o : Option Instant, s.next now = .of o ∧
      (∀ d : Draft, d.cron = some text → d.scheduledAt = none →
        ∀ parameter, d.parameterText = .ok parameter →
        (d.build now).map (·.scheduledAt) = match o with
          | some t => .ok t
          | none => .error (.error (.cronExhausted text))) ∧
      (∀ job : ClaimedJob, job.cron = some text → ∀ policy failure draw,
        job.outcome? policy failure now draw = some (match o with
          | some t => .reschedule job.processing t (failure.map (·.text))
          | none => job.endRecurrence failure (.exhausted text))) ∧
      (IsFirst Instant.nanos (fun t => now < t ∧ s.OccursAt t) o ↔ ¬ s.PassesOver now) := by
  have hs := ofText?_wellFormed htext
  have hsecond : 0 ≤ now.seconds := by
    rw [Instant.seconds, Int.fdiv_eq_ediv_of_nonneg _ (by decide)]
    omega
  have hfrom : 0 ≤ now.seconds + 1 + Calendar.epochDay * 86400 := by omega
  obtain ⟨start, hat, hvalid, hplace⟩ := Calendar.exists_ofSeconds? hfrom
  obtain ⟨o, hnext, hfirst⟩ := next_spec hs hat hend
  refine ⟨fun t ht => ht.lt hs, o, hnext, ?_, ?_, ?_⟩
  · intro d hcron hfree parameter hparameter
    have hdue : d.dueTime now = match o with
        | some t => .ok t
        | none => .error (.error (.cronExhausted text)) := by
      simp only [Draft.dueTime, hcron, hfree, Draft.firstOccurrence, htext, hnext]
      cases o <;> rfl
    rw [Draft.build, hdue, hparameter]
    cases o <;> rfl
  · intro job hcron policy failure draw
    simp only [ClaimedJob.outcome?, hcron, ClaimedJob.recurrentOutcome?, htext, hnext]
    cases o <;> rfl
  · constructor
    · rintro hright ⟨start', d, hstart', hd, hlater, hyear, hbefore⟩
      rw [hat] at hstart'
      cases hstart'
      have hlt := Calendar.seconds_lt_of_year_lt hvalid hlater
      obtain ⟨t, -, ht⟩ := hs.exists_instant hd
      have hafter : now < t := (lt_iff_of_whole ht).2 (by omega)
      -- what was left out is after now, and before anything that is found
      cases o with
      | none => exact hright t ⟨hafter, d, hd, ht⟩
      | some found =>
        obtain ⟨e, he, hfound⟩ := hfirst.1
        have hle := hright.2 t ⟨hafter, d, hd, ht⟩
        have hbehind := seconds_lt_of_searches hs hd hyear hbefore he
        omega
    · intro hall
      apply hfirst.congr
      intro t
      constructor
      · rintro ⟨hlt, d, hd, ht⟩
        exact ⟨d, (searches_iff hs hat hall).2 ⟨hd, (lt_iff_of_whole ht).1 hlt⟩, ht⟩
      · rintro ⟨d, hd, ht⟩
        obtain ⟨hd, hafter⟩ := (searches_iff hs hat hall).1 hd
        exact ⟨(lt_iff_of_whole ht).2 hafter, d, hd, ht⟩

/-- In the last second of a leap day, the noon of such a day is found four years later. -/
theorem next_first_iff_leap_day :
    let now : Instant := ⟨1709251199 * 1000000000, by decide, by decide⟩
    let noon : Instant := ⟨1835438400 * 1000000000, by decide, by decide⟩
    ∃ s, ofText? "0 0 12 29 Feb ?" = some s ∧ s.next now = .at noon ∧
      now < noon ∧ s.OccursAt noon ∧ ∀ t, now < t → s.OccursAt t → noon ≤ t := by
  intro now noon
  let s : Schedule :=
    ⟨[0], [0], [12], [29], [2], Unit.dayOfWeek.values, Unit.year.values⟩
  have htext : ofText? "0 0 12 29 Feb ?" = some s := by decide +kernel
  have hfound : s.next now = Next.of (some noon) := by decide +kernel
  have hat : DateTime.ofSeconds? (now.seconds + 1) = some ⟨2024, 3, 1, 0, 0, 0⟩ := by
    decide +kernel
  have hstart : 0 ≤ now.nanos := by decide
  obtain ⟨-, o, hnext, -, -, hright⟩ := next_first_iff htext hstart (by decide)
  cases Next.of_injective (hnext.symm.trans hfound)
  obtain ⟨⟨hlt, hoccurs⟩, hleast⟩ := hright.2 (not_passesOver_of_mem hat (by decide +kernel))
  exact ⟨s, htext, hfound, hlt, hoccurs, fun t ht hoccurs => hleast t ⟨ht, hoccurs⟩⟩

/-- On the first of January 2024 at 10:05, the first of January 2025 is not found: in 2025, the year
of the schedule, the search starts on the first of January at 10:05. -/
theorem passes_over_new_year :
    let now : Instant := ⟨1704103500 * 1000000000, by decide, by decide⟩
    let newYear : Instant := ⟨1735689600 * 1000000000, by decide, by decide⟩
    ∃ s, ofText? "0 0 0 1 1 * 2025" = some s ∧ now < newYear ∧ s.OccursAt newYear ∧
      s.next now = .never := by
  intro now newYear
  let s : Schedule := ⟨[0], [0], [0], [1], [1], Unit.dayOfWeek.values, [2025]⟩
  have htext : ofText? "0 0 0 1 1 * 2025" = some s := by decide +kernel
  exact ⟨s, htext, by decide, ⟨⟨2025, 1, 1, 0, 0, 0⟩, by decide +kernel, by decide +kernel⟩,
    by decide +kernel⟩

end Schedule

end JobQueue.Cron
