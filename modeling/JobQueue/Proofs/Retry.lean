import JobQueue.Outcome

/-!
# When a job is retried

A job that failed is due again after the interval of its policy. A time after the end of the
calendar becomes the last instant, and so does one before its beginning, which only a negative
interval comes to: the retry is as near to the requested time as the calendar allows unless the time
comes before it.
-/

namespace JobQueue

/-! ## 1. Intervals -/

namespace RetryPolicy

variable {p : RetryPolicy} {attempt : UInt16} {draw : Int} {interval : Delta}

/-- The interval to wait after a number of failures. -/
def intervalAfter (p : RetryPolicy) (failures : Nat) : Delta :=
  (p.intervals[min (failures - 1) (p.intervals.length - 1)]?).getD .zero

theorem isLastAttempt_iff :
    p.isLastAttempt attempt = true ↔ p.maxAttempts.toNat ≤ attempt.toNat := by
  rw [isLastAttempt, decide_eq_true_eq, UInt16.le_iff_toNat_le]

/-- Before the last attempt there is an interval: the one of the attempt, moved by the draw if there
is a jitter. -/
theorem nextInterval_eq_some_iff : p.nextInterval attempt draw = some interval ↔
    attempt.toNat < p.maxAttempts.toNat ∧ interval =
      if p.jitter.isSome then Jitter.move (p.baseInterval attempt) draw
      else p.baseInterval attempt := by
  unfold nextInterval
  split
  · rename_i hlast
    rw [isLastAttempt_iff] at hlast
    simp only [reduceCtorEq, false_iff, not_and]
    omega
  · rename_i hleft
    rw [isLastAttempt_iff, Nat.not_le] at hleft
    simp only [Option.some.injEq, hleft, true_and, eq_comm]

theorem nextInterval_eq_none_iff :
    p.nextInterval attempt draw = none ↔ p.maxAttempts.toNat ≤ attempt.toNat := by
  rw [← isLastAttempt_iff, nextInterval, ite_eq_left_iff]
  simp only [reduceCtorEq, imp_false, Bool.not_eq_true, Bool.not_eq_false]

theorem nextInterval_eq (hjitter : p.jitter = none) (hfirst : 1 ≤ attempt.toNat)
    (hleft : attempt.toNat < p.maxAttempts.toNat) (draw : Int) :
    p.nextInterval attempt draw = some (p.intervalAfter attempt.toNat) := by
  refine nextInterval_eq_some_iff.2 ⟨hleft, ?_⟩
  rw [hjitter, baseInterval, intervalAfter, show max attempt.toNat 1 = attempt.toNat by omega]
  rfl

theorem intervalAfter_nonneg (hpos : ∀ d ∈ p.intervals, 0 ≤ d.nanos) (failures : Nat) :
    0 ≤ (p.intervalAfter failures).nanos := by
  unfold intervalAfter
  cases h : p.intervals[min (failures - 1) (p.intervals.length - 1)]? with
  | none => exact Int.le_refl 0
  | some d => exact hpos d (List.mem_of_getElem? h)

/-- An interval is negative only if it is listed so and there is no jitter. -/
theorem nonneg_of_nextInterval (h : p.nextInterval attempt draw = some interval)
    (hpos : p.jitter.isSome ∨ ∀ d ∈ p.intervals, 0 ≤ d.nanos) : 0 ≤ interval.nanos := by
  obtain ⟨-, rfl⟩ := nextInterval_eq_some_iff.1 h
  split
  · rw [Jitter.move, Delta.clampNonneg_nanos]
    exact Int.le_max_right ..
  · rename_i hjitter
    exact intervalAfter_nonneg (hpos.resolve_left hjitter) _

end RetryPolicy

/-! ## 2. Times -/

/-- The instant of the calendar that is nearest to a time. -/
def Instant.nearest (n : Int) : Instant :=
  ⟨max minNanos (min n maxNanos), Int.le_max_left .., by unfold minNanos maxNanos; omega⟩

theorem Instant.nearest_nanos {n : Int} (h : minNanos ≤ n) :
    (nearest n).nanos = min n maxNanos := by
  have hmin : minNanos ≤ min n maxNanos := by
    unfold minNanos maxNanos at *
    omega
  exact Int.max_eq_right hmin

theorem Instant.nearest_of_lt {n : Int} (h : n < minNanos) : nearest n = .first := by
  have hmin : min n maxNanos ≤ minNanos := by omega
  exact eq_of_nanos_eq (Int.max_eq_left hmin)

namespace ClaimedJob

variable {clock : Instant} {interval : Delta}

theorem retryTime_of_le (h : Instant.minNanos ≤ clock.nanos + interval.nanos) :
    retryTime clock interval = .nearest (clock.nanos + interval.nanos) := by
  apply Instant.eq_of_nanos_eq
  rw [Instant.nearest_nanos h, retryTime, Instant.add?]
  cases hsum : Instant.ofNanos? (clock.nanos + interval.nanos) with
  | none =>
    have hlate := (Instant.ofNanos?_eq_none_iff.1 hsum).resolve_left (Int.not_lt.2 h)
    show Instant.maxNanos = _
    omega
  | some t =>
    have ht := Instant.ofNanos?_eq_some_iff.1 hsum
    have hmax := t.le_max
    show t.nanos = _
    omega

/-- A time before the calendar becomes its last instant as well. -/
theorem retryTime_of_lt (h : clock.nanos + interval.nanos < Instant.minNanos) :
    retryTime clock interval = .last := by
  rw [retryTime, Instant.add?, Instant.ofNanos?_eq_none_iff.2 (Or.inl h)]
  rfl

theorem retryTime_nanos (h : 0 ≤ interval.nanos) :
    (retryTime clock interval).nanos = min (clock.nanos + interval.nanos) Instant.maxNanos := by
  have hin : Instant.minNanos ≤ clock.nanos + interval.nanos := by
    have hmin := clock.min_le
    omega
  rw [retryTime_of_le hin, Instant.nearest_nanos hin]

theorem retryTime_eq_nearest_iff :
    retryTime clock interval = .nearest (clock.nanos + interval.nanos) ↔
      Instant.minNanos ≤ clock.nanos + interval.nanos := by
  refine ⟨fun h => Int.not_lt.1 fun hlt => ?_, retryTime_of_le⟩
  rw [retryTime_of_lt hlt, Instant.nearest_of_lt hlt] at h
  exact absurd h (by decide)

theorem retryTime_le_iff {longer : Delta} (h : interval ≤ longer) :
    retryTime clock interval ≤ retryTime clock longer ↔
      Instant.minNanos ≤ clock.nanos + interval.nanos ∨ retryTime clock longer = .last := by
  have hle : interval.nanos ≤ longer.nanos := h
  by_cases hin : Instant.minNanos ≤ clock.nanos + interval.nanos
  · have hnearest : (Instant.nearest (clock.nanos + interval.nanos)).nanos ≤
        (Instant.nearest (clock.nanos + longer.nanos)).nanos := by
      rw [Instant.nearest_nanos hin, Instant.nearest_nanos (by omega)]
      omega
    rw [retryTime_of_le hin, retryTime_of_le (by omega)]
    exact iff_of_true hnearest (Or.inl hin)
  · rw [retryTime_of_lt (Int.not_le.1 hin), or_iff_right hin]
    constructor
    · intro hlast
      exact Instant.eq_of_nanos_eq (Int.le_antisymm (retryTime clock longer).le_max hlast)
    · intro hlast
      rw [hlast]
      exact Int.le_refl _

/-! ## 3. Retries -/

/-- **A retry is as near to the time asked for as the calendar allows, unless that comes before the
calendar.** Then the job is due at the last instant instead of the first. So it is for the order of
retries: the shorter of two intervals gives the later time only if it leads before the calendar. No
interval does that if there is a jitter, or if none is negative. -/
theorem retry_nearest_iff {job : ClaimedJob} {policy : RetryPolicy}
    (hleft : job.attempt.toNat < policy.maxAttempts.toNat) (failure : Failure) (clock : Instant)
    (draw : Int) :
    ∃ interval, policy.nextInterval job.attempt draw = some interval ∧
      job.onceOutcome policy (some failure) clock draw =
        .retry job.processing (retryTime clock interval) failure.text ∧
      (retryTime clock interval = .nearest (clock.nanos + interval.nanos) ↔
        Instant.minNanos ≤ clock.nanos + interval.nanos) ∧
      (clock.nanos + interval.nanos < Instant.minNanos → retryTime clock interval = .last) ∧
      (∀ longer, interval ≤ longer →
        (retryTime clock interval ≤ retryTime clock longer ↔
          Instant.minNanos ≤ clock.nanos + interval.nanos ∨ retryTime clock longer = .last)) ∧
      (policy.jitter.isSome ∨ (∀ d ∈ policy.intervals, 0 ≤ d.nanos) →
        Instant.minNanos ≤ clock.nanos + interval.nanos) := by
  obtain ⟨interval, hinterval⟩ : ∃ interval, policy.nextInterval job.attempt draw = some interval :=
    ⟨_, RetryPolicy.nextInterval_eq_some_iff.2 ⟨hleft, rfl⟩⟩
  refine ⟨_, hinterval, ?_, retryTime_eq_nearest_iff, retryTime_of_lt,
    fun longer => retryTime_le_iff, fun hpos => ?_⟩
  · simp only [onceOutcome, hinterval]
  · have hmin := clock.min_le
    have hnonneg := RetryPolicy.nonneg_of_nextInterval hinterval hpos
    omega

/-- With a jitter, the longest negative interval leads no further back than now. -/
theorem retry_nearest_iff_jitter :
    let policy : RetryPolicy :=
      ⟨2, [⟨-Delta.bound, by decide, by decide⟩], some (.absolute .zero)⟩
    let job : ClaimedJob := { (default : ClaimedJob) with attempt := 1 }
    let failure : Failure := ⟨"error", "boom"⟩
    ∃ interval, policy.nextInterval job.attempt 0 = some interval ∧
      job.onceOutcome policy (some failure) .epoch 0 =
        .retry job.processing (.nearest (Instant.epoch.nanos + interval.nanos)) failure.text := by
  intro policy job failure
  have hleft : job.attempt.toNat < policy.maxAttempts.toNat := by decide
  obtain ⟨interval, hinterval, hwrite, hnearest, -, -, hin⟩ :=
    retry_nearest_iff hleft failure .epoch 0
  refine ⟨interval, hinterval, ?_⟩
  rw [hwrite, hnearest.2 (hin (Or.inl rfl))]

/-- Without one it leads before the calendar: the job is due at the last instant and not at the
first, and so later than if it were due at once. -/
theorem retry_leaps_to_last :
    let back : Delta := ⟨-Delta.bound, by decide, by decide⟩
    let policy : RetryPolicy := ⟨2, [back], none⟩
    let job : ClaimedJob := { (default : ClaimedJob) with attempt := 1 }
    let failure : Failure := ⟨"error", "boom"⟩
    job.onceOutcome policy (some failure) .epoch 0 =
        .retry job.processing .last failure.text ∧
      Instant.nearest (Instant.epoch.nanos + back.nanos) = .first ∧
      back ≤ .zero ∧ ¬ retryTime .epoch back ≤ retryTime .epoch .zero := by
  intro back policy job failure
  exact ⟨rfl, by decide, by decide, by decide⟩

end ClaimedJob

end JobQueue
