import JobQueue.Proofs.Retry
import JobQueue.Worker

/-!
# What an execution is recorded as

The execution of a job comes to a verdict: it succeeded, or it failed, and why. From that and the
clock follows the write that it ends in. There is no verdict if the factory of the handler panics,
and no write for a recurrent job within a second of the end of the calendar.
-/

namespace JobQueue

/-! ## 1. Verdicts -/

/-- Whether the execution of a job fails, and why, if its handler was asked for `calls` times
before. -/
def Worker.verdict? {β : Type} (worker : Worker β) (job : ClaimedJob) (calls : Nat) :
    Option (Option Failure) :=
  match worker.registry.resolve job.jobType job.parameter calls with
  | .endpoint handler parameter =>
    some (worker.pipeline.execute job.attempt (handler.run parameter job.attempt)).exit.failure?
  | .failed reason => some (some ⟨"resolution", reason.message⟩)
  | .panicked _ => none

/-- The factory of the handler panics when it is asked for one to run the job with. It is asked only
if the handler is known and the parameter of the job can be read. -/
def Worker.PanicsOn {β : Type} (worker : Worker β) (job : ClaimedJob) (calls : Nat) : Prop :=
  ∃ handler policy parameter message,
    worker.registry.entry? job.jobType = some (handler, policy) ∧
    handler.type.parameter.decode job.parameter = .ok parameter ∧
    handler.factory calls = .panic message

theorem Worker.verdict?_eq_none_iff {β : Type} {worker : Worker β} {job : ClaimedJob}
    {calls : Nat} : worker.verdict? job calls = none ↔ worker.PanicsOn job calls := by
  unfold verdict? Registry.resolve
  constructor
  · intro h
    split at h
    · cases h
    · cases h
    · rename_i message hresolve
      split at hresolve
      · cases hresolve
      · rename_i handler policy hentry
        split at hresolve
        · cases hresolve
        · rename_i parameter hread
          split at hresolve
          · cases hresolve
          · cases hresolve
          · rename_i hfactory
            exact ⟨handler, policy, parameter, _, hentry, hread, hfactory⟩
  · rintro ⟨handler, policy, parameter, message, hentry, hread, hfactory⟩
    simp only [hentry, hread, hfactory]

/-! ## 2. The end of the calendar -/

namespace Cron

theorem Schedule.next_eq_overflow_iff {s : Schedule} {now : Instant} :
    s.next now = .overflow ↔ Instant.maxNanos < now.nanos + 1000000000 := by
  have hmin := now.min_le
  have hsum : now.add? oneSecond = none ↔ Instant.maxNanos < now.nanos + 1000000000 := by
    rw [Instant.add?, Instant.ofNanos?_eq_none_iff, show oneSecond.nanos = 1000000000 from rfl]
    omega
  rw [← hsum]
  unfold Schedule.next
  cases now.add? oneSecond with
  | none => simp only
  | some start =>
    simp only [reduceCtorEq, iff_false]
    split
    · simp only [reduceCtorEq, not_false_eq_true]
    · split <;> simp only [reduceCtorEq, not_false_eq_true]

end Cron

namespace ClaimedJob

/-- The job is recurrent, and the clock too near to the end of the calendar to ask for its next
occurrence. -/
def RunsOut (job : ClaimedJob) (clock : Instant) : Prop :=
  ∃ cron schedule, job.cron = some cron ∧ Cron.Schedule.ofText? cron = some schedule ∧
    Instant.maxNanos < clock.nanos + 1000000000

/-! ## 3. Writes -/

/-- The write that records the execution of a job with this failure, or without one. -/
inductive EndsIn (job : ClaimedJob) (policy : RetryPolicy) (clock : Instant) :
    Option Failure → OutcomeWrite → Prop
  | completed (honce : job.cron = none) : EndsIn job policy clock none (.complete job.finished)
  | retried {failure : Failure} {draw : Int} {interval : Delta} (honce : job.cron = none)
      (hleft : job.attempt < policy.maxAttempts)
      (hinterval : policy.nextInterval job.attempt draw = some interval) :
      EndsIn job policy clock (some failure)
        (.retry job.processing (retryTime clock interval) failure.text)
  | failed {failure : Failure} (honce : job.cron = none)
      (hspent : policy.maxAttempts ≤ job.attempt) :
      EndsIn job policy clock (some failure) (.fail job.processing failure.text)
  | rescheduled {failure : Option Failure} {cron : String} {schedule : Cron.Schedule} {t : Instant}
      (hcron : job.cron = some cron) (hvalid : Cron.Schedule.ofText? cron = some schedule)
      (hnext : schedule.next clock = .at t) :
      EndsIn job policy clock failure (.reschedule job.processing t (failure.map (·.text)))
  | refused {failure : Option Failure} {cron : String} (hcron : job.cron = some cron)
      (hinvalid : Cron.Schedule.ofText? cron = none) :
      EndsIn job policy clock failure (job.endRecurrence failure (.invalid cron))
  | exhausted {failure : Option Failure} {cron : String} {schedule : Cron.Schedule}
      (hcron : job.cron = some cron) (hvalid : Cron.Schedule.ofText? cron = some schedule)
      (hnever : schedule.next clock = .never) :
      EndsIn job policy clock failure (job.endRecurrence failure (.exhausted cron))

variable {job : ClaimedJob} {policy : RetryPolicy} {clock : Instant} {draw : Int}
  {failure : Option Failure} {write : OutcomeWrite}

/-- A job that cannot return to the schedule ends as failed, whatever its execution came to. -/
theorem endRecurrence_eq (job : ClaimedJob) (failure : Option Failure) (fault : CronFault) :
    ∃ text, job.endRecurrence failure fault = .fail job.processing text := by
  cases failure with
  | none => exact ⟨_, rfl⟩
  | some failure => exact ⟨_, rfl⟩

/-- The write is for the claim that the execution has the job under. -/
theorem EndsIn.job_eq (h : job.EndsIn policy clock failure write) :
    write.job = job.processing := by
  cases h with
  | completed _ => rfl
  | retried _ _ _ => rfl
  | failed _ _ => rfl
  | rescheduled _ _ _ => rfl
  | refused _ _ =>
    obtain ⟨text, heq⟩ := job.endRecurrence_eq failure (.invalid _)
    rw [heq]
    rfl
  | exhausted _ _ _ =>
    obtain ⟨text, heq⟩ := job.endRecurrence_eq failure (.exhausted _)
    rw [heq]
    rfl

theorem onceOutcome_endsIn (honce : job.cron = none) (policy : RetryPolicy)
    (failure : Option Failure) (clock : Instant) (draw : Int) :
    job.EndsIn policy clock failure (job.onceOutcome policy failure clock draw) := by
  cases failure with
  | none => exact .completed honce
  | some failure =>
    simp only [onceOutcome]
    cases hnext : policy.nextInterval job.attempt draw with
    | some interval =>
      have hleft := (RetryPolicy.nextInterval_eq_some_iff.1 hnext).1
      exact .retried honce (UInt16.lt_iff_toNat_lt.2 hleft) hnext
    | none =>
      have hspent := RetryPolicy.nextInterval_eq_none_iff.1 hnext
      exact .failed honce (UInt16.le_iff_toNat_le.2 hspent)

theorem recurrentOutcome?_endsIn {cron : String} (hcron : job.cron = some cron)
    (policy : RetryPolicy) (h : job.recurrentOutcome? cron failure clock = some write) :
    job.EndsIn policy clock failure write := by
  unfold recurrentOutcome? at h
  split at h
  · rename_i hinvalid
    cases h
    exact .refused hcron hinvalid
  · rename_i schedule hvalid
    split at h
    · rename_i t hnext
      cases h
      exact .rescheduled hcron hvalid hnext
    · rename_i hnever
      cases h
      exact .exhausted hcron hvalid hnever
    · cases h

/-- The outcome of a job is the write that the rules say. -/
theorem outcome?_endsIn (h : job.outcome? policy failure clock draw = some write) :
    job.EndsIn policy clock failure write := by
  unfold outcome? at h
  split at h
  · rename_i honce
    cases h
    exact onceOutcome_endsIn honce policy failure clock draw
  · rename_i cron hcron
    exact recurrentOutcome?_endsIn hcron policy h

/-- The only jobs without an outcome are recurrent ones at the end of the calendar. -/
theorem outcome?_eq_none_iff :
    job.outcome? policy failure clock draw = none ↔ job.RunsOut clock := by
  unfold outcome? RunsOut
  cases hcron : job.cron with
  | none => simp only [reduceCtorEq, false_and, exists_false]
  | some cron =>
    simp only [recurrentOutcome?]
    cases hvalid : Cron.Schedule.ofText? cron with
    | none =>
      simp only [reduceCtorEq, false_iff]
      rintro ⟨cron', schedule, heq, hvalid', -⟩
      cases heq
      rw [hvalid] at hvalid'
      cases hvalid'
    | some schedule =>
      have hoverflow : schedule.next clock = .overflow ↔ _ := Cron.Schedule.next_eq_overflow_iff
      constructor
      · intro h
        refine ⟨cron, schedule, rfl, hvalid, hoverflow.1 ?_⟩
        simp only at h
        split at h
        · cases h
        · cases h
        · assumption
      · rintro ⟨cron', schedule', heq, -, hlate⟩
        simp only [hoverflow.2 hlate]

end ClaimedJob

end JobQueue
