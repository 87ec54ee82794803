import JobQueue.Backend
import JobQueue.Cron.Schedule
import JobQueue.Handler
import JobQueue.Retry
import JobQueue.Text.Quoted

/-!
# Outcomes

How an execution is recorded: every execution ends in one write that ends its claim. A recurrent job
returns to the schedule at its next occurrence, whatever the execution came to; other jobs are
completed, retried or failed.
-/

namespace JobQueue

/-- A write that ends a claim. -/
inductive OutcomeWrite
  | complete (job : FinishedJob)
  | retry (job : ProcessingJob) (scheduledAt : Instant) (error : String)
  | reschedule (job : ProcessingJob) (scheduledAt : Instant) (error : Option String)
  | fail (job : ProcessingJob) (error : String)
deriving DecidableEq, Inhabited

namespace OutcomeWrite

/-- The claim that a write ends. -/
def job : OutcomeWrite → ProcessingJob
  | .complete finished => finished.job
  | .retry job _ _ => job
  | .reschedule job _ _ => job
  | .fail job _ => job

/-- Makes the write in a call of its own, of whoever answers calls over a state. -/
def perform {τ : Type} (w : OutcomeWrite) (delete : Bool)
    (ask : (c : Call) → τ → Answer c.Result × τ) (s : τ) : Answer Unit × τ :=
  match w with
  | .complete finished => ask (.complete [finished] delete) s
  | .retry job scheduledAt error => ask (.retry job scheduledAt error) s
  | .reschedule job scheduledAt error => ask (.reschedule job scheduledAt error) s
  | .fail job error => ask (.fail job error) s

end OutcomeWrite

/-- Why a recurrent job cannot return to the schedule. -/
inductive CronFault
  | invalid (expression : String)
  | exhausted (expression : String)
deriving DecidableEq

def CronFault.message : CronFault → String
  | .invalid expression =>
    "invalid cron expression " ++ Text.quoted expression ++ ": " ++ Cron.invalidExpression
  | .exhausted expression =>
    "cron expression " ++ Text.quoted expression ++ " has no future occurrence"

namespace ClaimedJob

/-- The time of a retry. One that is beyond the calendar becomes its last instant. -/
def retryTime (clock : Instant) (interval : Delta) : Instant :=
  (clock.add? interval).getD .last

/-- The outcome of a job that is not recurrent. -/
def onceOutcome (job : ClaimedJob) (policy : RetryPolicy) (failure : Option Failure)
    (clock : Instant) (draw : Int) : OutcomeWrite :=
  match failure with
  | none => .complete job.finished
  | some failure =>
    match policy.nextInterval job.attempt draw with
    | some interval => .retry job.processing (retryTime clock interval) failure.text
    | none => .fail job.processing failure.text

/-- The outcome of a recurrent job that cannot return to the schedule. -/
def endRecurrence (job : ClaimedJob) (failure : Option Failure) (fault : CronFault) :
    OutcomeWrite :=
  match failure with
  | none => .fail job.processing fault.message
  | some failure => .fail job.processing (failure.text ++ "; " ++ fault.message)

/-- The outcome of a job with the given cron expression. There is none if the clock is at the end
of the calendar. -/
def recurrentOutcome? (job : ClaimedJob) (cron : String) (failure : Option Failure)
    (clock : Instant) : Option OutcomeWrite :=
  match Cron.Schedule.ofText? cron with
  | none => some (job.endRecurrence failure (.invalid cron))
  | some schedule =>
    match schedule.next clock with
    | .at t => some (.reschedule job.processing t (failure.map (·.text)))
    | .never => some (job.endRecurrence failure (.exhausted cron))
    | .overflow => none

/-- The write that an execution ends in. -/
def outcome? (job : ClaimedJob) (policy : RetryPolicy) (failure : Option Failure)
    (clock : Instant) (draw : Int) : Option OutcomeWrite :=
  match job.cron with
  | none => some (job.onceOutcome policy failure clock draw)
  | some cron => job.recurrentOutcome? cron failure clock

end ClaimedJob

end JobQueue
