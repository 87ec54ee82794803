import JobQueue.Backend
import JobQueue.Handler

/-!
# Drafts of jobs

A draft collects what is known of a job before it is enqueued. Building it settles when the job is
due and which parameter is stored. A draft with a cron expression is a recurrent job, of which there
is one per job type: enqueuing another updates the one that is there.
-/

namespace JobQueue

structure Draft where
  type : JobType
  id : JobId
  parameter : Option Parameter := none
  scheduledAt : Option Instant := none
  cron : Option String := none
  restartOnCrash : Bool

namespace Draft

/-- A draft of which nothing is settled but its type and its id. -/
def new (type : JobType) (id : JobId) : Draft :=
  { type, id, restartOnCrash := type.restartOnCrash }

/-- Schedules the job some time from now, which has to be on the calendar. -/
def scheduleIn (d : Draft) (clock : Instant) (delay : Delta) : Except (Stop QueueError) Draft :=
  match clock.add? delay with
  | none => .error .crash
  | some t => .ok { d with scheduledAt := some t }

/-- The time that a recurrent job is first due: the requested one, or else the first occurrence
after now. The expression has to be valid in any case. -/
def firstOccurrence (cron : String) (requested : Option Instant) (clock : Instant) :
    Except (Stop QueueError) Instant :=
  match Cron.Schedule.ofText? cron with
  | none => .error (.error (.invalidCron cron))
  | some schedule =>
    match requested with
    | some t => .ok t
    | none =>
      match schedule.next clock with
      | .at t => .ok t
      | .never => .error (.error (.cronExhausted cron))
      | .overflow => .error .crash

/-- When the job is due. -/
def dueTime (d : Draft) (clock : Instant) : Except (Stop QueueError) Instant :=
  match d.cron with
  | some cron => firstOccurrence cron d.scheduledAt clock
  | none => .ok (d.scheduledAt.getD clock)

/-- The parameter of a job that was given none. -/
def noParameter : String := "null"

/-- The stored parameter. It may only be left out where no parameter can be read as one. -/
def parameterText (d : Draft) : Except (Stop QueueError) String :=
  match d.parameter with
  | some p => .ok p.encode
  | none =>
    match d.type.parameter.decode noParameter with
    | .ok _ => .ok noParameter
    | .error _ => .error (.error (.missingParameter d.type.name))

/-- The job to insert. -/
def build (d : Draft) (clock : Instant) : Except (Stop QueueError) NewJob := do
  let scheduledAt ← d.dueTime clock
  let parameter ← d.parameterText
  .ok {
    id := d.id
    jobType := d.type.name
    parameter
    cron := d.cron
    scheduledAt
    waits := false
    successor := .none
    restartOnCrash := d.restartOnCrash }

end Draft

/-- An error of a backend as one of the library. -/
def Stop.ofBackend : Stop BackendError → Stop QueueError
  | .error e => .error (.backend e)
  | .crash => .crash

/-- Hands a built job to a backend. A recurrent job may be there already, and then the id returned
is that of the one that is there. -/
def NewJob.enqueue {σ : Type} (job : NewJob) (b : Backend σ) (clock : Instant) (s : σ) :
    Except (Stop QueueError) JobId × σ :=
  if job.cron.isSome then
    let (r, s) := b.answer clock (.upsertRecurrent job) s
    (r.mapError Stop.ofBackend, s)
  else
    let (r, s) := b.answer clock (.insert job) s
    (r.mapError Stop.ofBackend, s)

/-- Builds a draft and hands the job to a backend. -/
def Draft.enqueue {σ : Type} (d : Draft) (b : Backend σ) (clock : Instant) (s : σ) :
    Except (Stop QueueError) JobId × σ :=
  match d.build clock with
  | .error e => (.error e, s)
  | .ok job => job.enqueue b clock s

end JobQueue
