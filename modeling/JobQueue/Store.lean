import JobQueue.Error
import JobQueue.Job

/-!
# The job store

A store holds the jobs and the last sign of life of every worker. Each operation is one step: it
reads and changes the store at once. The clock is an argument wherever a time is recorded.
-/

namespace JobQueue

structure Store where
  jobs : List Job := []
  workers : List (WorkerId × Instant) := []
deriving DecidableEq, Inhabited

namespace Store

def get? (s : Store) (id : JobId) : Option Job := s.jobs.find? (·.id = id)

def contains (s : Store) (id : JobId) : Bool := s.jobs.any (·.id = id)

/-- Changes the jobs that satisfy a condition. -/
def updateIf (s : Store) (p : Job → Bool) (f : Job → Job) : Store :=
  { s with jobs := s.jobs.map fun j => if p j then f j else j }

/-- Changes one job. -/
def update (s : Store) (id : JobId) (f : Job → Job) : Store := s.updateIf (·.id = id) f

/-! ## Inserting and deleting -/

def insert (s : Store) (job : NewJob) (clock : Instant) : Except BackendError Store :=
  if s.contains job.id then .error (.duplicateJob job.id)
  else .ok { s with jobs := s.jobs ++ [job.toJob clock] }

/-- Inserts jobs in turn up to the first that cannot be, and keeps those before it. -/
def insertEach (s : Store) (clock : Instant) : List NewJob → Except BackendError (List JobId) × Store
  | [] => (.ok [], s)
  | job :: rest =>
    match s.insert job clock with
    | .error e => (.error e, s)
    | .ok s =>
      let (ids, s) := s.insertEach clock rest
      (ids.map (job.id :: ·), s)

/-- Inserts all of the jobs, unless one of their ids is in the store already. -/
def insertMany (s : Store) (jobs : List NewJob) (clock : Instant) :
    Except BackendError (List JobId) × Store :=
  match jobs.find? fun job => s.contains job.id with
  | some job => (.error (.duplicateJob job.id), s)
  | none => s.insertEach clock jobs

/-- Inserts a recurrent job, or gives its expression and parameter to the recurrent job of its type
that is there. A job that is processing keeps its schedule until it ends. -/
def upsertRecurrent (s : Store) (job : NewJob) (clock : Instant) :
    Except BackendError JobId × Store :=
  match s.jobs.find? fun stored => stored.jobType = job.jobType && stored.isRecurrent with
  | some stored =>
    (.ok stored.id, s.update stored.id fun stored =>
      { stored with
        cron := job.cron
        parameter := job.parameter
        scheduledAt := if stored.status = .processing then stored.scheduledAt else job.scheduledAt })
  | none =>
    match s.insert job clock with
    | .error e => (.error e, s)
    | .ok s => (.ok job.id, s)

/-- Deletes the jobs that satisfy a condition, and counts them. -/
def deleteIf (s : Store) (p : Job → Bool) : Nat × Store :=
  (s.jobs.countP p, { s with jobs := s.jobs.filter (!p ·) })

/-- Deletes those of the jobs that have not started. -/
def cancel (s : Store) (ids : List JobId) : Nat × Store :=
  s.deleteIf fun j => ids.contains j.id && j.status.isNotStarted

/-- Deletes the recurrent jobs of a type that are not processing. -/
def deleteRecurrent (s : Store) (jobType : String) : Nat × Store :=
  s.deleteIf fun j => j.jobType = jobType && j.isRecurrent && j.status ≠ .processing

/-! ## Claiming -/

/-- Whether a job can be claimed. -/
def isDue (now : Instant) (j : Job) : Bool := j.status = .scheduled && j.scheduledAt ≤ now

/-- The jobs that a claim takes: the oldest due ones. -/
def dueJobs (s : Store) (limit : Nat) (now : Instant) : List Job :=
  ((s.jobs.filter (isDue now)).mergeSort Job.isBefore).take limit

/-- The largest number of attempts that can be counted. -/
def attemptLimit : UInt16 := 65535

/-- Hands the oldest due jobs to a worker. -/
def claim (s : Store) (owner : WorkerId) (limit : Nat) (now : Instant) :
    Except (Stop BackendError) (List ClaimedJob) × Store :=
  let due := s.dueJobs limit now
  if due.any (·.attempt = attemptLimit) then (.error .crash, s)
  else
    let ids := due.map (·.id)
    (.ok (due.map fun j => (j.start owner now).claimed owner),
      s.updateIf (fun j => ids.contains j.id) (·.start owner now))

/-! ## Ending a claim -/

/-- The waiting member of a group that is scheduled first. -/
def firstWaiting? (s : Store) (sequence : SequenceId) : Option Job :=
  (s.jobs.filter fun j => j.status = .waitingPrev && j.successor = .sequence sequence).foldl
    (fun best j => match best with
      | none => some j
      | some b => if b.isBefore j then some b else some j) none

/-- Makes the successor of a finished job claimable, if it waits. -/
def unlock (s : Store) : Successor → Store
  | .none => s
  | .next id =>
    s.updateIf (fun j => j.id = id && j.status = .waitingPrev) ({ · with status := .scheduled })
  | .sequence sequence =>
    match s.firstWaiting? sequence with
    | none => s
    | some first => s.update first.id ({ · with status := .scheduled })

/-- The job, if it is under the given claim. -/
def owned? (s : Store) (p : ProcessingJob) : Option Job := s.jobs.find? (·.isOwnedBy p)

/-- Completes one job, or deletes it, and unlocks its successor: the one stored with the job. -/
def completeOne (s : Store) (p : ProcessingJob) (delete : Bool) (clock : Instant) : Store :=
  match s.owned? p with
  | none => s
  | some job =>
    let s := if delete then { s with jobs := s.jobs.filter (·.id ≠ p.id) }
      else s.update p.id (·.finish .completed clock)
    s.unlock job.successor

def complete (s : Store) (jobs : List FinishedJob) (delete : Bool) (clock : Instant) : Store :=
  jobs.foldl (fun s f => s.completeOne f.job delete clock) s

/-- Puts a failed job back to the schedule. Its attempts go on counting. -/
def retry (s : Store) (p : ProcessingJob) (scheduledAt : Instant) (error : String)
    (clock : Instant) : Store :=
  s.updateIf (·.isOwnedBy p) fun j =>
    { j.putBack scheduledAt clock with lastError := some error }

/-- Puts a recurrent job back to the schedule, with its attempts counted anew. -/
def reschedule (s : Store) (p : ProcessingJob) (scheduledAt : Instant) (error : Option String)
    (clock : Instant) : Store :=
  s.updateIf (·.isOwnedBy p) fun j =>
    { j.putBack scheduledAt clock with attempt := 0, lastError := error }

/-- Ends a job as failed. -/
def fail (s : Store) (p : ProcessingJob) (error : String) (clock : Instant) : Store :=
  s.updateIf (·.isOwnedBy p) fun j =>
    { j.finish .failed clock with lastError := some error }

/-! ## Workers -/

/-- Records a sign of life. -/
def heartbeat (s : Store) (worker : WorkerId) (now : Instant) : Store :=
  { s with workers := s.workers.filter (·.1 ≠ worker) ++ [(worker, now)] }

/-- Whether a job is processing with one of the given workers. -/
def isStuck (dead : List WorkerId) (j : Job) : Bool :=
  j.status = .processing && j.owner.any dead.contains

/-- The job of a worker that is gone: back to the schedule with the lost attempt taken back, if it
may be restarted. -/
def recover (j : Job) : Job :=
  if j.restartOnCrash then
    { j with
      status := .scheduled
      owner := none
      attempt := if j.attempt = 0 then 0 else j.attempt - 1 }
  else j

/-- Forgets the workers without a sign of life since `staleBefore`, and reports the jobs that they
were processing. -/
def reclaim (s : Store) (staleBefore : Instant) : List ReclaimedJob × Store :=
  let dead := (s.workers.filter (·.2 < staleBefore)).map (·.1)
  ((s.jobs.filter (isStuck dead)).map fun j => ⟨j.id, j.jobType, j.restartOnCrash⟩,
    { jobs := s.jobs.map fun j => if isStuck dead j then recover j else j
      workers := s.workers.filter (¬ ·.2 < staleBefore) })

end Store

end JobQueue
