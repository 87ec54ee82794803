import JobQueue.Ident
import JobQueue.Time

/-!
# Jobs

The life of a job: it is inserted as scheduled or as waiting for a predecessor, is claimed by a
worker, and ends as completed or failed or returns to the schedule. Besides the stored job there are
the views of it that travel between a store and a worker.
-/

namespace JobQueue

inductive JobStatus
  | scheduled
  /-- Waits until another job is done. -/
  | waitingPrev
  | processing
  | completed
  | failed
deriving DecidableEq, Repr, Inhabited

/-- No worker has picked the job up yet. -/
def JobStatus.isNotStarted (s : JobStatus) : Bool := s = .scheduled || s = .waitingPrev

/-- What becomes claimable once a job is done. -/
inductive Successor
  | none
  | next (id : JobId)
  /-- The waiting member of a group that is scheduled first. -/
  | sequence (id : SequenceId)
deriving DecidableEq, Inhabited

def Successor.isSequence : Successor → Bool
  | .sequence _ => true
  | _ => false

/-- A stored job. -/
structure Job where
  id : JobId
  jobType : String
  parameter : String
  cron : Option String
  status : JobStatus
  attempt : UInt16
  createdAt : Instant
  scheduledAt : Instant
  lastStartedAt : Option Instant
  lastFinishedAt : Option Instant
  owner : Option WorkerId
  successor : Successor
  restartOnCrash : Bool
  lastError : Option String
deriving DecidableEq, Inhabited

/-- A job to be inserted. -/
structure NewJob where
  id : JobId
  jobType : String
  parameter : String
  cron : Option String
  scheduledAt : Instant
  waits : Bool
  successor : Successor
  restartOnCrash : Bool
deriving DecidableEq, Inhabited

/-- The pair that names a claim: every write that ends one carries it. -/
structure ProcessingJob where
  id : JobId
  owner : WorkerId
deriving DecidableEq, Inhabited

/-- A claim that ended well, with what it unlocks. -/
structure FinishedJob where
  job : ProcessingJob
  successor : Successor
deriving DecidableEq, Inhabited

/-- What a worker learns about a job that it claims. The attempt includes the one that starts. -/
structure ClaimedJob where
  id : JobId
  owner : WorkerId
  jobType : String
  parameter : String
  cron : Option String
  attempt : UInt16
  scheduledAt : Instant
  successor : Successor
deriving DecidableEq, Inhabited

/-- A job found with a worker that is gone. -/
structure ReclaimedJob where
  id : JobId
  jobType : String
  restarted : Bool
deriving DecidableEq, Inhabited

def Job.isRecurrent (j : Job) : Bool := j.cron.isSome

namespace NewJob

def initialStatus (j : NewJob) : JobStatus := if j.waits then .waitingPrev else .scheduled

/-- The job as it is first stored. -/
def toJob (j : NewJob) (createdAt : Instant) : Job where
  id := j.id
  jobType := j.jobType
  parameter := j.parameter
  cron := j.cron
  status := j.initialStatus
  attempt := 0
  createdAt := createdAt
  scheduledAt := j.scheduledAt
  lastStartedAt := none
  lastFinishedAt := none
  owner := none
  successor := j.successor
  restartOnCrash := j.restartOnCrash
  lastError := none

end NewJob

namespace ClaimedJob

def isRecurrent (j : ClaimedJob) : Bool := j.cron.isSome

def processing (j : ClaimedJob) : ProcessingJob := ⟨j.id, j.owner⟩

def finished (j : ClaimedJob) : FinishedJob := ⟨j.processing, j.successor⟩

end ClaimedJob

/-- The group that a finished job belongs to. -/
def FinishedJob.sequence? (f : FinishedJob) : Option SequenceId :=
  match f.successor with
  | .sequence id => some id
  | _ => none

namespace Job

/-- The job as a worker sees it that owns it. -/
def claimed (j : Job) (owner : WorkerId) : ClaimedJob :=
  ⟨j.id, owner, j.jobType, j.parameter, j.cron, j.attempt, j.scheduledAt, j.successor⟩

/-- Whether the pair names the claim that the job is under. -/
def isOwnedBy (j : Job) (p : ProcessingJob) : Bool :=
  j.id = p.id && j.status = .processing && j.owner = some p.owner

/-- The order in which due jobs are claimed and waiting members are promoted. -/
def isBefore (a b : Job) : Bool :=
  a.scheduledAt < b.scheduledAt
    || (a.scheduledAt = b.scheduledAt && a.createdAt ≤ b.createdAt)

/-- A worker starts the next attempt. -/
def start (j : Job) (owner : WorkerId) (now : Instant) : Job :=
  { j with
    status := .processing
    owner := some owner
    lastStartedAt := some now
    attempt := j.attempt + 1 }

/-- The job goes back to the schedule. -/
def putBack (j : Job) (scheduledAt clock : Instant) : Job :=
  { j with
    status := .scheduled
    owner := none
    scheduledAt := scheduledAt
    lastFinishedAt := some clock }

/-- The job ends. -/
def finish (j : Job) (status : JobStatus) (clock : Instant) : Job :=
  { j with
    status := status
    owner := none
    lastFinishedAt := some clock }

end Job

end JobQueue
