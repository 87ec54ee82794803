import JobQueue.Database.Value
import JobQueue.Error
import JobQueue.Job

/-!
# Rows

The table of jobs has a column for each property of a job, and two for its successor of which at
most one is filled. What a database returns is cells, each of which may be empty; a row is what is
left once the cells have been checked; and a row is a job if its count of attempts fits one.
-/

namespace JobQueue

/-- The label of a status in a database. -/
def JobStatus.label : JobStatus → String
  | .scheduled => "scheduled"
  | .waitingPrev => "waiting_prev"
  | .processing => "processing"
  | .completed => "completed"
  | .failed => "failed"

def JobStatus.all : List JobStatus := [.scheduled, .waitingPrev, .processing, .completed, .failed]

def JobStatus.ofLabel? (label : String) : Option JobStatus :=
  JobStatus.all.find? (·.label = label)

end JobQueue

namespace JobQueue.Database

/-! ## Columns and cells -/

inductive Column
  | id
  | jobType
  | parameter
  | cron
  | status
  | attempt
  | createdAt
  | scheduledAt
  | lastStartedAt
  | lastFinishedAt
  | ownerId
  | nextJobId
  | sequenceId
  | restartOnCrash
  | lastError
deriving DecidableEq

def Column.name : Column → String
  | .id => "id"
  | .jobType => "job_type"
  | .parameter => "parameter"
  | .cron => "cron"
  | .status => "status"
  | .attempt => "attempt"
  | .createdAt => "created_at"
  | .scheduledAt => "scheduled_at"
  | .lastStartedAt => "last_started_at"
  | .lastFinishedAt => "last_finished_at"
  | .ownerId => "owner_id"
  | .nextJobId => "next_job_id"
  | .sequenceId => "sequence_id"
  | .restartOnCrash => "restart_on_crash"
  | .lastError => "last_error"

/-- The values of a record of the table by column, as far as there are any. -/
structure Cells where
  id : Option Uuid := none
  jobType : Option String := none
  parameter : Option String := none
  cron : Option String := none
  status : Option String := none
  attempt : Option Int := none
  createdAt : Option Timestamp := none
  scheduledAt : Option Timestamp := none
  lastStartedAt : Option Timestamp := none
  lastFinishedAt : Option Timestamp := none
  ownerId : Option Uuid := none
  nextJobId : Option Uuid := none
  sequenceId : Option Uuid := none
  restartOnCrash : Option Bool := none
  lastError : Option String := none
deriving DecidableEq

/-- The value in a column. -/
def Cells.value (c : Cells) : Column → Value
  | .id => .ofOption .uuid c.id
  | .jobType => .ofOption .text c.jobType
  | .parameter => .ofOption .text c.parameter
  | .cron => .ofOption .text c.cron
  | .status => .ofOption .text c.status
  | .attempt => .ofOption .integer c.attempt
  | .createdAt => .ofOption .timestamp c.createdAt
  | .scheduledAt => .ofOption .timestamp c.scheduledAt
  | .lastStartedAt => .ofOption .timestamp c.lastStartedAt
  | .lastFinishedAt => .ofOption .timestamp c.lastFinishedAt
  | .ownerId => .ofOption .uuid c.ownerId
  | .nextJobId => .ofOption .uuid c.nextJobId
  | .sequenceId => .ofOption .uuid c.sequenceId
  | .restartOnCrash => .ofOption .bool c.restartOnCrash
  | .lastError => .ofOption .text c.lastError

/-! ## Successors -/

/-- The columns of a successor: the next job, and the group. -/
def successorColumns : Successor → Option Uuid × Option Uuid
  | .none => (none, none)
  | .next id => (some id.uuid, none)
  | .sequence id => (none, some id.uuid)

/-- The successor in two columns. If both are filled, the next job counts. -/
def successorOf (nextJobId sequenceId : Option Uuid) : Successor :=
  match nextJobId, sequenceId with
  | some id, _ => .next ⟨id⟩
  | none, some id => .sequence ⟨id⟩
  | none, none => .none

/-! ## Rows -/

/-- A complete record of a job. A database counts attempts in a wider integer than a job does. -/
structure JobRow where
  id : Uuid
  jobType : String
  parameter : String
  cron : Option String
  status : JobStatus
  attempt : Int
  createdAt : Instant
  scheduledAt : Instant
  lastStartedAt : Option Instant
  lastFinishedAt : Option Instant
  ownerId : Option Uuid
  nextJobId : Option Uuid
  sequenceId : Option Uuid
  restartOnCrash : Bool
  lastError : Option String
deriving DecidableEq

/-- Why a cell cannot be read. -/
inductive CellFault
  | empty
  | unknownStatus (label : String)
deriving DecidableEq

def CellFault.message : CellFault → String
  | .empty => "unexpected null; try decoding as an `Option`"
  | .unknownStatus label => "invalid value " ++ Text.quoted label ++ " for enum JobStatus"

/-- The place of a cell: a column of a record, or the value of a result that is a single value. -/
inductive Place
  | column (c : Column)
  | value
deriving DecidableEq

def Place.text : Place → String
  | .column c => Text.quoted c.name
  | .value => "0"

/-- A cell that cannot be read. -/
structure DecodeError where
  place : Place
  fault : CellFault
deriving DecidableEq

def DecodeError.message (e : DecodeError) : String :=
  "error occurred while decoding column " ++ e.place.text ++ ": " ++ e.fault.message

/-- A cell that must be filled. -/
def required {α : Type} (c : Column) : Option α → Except DecodeError α
  | some a => .ok a
  | none => .error ⟨.column c, .empty⟩

def requiredStatus (cell : Option String) : Except DecodeError JobStatus :=
  match cell with
  | none => .error ⟨.column .status, .empty⟩
  | some label =>
    match JobStatus.ofLabel? label with
    | some status => .ok status
    | none => .error ⟨.column .status, .unknownStatus label⟩

/-- The row in a record. The first column that cannot be read is reported. -/
def Cells.toRow (c : Cells) : Except DecodeError JobRow := do
  let id ← required .id c.id
  let jobType ← required .jobType c.jobType
  let parameter ← required .parameter c.parameter
  let status ← requiredStatus c.status
  let attempt ← required .attempt c.attempt
  let createdAt ← required .createdAt c.createdAt
  let scheduledAt ← required .scheduledAt c.scheduledAt
  let restartOnCrash ← required .restartOnCrash c.restartOnCrash
  .ok {
    id, jobType, parameter
    cron := c.cron
    status, attempt
    createdAt := createdAt.instant
    scheduledAt := scheduledAt.instant
    lastStartedAt := c.lastStartedAt.map (·.instant)
    lastFinishedAt := c.lastFinishedAt.map (·.instant)
    ownerId := c.ownerId
    nextJobId := c.nextJobId
    sequenceId := c.sequenceId
    restartOnCrash
    lastError := c.lastError }

namespace JobRow

/-- The order in which claimed jobs are handed out. -/
def isBefore (a b : JobRow) : Bool :=
  a.scheduledAt < b.scheduledAt
    || (a.scheduledAt = b.scheduledAt && a.createdAt ≤ b.createdAt)

/-- The count of attempts, if a job can count so far. -/
def attemptCount (r : JobRow) : Except BackendError UInt16 :=
  if 0 ≤ r.attempt ∧ r.attempt < 65536 then .ok r.attempt.toNat.toUInt16 else .error .badState

def successor (r : JobRow) : Successor := successorOf r.nextJobId r.sequenceId

/-- The job in a row. -/
def toJob (r : JobRow) : Except BackendError Job := do
  let attempt ← r.attemptCount
  .ok {
    id := ⟨r.id⟩
    jobType := r.jobType
    parameter := r.parameter
    cron := r.cron
    status := r.status
    attempt
    createdAt := r.createdAt
    scheduledAt := r.scheduledAt
    lastStartedAt := r.lastStartedAt
    lastFinishedAt := r.lastFinishedAt
    owner := r.ownerId.map WorkerId.mk
    successor := r.successor
    restartOnCrash := r.restartOnCrash
    lastError := r.lastError }

/-- The claimed job in a row, which has to have an owner. -/
def toClaimed (r : JobRow) : Except BackendError ClaimedJob :=
  match r.ownerId with
  | none => .error .badState
  | some owner => do
    let attempt ← r.attemptCount
    .ok {
      id := ⟨r.id⟩
      owner := ⟨owner⟩
      jobType := r.jobType
      parameter := r.parameter
      cron := r.cron
      attempt
      scheduledAt := r.scheduledAt
      successor := r.successor }

/-- The row of a job. -/
def ofJob (j : Job) : JobRow where
  id := j.id.uuid
  jobType := j.jobType
  parameter := j.parameter
  cron := j.cron
  status := j.status
  attempt := j.attempt.toNat
  createdAt := j.createdAt
  scheduledAt := j.scheduledAt
  lastStartedAt := j.lastStartedAt
  lastFinishedAt := j.lastFinishedAt
  ownerId := j.owner.map (·.uuid)
  nextJobId := (successorColumns j.successor).1
  sequenceId := (successorColumns j.successor).2
  restartOnCrash := j.restartOnCrash
  lastError := j.lastError

end JobRow

/-! ## Inserted records -/

/-- What is inserted for a new job. The database fills the other columns. -/
def Cells.ofNewJob (job : NewJob) : Cells where
  id := some job.id.uuid
  jobType := some job.jobType
  parameter := some job.parameter
  cron := job.cron
  status := some job.initialStatus.label
  scheduledAt := some (.ofInstant job.scheduledAt)
  nextJobId := (successorColumns job.successor).1
  sequenceId := (successorColumns job.successor).2
  restartOnCrash := some job.restartOnCrash

/-- What the database fills in: no attempts yet, and the time of the insertion. -/
def Cells.withDefaults (c : Cells) (createdAt : Timestamp) : Cells :=
  { c with attempt := some 0, createdAt := some createdAt }

/-- A job that was put back to the schedule, or found with a worker that is gone. -/
structure ReclaimedRow where
  id : Uuid
  jobType : String
deriving DecidableEq

def Cells.toReclaimed (c : Cells) : Except DecodeError ReclaimedRow := do
  let id ← required .id c.id
  let jobType ← required .jobType c.jobType
  .ok ⟨id, jobType⟩

def ReclaimedRow.toJob (r : ReclaimedRow) (restarted : Bool) : ReclaimedJob :=
  ⟨⟨r.id⟩, r.jobType, restarted⟩

/-- A record whose only value is an id. -/
def Cells.toId (c : Cells) : Except DecodeError Uuid :=
  match c.id with
  | some id => .ok id
  | none => .error ⟨.value, .empty⟩

end JobQueue.Database
