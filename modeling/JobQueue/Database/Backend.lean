import JobQueue.Backend
import JobQueue.Database.Session

/-!
# A database as backend

How the calls of a backend become statements, and what becomes of the replies. Whatever needs
several statements runs as a transaction.
-/

namespace JobQueue.Database

open Session

/-! ## Inserting and deleting -/

def insertJob (job : NewJob) : Query BackendError JobId := do
  let _ ← (execute (.insertJob job)).failingAs (Fault.toInsert job.id)
  return job.id

/-- Inserts all of the jobs or none. -/
def insertJobs (jobs : List NewJob) : Query BackendError (List JobId) :=
  transaction Fault.toBackend (jobs.mapM insertJob)

def upsertRecurrent (job : NewJob) : Query BackendError JobId := do
  let id ← (fetchFirst (.upsertRecurrent job) Cells.toId).failingAs (Fault.toInsert job.id)
  return ⟨id⟩

/-! ## Reading and claiming -/

def loadJob (id : JobId) : Query BackendError (Option Job) := do
  match ← (fetchFirst? (.selectJob id) Cells.toRow).failingAs Fault.toBackend with
  | none => return none
  | some row => some <$> .ofExcept row.toJob

/-- The largest limit that a statement can carry. -/
def maxLimit : Nat := 9223372036854775807

/-- Claims due jobs. The order of a result is not the order in which the jobs are due. -/
def claimJobs (owner : WorkerId) (limit : Nat) (now : Instant) :
    Query BackendError (List ClaimedJob) := do
  if limit = 0 then return []
  else
    let rows ← (fetch (.claim owner (min limit maxLimit) now) Cells.toRow).failingAs Fault.toBackend
    .ofExcept ((rows.mergeSort JobRow.isBefore).mapM (·.toClaimed))

/-! ## Ending claims -/

/-- Unlocks what the finished jobs name: the next jobs all at once, and one member of a group for
every finished one. -/
def unlockSuccessors (links : List (Option Uuid × Option Uuid)) : Query Fault Unit := do
  let next := links.filterMap (·.1)
  if next ≠ [] then
    let _ ← execute (.unlockJobs (next.map JobId.mk))
  (links.filterMap (·.2)).forM fun sequence => do
    let _ ← execute (.promoteMember ⟨sequence⟩)

def finishJobs (jobs : List FinishedJob) (delete : Bool) : Query BackendError Unit :=
  if jobs = [] then return ()
  else
    (transaction id do
      let links ← fetch (.finish (jobs.map (·.job)) delete) fun c =>
        .ok (c.nextJobId, c.sequenceId)
      unlockSuccessors links).failingAs Fault.toBackend

/-- A write that ends one claim. If the claim is no longer held, nothing is written. -/
def endClaim (st : Statement) : Query BackendError Unit := do
  let affected ← (execute st).failingAs Fault.toBackend
  if affected ≤ 1 then return () else throw .badState

/-! ## Workers -/

/-- Forgets the workers without a sign of life, and reports the jobs that they were processing:
first those that are restarted. -/
def reclaimJobs (staleBefore : Instant) : Query BackendError (List ReclaimedJob) :=
  (transaction id do
    let dead ← fetch (.deleteDeadWorkers staleBefore) Cells.toId
    if dead = [] then return []
    else
      let dead := dead.map WorkerId.mk
      let restarted ← fetch (.restartJobs dead) Cells.toReclaimed
      let abandoned ← fetch (.selectAbandoned dead) Cells.toReclaimed
      return restarted.map (·.toJob true) ++ abandoned.map (·.toJob false)).failingAs
    Fault.toBackend

/-! ## Calls -/

/-- The query that answers a call. -/
def query : (c : Call) → Query BackendError c.Result
  | .insert job => insertJob job
  | .insertMany jobs => insertJobs jobs
  | .upsertRecurrent job => upsertRecurrent job
  | .cancel ids => (execute (.deleteNotStarted ids)).failingAs Fault.toBackend
  | .deleteRecurrent jobType => (execute (.deleteRecurrent jobType)).failingAs Fault.toBackend
  | .get id => loadJob id
  | .claim owner limit now => claimJobs owner limit now
  | .complete jobs delete => finishJobs jobs delete
  | .retry job scheduledAt error => endClaim (.retry job scheduledAt error)
  | .reschedule job scheduledAt error => endClaim (.reschedule job scheduledAt error)
  | .fail job error => endClaim (.fail job error)
  | .heartbeat worker now => do
    let _ ← (execute (.recordHeartbeat worker now)).failingAs Fault.toBackend
  | .reclaim staleBefore => reclaimJobs staleBefore

/-- A session as a backend. The times that are recorded on the side are those of the database, so
the clock plays no part. -/
def backend : Backend Session where
  answer _ c s :=
    let (r, s) := (query c).run s
    (.ofExcept r, s)

end JobQueue.Database
