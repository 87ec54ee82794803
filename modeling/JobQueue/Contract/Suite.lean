import JobQueue.Contract.Trial

/-!
# The backend contract

The trials that every backend has to pass. Each is about one promise: inserting as a whole, claiming
the oldest due jobs once, ending a claim only for its owner, unlocking successors in order, and
recovering the jobs of workers that are gone.
-/

namespace JobQueue.Contract

open Trial

variable {σ : Type}

/-! ## Sample jobs -/

def defaultJobType : String := "job_type"

/-- A job that is due. -/
def sampleJob : Trial σ NewJob := do
  let id ← newJobId
  let scheduledAt ← later (← now) (-1000)
  return {
    id
    jobType := defaultJobType
    parameter := "\"data\""
    cron := none
    scheduledAt
    waits := false
    successor := .none
    restartOnCrash := true }

def waitingJob : Trial σ NewJob := do return { ← sampleJob with waits := true }

/-- A job scheduled some time from now. -/
def jobDueIn (millis : Int) : Trial σ NewJob := do
  let job ← sampleJob
  return { job with scheduledAt := ← later (← now) millis }

def recurrentJob (cron : String) : Trial σ NewJob := do
  return { ← sampleJob with cron := some cron }

def anHour : Int := 3600000
def aMinute : Int := 60000

/-- Two jobs of which the second waits for the first. -/
def insertPair : Trial σ (JobId × JobId) := do
  let second ← waitingJob
  let first ← sampleJob
  discard <| ask (.insertMany [{ first with successor := .next second.id }, second])
  return (first.id, second.id)

/-! ## Inserting -/

def insertAndGetJob : Trial σ Unit := do
  let new ← sampleJob
  let id ← ask (.insert new)
  let job ← stored id
  check (id = new.id)
  check (job.status = .scheduled)
  check (job.jobType = new.jobType)
  check (job.parameter = new.parameter)
  check (job.scheduledAt = new.scheduledAt)
  check (job.attempt = 0)
  check (job.owner = none)
  let waiting ← ask (.insert (← waitingJob))
  check ((← stored waiting).status = .waitingPrev)

def insertManyIsAtomic : Trial σ Unit := do
  let existing ← ask (.insert (← sampleJob))
  let fresh ← sampleJob
  let duplicate := { ← sampleJob with id := existing }
  let result ← attempt (.insertMany [fresh, duplicate])
  check (!result.isOk)
  check ((← ask (.get fresh.id)).isNone)

def getJobNotFound : Trial σ Unit := do
  check ((← ask (.get (← newJobId))).isNone)

/-! ## Claiming -/

def claimReturnsDueJobsOldestFirst : Trial σ Unit := do
  let owner ← newWorkerId
  let newer ← ask (.insert (← sampleJob))
  let older ← ask (.insert (← jobDueIn (-anHour)))
  let jobs ← ask (.claim owner 10 (← clock))
  check (jobs.map (·.id) = [older, newer])

def claimSkipsFutureWaitingAndProcessingJobs : Trial σ Unit := do
  let owner ← newWorkerId
  discard <| ask (.insert (← jobDueIn anHour))
  discard <| ask (.insert (← waitingJob))
  let due ← ask (.insert (← sampleJob))
  let first ← ask (.claim owner 10 (← clock))
  let second ← ask (.claim owner 10 (← clock))
  check (first.map (·.id) = [due])
  check second.isEmpty

/-- Inserts a number of sample jobs. -/
def insertSamples : Nat → Trial σ Unit
  | 0 => return
  | count + 1 => do
    discard <| ask (.insert (← sampleJob))
    insertSamples count

def claimRespectsLimit : Trial σ Unit := do
  let owner ← newWorkerId
  insertSamples 5
  check ((← ask (.claim owner 3 (← clock))).length = 3)
  check ((← ask (.claim owner 3 (← clock))).length = 2)
  check ((← ask (.claim owner 3 (← clock))).length = 0)

def claimMarksJobProcessing : Trial σ Unit := do
  let owner ← newWorkerId
  let next ← newJobId
  let id ← ask (.insert { ← sampleJob with successor := .next next })
  let claimed ← claimOne owner
  let job ← stored id
  check (claimed.id = id)
  check (claimed.owner = owner)
  check (claimed.attempt = 1)
  check (claimed.jobType = defaultJobType)
  check (claimed.successor = .next next)
  check (job.status = .processing)
  check (job.owner = some owner)
  check (job.attempt = 1)
  check job.lastStartedAt.isSome

/-- The identifiers that a number of workers claim, four at most each. -/
def claimInTurn : Nat → Trial σ (List JobId)
  | 0 => return []
  | count + 1 => do
    let jobs ← ask (.claim (← newWorkerId) 4 (← clock))
    return jobs.map (·.id) ++ (← claimInTurn count)

def concurrentClaimsAreDisjoint : Trial σ Unit := do
  insertSamples 20
  let ids ← claimInTurn 8
  check (ids.length = 20)
  check (ids.eraseDups.length = 20)

/-! ## Completing -/

def completeJobsMarksCompleted : Trial σ Unit := do
  let id ← ask (.insert (← sampleJob))
  let claimed ← claimOne (← newWorkerId)
  ask (.complete [claimed.finished] false)
  let job ← stored id
  check (job.status = .completed)
  check job.lastFinishedAt.isSome

def completeJobsDeletes : Trial σ Unit := do
  let id ← ask (.insert (← sampleJob))
  let claimed ← claimOne (← newWorkerId)
  ask (.complete [claimed.finished] true)
  check ((← ask (.get id)).isNone)

def completeJobsUnlocksNextJob : Trial σ Unit := do
  let (_, second) ← insertPair
  let claimed ← claimOne (← newWorkerId)
  check ((← stored second).status = .waitingPrev)
  ask (.complete [claimed.finished] true)
  check ((← stored second).status = .scheduled)

/-- Completes the members of a group one after the other. -/
def completeInOrder (owner : WorkerId) : List JobId → Trial σ Unit
  | [] => return
  | id :: waiting => do
    let claimed ← claimOne owner
    check (claimed.id = id)
    for w in waiting do
      check ((← stored w).status = .waitingPrev)
    ask (.complete [claimed.finished] false)
    completeInOrder owner waiting

def completeJobsPromotesSequenceInOrder : Trial σ Unit := do
  let owner ← newWorkerId
  let sequence := Successor.sequence (← newSequenceId)
  let base ← later (← now) (-aMinute)
  let member (seconds : Int) : Trial σ NewJob := do
    return { ← sampleJob with successor := sequence, scheduledAt := ← later base (seconds * 1000) }
  let first ← member 0
  let second ← member 1
  let third ← member 2
  let ids ← ask (.insertMany [first, { second with waits := true }, { third with waits := true }])
  completeInOrder owner ids
  check (← ask (.claim owner 10 (← clock))).isEmpty

def completeJobsIgnoresOtherOwner : Trial σ Unit := do
  let (first, second) ← insertPair
  let claimed ← claimOne (← newWorkerId)
  let intruder : FinishedJob := ⟨⟨first, ← newWorkerId⟩, claimed.successor⟩
  ask (.complete [intruder] false)
  check ((← stored first).status = .processing)
  check ((← stored second).status = .waitingPrev)

/-! ## Failing and rescheduling -/

def retryJobKeepsAttempt : Trial σ Unit := do
  let id ← ask (.insert (← sampleJob))
  let claimed ← claimOne (← newWorkerId)
  let scheduledAt ← later (← now) 5000
  ask (.retry claimed.processing scheduledAt "boom")
  let job ← stored id
  check (job.status = .scheduled)
  check (job.scheduledAt = scheduledAt)
  check (job.attempt = 1)
  check (job.owner = none)
  check (job.lastError = some "boom")
  check job.lastFinishedAt.isSome

def retryJobIgnoresOtherOwner : Trial σ Unit := do
  let id ← ask (.insert (← sampleJob))
  let claimed ← claimOne (← newWorkerId)
  let intruder : ProcessingJob := ⟨id, ← newWorkerId⟩
  ask (.retry intruder (← now) "boom")
  ask (.fail intruder "boom")
  let job ← stored id
  check (job.status = .processing)
  check (job.owner = some claimed.owner)

def rescheduleRecurrentResetsAttempt : Trial σ Unit := do
  let id ← ask (.insert (← recurrentJob "0 */5 * * * *"))
  let claimed ← claimOne (← newWorkerId)
  check claimed.isRecurrent
  let next ← later (← now) (5 * aMinute)
  ask (.reschedule claimed.processing next (some "boom"))
  let job ← stored id
  check (job.status = .scheduled)
  check (job.scheduledAt = next)
  check (job.attempt = 0)
  check (job.lastError = some "boom")
  check job.lastFinishedAt.isSome

def failJobIsTerminalAndDoesNotUnlock : Trial σ Unit := do
  let (first, second) ← insertPair
  let claimed ← claimOne (← newWorkerId)
  ask (.fail claimed.processing "fatal")
  let job ← stored first
  check (job.status = .failed)
  check (job.lastError = some "fatal")
  check ((← stored second).status = .waitingPrev)

/-! ## Recovering -/

/-- A worker that was last heard of ten minutes ago, with a job, and a time since when it counts as
gone. -/
def insertStuck (restartOnCrash : Bool) : Trial σ (JobId × Instant) := do
  let worker ← newWorkerId
  let heard ← later (← now) (-10 * aMinute)
  ask (.heartbeat worker heard)
  let id ← ask (.insert { ← sampleJob with restartOnCrash })
  discard <| claimOne worker
  return (id, ← later heard aMinute)

def reclaimStuckRestartsEligibleJobs : Trial σ Unit := do
  let (id, staleBefore) ← insertStuck true
  let reclaimed ← ask (.reclaim staleBefore)
  check (reclaimed = [⟨id, defaultJobType, true⟩])
  let job ← stored id
  check (job.status = .scheduled)
  check (job.attempt = 0)
  check (job.owner = none)
  let claimed ← claimOne (← newWorkerId)
  check (claimed.id = id)
  check (claimed.attempt = 1)
  ask (.complete [claimed.finished] false)
  check ((← stored id).status = .completed)

def reclaimStuckReportsIneligibleJobs : Trial σ Unit := do
  let (id, staleBefore) ← insertStuck false
  let reclaimed ← ask (.reclaim staleBefore)
  check (reclaimed.map (·.restarted) = [false])
  let job ← stored id
  check (job.status = .processing)
  check (job.attempt = 1)

def reclaimStuckIgnoresLiveWorkers : Trial σ Unit := do
  let worker ← newWorkerId
  ask (.heartbeat worker (← clock))
  let id ← ask (.insert (← sampleJob))
  discard <| claimOne worker
  let reclaimed ← ask (.reclaim (← later (← clock) (-aMinute)))
  check reclaimed.isEmpty
  check ((← stored id).status = .processing)

/-! ## Cancelling and replacing -/

def cancelJobsOnlyDeletesNotStarted : Trial σ Unit := do
  let scheduled ← ask (.insert (← sampleJob))
  let processing ← ask (.insert (← jobDueIn (-anHour)))
  discard <| claimOne (← newWorkerId)
  let waiting ← ask (.insert (← waitingJob))
  let deleted ← ask (.cancel [scheduled, processing, waiting])
  check (deleted = 2)
  check ((← ask (.get scheduled)).isNone)
  check ((← ask (.get waiting)).isNone)
  check ((← ask (.get processing)).isSome)

def upsertRecurrentReplacesExisting : Trial σ Unit := do
  let first ← ask (.upsertRecurrent (← recurrentJob "0 */5 * * * *"))
  let other : NewJob := {
    id := ← newJobId
    jobType := defaultJobType
    parameter := "\"other\""
    cron := some "0 */10 * * * *"
    scheduledAt := ← clock
    waits := false
    successor := .none
    restartOnCrash := true }
  let second ← ask (.upsertRecurrent other)
  check (first = second)
  let job ← stored first
  check (job.cron = some "0 */10 * * * *")
  check (job.parameter = "\"other\"")

def deleteRecurrent : Trial σ Unit := do
  let recurrent ← ask (.upsertRecurrent (← recurrentJob "0 */5 * * * *"))
  let otherType := { ← recurrentJob "0 */5 * * * *" with jobType := "other_job_type" }
  let other ← ask (.upsertRecurrent otherType)
  let oneOff ← ask (.insert (← sampleJob))
  let deleted ← ask (.deleteRecurrent defaultJobType)
  check (deleted = 1)
  check ((← ask (.get recurrent)).isNone)
  check ((← ask (.get other)).isSome)
  check ((← ask (.get oneOff)).isSome)

/-! ## The suite -/

/-- All trials by name. -/
def suite (σ : Type) : List (String × Trial σ Unit) := [
  ("insert_and_get_job", insertAndGetJob),
  ("insert_many_is_atomic", insertManyIsAtomic),
  ("get_job_not_found", getJobNotFound),
  ("claim_returns_due_jobs_oldest_first", claimReturnsDueJobsOldestFirst),
  ("claim_skips_future_waiting_and_processing_jobs", claimSkipsFutureWaitingAndProcessingJobs),
  ("claim_respects_limit", claimRespectsLimit),
  ("claim_marks_job_processing", claimMarksJobProcessing),
  ("concurrent_claims_are_disjoint", concurrentClaimsAreDisjoint),
  ("complete_jobs_marks_completed", completeJobsMarksCompleted),
  ("complete_jobs_deletes", completeJobsDeletes),
  ("complete_jobs_unlocks_next_job", completeJobsUnlocksNextJob),
  ("complete_jobs_promotes_sequence_in_order", completeJobsPromotesSequenceInOrder),
  ("complete_jobs_ignores_other_owner", completeJobsIgnoresOtherOwner),
  ("retry_job_keeps_attempt", retryJobKeepsAttempt),
  ("retry_job_ignores_other_owner", retryJobIgnoresOtherOwner),
  ("reschedule_recurrent_resets_attempt", rescheduleRecurrentResetsAttempt),
  ("fail_job_is_terminal_and_does_not_unlock", failJobIsTerminalAndDoesNotUnlock),
  ("reclaim_stuck_restarts_eligible_jobs", reclaimStuckRestartsEligibleJobs),
  ("reclaim_stuck_reports_ineligible_jobs", reclaimStuckReportsIneligibleJobs),
  ("reclaim_stuck_ignores_live_workers", reclaimStuckIgnoresLiveWorkers),
  ("cancel_jobs_only_deletes_not_started", cancelJobsOnlyDeletesNotStarted),
  ("upsert_recurrent_replaces_existing", upsertRecurrentReplacesExisting),
  ("delete_recurrent", deleteRecurrent)]

end JobQueue.Contract
