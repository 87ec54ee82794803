import JobQueue.Contract.Suite

/-!
# Defective backends

Backends that break one promise each. They show that the trials of the contract notice it.
-/

namespace JobQueue.Contract

inductive Defect
  | none
  | errors
  | insertForgets
  | insertIgnoresWaiting
  | insertAlwaysRestarts
  | insertManyOneByOne
  | upsertInserts
  | cancelNothing
  | cancelFirstOnly
  | cancelCountsAll
  | deleteRecurrentNothing
  | deleteRecurrentCountsWrong
  | getNothing
  | claimNothing
  | claimWithoutLimit
  | claimOneOnly
  | claimNotDue
  | claimReversed
  | claimOldAttempt
  | claimOtherOwner
  | claimRepeats
  | completeNeverDeletes
  | completeAlwaysDeletes
  | completeNothing
  | completeAsFail
  | completeAnyOwner
  | retryResetsAttempt
  | retryLosesError
  | retryNothing
  | retryAnyOwner
  | retryRejectsOtherOwner
  | rescheduleKeepsAttempt
  | rescheduleLosesError
  | failCompletes
  | failNothing
  | failAnyOwner
  | heartbeatNothing
  | reclaimEveryone
  | reclaimNobody
  | reclaimSilently
deriving DecidableEq

namespace Defect

/-- A defect by its name. -/
def names : List (String × Defect) := [
  ("none", none), ("errors", errors), ("insert_forgets", insertForgets),
  ("insert_ignores_waiting", insertIgnoresWaiting),
  ("insert_always_restarts", insertAlwaysRestarts),
  ("insert_many_one_by_one", insertManyOneByOne), ("upsert_inserts", upsertInserts),
  ("cancel_nothing", cancelNothing), ("cancel_first_only", cancelFirstOnly),
  ("cancel_counts_all", cancelCountsAll), ("delete_recurrent_nothing", deleteRecurrentNothing),
  ("delete_recurrent_counts_wrong", deleteRecurrentCountsWrong), ("get_nothing", getNothing),
  ("claim_nothing", claimNothing), ("claim_without_limit", claimWithoutLimit),
  ("claim_one_only", claimOneOnly), ("claim_not_due", claimNotDue),
  ("claim_reversed", claimReversed), ("claim_old_attempt", claimOldAttempt),
  ("claim_other_owner", claimOtherOwner), ("claim_repeats", claimRepeats),
  ("complete_never_deletes", completeNeverDeletes),
  ("complete_always_deletes", completeAlwaysDeletes), ("complete_nothing", completeNothing),
  ("complete_as_fail", completeAsFail), ("complete_any_owner", completeAnyOwner),
  ("retry_resets_attempt", retryResetsAttempt), ("retry_loses_error", retryLosesError),
  ("retry_nothing", retryNothing), ("retry_any_owner", retryAnyOwner),
  ("retry_rejects_other_owner", retryRejectsOtherOwner),
  ("reschedule_keeps_attempt", rescheduleKeepsAttempt),
  ("reschedule_loses_error", rescheduleLosesError), ("fail_completes", failCompletes),
  ("fail_nothing", failNothing), ("fail_any_owner", failAnyOwner),
  ("heartbeat_nothing", heartbeatNothing), ("reclaim_everyone", reclaimEveryone),
  ("reclaim_nobody", reclaimNobody), ("reclaim_silently", reclaimSilently)]

/-- A worker that no trial knows. -/
def stranger : WorkerId := ⟨⟨BitVec.allOnes 128⟩⟩

/-- The claim that a job is really under, in place of the named one. -/
def trueClaim (s : Store) (p : ProcessingJob) : ProcessingJob :=
  match (s.get? p.id).bind (·.owner) with
  | some owner => ⟨p.id, owner⟩
  | Option.none => p

/-- Whether the job is there without being under the named claim. -/
def isOthers (s : Store) (p : ProcessingJob) : Bool :=
  (s.get? p.id).any fun job => job.owner ≠ some p.owner

/-- Changes the result of an answer. -/
def mapResult {α : Type} (f : α → α) : Answer α × Store → Answer α × Store
  | (.ok a, s) => (.ok (f a), s)
  | other => other

/-- Answers a call with the defect. -/
def answer (d : Defect) (clock : Instant) (c : Call) (s : Store) : Answer c.Result × Store :=
  match d, c with
  | errors, .insert _ => (.error (.error .badState), s)
  | errors, .insertMany _ => (.error (.error .badState), s)
  | errors, .claim .. => (.error (.error .badState), s)
  | errors, .complete .. => (.error (.error .badState), s)
  | insertForgets, .insert job => (.ok job.id, s)
  | insertIgnoresWaiting, .insert job => Store.answer clock (.insert { job with waits := false }) s
  | insertAlwaysRestarts, .insert job =>
    Store.answer clock (.insert { job with restartOnCrash := true }) s
  | insertManyOneByOne, .insertMany jobs =>
    let (r, s) := s.insertEach clock jobs
    (.ofExcept r, s)
  | upsertInserts, .upsertRecurrent job => Store.answer clock (.insert job) s
  | cancelNothing, .cancel _ => (.ok (0 : Nat), s)
  | cancelFirstOnly, .cancel ids => Store.answer clock (.cancel (ids.take 1)) s
  | cancelCountsAll, .cancel ids =>
    mapResult (fun _ => ids.length) (Store.answer clock (.cancel ids) s)
  | deleteRecurrentNothing, .deleteRecurrent _ => (.ok (0 : Nat), s)
  | deleteRecurrentCountsWrong, .deleteRecurrent jobType =>
    mapResult (fun (n : Nat) => n + 1) (Store.answer clock (.deleteRecurrent jobType) s)
  | getNothing, .get _ => (.ok Option.none, s)
  | claimNothing, .claim .. => (.ok [], s)
  | claimWithoutLimit, .claim owner _ now => Store.answer clock (.claim owner s.jobs.length now) s
  | claimOneOnly, .claim owner limit now => Store.answer clock (.claim owner (min limit 1) now) s
  | claimNotDue, .claim owner limit _ => Store.answer clock (.claim owner limit .last) s
  | claimReversed, .claim owner limit now =>
    mapResult List.reverse (Store.answer clock (.claim owner limit now) s)
  | claimOldAttempt, .claim owner limit now =>
    mapResult (List.map fun (job : ClaimedJob) => { job with attempt := job.attempt - 1 })
      (Store.answer clock (.claim owner limit now) s)
  | claimOtherOwner, .claim _ limit now => Store.answer clock (.claim stranger limit now) s
  | claimRepeats, .claim owner limit now =>
    mapResult (fun (jobs : List ClaimedJob) => jobs ++ jobs.take 1)
      (Store.answer clock (.claim owner limit now) s)
  | completeNeverDeletes, .complete jobs _ => Store.answer clock (.complete jobs false) s
  | completeAlwaysDeletes, .complete jobs _ => Store.answer clock (.complete jobs true) s
  | completeNothing, .complete .. => (.ok (), s)
  | completeAsFail, .complete jobs _ =>
    (.ok (), jobs.foldl (fun s f => s.fail f.job "" clock) s)
  | completeAnyOwner, .complete jobs delete =>
    Store.answer clock (.complete (jobs.map fun f => { f with job := trueClaim s f.job }) delete) s
  | retryResetsAttempt, .retry job scheduledAt error =>
    Store.answer clock (.reschedule job scheduledAt (some error)) s
  | retryLosesError, .retry job scheduledAt _ => Store.answer clock (.retry job scheduledAt "") s
  | retryNothing, .retry .. => (.ok (), s)
  | retryAnyOwner, .retry job scheduledAt error =>
    Store.answer clock (.retry (trueClaim s job) scheduledAt error) s
  | retryRejectsOtherOwner, .retry job scheduledAt error =>
    if isOthers s job then (.error (.error .badState), s)
    else Store.answer clock (.retry job scheduledAt error) s
  | rescheduleKeepsAttempt, .reschedule job scheduledAt error =>
    Store.answer clock (.retry job scheduledAt (error.getD "")) s
  | rescheduleLosesError, .reschedule job scheduledAt _ =>
    Store.answer clock (.reschedule job scheduledAt Option.none) s
  | failCompletes, .fail job _ =>
    let successor := ((s.get? job.id).map (·.successor)).getD .none
    Store.answer clock (.complete [⟨job, successor⟩] false) s
  | failNothing, .fail .. => (.ok (), s)
  | failAnyOwner, .fail job error => Store.answer clock (.fail (trueClaim s job) error) s
  | heartbeatNothing, .heartbeat .. => (.ok (), s)
  | reclaimEveryone, .reclaim _ => Store.answer clock (.reclaim .last) s
  | reclaimNobody, .reclaim _ => (.ok [], s)
  | reclaimSilently, .reclaim staleBefore =>
    mapResult (fun _ => []) (Store.answer clock (.reclaim staleBefore) s)
  | _, c => Store.answer clock c s

/-- The store with the defect. -/
def backend (d : Defect) : Backend Store := ⟨d.answer⟩

end Defect

end JobQueue.Contract
