import JobQueue.Store

/-!
# Backends

A backend answers the calls of workers and of those who enqueue jobs. A call is a value and its type
of result follows from it, so that a backend is one function: the store is one, and others are made
from it by changing what some calls do.
-/

namespace JobQueue

/-- What can be asked of a backend. -/
inductive Call
  | insert (job : NewJob)
  | insertMany (jobs : List NewJob)
  | upsertRecurrent (job : NewJob)
  | cancel (ids : List JobId)
  | deleteRecurrent (jobType : String)
  | get (id : JobId)
  | claim (owner : WorkerId) (limit : Nat) (now : Instant)
  | complete (jobs : List FinishedJob) (delete : Bool)
  | retry (job : ProcessingJob) (scheduledAt : Instant) (error : String)
  | reschedule (job : ProcessingJob) (scheduledAt : Instant) (error : Option String)
  | fail (job : ProcessingJob) (error : String)
  | heartbeat (worker : WorkerId) (now : Instant)
  | reclaim (staleBefore : Instant)
deriving DecidableEq

/-- What a call returns. -/
@[reducible] def Call.Result : Call → Type
  | .insert _ => JobId
  | .insertMany _ => List JobId
  | .upsertRecurrent _ => JobId
  | .cancel _ => Nat
  | .deleteRecurrent _ => Nat
  | .get _ => Option Job
  | .claim .. => List ClaimedJob
  | .complete .. => Unit
  | .retry .. => Unit
  | .reschedule .. => Unit
  | .fail .. => Unit
  | .heartbeat .. => Unit
  | .reclaim _ => List ReclaimedJob

/-- The answer to a call: its result, an error, or a crash in place of an answer. -/
abbrev Answer (α : Type) := Except (Stop BackendError) α

/-- A backend over a state: it answers a call at a time of the clock. -/
structure Backend (σ : Type) where
  answer : Instant → (c : Call) → σ → Answer c.Result × σ

/-- An answer without the possibility of a crash. -/
def Answer.ofExcept {α : Type} : Except BackendError α → Answer α
  | .ok a => .ok a
  | .error e => .error (.error e)

/-- Answers a call from the store. -/
def Store.answer (clock : Instant) : (c : Call) → Store → Answer c.Result × Store
  | .insert job, s =>
    match s.insert job clock with
    | .ok s => (.ok job.id, s)
    | .error e => (.error (.error e), s)
  | .insertMany jobs, s =>
    let (r, s) := s.insertMany jobs clock
    (.ofExcept r, s)
  | .upsertRecurrent job, s =>
    let (r, s) := s.upsertRecurrent job clock
    (.ofExcept r, s)
  | .cancel ids, s =>
    let (n, s) := s.cancel ids
    (.ok n, s)
  | .deleteRecurrent jobType, s =>
    let (n, s) := s.deleteRecurrent jobType
    (.ok n, s)
  | .get id, s => (.ok (s.get? id), s)
  | .claim owner limit now, s => s.claim owner limit now
  | .complete jobs delete, s => (.ok (), s.complete jobs delete clock)
  | .retry job scheduledAt error, s => (.ok (), s.retry job scheduledAt error clock)
  | .reschedule job scheduledAt error, s => (.ok (), s.reschedule job scheduledAt error clock)
  | .fail job error, s => (.ok (), s.fail job error clock)
  | .heartbeat worker now, s => (.ok (), s.heartbeat worker now)
  | .reclaim staleBefore, s =>
    let (r, s) := s.reclaim staleBefore
    (.ok r, s)

/-- The store as a backend. -/
def Store.backend : Backend Store := ⟨Store.answer⟩

end JobQueue
