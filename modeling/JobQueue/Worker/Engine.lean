import JobQueue.Completion
import JobQueue.RetryQueue
import JobQueue.Worker

/-!
# The engine of a worker

What a running worker consists of: the tasks that run side by side, each with the point that it has
come to, and what they share. A job takes a slot for as long as it is executed; there are as many
slots as the configuration allows jobs at a time.
-/

namespace JobQueue

/-! ## Points of the tasks -/

/-- A write on its way: not made yet, or sent to the batcher. -/
inductive WriteProgress
  | pending (w : OutcomeWrite)
  | awaiting (w : OutcomeWrite)
deriving DecidableEq

/-- The task that claims jobs. It holds a slot while it claims, and the first job of a claim takes
that slot over. The delay is the one for the next claim that finds nothing. -/
inductive ClaimLoop
  | acquiring (delay : Duration)
  | claiming (delay : Duration) (limit : Nat)
  | dispatching (jobs : List ClaimedJob) (held : Bool)
  | sleeping (delay : Duration) (wake : Nat)
  | stopped
  | dead

/-- A task that does something at intervals. -/
inductive Ticker
  | sleeping (wake : Nat)
  | stopped
  | dead
deriving DecidableEq

/-- The task that replays the retry queue at intervals. -/
inductive ReplayLoop
  | sleeping (wake : Nat)
  | replaying (p : WriteProgress)
  | stopped
  | dead

/-- The point that an execution has come to. -/
inductive Phase
  | starting
  | running (effects : List Effect) (exit : Exit)
  | sleeping (wake : Nat) (effects : List Effect) (exit : Exit)
  | writing (p : WriteProgress)
  /-- Waits for a place in the retry queue. -/
  | queueing (w : OutcomeWrite)

/-- A job that is executed. Executions are numbered in the order in which they start. -/
structure Execution where
  key : Nat
  job : ClaimedJob
  startedAt : Nat
  phase : Phase := .starting

/-- The shutdown, from the request until it returns. -/
inductive Shutdown
  | notRequested
  /-- Waits for the loops to stop. -/
  | joining
  /-- Waits for all slots, and replays the retry queue meanwhile. -/
  | draining (wake : Nat)
  | drainReplaying (p : WriteProgress)
  /-- All jobs have ended. -/
  | drained
  | lastReplay (p : WriteProgress)
  /-- Waits for the batcher to stop. -/
  | closing
  | returned (result : Except (Stop QueueError) Unit)

/-! ## The engine -/

structure Engine where
  freeSlots : Nat
  /-- Whether the worker has been told to stop. -/
  cancelled : Bool := false
  claims : ClaimLoop
  heartbeats : Ticker
  reclaims : Ticker
  replays : ReplayLoop
  executions : List Execution := []
  /-- The number of executions that were started. -/
  started : Nat := 0
  queue : RetryQueue
  /-- Whether a replay of the queue is going on. There is one at a time. -/
  replaying : Bool := false
  completion : Completion
  shutdown : Shutdown := .notRequested
  /-- How often the handler of each job type was asked for. -/
  asked : List (String × Nat) := []

namespace Engine

/-- The engine of a worker that is started. All tasks but the one that claims begin with a wait. -/
def start {β : Type} (worker : Worker β) (now : Nat) : Engine :=
  let config := worker.config
  { freeSlots := config.maxConcurrency
    claims := .acquiring config.polling.start
    heartbeats := .sleeping (now + config.heartbeatInterval.ceilMillis)
    reclaims := .sleeping (now + config.reclaimInterval.ceilMillis)
    replays := .sleeping (now + config.retryQueueInterval.ceilMillis)
    queue := { capacity := config.retryQueueCapacity }
    completion := .ofConcurrency config.maxConcurrency }

/-- The jobs that are executed, and the claim that is being made. -/
def runningJobs {β : Type} (e : Engine) (worker : Worker β) : Nat :=
  worker.config.maxConcurrency - e.freeSlots

def pendingWrites (e : Engine) : Nat := e.queue.size

def execution? (e : Engine) (key : Nat) : Option Execution := e.executions.find? (·.key = key)

/-- Moves an execution to another point. -/
def enter (e : Engine) (key : Nat) (phase : Phase) : Engine :=
  { e with executions := e.executions.map fun x => if x.key = key then { x with phase } else x }

/-- Ends an execution, which frees its slot. -/
def finish (e : Engine) (key : Nat) : Engine :=
  { e with
    executions := e.executions.filter (·.key ≠ key)
    freeSlots := e.freeSlots + 1 }

/-- Starts an execution in a slot that is taken. -/
def launch (e : Engine) (job : ClaimedJob) (now : Nat) : Engine :=
  { e with
    executions := e.executions ++ [{ key := e.started, job, startedAt := now }]
    started := e.started + 1 }

/-- How often the handler of a job type was asked for. -/
def askedFor (e : Engine) (jobType : String) : Nat := (e.asked.lookup jobType).getD 0

/-- Counts that the handler of a job type is asked for. -/
def countAsking (e : Engine) (jobType : String) : Engine :=
  { e with asked := (jobType, e.askedFor jobType + 1) :: e.asked.filter (·.1 ≠ jobType) }

/-- Whether the loops have stopped, in the order in which the shutdown waits for them: nothing as
long as one is still running, and a failure if the first that is not stopped is dead. -/
def joinLoops (e : Engine) : Option (Except (Stop QueueError) Unit) :=
  match e.claims, e.heartbeats, e.reclaims, e.replays with
  | .stopped, .stopped, .stopped, .stopped => some (.ok ())
  | .dead, _, _, _ => some (.error (.error .shutdownFailed))
  | .stopped, .dead, _, _ => some (.error (.error .shutdownFailed))
  | .stopped, .stopped, .dead, _ => some (.error (.error .shutdownFailed))
  | .stopped, .stopped, .stopped, .dead => some (.error (.error .shutdownFailed))
  | _, _, _, _ => none

end Engine

end JobQueue
