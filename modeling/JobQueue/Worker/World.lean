import JobQueue.Worker.Engine

/-!
# The world of a worker

A running worker together with what it works on: the state of its backend, the time, and a log of
what happened. Time is counted in whole milliseconds from the start of the worker.
-/

namespace JobQueue

/-- Something that happened. -/
inductive Event
  /-- A call of the worker was answered. -/
  | asked (call : Call) (answer : Answer call.Result)
  /-- A handler was called. -/
  | invoked (job : ClaimedJob) (isLastAttempt cancelled : Bool)
  /-- The observer was told of an outcome. The time is in milliseconds. -/
  | observed (jobType : String) (succeeded : Bool) (millis : Nat)
  /-- A line was added to the trace of an execution. -/
  | noted (job : ClaimedJob) (line : String)

structure World (σ : Type) where
  state : σ
  /-- The clock when the worker was started. -/
  origin : Instant
  /-- Milliseconds since then. -/
  now : Nat := 0
  engine : Engine
  /-- What happened and when, the last first. -/
  log : List (Nat × Event) := []

namespace World

variable {σ : Type}

/-- The instant some milliseconds after the start. -/
def instantAt (origin : Instant) (millis : Nat) : Instant :=
  ((Delta.ofMillis? millis).bind origin.add?).getD .last

def clock (w : World σ) : Instant := instantAt w.origin w.now

def record (w : World σ) (e : Event) : World σ := { w with log := (w.now, e) :: w.log }

/-- Changes the engine. -/
def update (w : World σ) (f : Engine → Engine) : World σ := { w with engine := f w.engine }

/-- Makes a call and records the answer. -/
def ask (w : World σ) (b : Backend σ) (c : Call) : Answer c.Result × World σ :=
  let (a, state) := b.answer w.clock c w.state
  (a, { w with state }.record (.asked c a))

/-- The time at which something ends that takes some time from now on. -/
def after (w : World σ) (span : Duration) : Nat := w.now + span.ceilMillis

end World

end JobQueue
