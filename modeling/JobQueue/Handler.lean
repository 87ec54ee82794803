import JobQueue.Parameter
import JobQueue.Retry

/-!
# Handlers

A handler runs the jobs of one type. What a run does is data: the effects it has on its way, in
order, and how it ends. Waiting is an effect, so a run can be carried out step by step, whatever
else happens in between.
-/

namespace JobQueue

/-- How a failed execution is recorded: its kind and what it says. -/
structure Failure where
  kind : String
  message : String
deriving DecidableEq, Inhabited

/-- The text stored with the job. -/
def Failure.text (f : Failure) : String := f.kind ++ ": " ++ f.message

/-- How a run ends. -/
inductive Exit
  | done
  | error (failure : Failure)
  | panic (message : String)
deriving DecidableEq, Inhabited

/-- The failure that an end is recorded as, if it is one. -/
def Exit.failure? : Exit → Option Failure
  | .done => none
  | .error failure => some failure
  | .panic message => some ⟨"panic", message⟩

/-- One thing that a run does. -/
inductive Effect
  | sleep (span : Duration)
  /-- Waits until the worker shuts down. -/
  | awaitShutdown
  /-- The handler itself is called. -/
  | invoke
  /-- Adds a line to the trace of the execution. -/
  | note (line : String)
  /-- Adds a line with the time, and with whether the worker is shutting down. -/
  | stamp (label : String)
  /-- Reports the outcome of the execution to the observer. -/
  | observe (succeeded : Bool)
deriving DecidableEq

/-- What a piece of code does and how it ends. -/
structure Run where
  effects : List Effect
  exit : Exit
deriving DecidableEq

/-- Does something first. -/
def Run.after (first : List Effect) (r : Run) : Run := { r with effects := first ++ r.effects }

/-- The static side of a handler: the type of job that it runs. -/
structure JobType where
  name : String
  parameter : ParameterType
  restartOnCrash : Bool := true
  retryPolicy : Option RetryPolicy := none
deriving Inhabited

/-- What comes of asking for a handler to run a job with. -/
inductive Made
  | made
  | nothing
  | panic (message : String)
deriving DecidableEq

structure Handler where
  type : JobType
  /-- What comes of asking for an instance, by the number of times it was asked for before. -/
  factory : Nat → Made
  /-- What the handler does with a parameter at an attempt. -/
  run : Parameter → UInt16 → Run

end JobQueue
