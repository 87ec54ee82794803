import JobQueue.Config
import JobQueue.Text.Quoted
import JobQueue.Cron.Schedule
import JobQueue.Ident

/-!
# Errors

What can go wrong in the store that holds the jobs, and in the calls of the library on top of it.
Every error has a message, and some have a source: the text of what caused them.
-/

namespace JobQueue

/-- An error of the store. -/
inductive BackendError
  | duplicateJob (id : JobId)
  | badState
  | storage (source : String)
  /-- The write that a completion was batched into failed. -/
  | batchFailed (inner : BackendError)
  | completionUnavailable
deriving DecidableEq, Inhabited

namespace BackendError

def message : BackendError → String
  | .duplicateJob id => "Job " ++ id.display ++ " already exists"
  | .badState => "System in bad state"
  | .storage source => "Storage error: " ++ source
  | .batchFailed inner => "Batched completion failed: " ++ inner.message
  | .completionUnavailable => "The completion service is no longer running"

def source? : BackendError → Option String
  | .storage source => some source
  | .batchFailed inner => some inner.message
  | _ => none

end BackendError

/-- An error of the library. -/
inductive QueueError
  | shutdownFailed
  | backend (inner : BackendError)
  | missingBackend
  | duplicateJobType (name : String)
  | unknownJobType (name : String)
  | invalidConfig (fault : ConfigFault)
  | invalidCron (expression : String)
  | cronExhausted (expression : String)
  /-- A recurrent job cannot be part of a sequence. -/
  | recurrentInSequence
  | missingParameter (jobType : String)
deriving DecidableEq, Inhabited

namespace QueueError

def message : QueueError → String
  | .shutdownFailed => "Failed to gracefully shut down"
  | .backend _ => "Error communicating with the backend"
  | .missingBackend => "No backend configured"
  | .duplicateJobType name => "Job type " ++ name ++ " registered more than once"
  | .unknownJobType name => "Retry policy configured for unregistered job type " ++ name
  | .invalidConfig fault => "Invalid configuration: " ++ fault.message
  | .invalidCron expression => "Invalid cron expression " ++ Text.quoted expression
  | .cronExhausted expression =>
    "Cron expression " ++ Text.quoted expression ++ " has no upcoming occurrence"
  | .recurrentInSequence => "Invalid sequence: recurrent jobs cannot be part of a sequence"
  | .missingParameter jobType => "Job type " ++ jobType ++ " requires a parameter"

def source? : QueueError → Option String
  | .backend inner => some inner.message
  | .invalidCron _ => some Cron.invalidExpression
  | _ => none

end QueueError

/-- Why a computation has no value: an error that it reports, or a crash, which nobody catches. It
crashes where arithmetic on times leaves the calendar. -/
inductive Stop (ε : Type)
  | error (e : ε)
  | crash
deriving DecidableEq

end JobQueue
