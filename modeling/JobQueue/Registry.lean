import JobQueue.Error
import JobQueue.Handler

/-!
# The registry

The registry knows, for every job type of a worker, its handler and its retry policy. A policy of
the configuration comes before the one that the handler declares, and that one before the default.
-/

namespace JobQueue

/-- Why a claimed job cannot be run. -/
inductive ResolutionError
  | notRegistered (jobType : String)
  | missingHandler (jobType : String)
  | parameter (jobType : String) (reason : Json.ReadError)
deriving DecidableEq

def ResolutionError.message : ResolutionError → String
  | .notRegistered jobType => "No handler registered for job type " ++ jobType
  | .missingHandler jobType =>
    "The handler factory for " ++ jobType ++ " did not produce a handler"
  | .parameter jobType reason =>
    "Failed to decode the parameter for " ++ jobType ++ ": " ++ reason.message

/-- What a job resolves to. -/
inductive Resolution
  | endpoint (handler : Handler) (parameter : Parameter)
  | failed (reason : ResolutionError)
  | panicked (message : String)

structure Registry where
  entries : List (Handler × RetryPolicy)
  defaultPolicy : RetryPolicy

namespace Registry

/-- The first name that occurs a second time. -/
def firstDuplicate? : List String → List String → Option String
  | _, [] => none
  | seen, name :: rest =>
    if seen.contains name then some name else firstDuplicate? (name :: seen) rest

/-- The policy of a handler. -/
def policyOf (overrides : List (String × RetryPolicy)) (defaultPolicy : RetryPolicy)
    (h : Handler) : RetryPolicy :=
  ((overrides.lookup h.type.name).or h.type.retryPolicy).getD defaultPolicy

/-- The registry of the handlers, unless a policy is for a type that is not among them or two of
them have one name. -/
def build (handlers : List Handler) (defaultPolicy : RetryPolicy)
    (overrides : List (String × RetryPolicy)) : Except QueueError Registry :=
  let names := handlers.map (·.type.name)
  match overrides.find? fun (name, _) => !names.contains name with
  | some (name, _) => .error (.unknownJobType name)
  | none =>
    match firstDuplicate? [] names with
    | some name => .error (.duplicateJobType name)
    | none =>
      .ok ⟨handlers.map fun h => (h, policyOf overrides defaultPolicy h), defaultPolicy⟩

def entry? (r : Registry) (jobType : String) : Option (Handler × RetryPolicy) :=
  r.entries.find? (·.1.type.name = jobType)

/-- The policy of a job type: the default for one that is not registered. -/
def retryPolicy (r : Registry) (jobType : String) : RetryPolicy :=
  ((r.entry? jobType).map (·.2)).getD r.defaultPolicy

/-- Finds what runs a job. The parameter is read before the handler is asked for; `calls` says how
often that was done before for this type. -/
def resolve (r : Registry) (jobType parameter : String) (calls : Nat) : Resolution :=
  match r.entry? jobType with
  | none => .failed (.notRegistered jobType)
  | some (handler, _) =>
    match handler.type.parameter.decode parameter with
    | .error reason => .failed (.parameter handler.type.name reason)
    | .ok value =>
      match handler.factory calls with
      | .made => .endpoint handler value
      | .nothing => .failed (.missingHandler handler.type.name)
      | .panic message => .panicked message

/-- Whether resolving asks the handler of the type for an instance. -/
def asksFactory (r : Registry) (jobType parameter : String) : Bool :=
  match r.entry? jobType with
  | none => false
  | some (handler, _) => (handler.type.parameter.decode parameter).isOk

end Registry

end JobQueue
