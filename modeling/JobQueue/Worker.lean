import JobQueue.Pipeline
import JobQueue.Registry

/-!
# Workers

A worker is put together from a backend, a configuration, handlers and middleware. Building it
checks that the parts go together; running it is the subject of the modules below this one.
-/

namespace JobQueue

/-- The parts of a worker. -/
structure Blueprint (β : Type) where
  backend : Option β
  config : WorkerConfig := {}
  workerId : WorkerId
  handlers : List Handler := []
  outer : List Middleware := []
  inner : List Middleware := []
  observed : Bool := false

/-- A worker that is ready to be started. -/
structure Worker (β : Type) where
  id : WorkerId
  backend : β
  config : WorkerConfig
  registry : Registry
  pipeline : Pipeline

/-- Puts a worker together. Of several faults the first of these is reported: no backend, a fault
of the configuration, a policy for an unknown job type, two handlers of one name. -/
def Blueprint.build {β : Type} (b : Blueprint β) : Except QueueError (Worker β) :=
  match b.backend with
  | none => .error .missingBackend
  | some backend =>
    match b.config.fault? with
    | some fault => .error (.invalidConfig fault)
    | none => do
      let registry ← Registry.build b.handlers b.config.defaultPolicy b.config.policies
      .ok {
        id := b.workerId
        backend
        config := b.config
        registry
        pipeline := .ofLayers b.outer b.inner b.observed }

end JobQueue
