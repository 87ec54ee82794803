import JobQueue.Store

/-!
# What changed in a store

The difference between two states of a store, by job.
-/

namespace JobQueue.Store

/-- The jobs that are new or differ from before. -/
def changed (before after : Store) : List Job :=
  after.jobs.filter fun j => before.get? j.id ≠ some j

/-- The jobs that are gone. -/
def removed (before after : Store) : List JobId :=
  (before.jobs.filter fun j => !after.contains j.id).map (·.id)

end JobQueue.Store
