import JobQueue.Polling
import JobQueue.Retry

/-!
# Worker configuration

What a worker can be told, the values it has when it is told nothing, and which configurations make
no sense.
-/

namespace JobQueue

/-- How many jobs a worker asks for in one claim. -/
inductive ClaimMode
  | single
  /-- Up to `size` jobs, as far as there are free slots. -/
  | batch (size : Nat)
deriving DecidableEq, Inhabited

/-- How finished jobs are written back. -/
inductive CompletionMode
  | simple
  | batching
deriving DecidableEq, Inhabited

structure WorkerConfig where
  maxConcurrency : Nat := 10
  claimMode : ClaimMode := .single
  polling : PollingInterval := .constant (.ofSeconds 1)
  storeErrorInterval : Duration := .ofSeconds 5
  heartbeatInterval : Duration := .ofSeconds 10
  staleThreshold : Delta := Delta.ofSeconds 60
  reclaimInterval : Duration := .ofSeconds 30
  retryQueueInterval : Duration := .ofSeconds 1
  retryQueueCapacity : Nat := 10000
  completionMode : CompletionMode := .simple
  deleteCompleted : Bool := false
  defaultPolicy : RetryPolicy := .standard
  /-- Policies of single job types, at most one for each. -/
  policies : List (String × RetryPolicy) := []
deriving Inhabited

/-- Why a configuration is refused. -/
inductive ConfigFault
  | noConcurrency
  | tooMuchConcurrency
  | emptyBatch
  | zeroPolling
  | badPollingFactor
  | pollingMaximumTooLow
  | zeroHeartbeatOrReclaim
  | zeroRetryQueueInterval
  | staleThresholdTooLow
  | noRetryQueue
  | noAttempts
deriving DecidableEq, Repr

def ConfigFault.message : ConfigFault → String
  | .noConcurrency => "max concurrency must be at least one"
  | .tooMuchConcurrency => "max concurrency is too large"
  | .emptyBatch => "batch size must be at least one"
  | .zeroPolling => "polling interval must be positive"
  | .badPollingFactor => "polling interval factor must be at least one"
  | .pollingMaximumTooLow => "maximum polling interval must not be below the initial interval"
  | .zeroHeartbeatOrReclaim => "heartbeat and reclaim intervals must be positive"
  | .zeroRetryQueueInterval => "retry queue interval must be positive"
  | .staleThresholdTooLow => "stale heartbeat threshold must exceed the heartbeat interval"
  | .noRetryQueue => "retry queue capacity must be at least one"
  | .noAttempts => "retry policies must allow at least one attempt"

namespace WorkerConfig

/-- Sets the policy of a job type, in place of an earlier one. -/
def withPolicy (c : WorkerConfig) (jobType : String) (policy : RetryPolicy) : WorkerConfig :=
  if (c.policies.lookup jobType).isSome then
    { c with policies := c.policies.map fun (t, p) => (t, if t = jobType then policy else p) }
  else { c with policies := c.policies ++ [(jobType, policy)] }

/-- The checks in the order in which they are made. Each pairs a fault with whether it is there. -/
def checks (c : WorkerConfig) : List (ConfigFault × Bool) := [
  (.noConcurrency, c.maxConcurrency = 0),
  (.tooMuchConcurrency, 4294967296 ≤ c.maxConcurrency),
  (.emptyBatch, c.claimMode = .batch 0),
  (.zeroPolling, c.polling.start = .zero),
  (.badPollingFactor, !(c.polling.factor ≥ 1.0 && c.polling.factor.isFinite)),
  (.pollingMaximumTooLow, c.polling.max < c.polling.start),
  (.zeroHeartbeatOrReclaim, c.heartbeatInterval = .zero ∨ c.reclaimInterval = .zero),
  (.zeroRetryQueueInterval, c.retryQueueInterval = .zero),
  (.staleThresholdTooLow, c.staleThreshold.nanos ≤ c.heartbeatInterval.nanos),
  (.noRetryQueue, c.retryQueueCapacity = 0),
  (.noAttempts, c.defaultPolicy.maxAttempts = 0 ∨ c.policies.any (·.2.maxAttempts = 0))]

/-- The first fault of a configuration, if it has one. -/
def fault? (c : WorkerConfig) : Option ConfigFault :=
  (c.checks.find? (·.2)).map (·.1)

/-- A configuration without a fault passes each check. -/
theorem check_of_valid {c : WorkerConfig} (h : c.fault? = none) {fault : ConfigFault}
    {found : Bool} (hcheck : (fault, found) ∈ c.checks) : found = false :=
  Bool.eq_false_iff.2 (List.find?_eq_none.1 (Option.map_eq_none_iff.1 h) _ hcheck)

end WorkerConfig

end JobQueue
