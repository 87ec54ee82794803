import JobQueue.Backend

/-!
# Trials

A trial runs a sequence of calls against a backend and checks the answers. It fails at the first
check that does not hold, and at the first call that is answered with an error. The clock stands
still, and identifiers are drawn from a supply.
-/

namespace JobQueue.Contract

/-- What a trial runs in. -/
structure Setting (σ : Type) where
  backend : Backend σ
  clock : Instant

/-- The state of the backend and the number of identifiers drawn. -/
structure Progress (σ : Type) where
  state : σ
  drawn : Nat

/-- A trial fails or comes to a value. -/
abbrev Trial (σ α : Type) := ReaderT (Setting σ) (StateT (Progress σ) Option) α

namespace Trial

variable {σ : Type}

def failed {α : Type} : Trial σ α := fun _ _ => none

def check (holds : Bool) : Trial σ Unit := if holds then pure () else failed

def ofOption {α : Type} : Option α → Trial σ α
  | some a => pure a
  | none => failed

/-- The clock as it is. -/
def clock : Trial σ Instant := do return (← read).clock

/-- The largest number of nanoseconds that fits 64 bits. -/
def maxNanos : Int := 9223372036854775807

/-- The clock cut to milliseconds, so that stores with coarser times keep it. It is only known in
the centuries around the epoch. -/
def now : Trial σ Instant := do
  let t ← clock
  check (-maxNanos - 1 ≤ t.nanos && t.nanos ≤ maxNanos)
  return t.truncMillis

def later (t : Instant) (millis : Int) : Trial σ Instant :=
  ofOption ((Delta.ofMillis? millis).bind t.add?)

/-- Makes a call, whatever the answer. -/
def attempt (call : Call) : Trial σ (Answer call.Result) := do
  let setting ← read
  let progress ← get
  let (answer, state) := setting.backend.answer setting.clock call progress.state
  set { progress with state }
  match answer with
  | .error .crash => failed
  | answer => return answer

/-- Makes a call that has to succeed. -/
def ask (call : Call) : Trial σ call.Result := do
  match ← attempt call with
  | .ok result => return result
  | .error _ => failed

def draw : Trial σ Uuid := do
  let progress ← get
  set { progress with drawn := progress.drawn + 1 }
  return Uuid.ofNat (progress.drawn + 1)

def newJobId : Trial σ JobId := do return ⟨← draw⟩
def newWorkerId : Trial σ WorkerId := do return ⟨← draw⟩
def newSequenceId : Trial σ SequenceId := do return ⟨← draw⟩

/-- Claims exactly one job. -/
def claimOne (owner : WorkerId) : Trial σ ClaimedJob := do
  match ← ask (.claim owner 1 (← clock)) with
  | [job] => return job
  | _ => failed

/-- A job that has to be in the store. -/
def stored (id : JobId) : Trial σ Job := do ofOption (← ask (.get id))

/-- Whether the trial passes on a fresh state. -/
def passes (t : Trial σ Unit) (backend : Backend σ) (clock : Instant) (state : σ) : Bool :=
  ((t.run ⟨backend, clock⟩).run ⟨state, 0⟩).isSome

end Trial

end JobQueue.Contract
