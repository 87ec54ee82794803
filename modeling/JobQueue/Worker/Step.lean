import JobQueue.Worker.World

/-!
# Steps of a worker

One step of one task, from a point where it waits or acts to the next. A task that has nothing to do
but to wait has no step. Steps of different tasks may alternate in any way; where a task could both
go on and stop, or a replay come before the end of a shutdown, either may happen, and a flag tells
which.
-/

namespace JobQueue

/-- The tasks of a worker. -/
inductive Task
  | batcher
  | claims
  | heartbeats
  | reclaims
  | replays
  | execution (key : Nat)
  | shutdown
deriving DecidableEq

namespace World

variable {σ : Type}

/-! ## Writes -/

/-- What comes of a step of a write. -/
inductive WriteStep (σ : Type)
  | goesOn (p : WriteProgress) (w : World σ)
  | ended (result : Except BackendError Unit) (w : World σ)
  | crashed (w : World σ)

/-- The finished job of a write that is left to the batcher. -/
def batchedJob? (worker : Worker (Backend σ)) : OutcomeWrite → Option FinishedJob
  | .complete job => if worker.config.completionMode = .batching then some job else none
  | _ => none

/-- Makes a write in a call of its own. -/
def writeDirectly (worker : Worker (Backend σ)) (write : OutcomeWrite) (w : World σ) :
    WriteStep σ :=
  let ask (c : Call) (w : World σ) : Answer c.Result × World σ := w.ask worker.backend c
  match write.perform worker.config.deleteCompleted ask w with
  | (.ok (), w) => .ended (.ok ()) w
  | (.error (.error e), w) => .ended (.error e) w
  | (.error .crash, w) => .crashed w

/-- A step of a write. It waits for room in the channel to the batcher, and for the reply. -/
def stepWrite (worker : Worker (Backend σ)) (writer : Writer) (p : WriteProgress) (w : World σ) :
    Option (WriteStep σ) :=
  let completion := w.engine.completion
  match p with
  | .pending write =>
    match batchedJob? worker write with
    | none => some (writeDirectly worker write w)
    | some job =>
      if !completion.isOpen then some (.ended (.error .completionUnavailable) w)
      else if completion.hasRoom then
        some (.goesOn (.awaiting write)
          (w.update fun e => { e with completion := e.completion.send ⟨writer, job⟩ }))
      else none
  | .awaiting _ =>
    (completion.reply? writer).map fun result =>
      .ended result (w.update fun e => { e with completion := e.completion.take writer })

/-- A step of the batcher. -/
def stepBatcher (worker : Worker (Backend σ)) (w : World σ) : Option (World σ) :=
  let closed := w.engine.shutdown matches .closing
  let complete (jobs : List FinishedJob) (w : World σ) : Answer Unit × World σ :=
    w.ask worker.backend (.complete jobs worker.config.deleteCompleted)
  (w.engine.completion.step closed complete w).map fun (completion, w) =>
    w.update fun e => { e with completion }

/-! ## Loops -/

/-- Whether a sleeping task goes on, or stops, or sleeps on. -/
inductive Wake
  | goesOn
  | stops
  | sleepsOn

/-- A sleeping task wakes at its time and at a shutdown. -/
def wakes (w : World σ) (wake : Nat) (eager : Bool) : Wake :=
  let due : Bool := wake ≤ w.now
  if w.engine.cancelled && !(eager && due) then .stops
  else if due then .goesOn
  else .sleepsOn

/-- The number of jobs to ask for with one slot taken and the others as they are. -/
def claimLimit (mode : ClaimMode) (freeSlots : Nat) : Nat :=
  match mode with
  | .single => 1
  | .batch size => min (freeSlots + 1) size

/-- Gives up the slot that was taken for a claim. -/
def releaseSlot (e : Engine) : Engine := { e with freeSlots := e.freeSlots + 1 }

/-- Makes a claim. -/
def claim (worker : Worker (Backend σ)) (delay : Duration) (limit : Nat) (w : World σ) : World σ :=
  let config := worker.config
  match w.ask worker.backend (.claim worker.id limit w.clock) with
  | (.ok [], w) =>
    let next := ClaimLoop.sleeping (config.polling.grow delay) (w.after delay)
    w.update fun e => { releaseSlot e with claims := next }
  | (.ok jobs, w) => w.update fun e => { e with claims := .dispatching jobs true }
  | (.error (.error _), w) =>
    let next := ClaimLoop.sleeping delay (w.after config.storeErrorInterval)
    w.update fun e => { releaseSlot e with claims := next }
  | (.error .crash, w) => w.update fun e => { releaseSlot e with claims := .dead }

/-- A step of the task that claims jobs. Jobs that were claimed are started even after a
shutdown. -/
def stepClaims (worker : Worker (Backend σ)) (eager : Bool) (w : World σ) : Option (World σ) :=
  let e := w.engine
  match e.claims with
  | .acquiring delay =>
    let free : Bool := 0 < e.freeSlots
    if e.cancelled && !(eager && free) then some (w.update ({ · with claims := .stopped }))
    else if free then
      let freeSlots := e.freeSlots - 1
      let limit := claimLimit worker.config.claimMode freeSlots
      some (w.update ({ · with freeSlots, claims := .claiming delay limit }))
    else none
  | .claiming delay limit => some (claim worker delay limit w)
  | .dispatching [] _ => some (w.update ({ · with claims := .acquiring worker.config.polling.start }))
  | .dispatching (job :: jobs) true =>
    some (w.update fun e => { e.launch job w.now with claims := .dispatching jobs false })
  | .dispatching (job :: jobs) false =>
    if 0 < e.freeSlots then
      some (w.update fun e =>
        { e.launch job w.now with
          freeSlots := e.freeSlots - 1
          claims := .dispatching jobs false })
    else none
  | .sleeping delay wake =>
    match w.wakes wake eager with
    | .goesOn => some (w.update ({ · with claims := .acquiring delay }))
    | .stops => some (w.update ({ · with claims := .stopped }))
    | .sleepsOn => none
  | .stopped => none
  | .dead => none

/-- A step of the task that sends signs of life. -/
def stepHeartbeats (worker : Worker (Backend σ)) (eager : Bool) (w : World σ) :
    Option (World σ) :=
  match w.engine.heartbeats with
  | .sleeping wake =>
    match w.wakes wake eager with
    | .goesOn =>
      let (a, w) := w.ask worker.backend (.heartbeat worker.id w.clock)
      let next := match a with
        | .error .crash => .dead
        | _ => Ticker.sleeping (w.after worker.config.heartbeatInterval)
      some (w.update ({ · with heartbeats := next }))
    | .stops => some (w.update ({ · with heartbeats := .stopped }))
    | .sleepsOn => none
  | .stopped => none
  | .dead => none

/-- A step of the task that looks for the jobs of workers that are gone. -/
def stepReclaims (worker : Worker (Backend σ)) (eager : Bool) (w : World σ) : Option (World σ) :=
  match w.engine.reclaims with
  | .sleeping wake =>
    match w.wakes wake eager with
    | .goesOn =>
      match w.clock.sub? worker.config.staleThreshold with
      | none => some (w.update ({ · with reclaims := .dead }))
      | some staleBefore =>
        let (a, w) := w.ask worker.backend (.reclaim staleBefore)
        let next := match a with
          | .error .crash => .dead
          | _ => Ticker.sleeping (w.after worker.config.reclaimInterval)
        some (w.update ({ · with reclaims := next }))
    | .stops => some (w.update ({ · with reclaims := .stopped }))
    | .sleepsOn => none
  | .stopped => none
  | .dead => none

/-! ## Replays -/

/-- Begins a replay with the oldest write, unless one is going on or the queue is empty. -/
def beginReplay (w : World σ) : Option (WriteProgress × World σ) :=
  if w.engine.replaying then none
  else w.engine.queue.peek?.map fun write =>
    (.pending write, w.update ({ · with replaying := true }))

/-- What comes of a step of a replay. -/
inductive ReplayStep (σ : Type)
  | goesOn (p : WriteProgress) (w : World σ)
  | ended (w : World σ)
  | crashed (w : World σ)

/-- A step of a replay. A write that was made leaves the queue; the first that fails again ends the
replay. -/
def stepReplay (worker : Worker (Backend σ)) (writer : Writer) (p : WriteProgress) (w : World σ) :
    Option (ReplayStep σ) :=
  let finish (w : World σ) : World σ := w.update ({ · with replaying := false })
  (stepWrite worker writer p w).map fun
    | .goesOn p w => .goesOn p w
    | .ended (.ok ()) w =>
      let w := w.update fun e => { e with queue := e.queue.pop }
      match w.engine.queue.peek? with
      | some write => .goesOn (.pending write) w
      | none => .ended (finish w)
    | .ended (.error _) w => .ended (finish w)
    | .crashed w => .crashed (finish w)

/-- A step of the task that replays the retry queue. -/
def stepReplays (worker : Worker (Backend σ)) (eager : Bool) (w : World σ) : Option (World σ) :=
  let next (w : World σ) : World σ :=
    w.update ({ · with replays := .sleeping (w.after worker.config.retryQueueInterval) })
  match w.engine.replays with
  | .sleeping wake =>
    match w.wakes wake eager with
    | .goesOn =>
      match w.beginReplay with
      | none => some (next w)
      | some (p, w) => some (w.update ({ · with replays := .replaying p }))
    | .stops => some (w.update ({ · with replays := .stopped }))
    | .sleepsOn => none
  | .replaying p =>
    (stepReplay worker .replayLoop p w).map fun
      | .goesOn p w => w.update ({ · with replays := .replaying p })
      | .ended w => next w
      | .crashed w => w.update ({ · with replays := .dead })
  | .stopped => none
  | .dead => none

/-! ## Executions -/

/-- Records how an execution ended. -/
def conclude (worker : Worker (Backend σ)) (x : Execution) (failure : Option Failure)
    (draw : Int) (w : World σ) : World σ :=
  let policy := worker.registry.retryPolicy x.job.jobType
  match x.job.outcome? policy failure w.clock draw with
  | some write => w.update (·.enter x.key (.writing (.pending write)))
  | none => w.update (·.finish x.key)

/-- Finds the handler of a job and begins to run it. -/
def begin (worker : Worker (Backend σ)) (x : Execution) (draw : Int) (w : World σ) : World σ :=
  let job := x.job
  let calls := w.engine.askedFor job.jobType
  let resolution := worker.registry.resolve job.jobType job.parameter calls
  let w := if worker.registry.asksFactory job.jobType job.parameter
    then w.update (·.countAsking job.jobType) else w
  match resolution with
  | .endpoint handler parameter =>
    let run := worker.pipeline.execute job.attempt (handler.run parameter job.attempt)
    w.update (·.enter x.key (.running run.effects run.exit))
  | .failed reason => w.conclude worker x (some ⟨"resolution", reason.message⟩) draw
  | .panicked _ => w.update (·.finish x.key)

/-- The line of a trace that tells the time. -/
def stampLine (w : World σ) (label : String) : String :=
  label ++ "@" ++ toString w.now ++ if w.engine.cancelled then " cancelled" else ""

/-- Carries out the first effect of a run. -/
def carryOut (worker : Worker (Backend σ)) (x : Execution) (effect : Effect) (rest : List Effect)
    (exit : Exit) (w : World σ) : Option (World σ) :=
  let goOn (w : World σ) : World σ := w.update (·.enter x.key (.running rest exit))
  match effect with
  | .sleep span => some (w.update (·.enter x.key (.sleeping (w.after span) rest exit)))
  | .awaitShutdown => if w.engine.cancelled then some (goOn w) else none
  | .invoke =>
    let isLast := (worker.registry.retryPolicy x.job.jobType).isLastAttempt x.job.attempt
    some (goOn ((w.record (.invoked x.job isLast w.engine.cancelled)).record
      (.noted x.job "handler")))
  | .note line => some (goOn (w.record (.noted x.job line)))
  | .stamp label => some (goOn (w.record (.noted x.job (w.stampLine label))))
  | .observe succeeded =>
    some (goOn (w.record (.observed x.job.jobType succeeded (w.now - x.startedAt))))

/-- A step of an execution. A write that fails is left to the retry queue; the slot is kept until
there is a place for it. -/
def stepExecution (worker : Worker (Backend σ)) (draw : Int) (x : Execution) (w : World σ) :
    Option (World σ) :=
  match x.phase with
  | .starting => some (w.begin worker x draw)
  | .running (effect :: rest) exit => w.carryOut worker x effect rest exit
  | .running [] exit => some (w.conclude worker x exit.failure? draw)
  | .sleeping wake effects exit =>
    if wake ≤ w.now then some (w.update (·.enter x.key (.running effects exit))) else none
  | .writing p =>
    (stepWrite worker (.execution x.key) p w).map fun
      | .goesOn p w => w.update (·.enter x.key (.writing p))
      | .ended (.ok ()) w => w.update (·.finish x.key)
      | .ended (.error _) w =>
        let write := match p with
          | .pending write => write
          | .awaiting write => write
        w.update fun e => { e.enter x.key (.queueing write) with queue := e.queue.await x.key }
      | .crashed w => w.update (·.finish x.key)
  | .queueing write =>
    if w.engine.queue.admits x.key then
      some (w.update fun e => { e.finish x.key with queue := e.queue.push x.key write })
    else none

/-! ## Shutdown -/

/-- A step of the shutdown. When the loops have stopped it waits for all slots, replays the retry
queue at intervals meanwhile and a last time afterwards, and then waits for the batcher. If all
slots are free when it is time for a replay, either may come first. -/
def stepShutdown (worker : Worker (Backend σ)) (eager : Bool) (w : World σ) :
    Option (World σ) :=
  let enter (s : Shutdown) (w : World σ) : World σ := w.update ({ · with shutdown := s })
  let drain (w : World σ) : World σ :=
    enter (.draining (w.after worker.config.retryQueueInterval)) w
  let close (w : World σ) : World σ :=
    enter (if worker.config.completionMode = .batching then .closing else .returned (.ok ())) w
  match w.engine.shutdown with
  | .notRequested => none
  | .joining =>
    w.engine.joinLoops.map fun
      | .ok () => drain w
      | .error e => enter (.returned (.error e)) w
  | .draining wake =>
    let free : Bool := w.engine.freeSlots = worker.config.maxConcurrency
    let due : Bool := wake ≤ w.now
    if free && !(eager && due) then
      some (enter .drained (w.update ({ · with freeSlots := 0 })))
    else if due then
      match w.beginReplay with
      | none => some (drain w)
      | some (p, w) => some (enter (.drainReplaying p) w)
    else none
  | .drainReplaying p =>
    (stepReplay worker .shutdown p w).map fun
      | .goesOn p w => enter (.drainReplaying p) w
      | .ended w => drain w
      | .crashed w => enter (.returned (.error .crash)) w
  | .drained =>
    match w.beginReplay with
    | none => some (close w)
    | some (p, w) => some (enter (.lastReplay p) w)
  | .lastReplay p =>
    (stepReplay worker .shutdown p w).map fun
      | .goesOn p w => enter (.lastReplay p) w
      | .ended w => close w
      | .crashed w => enter (.returned (.error .crash)) w
  | .closing =>
    match w.engine.completion.batcher with
    | .stopped => some (enter (.returned (.ok ())) w)
    | .dead => some (enter (.returned (.error (.error .shutdownFailed))) w)
    | _ => none
  | .returned _ => none

/-- A step of a task, if it has one. -/
def step (worker : Worker (Backend σ)) (t : Task) (eager : Bool) (draw : Int) (w : World σ) :
    Option (World σ) :=
  match t with
  | .batcher => w.stepBatcher worker
  | .claims => w.stepClaims worker eager
  | .heartbeats => w.stepHeartbeats worker eager
  | .reclaims => w.stepReclaims worker eager
  | .replays => w.stepReplays worker eager
  | .execution key => (w.engine.execution? key).bind fun x => w.stepExecution worker draw x
  | .shutdown => w.stepShutdown worker eager

end World

end JobQueue
