import JobQueue.Proofs.Worker.Frame
import Mathlib.Data.List.Basic

/-!
# What a step does to the writes

The executions of a worker, its retry queue and the replays that are under way: this is where the
writes are that end claims. `Move` lists everything that can happen there, with what a ledger of the
writes has to record of it; `step_move` says that a step of a task does nothing else.
-/

namespace JobQueue

variable {σ : Type}

/-! ## 1. Where the writes are -/

def WriteProgress.write : WriteProgress → OutcomeWrite
  | .pending write => write
  | .awaiting write => write

/-- The write that an execution has come to, until it is made or in the queue. -/
def Phase.write? : Phase → Option OutcomeWrite
  | .writing p => some p.write
  | .queueing write => some write
  | _ => none

def ReplayLoop.progress? : ReplayLoop → Option WriteProgress
  | .replaying p => some p
  | _ => none

def Shutdown.progress? : Shutdown → Option WriteProgress
  | .drainReplaying p => some p
  | .lastReplay p => some p
  | _ => none

def World.ReplayStep.progress? : World.ReplayStep σ → Option WriteProgress
  | .goesOn p _ => some p
  | _ => none

/-- The slots that are held for a claim: one, until its first job takes it over. -/
def ClaimLoop.slots : ClaimLoop → Nat
  | .claiming _ _ => 1
  | .dispatching (_ :: _) true => 1
  | _ => 0

/-- The parts of an engine that have to do with writes, and the replays that are under way. The
slots are those that no execution has. -/
structure Desk where
  slots : Nat
  executions : List Execution
  started : Nat
  queue : RetryQueue
  replaying : Bool
  replays : List WriteProgress

def Engine.desk (e : Engine) (replays : List WriteProgress) : Desk :=
  ⟨e.claims.slots + e.freeSlots, e.executions, e.started, e.queue, e.replaying, replays⟩

/-- The replays of an engine: the one of the loop, the one of the shutdown, and others. -/
def Engine.replaysWith (e : Engine) (others : List WriteProgress) : List WriteProgress :=
  e.replays.progress?.toList ++ (e.shutdown.progress?.toList ++ others)

namespace Desk

def enter (d : Desk) (key : Nat) (phase : Phase) : Desk :=
  { d with executions := d.executions.map fun x => if x.key = key then { x with phase } else x }

def finish (d : Desk) (key : Nat) : Desk :=
  { d with slots := d.slots + 1, executions := d.executions.filter (·.key ≠ key) }

def launch (d : Desk) (job : ClaimedJob) (startedAt : Nat) (phase : Phase) : Desk :=
  { d with
    slots := d.slots - 1
    executions := d.executions ++ [{ key := d.started, job, startedAt, phase }]
    started := d.started + 1 }

end Desk

/-! ## 2. What happens to them -/

/-- What is recorded of a write. The number is that of the execution that hands it over. -/
inductive WriteEvent
  | handed (key : Nat) (write : OutcomeWrite)
  /-- It was made at the first attempt. -/
  | recorded (key : Nat) (write : OutcomeWrite)
  /-- It failed and is in the retry queue. -/
  | queued (key : Nat) (write : OutcomeWrite)
  /-- A replay has made it. -/
  | replayed (write : OutcomeWrite)
  /-- Its call crashed, and the execution with it. -/
  | crashed (key : Nat) (write : OutcomeWrite)
deriving DecidableEq

/-- How an execution goes on before it has come to its end. -/
inductive Phase.Advances (worker : Worker (Backend σ)) (w : World σ) (job : ClaimedJob) :
    Phase → Phase → Prop
  | begins {handler : Handler} {parameter : Parameter} {run : Run}
      (hresolve : worker.registry.resolve job.jobType job.parameter
        (w.engine.askedFor job.jobType) = .endpoint handler parameter)
      (hrun : run = worker.pipeline.execute job.attempt (handler.run parameter job.attempt)) :
      Advances worker w job .starting (.running run.effects run.exit)
  | goesOn {effect : Effect} {rest : List Effect} {exit : Exit} :
      Advances worker w job (.running (effect :: rest) exit) (.running rest exit)
  | sleeps {span : Duration} {wake : Nat} {rest : List Effect} {exit : Exit} :
      Advances worker w job (.running (.sleep span :: rest) exit) (.sleeping wake rest exit)
  | wakes {wake : Nat} {rest : List Effect} {exit : Exit} :
      Advances worker w job (.sleeping wake rest exit) (.running rest exit)

/-- How an execution has come to its end, and what failure that is. -/
inductive Phase.Ends (worker : Worker (Backend σ)) (w : World σ) (job : ClaimedJob) :
    Phase → Option Failure → Prop
  | unresolved {reason : ResolutionError}
      (hresolve : worker.registry.resolve job.jobType job.parameter
        (w.engine.askedFor job.jobType) = .failed reason) :
      Ends worker w job .starting (some ⟨"resolution", reason.message⟩)
  | returned {exit : Exit} : Ends worker w job (.running [] exit) exit.failure?

/-- What a turn of an execution can do to the writes, in a world with this clock. -/
inductive Turn (worker : Worker (Backend σ)) (w : World σ) (d : Desk) (x : Execution) :
    Option WriteEvent → Desk → Prop
  | advanced {phase : Phase} (hphase : x.phase.Advances worker w x.job phase) :
      Turn worker w d x none (d.enter x.key phase)
  | concluded {failure : Option Failure} {draw : Int} {write : OutcomeWrite}
      (hends : x.phase.Ends worker w x.job failure)
      (hwrite : x.job.outcome? (worker.registry.retryPolicy x.job.jobType) failure w.clock draw =
        some write) :
      Turn worker w d x (some (.handed x.key write)) (d.enter x.key (.writing (.pending write)))
  | overflowed {failure : Option Failure} {draw : Int} (hends : x.phase.Ends worker w x.job failure)
      (hwrite : x.job.outcome? (worker.registry.retryPolicy x.job.jobType) failure w.clock draw =
        none) :
      Turn worker w d x none (d.finish x.key)
  | panicked {message : String} (hphase : x.phase = .starting)
      (hresolve : worker.registry.resolve x.job.jobType x.job.parameter
        (w.engine.askedFor x.job.jobType) = .panicked message) :
      Turn worker w d x none (d.finish x.key)
  | sent {write : OutcomeWrite} (hphase : x.phase = .writing (.pending write)) :
      Turn worker w d x none (d.enter x.key (.writing (.awaiting write)))
  | recorded {p : WriteProgress} (hphase : x.phase = .writing p) :
      Turn worker w d x (some (.recorded x.key p.write)) (d.finish x.key)
  | crashed {p : WriteProgress} {v : World σ} (hphase : x.phase = .writing p)
      (hcrash : World.stepWrite worker (.execution x.key) p w = some (.crashed v)) :
      Turn worker w d x (some (.crashed x.key p.write)) (d.finish x.key)
  | refused {p : WriteProgress} (hphase : x.phase = .writing p) :
      Turn worker w d x none
        { d.enter x.key (.queueing p.write) with queue := d.queue.await x.key }
  | queued {write : OutcomeWrite} (hphase : x.phase = .queueing write)
      (hroom : d.queue.admits x.key) :
      Turn worker w d x (some (.queued x.key write))
        { d.finish x.key with queue := d.queue.push x.key write }

/-- What a step of any task can do to the writes. -/
inductive Move (worker : Worker (Backend σ)) (w : World σ) (d : Desk) :
    Option WriteEvent → Desk → Prop
  | still : Move worker w d none d
  /-- The shutdown takes all slots. -/
  | closed {slots : Nat} (hfewer : slots ≤ d.slots) : Move worker w d none { d with slots }
  | launched {job : ClaimedJob} {startedAt : Nat} (hslot : 0 < d.slots) :
      Move worker w d none (d.launch job startedAt .starting)
  | applied {job : ClaimedJob} {startedAt : Nat} {write : OutcomeWrite} (hslot : 0 < d.slots) :
      Move worker w d (some (.handed d.started write))
        (d.launch job startedAt (.writing (.pending write)))
  | turned {x : Execution} {event : Option WriteEvent} {d' : Desk} (hx : x ∈ d.executions)
      (hturn : Turn worker w d x event d') : Move worker w d event d'
  | replayBegun {write : OutcomeWrite} {left right : List WriteProgress}
      (hidle : d.replaying = false) (holdest : d.queue.peek? = some write)
      (hreplays : d.replays = left ++ right) :
      Move worker w d none { d with replaying := true, replays := left ++ .pending write :: right }
  | replaySent {p p' : WriteProgress} {left right : List WriteProgress}
      (hreplays : d.replays = left ++ p :: right) (hsame : p'.write = p.write) :
      Move worker w d none { d with replays := left ++ p' :: right }
  | replayed {p : WriteProgress} {write : OutcomeWrite} {left right : List WriteProgress}
      (hreplays : d.replays = left ++ p :: right) (hnext : d.queue.pop.peek? = some write) :
      Move worker w d (some (.replayed p.write))
        { d with queue := d.queue.pop, replays := left ++ .pending write :: right }
  | replayedLast {p : WriteProgress} {left right : List WriteProgress}
      (hreplays : d.replays = left ++ p :: right) (hnext : d.queue.pop.peek? = none) :
      Move worker w d (some (.replayed p.write))
        { d with queue := d.queue.pop, replaying := false, replays := left ++ right }
  | replayEnded {p : WriteProgress} {left right : List WriteProgress}
      (hreplays : d.replays = left ++ p :: right) :
      Move worker w d none { d with replaying := false, replays := left ++ right }

namespace World

variable {worker : Worker (Backend σ)} {w w' : World σ} {R : List WriteProgress}

/-! ## 3. What is recorded of a step -/

/-- The write that an execution is at after a step, as an event. -/
def handedEvent? (x : Execution) (w' : World σ) : Option WriteEvent :=
  ((w'.engine.execution? x.key).bind (·.phase.write?)).map (.handed x.key)

/-- What a step of an execution means for its write. -/
def executionEvent? (worker : Worker (Backend σ)) (x : Execution) (w w' : World σ) :
    Option WriteEvent :=
  match x.phase with
  | .writing p =>
    match stepWrite worker (.execution x.key) p w with
    | some (.ended (.ok ()) _) => some (.recorded x.key p.write)
    | some (.crashed _) => some (.crashed x.key p.write)
    | _ => none
  | .queueing write => some (.queued x.key write)
  | _ => handedEvent? x w'

/-- What a step of a replay means for the write that it makes. -/
def replayEvent? (worker : Worker (Backend σ)) (writer : Writer) (w : World σ)
    (p : WriteProgress) : Option WriteEvent :=
  match stepWrite worker writer p w with
  | some (.ended (.ok ()) _) => some (.replayed p.write)
  | _ => none

/-- What a step of a task means for the writes, given the world after it. -/
def writeEvent? (worker : Worker (Backend σ)) (t : Task) (w w' : World σ) : Option WriteEvent :=
  match t with
  | .execution key => (w.engine.execution? key).bind fun x => w.executionEvent? worker x w'
  | .replays => w.engine.replays.progress?.bind (w.replayEvent? worker .replayLoop)
  | .shutdown => w.engine.shutdown.progress?.bind (w.replayEvent? worker .shutdown)
  | _ => none

/-! ## 4. Writes on their way -/

theorem perform_engine (b : Backend σ) (write : OutcomeWrite) (delete : Bool) (w : World σ) :
    (write.perform delete (fun c w => w.ask b c) w).2.engine = w.engine := by
  cases write <;> rfl

theorem writeDirectly_engine (worker : Worker (Backend σ)) (write : OutcomeWrite) (w : World σ) :
    (writeDirectly worker write w).world.engine = w.engine := by
  have hengine := perform_engine worker.backend write worker.config.deleteCompleted w
  simp only [writeDirectly]
  split
  all_goals
    rename_i heq
    rw [heq] at hengine
    exact hengine

/-- A write on its way changes nothing but the channel to the batcher. -/
theorem stepWrite_engine {writer : Writer} {p : WriteProgress} {r : WriteStep σ}
    (h : stepWrite worker writer p w = some r) :
    ∃ completion, r.world.engine = { w.engine with completion } := by
  unfold stepWrite at h
  simp only at h
  split at h
  · split at h
    · cases h
      exact ⟨_, writeDirectly_engine worker _ w⟩
    · split at h
      · cases h
        exact ⟨_, rfl⟩
      · split at h
        · cases h
          exact ⟨_, rfl⟩
        · cases h
  · obtain ⟨result, -, rfl⟩ := Option.map_eq_some_iff.1 h
    exact ⟨_, rfl⟩

theorem stepWrite_desk {writer : Writer} {p : WriteProgress} {r : WriteStep σ}
    (h : stepWrite worker writer p w = some r) (R : List WriteProgress) :
    r.world.engine.desk R = w.engine.desk R := by
  obtain ⟨completion, hengine⟩ := stepWrite_engine h
  rw [hengine]
  rfl

/-- The only step of a write that does not end it is that it is sent. -/
theorem stepWrite_sends {writer : Writer} {p p' : WriteProgress} {v : World σ}
    (h : stepWrite worker writer p w = some (.goesOn p' v)) :
    p = .pending p.write ∧ p' = .awaiting p.write := by
  unfold stepWrite at h
  simp only at h
  split at h
  · split at h
    · -- a write in a call of its own is over when the call is
      simp only [writeDirectly] at h
      split at h <;> cases h
    · split at h
      · cases h
      · split at h
        · cases h
          exact ⟨rfl, rfl⟩
        · cases h
  · obtain ⟨result, -, heq⟩ := Option.map_eq_some_iff.1 h
    cases heq

/-! ## 5. Executions -/

theorem mem_of_execution? {e : Engine} {key : Nat} {x : Execution} (h : e.execution? key = some x) :
    x ∈ e.executions ∧ x.key = key := by
  refine ⟨List.mem_of_find?_eq_some h, ?_⟩
  simpa using List.find?_some h

theorem execution?_enter {e : Engine} {key : Nat} {x : Execution} (phase : Phase)
    (h : e.execution? key = some x) : (e.enter key phase).execution? key =
      some { x with phase } := by
  have hcomp : ((fun y : Execution => decide (y.key = key)) ∘
      fun y => if y.key = key then { y with phase } else y) = fun y => decide (y.key = key) := by
    funext y
    by_cases hy : y.key = key
    · simp only [Function.comp, if_pos hy]
    · simp only [Function.comp, if_neg hy]
  have hkey := (mem_of_execution? h).2
  unfold Engine.execution? at h ⊢
  simp only [Engine.enter, List.find?_map, hcomp, h, Option.map_some, if_pos hkey]

theorem execution?_finish (e : Engine) (key : Nat) : (e.finish key).execution? key = none := by
  simp [Engine.execution?, Engine.finish]

theorem handedEvent?_enter {x : Execution} {phase : Phase}
    (hx : w.engine.execution? x.key = some x) :
    handedEvent? x (w.update (·.enter x.key phase)) = phase.write?.map (.handed x.key) := by
  have henter := execution?_enter phase hx
  rw [handedEvent?, update, henter, Option.bind_some]

theorem handedEvent?_finish (x : Execution) (w : World σ) :
    handedEvent? x (w.update (·.finish x.key)) = none := by
  rw [handedEvent?, update, execution?_finish, Option.bind_none, Option.map_none]

/-- An execution that has come to its end hands its write over, if there is one. -/
theorem conclude_turn {x : Execution} {failure : Option Failure} {v : World σ}
    (hx : w.engine.execution? x.key = some x) (hends : x.phase.Ends worker v x.job failure)
    (hclock : w.clock = v.clock) (draw : Int) (R : List WriteProgress) :
    Turn worker v (w.engine.desk R) x (handedEvent? x (w.conclude worker x failure draw))
      ((w.conclude worker x failure draw).engine.desk R) := by
  simp only [conclude]
  rw [hclock]
  cases hwrite : x.job.outcome? (worker.registry.retryPolicy x.job.jobType) failure v.clock
      draw with
  | some write =>
    rw [handedEvent?_enter hx]
    exact .concluded hends hwrite
  | none =>
    rw [handedEvent?_finish]
    exact .overflowed hends hwrite

theorem begin_turn {x : Execution} (hx : w.engine.execution? x.key = some x)
    (hphase : x.phase = .starting) (draw : Int) (R : List WriteProgress) :
    Turn worker w (w.engine.desk R) x (handedEvent? x (w.begin worker x draw))
      ((w.begin worker x draw).engine.desk R) := by
  -- asking the factory is counted first, and changes no execution
  obtain ⟨v, hv, hdesk, hclock, hxv⟩ : ∃ v : World σ,
      v = (if worker.registry.asksFactory x.job.jobType x.job.parameter
        then w.update (·.countAsking x.job.jobType) else w) ∧
      v.engine.desk R = w.engine.desk R ∧ v.clock = w.clock ∧
      v.engine.execution? x.key = some x := by
    refine ⟨_, rfl, ?_, ?_, ?_⟩
    all_goals
      split
      · first | rfl | exact hx
      · first | rfl | exact hx
  simp only [begin, ← hv]
  rw [← hdesk]
  cases hresolve : worker.registry.resolve x.job.jobType x.job.parameter
      (w.engine.askedFor x.job.jobType) with
  | endpoint handler parameter =>
    rw [handedEvent?_enter hxv]
    refine .advanced ?_
    rw [hphase]
    exact .begins hresolve rfl
  | failed reason =>
    exact conclude_turn hxv (hphase ▸ .unresolved hresolve) hclock draw R
  | panicked message =>
    rw [handedEvent?_finish]
    exact .panicked hphase hresolve

theorem carryOut_turn {x : Execution} {effect : Effect} {rest : List Effect} {exit : Exit}
    (hx : w.engine.execution? x.key = some x) (hphase : x.phase = .running (effect :: rest) exit)
    (h : w.carryOut worker x effect rest exit = some w') (R : List WriteProgress) :
    Turn worker w (w.engine.desk R) x (handedEvent? x w') (w'.engine.desk R) := by
  have hgoesOn : x.phase.Advances worker w x.job (.running rest exit) := hphase ▸ .goesOn
  -- what is recorded in the log changes no execution
  have hnext : ∀ v : World σ, v.engine = w.engine →
      w' = v.update (·.enter x.key (.running rest exit)) →
      Turn worker w (w.engine.desk R) x (handedEvent? x w') (w'.engine.desk R) := by
    rintro v hv rfl
    rw [handedEvent?_enter (hv ▸ hx)]
    simp only [update, hv]
    exact .advanced hgoesOn
  cases effect with
  | sleep span =>
    cases h
    rw [handedEvent?_enter hx]
    exact .advanced (hphase ▸ .sleeps)
  | awaitShutdown =>
    simp only [carryOut] at h
    split at h
    · cases h
      exact hnext w rfl rfl
    · cases h
  | invoke =>
    cases h
    refine hnext _ ?_ rfl
    rfl
  | note line =>
    cases h
    refine hnext _ ?_ rfl
    rfl
  | stamp label =>
    cases h
    refine hnext _ ?_ rfl
    rfl
  | observe succeeded =>
    cases h
    refine hnext _ ?_ rfl
    rfl

/-- A step of an execution does to the writes what it is recorded as. -/
theorem stepExecution_turn {x : Execution} {draw : Int} (hx : w.engine.execution? x.key = some x)
    (h : w.stepExecution worker draw x = some w') (R : List WriteProgress) :
    Turn worker w (w.engine.desk R) x (executionEvent? worker x w w') (w'.engine.desk R) := by
  unfold stepExecution at h
  simp only at h
  cases hphase : x.phase with
  | starting =>
    simp only [hphase, Option.some.injEq, executionEvent?] at h ⊢
    subst h
    exact begin_turn hx hphase draw R
  | running effects exit =>
    cases effects with
    | cons effect rest =>
      simp only [hphase, executionEvent?] at h ⊢
      exact carryOut_turn hx hphase h R
    | nil =>
      simp only [hphase, Option.some.injEq, executionEvent?] at h ⊢
      subst h
      exact conclude_turn hx (hphase ▸ .returned) rfl draw R
  | sleeping wake effects exit =>
    simp only [hphase, executionEvent?] at h ⊢
    split at h
    · cases h
      rw [handedEvent?_enter hx]
      exact .advanced (hphase ▸ .wakes)
    · cases h
  | writing p =>
    simp only [hphase, executionEvent?] at h ⊢
    obtain ⟨r, hstep, rfl⟩ := Option.map_eq_some_iff.1 h
    have hdesk := stepWrite_desk hstep R
    simp only [hstep]
    cases r with
    | goesOn p' v =>
      obtain ⟨hp, rfl⟩ := stepWrite_sends hstep
      rw [← hdesk]
      exact .sent (hp ▸ hphase)
    | crashed v =>
      rw [← hdesk]
      exact .crashed hphase hstep
    | ended result v =>
      cases result with
      | ok _ =>
        rw [← hdesk]
        exact .recorded hphase
      | error e =>
        rw [← hdesk]
        cases p with
        | pending write => exact .refused hphase
        | awaiting write => exact .refused hphase
  | queueing write =>
    simp only [hphase, executionEvent?] at h ⊢
    split at h
    · rename_i hroom
      cases h
      exact .queued hphase hroom
    · cases h

/-! ## 6. Replays -/

theorem beginReplay_engine {p : WriteProgress} (h : w.beginReplay = some (p, w')) :
    w.engine.replaying = false ∧ w'.engine = { w.engine with replaying := true } ∧
      ∃ write, w.engine.queue.peek? = some write ∧ p = .pending write := by
  unfold beginReplay at h
  split at h
  · cases h
  · rename_i hidle
    obtain ⟨write, holdest, heq⟩ := Option.map_eq_some_iff.1 h
    cases heq
    exact ⟨Bool.eq_false_iff.2 hidle, rfl, write, holdest, rfl⟩

theorem beginReplay_move {p : WriteProgress} (h : w.beginReplay = some (p, w'))
    (left right : List WriteProgress) :
    Move worker w (w.engine.desk (left ++ right)) none (w'.engine.desk (left ++ p :: right)) := by
  obtain ⟨hidle, hengine, write, holdest, rfl⟩ := beginReplay_engine h
  rw [hengine]
  exact .replayBegun hidle holdest rfl

/-- A replay leaves the other tasks where they are. -/
theorem stepReplay_engine {writer : Writer} {p : WriteProgress} {r : ReplayStep σ}
    (h : stepReplay worker writer p w = some r) :
    ∃ completion queue replaying,
      r.world.engine = { w.engine with completion, queue, replaying } := by
  unfold stepReplay at h
  obtain ⟨step, hstep, rfl⟩ := Option.map_eq_some_iff.1 h
  obtain ⟨completion, hengine⟩ := stepWrite_engine hstep
  refine ⟨completion, ?_⟩
  cases step with
  | goesOn p' v => exact ⟨_, _, hengine⟩
  | crashed v =>
    refine ⟨w.engine.queue, false, ?_⟩
    simp only [ReplayStep.world, update, WriteStep.world] at hengine ⊢
    rw [hengine]
  | ended result v =>
    simp only [WriteStep.world] at hengine
    cases result with
    | error e =>
      refine ⟨w.engine.queue, false, ?_⟩
      simp only [ReplayStep.world, update, hengine]
    | ok _ =>
      simp only
      split
      · refine ⟨w.engine.queue.pop, w.engine.replaying, ?_⟩
        simp only [ReplayStep.world, update, hengine]
      · refine ⟨w.engine.queue.pop, false, ?_⟩
        simp only [ReplayStep.world, update, hengine]

theorem stepReplays_engine {eager : Bool} (h : w.stepReplays worker eager = some w') :
    ∃ replays completion queue replaying,
      w'.engine = { w.engine with replays, completion, queue, replaying } := by
  unfold stepReplays at h
  simp only at h
  split at h
  · split at h
    · split at h
      · cases h
        exact ⟨_, _, _, _, rfl⟩
      · rename_i hbegin
        cases h
        obtain ⟨-, hengine, -⟩ := beginReplay_engine hbegin
        exact ⟨_, _, _, true, by rw [update, hengine]⟩
    · cases h
      exact ⟨_, _, _, _, rfl⟩
    · cases h
  · obtain ⟨r, hstep, rfl⟩ := Option.map_eq_some_iff.1 h
    obtain ⟨completion, queue, replaying, hengine⟩ := stepReplay_engine hstep
    cases r with
    | goesOn p' v =>
      exact ⟨.replaying p', completion, queue, replaying,
        congrArg ({ · with replays := .replaying p' }) hengine⟩
    | ended v =>
      let next := ReplayLoop.sleeping (v.after worker.config.retryQueueInterval)
      exact ⟨next, completion, queue, replaying, congrArg ({ · with replays := next }) hengine⟩
    | crashed v =>
      exact ⟨.dead, completion, queue, replaying, congrArg ({ · with replays := .dead }) hengine⟩
  · cases h
  · cases h

/-- A step of a replay does to the writes what it is recorded as. -/
theorem stepReplay_move {writer : Writer} {p : WriteProgress} {r : ReplayStep σ}
    (h : stepReplay worker writer p w = some r) (left right : List WriteProgress) :
    Move worker w (w.engine.desk (left ++ p :: right)) (replayEvent? worker writer w p)
      (r.world.engine.desk (left ++ (r.progress?.toList ++ right))) := by
  unfold stepReplay at h
  obtain ⟨step, hstep, rfl⟩ := Option.map_eq_some_iff.1 h
  have hdesk := fun R => stepWrite_desk hstep R
  simp only [replayEvent?, hstep]
  cases step with
  | goesOn p' v =>
    show Move worker w _ none (v.engine.desk (left ++ p' :: right))
    obtain ⟨-, rfl⟩ := stepWrite_sends hstep
    rw [← hdesk]
    exact .replaySent rfl rfl
  | crashed v =>
    rw [← hdesk]
    exact .replayEnded rfl
  | ended result v =>
    cases result with
    | error e =>
      rw [← hdesk]
      exact .replayEnded rfl
    | ok _ =>
      -- the write leaves the queue, and the replay goes on with the next one if there is one
      rw [← hdesk]
      simp only
      split
      · rename_i write hnext
        exact .replayed rfl hnext
      · rename_i hnext
        exact .replayedLast rfl hnext

/-! ## 7. Every task -/

variable {others : List WriteProgress}

theorem stepBatcher_engine (h : w.stepBatcher worker = some w') :
    ∃ completion, w'.engine = { w.engine with completion } := by
  unfold stepBatcher at h
  simp only at h
  obtain ⟨⟨completion, v⟩, hstep, rfl⟩ := Option.map_eq_some_iff.1 h
  rcases completion_step hstep with rfl | ⟨jobs, rfl⟩
  · exact ⟨completion, rfl⟩
  · exact ⟨completion, rfl⟩

theorem afterMiss_slots (config : WorkerConfig) (delay : Duration) (v : World σ)
    (answer : Answer (List ClaimedJob)) :
    (ClaimLoop.afterMiss config delay v answer).slots = 0 := by
  unfold ClaimLoop.afterMiss
  split <;> rfl

theorem ask_engine {b : Backend σ} {c : Call} {answer : Answer c.Result} {v : World σ}
    (h : w.ask b c = (answer, v)) : v.engine = w.engine := by
  rw [← show (w.ask b c).2.engine = w.engine from rfl, h]

/-- A step of the task that claims jobs: it starts an execution in a slot, or goes on by itself. -/
theorem stepClaims_engine {eager : Bool} (h : w.stepClaims worker eager = some w') :
    (∃ claims freeSlots, claims.slots + freeSlots = w.engine.claims.slots + w.engine.freeSlots ∧
      w'.engine = { w.engine with claims, freeSlots }) ∨
    ∃ job claims freeSlots,
      claims.slots + freeSlots + 1 = w.engine.claims.slots + w.engine.freeSlots ∧
      w'.engine = { w.engine.launch job w.now with claims, freeSlots } := by
  cases stepClaims_move h with
  | gaveUp hpoint _ => exact Or.inl ⟨_, _, by rw [hpoint]; rfl, rfl⟩
  | acquired hpoint hfree =>
    refine Or.inl ⟨_, _, ?_, rfl⟩
    rw [hpoint]
    simp only [ClaimLoop.slots]
    omega
  | @claimed _ _ job jobs v hpoint hask =>
    refine Or.inl ⟨.dispatching (job :: jobs) true, w.engine.freeSlots, by rw [hpoint]; rfl, ?_⟩
    rw [update, ask_engine hask]
  | @missed delay _ answer v hpoint hask _ =>
    -- the slot that was held for the claim is free again
    refine Or.inl ⟨.afterMiss worker.config delay v answer, w.engine.freeSlots + 1, ?_, ?_⟩
    · rw [afterMiss_slots, hpoint]
      simp only [ClaimLoop.slots]
      omega
    · rw [update, ask_engine hask]
      rfl
  | @launched job jobs held hpoint hfree =>
    refine Or.inr ⟨job, _, _, ?_, rfl⟩
    rw [hpoint]
    cases held with
    | true =>
      simp only [ClaimLoop.slots, if_true]
      omega
    | false =>
      have hpos := hfree rfl
      simp only [ClaimLoop.slots, Bool.false_eq_true, if_false]
      omega
  | dispatched hpoint => exact Or.inl ⟨_, _, by rw [hpoint]; rfl, rfl⟩
  | woken hpoint => exact Or.inl ⟨_, _, by rw [hpoint]; rfl, rfl⟩
  | stopped hpoint _ => exact Or.inl ⟨_, _, by rw [hpoint]; rfl, rfl⟩

theorem stepHeartbeats_engine {eager : Bool} (h : w.stepHeartbeats worker eager = some w') :
    ∃ heartbeats, w'.engine = { w.engine with heartbeats } := by
  unfold stepHeartbeats at h
  split at h
  · split at h
    · cases h
      exact ⟨_, rfl⟩
    · cases h
      exact ⟨_, rfl⟩
    · cases h
  · cases h
  · cases h

theorem stepReclaims_engine {eager : Bool} (h : w.stepReclaims worker eager = some w') :
    ∃ reclaims, w'.engine = { w.engine with reclaims } := by
  rcases stepReclaims_cases h with ⟨next, rfl⟩ | ⟨staleBefore, next, -, rfl⟩
  · exact ⟨next, rfl⟩
  · exact ⟨next, rfl⟩

theorem stepReplays_move {eager : Bool} (h : w.stepReplays worker eager = some w') :
    Move worker w (w.engine.desk (w.engine.replaysWith others))
      (w.engine.replays.progress?.bind (w.replayEvent? worker .replayLoop))
      (w'.engine.desk (w'.engine.replaysWith others)) := by
  unfold stepReplays at h
  simp only at h
  cases hloop : w.engine.replays with
  | sleeping wake =>
    simp only [hloop] at h
    have hnone : w.engine.replaysWith others =
        [] ++ (w.engine.shutdown.progress?.toList ++ others) := by
      rw [Engine.replaysWith, hloop]
      rfl
    rw [hnone]
    split at h
    · split at h
      · cases h
        exact .still
      · rename_i p v hbegin
        cases h
        have hmove : Move worker w _ none _ := beginReplay_move hbegin []
          (w.engine.shutdown.progress?.toList ++ others)
        obtain ⟨-, hengine, -⟩ := beginReplay_engine hbegin
        rw [show w.engine.shutdown = v.engine.shutdown by rw [hengine]] at hmove ⊢
        exact hmove
    · cases h
      exact .still
    · cases h
  | replaying p =>
    simp only [hloop] at h
    obtain ⟨r, hstep, rfl⟩ := Option.map_eq_some_iff.1 h
    have hmove := stepReplay_move hstep [] (w.engine.shutdown.progress?.toList ++ others)
    obtain ⟨completion, queue, replaying, hengine⟩ := stepReplay_engine hstep
    have hsome : w.engine.replaysWith others =
        [] ++ p :: (w.engine.shutdown.progress?.toList ++ others) := by
      rw [Engine.replaysWith, hloop]
      rfl
    rw [hsome]
    rw [show w.engine.shutdown = r.world.engine.shutdown by rw [hengine]] at hmove ⊢
    cases r with
    | goesOn p' v => exact hmove
    | ended v => exact hmove
    | crashed v => exact hmove
  | stopped =>
    simp only [hloop] at h
    cases h
  | dead =>
    simp only [hloop] at h
    cases h

/-- The shutdown begins a replay. -/
theorem shutdown_begins {p : WriteProgress} {v : World σ} {s : Shutdown}
    (hidle : w.engine.shutdown.progress? = none) (hbegin : w.beginReplay = some (p, v))
    (hs : s.progress? = some p) :
    Move worker w (w.engine.desk (w.engine.replaysWith others)) none
      (v.engine.desk ({ v.engine with shutdown := s }.replaysWith others)) := by
  have hmove : Move worker w _ none _ :=
    beginReplay_move hbegin w.engine.replays.progress?.toList others
  obtain ⟨-, hengine, -⟩ := beginReplay_engine hbegin
  have hafter : { v.engine with shutdown := s }.replaysWith others =
      w.engine.replays.progress?.toList ++ p :: others := by
    rw [Engine.replaysWith, hs, hengine]
    rfl
  rw [hafter, Engine.replaysWith, hidle]
  exact hmove

/-- The shutdown goes on with a replay. -/
theorem shutdown_replays {p : WriteProgress} {r : ReplayStep σ} {s : Shutdown}
    (hon : w.engine.shutdown.progress? = some p)
    (hstep : stepReplay worker .shutdown p w = some r) (hs : s.progress? = r.progress?) :
    Move worker w (w.engine.desk (w.engine.replaysWith others)) (w.replayEvent? worker .shutdown p)
      (r.world.engine.desk ({ r.world.engine with shutdown := s }.replaysWith others)) := by
  have hmove := stepReplay_move hstep w.engine.replays.progress?.toList others
  obtain ⟨completion, queue, replaying, hengine⟩ := stepReplay_engine hstep
  have hloop : r.world.engine.replays = w.engine.replays := by rw [hengine]
  have hafter : { r.world.engine with shutdown := s }.replaysWith others =
      w.engine.replays.progress?.toList ++ (r.progress?.toList ++ others) := by
    rw [Engine.replaysWith, hs, hloop]
  rw [hafter, Engine.replaysWith, hon]
  exact hmove

theorem drainedBy_progress? (worker : Worker (Backend σ)) (r : ReplayStep σ) :
    (drainedBy worker r).progress? = r.progress? := by
  cases r <;> rfl

theorem closed_progress? (worker : Worker (Backend σ)) : (closed worker).progress? = none := by
  unfold closed
  split <;> rfl

theorem closedBy_progress? (worker : Worker (Backend σ)) (r : ReplayStep σ) :
    (closedBy worker r).progress? = r.progress? := by
  cases r with
  | goesOn p v => rfl
  | ended v => exact closed_progress? worker
  | crashed v => rfl

theorem stepShutdown_move {eager : Bool} (h : w.stepShutdown worker eager = some w') :
    Move worker w (w.engine.desk (w.engine.replaysWith others))
      (w.engine.shutdown.progress?.bind (w.replayEvent? worker .shutdown))
      (w'.engine.desk (w'.engine.replaysWith others)) := by
  -- a point of the shutdown without a replay, reached from one without
  have hstill : ∀ s : Shutdown, w.engine.shutdown.progress? = none → s.progress? = none →
      Move worker w (w.engine.desk (w.engine.replaysWith others))
        (w.engine.shutdown.progress?.bind (w.replayEvent? worker .shutdown))
        (w.engine.desk ({ w.engine with shutdown := s }.replaysWith others)) := by
    intro s hidle hs
    rw [Engine.replaysWith, Engine.replaysWith, hs, hidle]
    exact .still
  have hbegins : ∀ (s : Shutdown) (p : WriteProgress) (v : World σ),
      w.engine.shutdown.progress? = none → w.beginReplay = some (p, v) → s.progress? = some p →
      Move worker w (w.engine.desk (w.engine.replaysWith others))
        (w.engine.shutdown.progress?.bind (w.replayEvent? worker .shutdown))
        (v.engine.desk ({ v.engine with shutdown := s }.replaysWith others)) := by
    intro s p v hidle hbegin hs
    rw [hidle]
    exact shutdown_begins hidle hbegin hs
  have hreplays : ∀ (s : Shutdown) (p : WriteProgress) (r : ReplayStep σ),
      w.engine.shutdown.progress? = some p → stepReplay worker .shutdown p w = some r →
      s.progress? = r.progress? →
      Move worker w (w.engine.desk (w.engine.replaysWith others))
        (w.engine.shutdown.progress?.bind (w.replayEvent? worker .shutdown))
        (r.world.engine.desk ({ r.world.engine with shutdown := s }.replaysWith others)) := by
    intro s p r hon hstep hs
    rw [hon]
    exact shutdown_replays hon hstep hs
  cases stepShutdown_cases h with
  | joined hpoint _ => exact hstill _ (by rw [hpoint]; rfl) rfl
  | failed hpoint _ => exact hstill _ (by rw [hpoint]; rfl) rfl
  | emptied hpoint _ =>
    rw [Engine.replaysWith, hpoint]
    exact .closed (Nat.add_le_add_left (Nat.zero_le _) _)
  | waited hpoint _ => exact hstill _ (by rw [hpoint]; rfl) rfl
  | @begun _ p v hpoint hbegin =>
    exact hbegins (.drainReplaying p) p v (by rw [hpoint]; rfl) hbegin rfl
  | replayed hpoint hstep =>
    exact hreplays _ _ _ (by rw [hpoint]; rfl) hstep (drainedBy_progress? worker _)
  | unqueued hpoint _ => exact hstill _ (by rw [hpoint]; rfl) (closed_progress? worker)
  | @lastBegun p v hpoint hbegin =>
    exact hbegins (.lastReplay p) p v (by rw [hpoint]; rfl) hbegin rfl
  | lastReplayed hpoint hstep =>
    exact hreplays _ _ _ (by rw [hpoint]; rfl) hstep (closedBy_progress? worker _)
  | finished hpoint _ => exact hstill _ (by rw [hpoint]; rfl) rfl
  | unfinished hpoint _ => exact hstill _ (by rw [hpoint]; rfl) rfl

theorem conclude_engine (worker : Worker (Backend σ)) (x : Execution) (failure : Option Failure)
    (draw : Int) (w : World σ) :
    ∃ freeSlots executions,
      (w.conclude worker x failure draw).engine = { w.engine with freeSlots, executions } := by
  simp only [conclude]
  split
  · exact ⟨_, _, rfl⟩
  · exact ⟨_, _, rfl⟩

theorem begin_engine (worker : Worker (Backend σ)) (x : Execution) (draw : Int) (w : World σ) :
    ∃ freeSlots executions asked,
      (w.begin worker x draw).engine = { w.engine with freeSlots, executions, asked } := by
  -- asking the factory is counted first, whatever comes of it
  obtain ⟨v, hv, asked, hcount⟩ : ∃ v : World σ,
      v = (if worker.registry.asksFactory x.job.jobType x.job.parameter
        then w.update (·.countAsking x.job.jobType) else w) ∧
      ∃ asked, v.engine = { w.engine with asked } := by
    refine ⟨_, rfl, ?_⟩
    split
    · exact ⟨_, rfl⟩
    · exact ⟨_, rfl⟩
  simp only [begin, ← hv]
  split
  · exact ⟨_, _, asked, by rw [update, hcount]; rfl⟩
  · obtain ⟨freeSlots, executions, hengine⟩ := conclude_engine worker x _ draw v
    exact ⟨freeSlots, executions, asked, by rw [hengine, hcount]⟩
  · exact ⟨_, _, asked, by rw [update, hcount]; rfl⟩

/-- An execution leaves the other tasks where they are. -/
theorem stepExecution_engine {x : Execution} {draw : Int}
    (h : w.stepExecution worker draw x = some w') :
    ∃ freeSlots executions queue completion asked,
      w'.engine = { w.engine with freeSlots, executions, queue, completion, asked } := by
  unfold stepExecution at h
  simp only at h
  split at h
  · cases h
    obtain ⟨freeSlots, executions, asked, hengine⟩ := begin_engine worker x draw w
    exact ⟨freeSlots, executions, _, _, asked, hengine⟩
  · rename_i effect _ _ _
    cases effect with
    | awaitShutdown =>
      simp only [carryOut] at h
      split at h
      · cases h
        exact ⟨_, _, _, _, _, rfl⟩
      · cases h
    | _ =>
      cases h
      exact ⟨_, _, _, _, _, rfl⟩
  · cases h
    obtain ⟨freeSlots, executions, hengine⟩ := conclude_engine worker x _ draw w
    exact ⟨freeSlots, executions, _, _, _, hengine⟩
  · split at h
    · cases h
      exact ⟨_, _, _, _, _, rfl⟩
    · cases h
  · obtain ⟨r, hstep, rfl⟩ := Option.map_eq_some_iff.1 h
    obtain ⟨completion, hengine⟩ := stepWrite_engine hstep
    split
    all_goals
      simp only [WriteStep.world] at hengine
      exact ⟨_, _, _, completion, _, by rw [update, hengine]; rfl⟩
  · split at h
    · cases h
      exact ⟨_, _, _, _, _, rfl⟩
    · cases h

theorem stepExecution_replaysWith {x : Execution} {draw : Int}
    (h : w.stepExecution worker draw x = some w') :
    w'.engine.replaysWith others = w.engine.replaysWith others := by
  obtain ⟨freeSlots, executions, queue, completion, asked, hengine⟩ := stepExecution_engine h
  rw [hengine]
  rfl

/-- Nothing happens to the writes but what `Move` lists, and it is recorded. -/
theorem step_move {t : Task} {eager : Bool} {draw : Int}
    (h : w.step worker t eager draw = some w') (others : List WriteProgress) :
    Move worker w (w.engine.desk (w.engine.replaysWith others)) (w.writeEvent? worker t w')
      (w'.engine.desk (w'.engine.replaysWith others)) := by
  cases t with
  | batcher =>
    obtain ⟨completion, hengine⟩ := stepBatcher_engine h
    rw [hengine]
    exact .still
  | claims =>
    rcases stepClaims_engine h with ⟨claims, freeSlots, hslots, hengine⟩ |
      ⟨job, claims, freeSlots, hslots, hengine⟩
    · have hafter : w'.engine.desk (w'.engine.replaysWith others) =
          w.engine.desk (w.engine.replaysWith others) := by
        rw [hengine]
        simp only [Engine.desk, hslots]
        rfl
      rw [hafter]
      exact .still
    · have hfree : 0 < (w.engine.desk (w.engine.replaysWith others)).slots := by
        simp only [Engine.desk]
        omega
      have htaken : claims.slots + freeSlots = w.engine.claims.slots + w.engine.freeSlots - 1 := by
        omega
      have hafter : w'.engine.desk (w'.engine.replaysWith others) =
          (w.engine.desk (w.engine.replaysWith others)).launch job w.now .starting := by
        rw [hengine]
        simp only [Engine.desk, htaken]
        rfl
      rw [hafter]
      exact .launched hfree
  | heartbeats =>
    obtain ⟨heartbeats, hengine⟩ := stepHeartbeats_engine h
    rw [hengine]
    exact .still
  | reclaims =>
    obtain ⟨reclaims, hengine⟩ := stepReclaims_engine h
    rw [hengine]
    exact .still
  | replays => exact stepReplays_move h
  | shutdown => exact stepShutdown_move h
  | execution key =>
    obtain ⟨x, hx, hstep⟩ := Option.bind_eq_some_iff.1 h
    obtain rfl : x.key = key := (mem_of_execution? hx).2
    rw [stepExecution_replaysWith hstep, writeEvent?, hx, Option.bind_some]
    exact .turned (mem_of_execution? hx).1 (stepExecution_turn hx hstep _)

end World

end JobQueue
