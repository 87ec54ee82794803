import JobQueue.Proofs.Worker.Ledger
import JobQueue.Worker.Timeline
import Mathlib.Data.List.Perm.Basic

/-!
# Audits of a worker

A worker that runs in a surrounding that does everything to its writes that can be done: others
change the state of the backend at any time, so that calls fail and succeed in any pattern, writes
are handed over from elsewhere too, and replays are asked for at any time, also while one is under
way. A ledger is kept meanwhile. The main result says where each write is at every moment.
-/

namespace JobQueue

variable {σ : Type}

structure Audit (σ : Type) where
  world : World σ
  /-- The replays that are under way and not the worker's own. -/
  replays : List WriteProgress := []
  ledger : Ledger := {}

/-! ## 1. Runs -/

/-- Starts an execution in a free slot, at the point where it has come to its write. -/
def Engine.handOver (e : Engine) (job : ClaimedJob) (write : OutcomeWrite) (now : Nat) : Engine :=
  { (e.launch job now).enter e.started (.writing (.pending write)) with
    freeSlots := e.freeSlots - 1 }

namespace Audit

inductive Action (σ : Type)
  | step (t : Task) (eager : Bool) (draw : Int)
  /-- A write is handed over, by an execution that takes a slot and has come to it at once. -/
  | apply (job : ClaimedJob) (write : OutcomeWrite)
  /-- A replay is asked for. It does nothing while another one is under way. -/
  | replay
  /-- A replay that is not the worker's own goes on. -/
  | goOn (i : Nat)
  /-- Others do something to the state of the backend. -/
  | disturb (change : σ → σ)
  | wait (now : Nat)
  | shutDown

/-- What comes of an action, if it can be taken. -/
def act (worker : Worker (Backend σ)) (action : Action σ) (a : Audit σ) : Option (Audit σ) :=
  match action with
  | .step t eager draw =>
    (a.world.step worker t eager draw).map fun w =>
      { a with world := w, ledger := a.ledger.record (a.world.writeEvent? worker t w) }
  | .apply job write =>
    if 0 < a.world.engine.freeSlots then
      some { a with
        world := a.world.update (·.handOver job write a.world.now)
        ledger := a.ledger.record (some (.handed a.world.engine.started write)) }
    else none
  | .replay =>
    match a.world.beginReplay with
    | none => some a
    | some (p, w) => some { a with world := w, replays := p :: a.replays }
  | .goOn i =>
    (a.replays[i]?).bind fun p =>
      (World.stepReplay worker .replayLoop p a.world).map fun r =>
        { world := r.world
          replays := a.replays.take i ++ (r.progress?.toList ++ a.replays.drop (i + 1))
          ledger := a.ledger.record (a.world.replayEvent? worker .replayLoop p) }
  | .disturb change => some { a with world := { a.world with state := change a.world.state } }
  | .wait now => some { a with world := { a.world with now } }
  | .shutDown =>
    match a.world.engine.shutdown with
    | .notRequested => some { a with world := a.world.requestShutdown }
    | _ => none

def run (worker : Worker (Backend σ)) : List (Action σ) → Audit σ → Option (Audit σ)
  | [], a => some a
  | action :: rest, a => (a.act worker action).bind (run worker rest)

theorem run_append (worker : Worker (Backend σ)) (before rest : List (Action σ)) (a : Audit σ) :
    run worker (before ++ rest) a = (run worker before a).bind (run worker rest) := by
  induction before generalizing a with
  | nil => rfl
  | cons action before ih =>
    rw [List.cons_append, run, run, Option.bind_assoc]
    congr 1
    funext next
    exact ih next

theorem act_shutDown {worker : Worker (Backend σ)} {a b : Audit σ}
    (h : a.act worker .shutDown = some b) : b = { a with world := a.world.requestShutdown } := by
  simp only [act] at h
  split at h
  · exact (Option.some.inj h).symm
  · cases h

def desk (a : Audit σ) : Desk := a.world.engine.desk (a.world.engine.replaysWith a.replays)

/-! ## 2. What a run keeps -/

variable {worker : Worker (Backend σ)} {a b : Audit σ} {action : Action σ}

theorem handOver_desk {e : Engine} {R : List WriteProgress} (hd : (e.desk R).Numbered)
    (hfree : 0 < e.freeSlots) (job : ClaimedJob) (write : OutcomeWrite) (now : Nat) :
    (e.handOver job write now).desk R =
      (e.desk R).launch job now (.writing (.pending write)) := by
  have hslots : e.claims.slots + (e.freeSlots - 1) = e.claims.slots + e.freeSlots - 1 := by omega
  rw [← hd.launch_enter]
  simp only [Engine.handOver, Engine.desk, Engine.enter, Engine.launch, Desk.enter, Desk.launch,
    hslots]
  rfl

theorem replaysWith_eq (e : Engine) (others : List WriteProgress) :
    e.replaysWith others = e.replaysWith [] ++ others := by
  simp only [Engine.replaysWith, List.append_assoc, List.append_nil]

/-- An action does to the writes what the ledger records, and nothing more. -/
theorem act_move (h : a.act worker action = some b) (hd : a.desk.Numbered) :
    ∃ event, b.ledger = a.ledger.record event ∧ Move worker a.world a.desk event b.desk := by
  cases action with
  | step t eager draw =>
    obtain ⟨w, hstep, rfl⟩ := Option.map_eq_some_iff.1 h
    exact ⟨_, rfl, World.step_move hstep a.replays⟩
  | apply job write =>
    simp only [act] at h
    split at h
    · rename_i hfree
      have hb := Option.some.inj h
      have hslot : 0 < a.desk.slots := Nat.lt_of_lt_of_le hfree (Nat.le_add_left _ _)
      have hafter : b.desk = a.desk.launch job a.world.now (.writing (.pending write)) :=
        hb ▸ handOver_desk hd hfree job write a.world.now
      refine ⟨some (.handed a.world.engine.started write), hb ▸ rfl, ?_⟩
      rw [hafter]
      exact .applied hslot
    · cases h
  | replay =>
    simp only [act] at h
    split at h
    · cases h
      exact ⟨none, rfl, .still⟩
    · rename_i p w hbegin
      cases h
      obtain ⟨-, hengine, -⟩ := World.beginReplay_engine hbegin
      have hsame : w.engine.replaysWith [] = a.world.engine.replaysWith [] := by
        rw [hengine]
        rfl
      -- the new replay stands between those of the worker and the others
      refine ⟨none, rfl, ?_⟩
      show Move worker a.world (a.world.engine.desk (a.world.engine.replaysWith a.replays)) none
        (w.engine.desk (w.engine.replaysWith (p :: a.replays)))
      rw [replaysWith_eq a.world.engine, replaysWith_eq w.engine, hsame]
      exact World.beginReplay_move hbegin _ _
  | goOn i =>
    obtain ⟨p, hp, h⟩ := Option.bind_eq_some_iff.1 h
    obtain ⟨r, hstep, rfl⟩ := Option.map_eq_some_iff.1 h
    obtain ⟨completion, queue, replaying, hengine⟩ := World.stepReplay_engine hstep
    have hsame : r.world.engine.replaysWith [] = a.world.engine.replaysWith [] := by
      rw [hengine]
      rfl
    obtain ⟨hi, rfl⟩ := List.getElem?_eq_some_iff.1 hp
    -- the replay goes on where it stands among the others
    have hbefore : a.world.engine.replaysWith a.replays =
        (a.world.engine.replaysWith [] ++ a.replays.take i) ++
          a.replays[i] :: a.replays.drop (i + 1) := by
      rw [replaysWith_eq, List.append_assoc, List.getElem_cons_drop hi, List.take_append_drop]
    refine ⟨_, rfl, ?_⟩
    show Move worker a.world (a.world.engine.desk (a.world.engine.replaysWith a.replays)) _
      (r.world.engine.desk (r.world.engine.replaysWith
        (a.replays.take i ++ (r.progress?.toList ++ a.replays.drop (i + 1)))))
    rw [hbefore, replaysWith_eq r.world.engine, hsame, ← List.append_assoc]
    exact World.stepReplay_move hstep _ _
  | disturb change =>
    cases h
    exact ⟨none, rfl, .still⟩
  | wait now =>
    cases h
    exact ⟨none, rfl, .still⟩
  | shutDown =>
    simp only [act] at h
    split at h
    · rename_i hpoint
      have hb := Option.some.inj h
      have hafter : b.desk = a.desk := by
        rw [← hb, desk, desk, Engine.replaysWith, Engine.replaysWith, hpoint]
        rfl
      refine ⟨none, hb ▸ rfl, ?_⟩
      rw [hafter]
      exact .still
    · cases h

/-- The ledger agrees with the engine, and the engine with the configuration. -/
structure Sound (worker : Worker (Backend σ)) (a : Audit σ) : Prop where
  balanced : a.ledger.Balanced a.desk
  capacity : a.desk.queue.capacity = worker.config.retryQueueCapacity
  slots : a.desk.slots + a.desk.executions.length ≤ worker.config.maxConcurrency

theorem engine_of_start {state : σ} {origin : Instant} {w : World σ}
    (h : World.start worker state origin = .ok w) : w.engine = .start worker 0 := by
  simp only [World.start] at h
  split at h
  · rename_i v hask
    have hengine := congrArg (·.2.engine) hask
    split at h
    · cases h
    · cases h
      exact hengine.symm
  · cases h
  · cases h

theorem start_sound {state : σ} {origin : Instant} {w : World σ}
    (h : World.start worker state origin = .ok w) : Sound worker { world := w } := by
  have hdesk : (Audit.mk w [] {}).desk = (Engine.start worker 0).desk [] := by
    rw [desk, engine_of_start h]
    rfl
  refine ⟨?_, ?_, ?_⟩
  · rw [hdesk]
    refine ⟨⟨List.nodup_nil, ?_⟩, Or.inl ⟨rfl, rfl⟩, ⟨rfl, Nat.zero_le _⟩, ?_⟩
    · intro x hx
      cases hx
    · refine ⟨?_, List.nodup_nil, ?_, fun e => rfl⟩
      · intro key hkey
        cases hkey
      · intro x hx
        cases hx
  · rw [hdesk]
    rfl
  · rw [hdesk]
    exact Nat.le_of_eq (Nat.zero_add _)

theorem act_sound (h : a.act worker action = some b) (ha : Sound worker a) : Sound worker b := by
  obtain ⟨event, hledger, hmove⟩ := act_move h ha.balanced.numbered
  refine ⟨?_, ?_, ?_⟩
  · rw [hledger]
    exact hmove.balanced ha.balanced
  · rw [hmove.capacity_eq]
    exact ha.capacity
  · exact Nat.le_trans (hmove.slots_le ha.balanced.numbered) ha.slots

/-- What each action of a run keeps, the run keeps. -/
theorem run_keeps {P : Audit σ → Prop} {actions : List (Action σ)}
    (h : run worker actions a = some b)
    (hact : ∀ action ∈ actions, ∀ c d, c.act worker action = some d → P c → P d) (ha : P a) :
    P b := by
  induction actions generalizing a with
  | nil =>
    cases h
    exact ha
  | cons action rest ih =>
    obtain ⟨next, hnext, hrest⟩ := Option.bind_eq_some_iff.1 h
    exact ih hrest (fun action hmem => hact action (List.mem_cons_of_mem _ hmem))
      (hact action List.mem_cons_self a next hnext ha)

theorem run_sound {actions : List (Action σ)} (h : run worker actions a = some b)
    (ha : Sound worker a) : Sound worker b :=
  run_keeps h (fun _ _ _ _ hact => act_sound hact) ha

/-! ## 3. Crashes -/

end Audit

/-- Every call is answered, if only with an error. -/
def Backend.NeverCrashes (b : Backend σ) : Prop :=
  ∀ clock c state, (b.answer clock c state).1 ≠ .error .crash

section Crash

variable {worker : Worker (Backend σ)} {w : World σ}

theorem OutcomeWrite.perform_ne_crash (hb : worker.backend.NeverCrashes) (write : OutcomeWrite)
    (delete : Bool) (w : World σ) :
    (write.perform delete (fun c w => w.ask worker.backend c) w).1 ≠ .error .crash := by
  cases write with
  | complete finished => exact hb w.clock (.complete [finished] delete) w.state
  | retry job scheduledAt error => exact hb w.clock (.retry job scheduledAt error) w.state
  | reschedule job scheduledAt error => exact hb w.clock (.reschedule job scheduledAt error) w.state
  | fail job error => exact hb w.clock (.fail job error) w.state

theorem World.stepWrite_ne_crashed (hb : worker.backend.NeverCrashes) {writer : Writer}
    {p : WriteProgress} {v : World σ} :
    World.stepWrite worker writer p w ≠ some (.crashed v) := by
  intro h
  cases p with
  | pending write =>
    have hanswer := write.perform_ne_crash hb worker.config.deleteCompleted w
    simp only [stepWrite] at h
    split at h
    · simp only [writeDirectly] at h
      split at h
      · cases h
      · cases h
      · rename_i heq
        rw [heq] at hanswer
        exact hanswer rfl
    · split at h
      · cases h
      · split at h <;> cases h
  | awaiting write =>
    obtain ⟨result, -, heq⟩ := Option.map_eq_some_iff.1 h
    cases heq

theorem Move.crashed_eq (hb : worker.backend.NeverCrashes) {d d' : Desk}
    {event : Option WriteEvent} {l : Ledger} (h : Move worker w d event d') :
    (l.record event).crashed = l.crashed := by
  cases h with
  | turned _ hturn =>
    cases hturn with
    | crashed _ hcrash => exact absurd hcrash (World.stepWrite_ne_crashed hb)
    | _ => rfl
  | _ => rfl

end Crash

namespace Audit

variable {worker : Worker (Backend σ)} {a b : Audit σ}

theorem run_crashed_eq (hb : worker.backend.NeverCrashes) {actions : List (Action σ)}
    (h : run worker actions a = some b) (ha : Sound worker a) :
    b.ledger.crashed = a.ledger.crashed := by
  refine (run_keeps (P := fun c => Sound worker c ∧ c.ledger.crashed = a.ledger.crashed) h ?_
    ⟨ha, rfl⟩).2
  rintro action - c d hact ⟨hc, hsame⟩
  obtain ⟨event, hledger, hmove⟩ := act_move hact hc.balanced.numbered
  exact ⟨act_sound hact hc, by rw [hledger, hmove.crashed_eq hb, hsame]⟩

/-! ## 4. The place of each write -/

/-- **Where each write is.** At every moment each write that was handed over is in exactly one place:
it was made at the first attempt, or its execution still holds it and keeps its slot, or it waits in
the queue, or a replay has made it. The queue is bounded, and writes leave it in the order in which
they came. Only a call that crashes takes a write with it. -/
theorem writes_accounted {state : σ} {origin : Instant} {w : World σ} {actions : List (Action σ)}
    (hstart : World.start worker state origin = .ok w)
    (hrun : run worker actions { world := w } = some a) :
    ∃ replayed waiting, a.ledger.queued = replayed ++ waiting ∧
      replayed.map (·.2) = a.ledger.replayed ∧
      waiting.map (·.2) = a.world.engine.queue.items ∧
      (a.ledger.handed.map (·.1)).Nodup ∧
      a.ledger.handed.Perm
        (a.ledger.recorded ++ a.world.engine.held ++ waiting ++ replayed ++ a.ledger.crashed) ∧
      a.world.engine.queue.size ≤ worker.config.retryQueueCapacity ∧
      a.world.engine.freeSlots + a.world.engine.held.length ≤ worker.config.maxConcurrency ∧
      (worker.backend.NeverCrashes → a.ledger.crashed = []) := by
  have hsound := run_sound hrun (start_sound hstart)
  obtain ⟨replayed, waiting, hqueued, hreplayed, hwaiting⟩ :=
    List.map_eq_append_iff.1 hsound.balanced.inOrder.items
  refine ⟨replayed, waiting, hqueued, hreplayed, hwaiting, hsound.balanced.placed.once, ?_, ?_, ?_,
    ?_⟩
  · -- the writes that were queued are those that a replay has made and those that still wait
    rw [List.perm_iff_count]
    intro e
    have hplace := hsound.balanced.placed.place e
    have hheld : a.desk.held = a.world.engine.held := rfl
    rw [hheld, hqueued] at hplace
    simp only [List.count_append] at hplace ⊢
    omega
  · exact hsound.capacity ▸ hsound.balanced.inOrder.bounded
  · -- an execution that holds a write has a slot, which is none of the free ones
    have hslots := hsound.slots
    have hheld : a.world.engine.held.length ≤ a.desk.executions.length :=
      List.length_filterMap_le _ _
    have hfree : a.world.engine.freeSlots ≤ a.desk.slots := Nat.le_add_left _ _
    omega
  · intro hb
    exact run_crashed_eq hb hrun (start_sound hstart)

/-- An empty store that is out of reach at times. -/
def frailBackend : Backend Bool where
  answer clock c up := (if up then (Store.answer clock c {}).1 else .error (.error .badState), up)

theorem ofExcept_ne_crash {α : Type} (r : Except BackendError α) :
    Answer.ofExcept r ≠ .error .crash := by
  cases r <;> exact nofun

theorem frailBackend_neverCrashes : frailBackend.NeverCrashes := by
  intro clock c up hcrash
  cases up with
  | false => cases hcrash
  | true =>
    cases c with
    | insertMany jobs => exact ofExcept_ne_crash _ hcrash
    | claim owner limit now =>
      have hnone : ({} : Store).dueJobs limit now = [] := by simp [Store.dueJobs]
      simp [frailBackend, Store.answer, Store.claim, hnone] at hcrash
    | _ => cases hcrash

/-- A configuration for three executions, whose queue has room for one write. -/
def tightConfig : WorkerConfig where
  maxConcurrency := 3
  retryQueueCapacity := 1
  staleThreshold := ⟨60000000000, by decide, by decide⟩

def frailWorker : Worker (Backend Bool) where
  id := ⟨.ofNat 1⟩
  backend := frailBackend
  config := tightConfig
  registry := ⟨[], .standard⟩
  pipeline := ⟨[], false⟩

/-- The failure of a job. -/
def failureOf (n : Nat) : OutcomeWrite := .fail ⟨⟨.ofNat n⟩, ⟨.ofNat 1⟩⟩ "error: no disk"

/-- The first of four writes is made. Then two fail, and the queue has room for one of them. A
replay fails, a second one makes the write and lets the other one into the queue. -/
def spill : List (Action Bool) :=
  [.apply default (failureOf 1), .step (.execution 0) false 0, .disturb fun _ => false,
    .apply default (failureOf 2), .apply default (failureOf 3), .apply default (failureOf 4),
    .step (.execution 1) false 0, .step (.execution 2) false 0, .step (.execution 1) false 0,
    .replay, .goOn 0, .disturb fun _ => true, .replay, .replay, .goOn 0,
    .step (.execution 2) false 0]

/-- One write in each of the four places. -/
theorem writes_accounted_outage :
    ∃ w a replayed waiting, World.start frailWorker true .epoch = .ok w ∧
      run frailWorker spill { world := w } = some a ∧
      a.ledger.handed = [(0, failureOf 1), (1, failureOf 2), (2, failureOf 3), (3, failureOf 4)] ∧
      a.ledger.recorded = [(0, failureOf 1)] ∧ a.world.engine.held = [(3, failureOf 4)] ∧
      replayed.map (·.2) = [failureOf 2] ∧ waiting.map (·.2) = [failureOf 3] ∧
      a.ledger.handed.Perm (a.ledger.recorded ++ a.world.engine.held ++ waiting ++ replayed) := by
  obtain ⟨w, hstart⟩ : ∃ w, World.start frailWorker true .epoch = .ok w := ⟨_, rfl⟩
  obtain ⟨a, hrun, hhanded, hrecorded, hheld, hqueued, hreplayed⟩ :
      ∃ a, run frailWorker spill { world := w } = some a ∧
        a.ledger.handed =
          [(0, failureOf 1), (1, failureOf 2), (2, failureOf 3), (3, failureOf 4)] ∧
        a.ledger.recorded = [(0, failureOf 1)] ∧ a.world.engine.held = [(3, failureOf 4)] ∧
        a.world.engine.queue.items = [failureOf 3] ∧ a.ledger.replayed = [failureOf 2] := by
    cases hstart
    exact ⟨_, rfl, rfl, rfl, rfl, rfl, rfl⟩
  obtain ⟨replayed, waiting, -, hfirst, hrest, -, hplaces, -, -, hcrashed⟩ :=
    writes_accounted hstart hrun
  rw [hcrashed frailBackend_neverCrashes, List.append_nil] at hplaces
  exact ⟨w, a, replayed, waiting, hstart, hrun, hhanded, hrecorded, hheld, hfirst.trans hreplayed,
    hrest.trans hqueued, hplaces⟩

end Audit

end JobQueue
