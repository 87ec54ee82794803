import JobQueue.Worker.Step

/-!
# The steps of the tasks

What a step of a task can do, guards included: one list for the task that claims jobs and one for
the shutdown, and a case lemma for each of the simpler tasks.
-/

namespace JobQueue

variable {σ : Type}

/-! ## 1. Claims -/

/-- Where the task goes on after a claim that has brought no job. -/
def ClaimLoop.afterMiss (config : WorkerConfig) (delay : Duration) (w : World σ) :
    Answer (List ClaimedJob) → ClaimLoop
  | .ok _ => .sleeping (config.polling.grow delay) (w.after delay)
  | .error (.error _) => .sleeping delay (w.after config.storeErrorInterval)
  | .error .crash => .dead

namespace World

/-- What a step of the task that claims jobs can do. It takes a slot, asks for as many jobs as there
are slots and starts what it gets, the first job in the slot that it holds. -/
inductive ClaimMove (worker : Worker (Backend σ)) (w : World σ) : World σ → Prop
  /-- It is told to stop before it has a slot. -/
  | gaveUp {delay : Duration} (hpoint : w.engine.claims = .acquiring delay)
      (hcancelled : w.engine.cancelled = true) :
      ClaimMove worker w (w.update ({ · with claims := .stopped }))
  | acquired {delay : Duration} (hpoint : w.engine.claims = .acquiring delay)
      (hfree : 0 < w.engine.freeSlots) :
      ClaimMove worker w (w.update ({ · with
        freeSlots := w.engine.freeSlots - 1
        claims := .claiming delay (claimLimit worker.config.claimMode (w.engine.freeSlots - 1)) }))
  | claimed {delay : Duration} {limit : Nat} {job : ClaimedJob} {jobs : List ClaimedJob}
      {v : World σ} (hpoint : w.engine.claims = .claiming delay limit)
      (hask : w.ask worker.backend (.claim worker.id limit w.clock) = (.ok (job :: jobs), v)) :
      ClaimMove worker w (v.update ({ · with claims := .dispatching (job :: jobs) true }))
  | missed {delay : Duration} {limit : Nat} {answer : Answer (List ClaimedJob)} {v : World σ}
      (hpoint : w.engine.claims = .claiming delay limit)
      (hask : w.ask worker.backend (.claim worker.id limit w.clock) = (answer, v))
      (hnone : ∀ jobs, answer = .ok jobs → jobs = []) :
      ClaimMove worker w (v.update fun e =>
        { releaseSlot e with claims := .afterMiss worker.config delay v answer })
  | launched {job : ClaimedJob} {jobs : List ClaimedJob} {held : Bool}
      (hpoint : w.engine.claims = .dispatching (job :: jobs) held)
      (hfree : held = false → 0 < w.engine.freeSlots) :
      ClaimMove worker w (w.update fun e =>
        { e.launch job w.now with
          freeSlots := e.freeSlots - (if held then 0 else 1)
          claims := .dispatching jobs false })
  | dispatched {held : Bool} (hpoint : w.engine.claims = .dispatching [] held) :
      ClaimMove worker w (w.update ({ · with claims := .acquiring worker.config.polling.start }))
  | woken {delay : Duration} {wake : Nat} (hpoint : w.engine.claims = .sleeping delay wake) :
      ClaimMove worker w (w.update ({ · with claims := .acquiring delay }))
  | stopped {delay : Duration} {wake : Nat} (hpoint : w.engine.claims = .sleeping delay wake)
      (hcancelled : w.engine.cancelled = true) :
      ClaimMove worker w (w.update ({ · with claims := .stopped }))

variable {worker : Worker (Backend σ)} {w w' : World σ}

theorem cancelled_of_stops {wake : Nat} {eager : Bool} (h : w.wakes wake eager = .stops) :
    w.engine.cancelled = true := by
  unfold wakes at h
  simp only at h
  split at h
  · rename_i hstops
    exact (Bool.and_eq_true_iff.1 hstops).1
  · split at h <;> cases h

theorem claim_move {delay : Duration} {limit : Nat}
    (hpoint : w.engine.claims = .claiming delay limit) :
    ClaimMove worker w (w.claim worker delay limit) := by
  simp only [claim]
  split
  · rename_i hask
    exact .missed hpoint hask (fun jobs hjobs => (Except.ok.inj hjobs).symm)
  · rename_i jobs v hsome hask
    cases jobs with
    | nil => exact absurd rfl hsome
    | cons job rest => exact .claimed hpoint hask
  · rename_i hask
    exact .missed hpoint hask nofun
  · rename_i hask
    exact .missed hpoint hask nofun

/-- Nothing happens in a step of the task but what `ClaimMove` lists. -/
theorem stepClaims_move {eager : Bool} (h : w.stepClaims worker eager = some w') :
    ClaimMove worker w w' := by
  unfold stepClaims at h
  simp only at h
  split at h
  · rename_i hpoint
    split at h
    · rename_i hstops
      cases h
      exact .gaveUp hpoint (Bool.and_eq_true_iff.1 hstops).1
    · split at h
      · rename_i hfree
        cases h
        exact .acquired hpoint (of_decide_eq_true hfree)
      · cases h
  · rename_i hpoint
    cases h
    exact claim_move hpoint
  · rename_i hpoint
    cases h
    exact .dispatched hpoint
  · rename_i hpoint
    cases h
    exact .launched hpoint nofun
  · rename_i hpoint
    split at h
    · rename_i hfree
      cases h
      exact .launched hpoint fun _ => hfree
    · cases h
  · rename_i hpoint
    split at h
    · cases h
      exact .woken hpoint
    · rename_i hstops
      cases h
      exact .stopped hpoint (cancelled_of_stops hstops)
    · cases h
  · cases h
  · cases h

/-- While it has jobs to start, the task has a step as soon as there is a slot for the next one. -/
theorem stepClaims_isSome {jobs : List ClaimedJob} {held : Bool}
    (hpoint : w.engine.claims = .dispatching jobs held)
    (hfree : held = false → jobs ≠ [] → 0 < w.engine.freeSlots) (eager : Bool) :
    (w.stepClaims worker eager).isSome := by
  unfold stepClaims
  simp only [hpoint]
  cases jobs with
  | nil => rfl
  | cons job rest =>
    cases held with
    | true => rfl
    | false =>
      simp only [if_pos (hfree rfl (List.cons_ne_nil job rest))]
      rfl

/-! ## 2. The batcher and the tickers -/

/-- The batcher makes one call at a time, and only to complete jobs. -/
theorem completion_step {c c' : Completion} {closed : Bool}
    {complete : List FinishedJob → World σ → Answer Unit × World σ}
    (h : c.step closed complete w = some (c', w')) :
    w' = w ∨ ∃ jobs, w' = (complete jobs w).2 := by
  unfold Completion.step at h
  split at h
  · split at h
    · cases h
      exact Or.inl rfl
    · split at h
      · cases h
        exact Or.inl rfl
      · cases h
  · split at h
    · split at h
      · cases h
        exact Or.inl rfl
      · cases h
        exact Or.inl rfl
    · cases h
      exact Or.inl rfl
  · rename_i part _ _ _ _
    refine Or.inr ⟨part, ?_⟩
    split at h
    all_goals
      rename_i heq
      cases h
      rw [heq]
  · cases h
    exact Or.inl rfl
  · cases h
  · cases h

/-- A step of the task that sends signs of life: it stops, or sends one. -/
theorem stepHeartbeats_asks {eager : Bool} (h : w.stepHeartbeats worker eager = some w') :
    ∃ next, w' = w.update ({ · with heartbeats := next }) ∨
      w' = (w.ask worker.backend (.heartbeat worker.id w.clock)).2.update
        ({ · with heartbeats := next }) := by
  unfold stepHeartbeats at h
  split at h
  · split at h
    · exact ⟨_, Or.inr (Option.some.inj h).symm⟩
    · exact ⟨_, Or.inl (Option.some.inj h).symm⟩
    · cases h
  · cases h
  · cases h

/-- A step of the task that reclaims jobs: it stops, or dies for want of an instant on the calendar,
or makes one call. -/
theorem stepReclaims_cases {eager : Bool} (h : w.stepReclaims worker eager = some w') :
    (∃ next, w' = w.update ({ · with reclaims := next })) ∨
    ∃ staleBefore next, w.clock.sub? worker.config.staleThreshold = some staleBefore ∧
      w' = (w.ask worker.backend (.reclaim staleBefore)).2.update
        ({ · with reclaims := next }) := by
  unfold stepReclaims at h
  -- the instant comes first: the kernel must not have to evaluate it to see which case it is
  cases hstale : w.clock.sub? worker.config.staleThreshold with
  | none =>
    rw [hstale] at h
    split at h
    · split at h
      · exact Or.inl ⟨_, (Option.some.inj h).symm⟩
      · exact Or.inl ⟨_, (Option.some.inj h).symm⟩
      · cases h
    · cases h
    · cases h
  | some staleBefore =>
    rw [hstale] at h
    split at h
    · split at h
      · exact Or.inr ⟨staleBefore, _, rfl, (Option.some.inj h).symm⟩
      · exact Or.inl ⟨_, (Option.some.inj h).symm⟩
      · cases h
    · cases h
    · cases h

/-! ## 3. Writes and replays -/

def WriteStep.world : WriteStep σ → World σ
  | .goesOn _ w => w
  | .ended _ w => w
  | .crashed w => w

def ReplayStep.world : ReplayStep σ → World σ
  | .goesOn _ w => w
  | .ended w => w
  | .crashed w => w

/-! ## 4. The shutdown -/

/-- Where the shutdown goes on when the queue has been replayed for the last time. -/
def closed (worker : Worker (Backend σ)) : Shutdown :=
  if worker.config.completionMode = .batching then .closing else .returned (.ok ())

/-- Where the shutdown goes on after a step of a replay while it waits for all slots. -/
def drainedBy (worker : Worker (Backend σ)) : ReplayStep σ → Shutdown
  | .goesOn p _ => .drainReplaying p
  | .ended w => .draining (w.after worker.config.retryQueueInterval)
  | .crashed _ => .returned (.error .crash)

/-- Where the shutdown goes on after a step of the last replay. -/
def closedBy (worker : Worker (Backend σ)) : ReplayStep σ → Shutdown
  | .goesOn p _ => .lastReplay p
  | .ended _ => closed worker
  | .crashed _ => .returned (.error .crash)

/-- What a step of the shutdown can do. It waits for the loops, then for all slots and then for the
batcher, and replays the retry queue meanwhile and a last time when it has the slots. -/
inductive ShutdownMove (worker : Worker (Backend σ)) (w : World σ) : World σ → Prop
  | joined (hpoint : w.engine.shutdown = .joining)
      (hloops : w.engine.joinLoops = some (.ok ())) :
      ShutdownMove worker w (w.update ({ · with
        shutdown := .draining (w.after worker.config.retryQueueInterval) }))
  | failed {e : Stop QueueError} (hpoint : w.engine.shutdown = .joining)
      (hloops : w.engine.joinLoops = some (.error e)) :
      ShutdownMove worker w (w.update ({ · with shutdown := .returned (.error e) }))
  | emptied {wake : Nat} (hpoint : w.engine.shutdown = .draining wake)
      (hfree : w.engine.freeSlots = worker.config.maxConcurrency) :
      ShutdownMove worker w (w.update ({ · with freeSlots := 0, shutdown := .drained }))
  | waited {wake : Nat} (hpoint : w.engine.shutdown = .draining wake)
      (hnone : w.beginReplay = none) :
      ShutdownMove worker w (w.update ({ · with
        shutdown := .draining (w.after worker.config.retryQueueInterval) }))
  | begun {wake : Nat} {p : WriteProgress} {v : World σ}
      (hpoint : w.engine.shutdown = .draining wake) (hbegin : w.beginReplay = some (p, v)) :
      ShutdownMove worker w (v.update ({ · with shutdown := .drainReplaying p }))
  | replayed {p : WriteProgress} {r : ReplayStep σ}
      (hpoint : w.engine.shutdown = .drainReplaying p)
      (hstep : stepReplay worker .shutdown p w = some r) :
      ShutdownMove worker w (r.world.update ({ · with shutdown := drainedBy worker r }))
  | unqueued (hpoint : w.engine.shutdown = .drained) (hnone : w.beginReplay = none) :
      ShutdownMove worker w (w.update ({ · with shutdown := closed worker }))
  | lastBegun {p : WriteProgress} {v : World σ} (hpoint : w.engine.shutdown = .drained)
      (hbegin : w.beginReplay = some (p, v)) :
      ShutdownMove worker w (v.update ({ · with shutdown := .lastReplay p }))
  | lastReplayed {p : WriteProgress} {r : ReplayStep σ}
      (hpoint : w.engine.shutdown = .lastReplay p)
      (hstep : stepReplay worker .shutdown p w = some r) :
      ShutdownMove worker w (r.world.update ({ · with shutdown := closedBy worker r }))
  | finished (hpoint : w.engine.shutdown = .closing)
      (hbatcher : w.engine.completion.batcher = .stopped) :
      ShutdownMove worker w (w.update ({ · with shutdown := .returned (.ok ()) }))
  | unfinished (hpoint : w.engine.shutdown = .closing)
      (hbatcher : w.engine.completion.batcher = .dead) :
      ShutdownMove worker w
        (w.update ({ · with shutdown := .returned (.error (.error .shutdownFailed)) }))

/-- Nothing happens in a step of the shutdown but what `ShutdownMove` lists. -/
theorem stepShutdown_cases {eager : Bool} (h : w.stepShutdown worker eager = some w') :
    ShutdownMove worker w w' := by
  unfold stepShutdown at h
  simp only at h
  split at h
  · cases h
  · rename_i hpoint
    obtain ⟨result, hloops, rfl⟩ := Option.map_eq_some_iff.1 h
    cases result with
    | ok _ => exact .joined hpoint hloops
    | error e => exact .failed hpoint hloops
  · rename_i hpoint
    split at h
    · rename_i hfree
      cases h
      exact .emptied hpoint (of_decide_eq_true (Bool.and_eq_true_iff.1 hfree).1)
    · split at h
      · split at h
        · rename_i hnone
          cases h
          exact .waited hpoint hnone
        · rename_i hbegin
          cases h
          exact .begun hpoint hbegin
      · cases h
  · rename_i hpoint
    obtain ⟨r, hstep, rfl⟩ := Option.map_eq_some_iff.1 h
    have hmove := ShutdownMove.replayed hpoint hstep
    cases r <;> exact hmove
  · rename_i hpoint
    split at h
    · rename_i hnone
      cases h
      exact .unqueued hpoint hnone
    · rename_i hbegin
      cases h
      exact .lastBegun hpoint hbegin
  · rename_i hpoint
    obtain ⟨r, hstep, rfl⟩ := Option.map_eq_some_iff.1 h
    have hmove := ShutdownMove.lastReplayed hpoint hstep
    cases r <;> exact hmove
  · rename_i hpoint
    split at h
    · rename_i hbatcher
      cases h
      exact .finished hpoint hbatcher
    · rename_i hbatcher
      cases h
      exact .unfinished hpoint hbatcher
    · cases h
  · cases h

end World

end JobQueue
