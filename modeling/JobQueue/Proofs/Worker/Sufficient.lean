import JobQueue.Proofs.Worker.Quiet
import JobQueue.Proofs.Worker.Slots

/-!
# What a valid configuration is enough for

The checks of a configuration keep the sizes of most of what a worker is made of within their
limits, and no task of it dies of them. Two values are not checked against the limits that they meet
later: the places of the retry queue have to be counted, and the threshold for signs of life is
taken from the time of every look for workers that are gone.
-/

namespace JobQueue

variable {σ : Type} {worker : Worker (Backend σ)} {w w' : World σ}

/-! ## 1. Bounds -/

theorem WorkerConfig.concurrency_of_valid {c : WorkerConfig} (h : c.fault? = none) :
    1 ≤ c.maxConcurrency ∧ c.maxConcurrency < 4294967296 := by
  have hsome : (ConfigFault.noConcurrency, decide (c.maxConcurrency = 0)) ∈ c.checks := by
    simp [checks]
  have hfew : (ConfigFault.tooMuchConcurrency, decide (4294967296 ≤ c.maxConcurrency)) ∈
      c.checks := by
    simp [checks]
  have hpos := of_decide_eq_false (check_of_valid h hsome)
  have hlt := of_decide_eq_false (check_of_valid h hfew)
  omega

theorem WorkerConfig.staleThreshold_of_valid {c : WorkerConfig} (h : c.fault? = none) :
    0 ≤ c.staleThreshold.nanos := by
  have hlong : (ConfigFault.staleThresholdTooLow,
      decide (c.staleThreshold.nanos ≤ c.heartbeatInterval.nanos)) ∈ c.checks := by
    simp [checks]
  have hlt := of_decide_eq_false (check_of_valid h hlong)
  omega

theorem Completion.capacity_bounds {n : Nat} (h : n < 4294967296) :
    1 ≤ (Completion.ofConcurrency n).capacity ∧
      (Completion.ofConcurrency n).capacity ≤ RetryQueue.capacityLimit := by
  simp only [Completion.ofConcurrency, RetryQueue.capacityLimit]
  omega

namespace World

/-! ## 2. Starting -/

/-- What is known of a worker that has started: it has sent one sign of life, and its retry queue
is not too large. -/
theorem start_spec {state : σ} {origin : Instant} (h : World.start worker state origin = .ok w) :
    w.origin = origin ∧ w.log = [(0, .asked (.heartbeat worker.id origin) (.ok ()))] ∧
      worker.config.retryQueueCapacity ≤ RetryQueue.capacityLimit := by
  unfold World.start at h
  simp only at h
  split at h
  · rename_i v hask
    split at h
    · cases h
    · rename_i hroom
      cases h
      have horigin := congrArg (·.2.origin) hask
      exact ⟨horigin.symm, ask_log hask, Nat.le_of_not_lt hroom⟩
  · cases h
  · cases h

/-- A worker crashes at its start exactly if the places of its retry queue cannot be counted, unless
the backend refuses its first sign of life. -/
theorem start_eq_crash_iff (hb : worker.backend.NeverCrashes) (state : σ) (origin : Instant) :
    World.start worker state origin = .error .crash ↔
      RetryQueue.capacityLimit < worker.config.retryQueueCapacity ∧
        ∀ e, World.start worker state origin ≠ .error (.error (.backend e)) := by
  unfold World.start
  simp only
  split
  · split
    · rename_i hlarge
      simp [hlarge]
    · rename_i hroom
      simp [hroom]
  · simp
  · rename_i v hask
    have hanswer := congrArg Prod.fst hask
    exact absurd hanswer (hb _ (.heartbeat worker.id origin) _)

/-- No time is before the start of the worker. -/
theorem le_instantAt (origin : Instant) (millis : Nat) : origin ≤ instantAt origin millis := by
  have hlast : origin ≤ Instant.last := origin.le_max
  unfold instantAt
  cases hspan : Delta.ofMillis? millis with
  | none => exact hlast
  | some span =>
    rw [Option.bind_some]
    cases hsum : origin.add? span with
    | none => exact hlast
    | some later =>
      have hnanos := Delta.ofNanos?_eq_some_iff.1 hspan
      have hlater := Instant.ofNanos?_eq_some_iff.1 hsum
      show origin.nanos ≤ later.nanos
      omega

/-- Who can go back from one time can go back as far from any later one. -/
theorem sub?_isSome_of_le {t t' : Instant} {span : Delta} (hle : t ≤ t')
    (hspan : 0 ≤ span.nanos) (h : (t.sub? span).isSome) : (t'.sub? span).isSome := by
  obtain ⟨early, hearly⟩ := Option.isSome_iff_exists.1 h
  have hnanos := Instant.ofNanos?_eq_some_iff.1 hearly
  have hle' : t.nanos ≤ t'.nanos := hle
  have hmin := early.min_le
  have hmax := t'.le_max
  rw [Instant.sub?, Instant.ofNanos?, dif_pos (by omega)]
  rfl

end World

/-! ## 3. Tasks that do not die -/

/-- No task has died but the one that looks for workers that are gone. If a shutdown has failed, that
one is the reason. -/
structure Engine.Alive (e : Engine) : Prop where
  claims : e.claims ≠ .dead
  heartbeats : e.heartbeats ≠ .dead
  replays : e.replays ≠ .dead
  batcher : e.completion.batcher ≠ .dead
  shutdown : ∀ result, e.shutdown = .returned result →
    result = .ok () ∨ result = .error (.error .shutdownFailed) ∧ e.reclaims = .dead

namespace World

theorem stepWrite_batcher {writer : Writer} {p : WriteProgress} {r : WriteStep σ}
    (h : stepWrite worker writer p w = some r) :
    r.world.engine.completion.batcher = w.engine.completion.batcher := by
  unfold stepWrite at h
  simp only at h
  split at h
  · split at h
    · cases h
      rw [writeDirectly_engine]
    · split at h
      · cases h
        rfl
      · split at h
        · cases h
          rfl
        · cases h
  · obtain ⟨result, -, rfl⟩ := Option.map_eq_some_iff.1 h
    rfl

theorem stepReplay_batcher {writer : Writer} {p : WriteProgress} {r : ReplayStep σ}
    (h : stepReplay worker writer p w = some r) :
    r.world.engine.completion.batcher = w.engine.completion.batcher := by
  unfold stepReplay at h
  obtain ⟨step, hstep, rfl⟩ := Option.map_eq_some_iff.1 h
  have hsame := stepWrite_batcher hstep
  cases step with
  | ended result v =>
    cases result with
    | error e => exact hsame
    | ok _ =>
      simp only
      split <;> exact hsame
  | _ => exact hsame

theorem stepExecution_batcher {x : Execution} {draw : Int}
    (h : w.stepExecution worker draw x = some w') :
    w'.engine.completion.batcher = w.engine.completion.batcher := by
  unfold stepExecution at h
  simp only at h
  split at h
  · cases h
    obtain ⟨freeSlots, executions, asked, hengine⟩ := begin_engine worker x draw w
    rw [hengine]
  · rename_i effect _ _ _
    cases effect with
    | awaitShutdown =>
      simp only [carryOut] at h
      split at h
      · cases h
        rfl
      · cases h
    | _ =>
      cases h
      rfl
  · cases h
    obtain ⟨freeSlots, executions, hengine⟩ := conclude_engine worker x _ draw w
    rw [hengine]
  · split at h
    · cases h
      rfl
    · cases h
  · obtain ⟨r, hstep, rfl⟩ := Option.map_eq_some_iff.1 h
    have hsame := stepWrite_batcher hstep
    split
    all_goals exact hsame
  · split at h
    · cases h
      rfl
    · cases h

/-- The batcher goes on after every step if its calls are answered. -/
theorem batcher_of_step {c c' : Completion} {closed : Bool}
    {complete : List FinishedJob → World σ → Answer Unit × World σ}
    (hcomplete : ∀ jobs v, (complete jobs v).1 ≠ .error .crash)
    (h : c.step closed complete w = some (c', w')) : c'.batcher ≠ .dead := by
  unfold Completion.step at h
  split at h
  · split at h
    · cases h
      exact nofun
    · split at h
      · cases h
        exact nofun
      · cases h
  · split at h
    · split at h
      · cases h
        exact nofun
      · cases h
        exact nofun
    · cases h
      exact nofun
  · rename_i part _ _ _ _
    split at h
    · cases h
      exact nofun
    · cases h
      exact nofun
    · rename_i hcrash
      exact absurd (congrArg Prod.fst hcrash) (hcomplete part w)
  · cases h
    exact nofun
  · cases h
  · cases h

theorem stepReplay_ne_crashed (hb : worker.backend.NeverCrashes) {writer : Writer}
    {p : WriteProgress} {v : World σ} : stepReplay worker writer p w ≠ some (.crashed v) := by
  intro h
  unfold stepReplay at h
  obtain ⟨step, hstep, heq⟩ := Option.map_eq_some_iff.1 h
  cases step with
  | goesOn p v => cases heq
  | crashed v => exact stepWrite_ne_crashed hb hstep
  | ended result v =>
    cases result with
    | error e => cases heq
    | ok _ =>
      simp only at heq
      split at heq <;> cases heq

theorem stepClaims_alive (hb : worker.backend.NeverCrashes) {eager : Bool}
    (h : w.stepClaims worker eager = some w') : w'.engine.claims ≠ .dead := by
  cases stepClaims_move h with
  | @missed delay limit answer v hpoint hask hnone =>
    have hanswer : answer ≠ .error .crash := by
      rw [← show (w.ask worker.backend (.claim worker.id limit w.clock)).1 = answer by rw [hask]]
      exact hb w.clock (.claim worker.id limit w.clock) w.state
    show ClaimLoop.afterMiss worker.config delay v answer ≠ .dead
    unfold ClaimLoop.afterMiss
    split
    · exact nofun
    · exact nofun
    · exact absurd rfl hanswer
  | _ => exact nofun

theorem stepHeartbeats_alive (hb : worker.backend.NeverCrashes) {eager : Bool}
    (h : w.stepHeartbeats worker eager = some w') : w'.engine.heartbeats ≠ .dead := by
  unfold stepHeartbeats at h
  split at h
  · split at h
    · have hanswer := hb w.clock (.heartbeat worker.id w.clock) w.state
      cases h
      dsimp only [update]
      split
      · rename_i hcrash
        exact absurd hcrash hanswer
      · exact nofun
    · cases h
      exact nofun
    · cases h
  · cases h
  · cases h

theorem stepReplays_alive (hb : worker.backend.NeverCrashes) {eager : Bool}
    (h : w.stepReplays worker eager = some w') : w'.engine.replays ≠ .dead := by
  unfold stepReplays at h
  simp only at h
  split at h
  · split at h
    · split at h
      · cases h
        exact nofun
      · cases h
        exact nofun
    · cases h
      exact nofun
    · cases h
  · obtain ⟨r, hstep, rfl⟩ := Option.map_eq_some_iff.1 h
    cases r with
    | goesOn p v => exact nofun
    | ended v => exact nofun
    | crashed v => exact absurd hstep (stepReplay_ne_crashed hb)
  · cases h
  · cases h

theorem stepReplays_batcher {eager : Bool} (h : w.stepReplays worker eager = some w') :
    w'.engine.completion.batcher = w.engine.completion.batcher := by
  unfold stepReplays at h
  simp only at h
  split at h
  · split at h
    · split at h
      · cases h
        rfl
      · rename_i hbegin
        cases h
        obtain ⟨-, hengine, -⟩ := beginReplay_engine hbegin
        rw [update, hengine]
    · cases h
      rfl
    · cases h
  · obtain ⟨r, hstep, rfl⟩ := Option.map_eq_some_iff.1 h
    have hsame := stepReplay_batcher hstep
    cases r <;> exact hsame
  · cases h
  · cases h

theorem stepShutdown_batcher {eager : Bool} (h : w.stepShutdown worker eager = some w') :
    w'.engine.completion.batcher = w.engine.completion.batcher := by
  have hbegins : ∀ {p : WriteProgress} {v : World σ}, w.beginReplay = some (p, v) →
      v.engine.completion.batcher = w.engine.completion.batcher := by
    intro p v hbegin
    obtain ⟨-, hengine, -⟩ := beginReplay_engine hbegin
    rw [hengine]
  cases stepShutdown_cases h with
  | begun _ hbegin =>
    have hsame := hbegins hbegin
    exact hsame
  | lastBegun _ hbegin =>
    have hsame := hbegins hbegin
    exact hsame
  | replayed _ hstep => exact stepReplay_batcher hstep
  | lastReplayed _ hstep => exact stepReplay_batcher hstep
  | _ => rfl

theorem step_batcher (hb : worker.backend.NeverCrashes) {t : Task} {eager : Bool} {draw : Int}
    (h : w.step worker t eager draw = some w') (hw : w.engine.completion.batcher ≠ .dead) :
    w'.engine.completion.batcher ≠ .dead := by
  cases t with
  | batcher =>
    obtain ⟨⟨completion, v⟩, hstep, rfl⟩ := Option.map_eq_some_iff.1 h
    exact batcher_of_step
      (fun jobs v => hb v.clock (.complete jobs worker.config.deleteCompleted) v.state) hstep
  | claims =>
    rcases stepClaims_engine h with ⟨claims, freeSlots, -, hengine⟩ |
      ⟨job, claims, freeSlots, -, hengine⟩ <;> rw [hengine] <;> exact hw
  | heartbeats =>
    obtain ⟨heartbeats, hengine⟩ := stepHeartbeats_engine h
    rw [hengine]
    exact hw
  | reclaims =>
    obtain ⟨reclaims, hengine⟩ := stepReclaims_engine h
    rw [hengine]
    exact hw
  | replays =>
    rw [stepReplays_batcher h]
    exact hw
  | execution key =>
    obtain ⟨x, -, hstep⟩ := Option.bind_eq_some_iff.1 h
    rw [stepExecution_batcher hstep]
    exact hw
  | shutdown =>
    rw [stepShutdown_batcher h]
    exact hw

theorem joinLoops_error {e : Engine} {error : Stop QueueError}
    (h : e.joinLoops = some (.error error)) (hclaims : e.claims ≠ .dead)
    (hheartbeats : e.heartbeats ≠ .dead) (hreplays : e.replays ≠ .dead) :
    error = .error .shutdownFailed ∧ e.reclaims = .dead := by
  unfold Engine.joinLoops at h
  split at h <;> simp_all

theorem stepShutdown_alive (hb : worker.backend.NeverCrashes) (hw : w.engine.Alive)
    {eager : Bool} (h : w.stepShutdown worker eager = some w')
    (result : Except (Stop QueueError) Unit)
    (hresult : w'.engine.shutdown = .returned result) :
    result = .ok () ∨ result = .error (.error .shutdownFailed) ∧ w'.engine.reclaims = .dead := by
  have hclosed : ∀ {result : Except (Stop QueueError) Unit},
      closed worker = .returned result → result = .ok () := by
    intro result hresult
    unfold closed at hresult
    split at hresult <;> cases hresult
    rfl
  cases stepShutdown_cases h with
  | failed _ hloops =>
    cases hresult
    obtain ⟨rfl, hdead⟩ := joinLoops_error hloops hw.claims hw.heartbeats hw.replays
    exact Or.inr ⟨rfl, hdead⟩
  | @replayed p r hpoint hstep =>
    cases r with
    | goesOn p v => cases hresult
    | ended v => cases hresult
    | crashed v => exact absurd hstep (stepReplay_ne_crashed hb)
  | unqueued _ _ => exact Or.inl (hclosed hresult)
  | @lastReplayed p r hpoint hstep =>
    cases r with
    | goesOn p v => cases hresult
    | ended v => exact Or.inl (hclosed hresult)
    | crashed v => exact absurd hstep (stepReplay_ne_crashed hb)
  | finished _ _ =>
    cases hresult
    exact Or.inl rfl
  | unfinished _ hbatcher => exact absurd hbatcher hw.batcher
  | _ => cases hresult

theorem step_alive (hb : worker.backend.NeverCrashes) {t : Task} {eager : Bool} {draw : Int}
    (h : w.step worker t eager draw = some w') (hw : w.engine.Alive) : w'.engine.Alive := by
  obtain ⟨hclaims, hheartbeats, hreclaims, hreplays, hshutdown⟩ := step_points h
  refine ⟨?_, ?_, ?_, step_batcher hb h hw.batcher, ?_⟩
  · by_cases ht : t = .claims
    · subst ht
      exact stepClaims_alive hb h
    · rw [hclaims ht]
      exact hw.claims
  · by_cases ht : t = .heartbeats
    · subst ht
      exact stepHeartbeats_alive hb h
    · rw [hheartbeats ht]
      exact hw.heartbeats
  · by_cases ht : t = .replays
    · subst ht
      exact stepReplays_alive hb h
    · rw [hreplays ht]
      exact hw.replays
  · intro result hresult
    by_cases ht : t = .shutdown
    · subst ht
      exact stepShutdown_alive hb hw h result hresult
    · rw [hshutdown ht] at hresult
      refine (hw.shutdown result hresult).imp_right fun ⟨hfailed, hdead⟩ => ⟨hfailed, ?_⟩
      -- a task that is dead takes no step
      have hother : t ≠ .reclaims := by
        rintro rfl
        simp [step, stepReclaims, hdead] at h
      rw [hreclaims hother, hdead]

/-! ## 4. The task that looks for workers that are gone -/

/-- That task wakes at a time from which the threshold leads off the calendar. -/
def Overruns (worker : Worker (Backend σ)) (w : World σ) (eager : Bool) : Prop :=
  (∃ wake, w.engine.reclaims = .sleeping wake ∧ w.wakes wake eager = .goesOn) ∧
    w.clock.sub? worker.config.staleThreshold = none

theorem stepReclaims_dead_iff (hb : worker.backend.NeverCrashes) {eager : Bool}
    (h : w.stepReclaims worker eager = some w') :
    w'.engine.reclaims = .dead ↔ w.Overruns worker eager := by
  unfold stepReclaims at h
  unfold Overruns
  cases hstale : w.clock.sub? worker.config.staleThreshold with
  | none =>
    rw [hstale] at h
    split at h
    · rename_i wake hpoint
      split at h
      · rename_i hwakes
        cases h
        simp only [update, true_iff]
        exact ⟨⟨wake, hpoint, hwakes⟩, trivial⟩
      · rename_i hwakes
        cases h
        simp [update, hpoint, hwakes]
      · cases h
    · cases h
    · cases h
  | some staleBefore =>
    rw [hstale] at h
    simp only [reduceCtorEq, and_false, iff_false]
    split at h
    · split at h
      · have hanswer := hb w.clock (.reclaim staleBefore) w.state
        cases h
        dsimp only [update]
        split
        · rename_i hcrash
          exact absurd hcrash hanswer
        · intro hdead
          cases hdead
      · cases h
        intro hdead
        cases hdead
      · cases h
    · cases h
    · cases h

theorem step_origin {t : Task} {eager : Bool} {draw : Int}
    (h : w.step worker t eager draw = some w') : w'.origin = w.origin := by
  by_cases ht : t = .heartbeats
  · subst ht
    obtain ⟨next, rfl | rfl⟩ := stepHeartbeats_asks h <;> rfl
  · exact (step_quiet ht h).origin

end World

/-! ## 5. Runs -/

namespace Audit

variable {a b : Audit σ} {action : Action σ} {actions : List (Action σ)}

/-- In the run the task that looks for workers that are gone wakes at a time from which the threshold
leads off the calendar. -/
def OverrunsIn (worker : Worker (Backend σ)) (actions : List (Action σ)) (a : Audit σ) : Prop :=
  ∃ before eager draw after c, actions = before ++ .step .reclaims eager draw :: after ∧
    run worker before a = some c ∧ c.world.Overruns worker eager

theorem overrunsIn_cons (h : a.act worker action = some b) :
    OverrunsIn worker (action :: actions) a ↔
      (∃ eager draw, action = .step .reclaims eager draw ∧ a.world.Overruns worker eager) ∨
        OverrunsIn worker actions b := by
  constructor
  · rintro ⟨before, eager, draw, after, c, hsplit, hrun, hoverruns⟩
    cases before with
    | nil =>
      cases hrun
      cases hsplit
      exact Or.inl ⟨eager, draw, rfl, hoverruns⟩
    | cons first before =>
      cases hsplit
      rw [run, h, Option.bind_some] at hrun
      exact Or.inr ⟨before, eager, draw, after, c, rfl, hrun, hoverruns⟩
  · rintro (⟨eager, draw, rfl, hoverruns⟩ | ⟨before, eager, draw, after, c, rfl, hrun, hoverruns⟩)
    · exact ⟨[], eager, draw, actions, a, rfl, rfl, hoverruns⟩
    · refine ⟨action :: before, eager, draw, after, c, rfl, ?_, hoverruns⟩
      rw [run, h, Option.bind_some, hrun]

theorem act_dead_iff (hb : worker.backend.NeverCrashes) (h : a.act worker action = some b)
    (hown : action.isOwn = true) :
    b.world.engine.reclaims = .dead ↔ a.world.engine.reclaims = .dead ∨
      ∃ eager draw, action = .step .reclaims eager draw ∧ a.world.Overruns worker eager := by
  have hkept : (∀ eager draw, action ≠ .step .reclaims eager draw) →
      b.world.engine.reclaims = a.world.engine.reclaims →
      (b.world.engine.reclaims = .dead ↔ a.world.engine.reclaims = .dead ∨
        ∃ eager draw, action = .step .reclaims eager draw ∧ a.world.Overruns worker eager) := by
    intro hne hsame
    rw [hsame, iff_self_or]
    rintro ⟨eager, draw, heq, -⟩
    exact absurd heq (hne eager draw)
  cases action with
  | step t eager draw =>
    obtain ⟨v, hstep, rfl⟩ := Option.map_eq_some_iff.1 h
    by_cases ht : t = .reclaims
    · subst ht
      have hlives : a.world.engine.reclaims ≠ .dead := by
        intro hdead
        simp [World.step, World.stepReclaims, hdead] at hstep
      refine (World.stepReclaims_dead_iff hb hstep).trans ⟨fun hover => ?_, ?_⟩
      · exact Or.inr ⟨eager, draw, rfl, hover⟩
      · rintro (hdead | ⟨_, _, heq, hover⟩)
        · exact absurd hdead hlives
        · cases heq
          exact hover
    · exact hkept (fun _ _ heq => ht (by cases heq; rfl)) ((World.step_points hstep).reclaims ht)
  | disturb change =>
    cases h
    exact hkept (fun _ _ heq => by cases heq) rfl
  | wait now =>
    cases h
    exact hkept (fun _ _ heq => by cases heq) rfl
  | shutDown =>
    cases act_shutDown h
    exact hkept (fun _ _ heq => by cases heq) rfl
  | _ => cases hown

theorem run_dead_iff (hb : worker.backend.NeverCrashes) (hrun : run worker actions a = some b)
    (hown : ∀ action ∈ actions, action.isOwn) :
    b.world.engine.reclaims = .dead ↔
      a.world.engine.reclaims = .dead ∨ OverrunsIn worker actions a := by
  induction actions generalizing a with
  | nil =>
    cases hrun
    rw [iff_self_or]
    rintro ⟨before, eager, draw, after, c, hsplit, -, -⟩
    simp at hsplit
  | cons action rest ih =>
    obtain ⟨next, hact, hrest⟩ := Option.bind_eq_some_iff.1 hrun
    rw [ih hrest fun action hmem => hown action (List.mem_cons_of_mem _ hmem),
      act_dead_iff hb hact (hown action List.mem_cons_self), overrunsIn_cons hact, or_assoc]

/-! ## 6. What no valid configuration harms -/

/-- What a run keeps with a valid configuration. The task that looks for workers that are gone is
left out. -/
structure Unharmed (worker : Worker (Backend σ)) (origin : Instant) (a : Audit σ) : Prop where
  sound : Sound worker a
  admits : Admits worker a.world
  alive : a.world.engine.Alive
  origin : a.world.origin = origin
  asked : ∀ n owner limit now answer,
    (n, Event.asked (.claim owner limit now) answer) ∈ a.world.log → 1 ≤ limit

variable {state : σ} {origin : Instant}

theorem start_unharmed (h : World.start worker state origin = .ok w) :
    Unharmed worker origin { world := w } := by
  obtain ⟨horigin, hlog, -⟩ := World.start_spec h
  have hengine := engine_of_start h
  refine ⟨start_sound h, start_admits h, ?_, horigin, ?_⟩
  · constructor
    all_goals
      rw [hengine]
      exact nofun
  · intro n owner limit now answer hmem
    -- the only call so far is a sign of life
    rw [hlog, List.mem_singleton] at hmem
    cases hmem

theorem act_unharmed (hvalid : worker.config.fault? = none) (hb : worker.backend.NeverCrashes)
    (h : a.act worker action = some b) (hown : action.isOwn = true)
    (ha : Unharmed worker origin a) : Unharmed worker origin b := by
  have hsound := act_sound h ha.sound
  have hadmits := act_admits h hown ha.sound ha.admits
  have hfits := ha.admits.fits (claimMode_of_valid hvalid)
  cases action with
  | step t eager draw =>
    obtain ⟨v, hstep, rfl⟩ := Option.map_eq_some_iff.1 h
    refine ⟨hsound, hadmits, World.step_alive hb hstep ha.alive,
      (World.step_origin hstep).trans ha.origin, ?_⟩
    intro n owner limit now answer hmem
    obtain ⟨events, hlog, -⟩ := World.step_asked hstep
    rw [hlog] at hmem
    rcases List.mem_append.1 hmem with hnew | hold
    · exact (World.step_limit hstep hlog hnew hfits).1
    · exact ha.asked n owner limit now answer hold
  | disturb change =>
    cases h
    exact ⟨hsound, hadmits, ha.alive, ha.origin, ha.asked⟩
  | wait now =>
    cases h
    exact ⟨hsound, hadmits, ha.alive, ha.origin, ha.asked⟩
  | shutDown =>
    cases act_shutDown h
    refine ⟨hsound, hadmits, ?_, ha.origin, ha.asked⟩
    exact ⟨ha.alive.claims, ha.alive.heartbeats, ha.alive.replays, ha.alive.batcher, nofun⟩
  | _ => cases hown

theorem run_unharmed (hvalid : worker.config.fault? = none) (hb : worker.backend.NeverCrashes)
    (hown : ∀ action ∈ actions, action.isOwn) (h : run worker actions a = some b)
    (ha : Unharmed worker origin a) : Unharmed worker origin b :=
  run_keeps h (fun action hmem _ _ hact => act_unharmed hvalid hb hact (hown action hmem)) ha

/-- If the threshold leads from one time to another that is on the calendar, it does so from every
later time. -/
theorem not_overrunsIn (hvalid : worker.config.fault? = none) (hb : worker.backend.NeverCrashes)
    (hown : ∀ action ∈ actions, action.isOwn) (ha : Unharmed worker origin a) {since : Instant}
    (hsince : since ≤ origin) (hspan : (since.sub? worker.config.staleThreshold).isSome) :
    ¬OverrunsIn worker actions a := by
  rintro ⟨before, eager, draw, after, c, rfl, hbefore, -, hlost⟩
  have hc := run_unharmed hvalid hb (fun action hmem => hown action (List.mem_append_left _ hmem))
    hbefore ha
  have hlater : since ≤ c.world.clock := by
    refine Int.le_trans hsince ?_
    rw [World.clock, hc.origin]
    exact World.le_instantAt origin c.world.now
  have hsome := World.sub?_isSome_of_le hlater (WorkerConfig.staleThreshold_of_valid hvalid) hspan
  rw [hlost] at hsome
  cases hsome

/-- **What a valid configuration is enough for.** There are slots, and neither they nor the channel
to the batcher are too many to be counted; a shutdown can ask for all slots at once. A start crashes
exactly if the places of the retry queue cannot be counted. From then on every claim asks for a job
at least, and no task dies but the one that looks for workers that are gone: it does exactly if it
wakes at a time from which the threshold leads off the calendar, and only then a shutdown can fail.
From the epoch on this does not happen if the threshold does not lead that far from the epoch. -/
theorem valid_config_suffices_iff (hvalid : worker.config.fault? = none)
    (hb : worker.backend.NeverCrashes) :
    1 ≤ worker.config.maxConcurrency ∧ worker.config.maxConcurrency < 4294967296 ∧
    worker.config.maxConcurrency ≤ RetryQueue.capacityLimit ∧
    1 ≤ (Completion.ofConcurrency worker.config.maxConcurrency).capacity ∧
    (Completion.ofConcurrency worker.config.maxConcurrency).capacity ≤ RetryQueue.capacityLimit ∧
    ∀ state origin,
      (World.start worker state origin = .error .crash ↔
        RetryQueue.capacityLimit < worker.config.retryQueueCapacity ∧
          ∀ e, World.start worker state origin ≠ .error (.error (.backend e))) ∧
      ∀ w actions a, World.start worker state origin = .ok w →
        (∀ action ∈ actions, action.isOwn) → run worker actions { world := w } = some a →
        a.world.engine.claims ≠ .dead ∧ a.world.engine.heartbeats ≠ .dead ∧
        a.world.engine.replays ≠ .dead ∧ a.world.engine.completion.batcher ≠ .dead ∧
        (a.world.engine.reclaims = .dead ↔ OverrunsIn worker actions { world := w }) ∧
        (∀ result, a.world.engine.shutdown = .returned result → result = .ok () ∨
          result = .error (.error .shutdownFailed) ∧ a.world.engine.reclaims = .dead) ∧
        (∀ n owner limit now answer,
          (n, .asked (.claim owner limit now) answer) ∈ a.world.log → 1 ≤ limit) ∧
        (Instant.epoch ≤ origin → (Instant.epoch.sub? worker.config.staleThreshold).isSome →
          a.world.engine.reclaims ≠ .dead) := by
  obtain ⟨hsome, hfew⟩ := WorkerConfig.concurrency_of_valid hvalid
  obtain ⟨hroom, hcounted⟩ := Completion.capacity_bounds hfew
  have hlimit : worker.config.maxConcurrency ≤ RetryQueue.capacityLimit := by
    simp only [RetryQueue.capacityLimit]
    omega
  refine ⟨hsome, hfew, hlimit, hroom, hcounted, fun state origin => ⟨?_, ?_⟩⟩
  · exact World.start_eq_crash_iff hb state origin
  · intro w actions a hstart hown hrun
    have hbegun := start_unharmed hstart
    obtain ⟨-, -, halive, -, hasked⟩ := run_unharmed hvalid hb hown hrun hbegun
    have hdead : a.world.engine.reclaims = .dead ↔ OverrunsIn worker actions { world := w } := by
      have hlives : w.engine.reclaims ≠ .dead := by
        rw [engine_of_start hstart]
        exact nofun
      rw [run_dead_iff hb hrun hown]
      exact or_iff_right hlives
    refine ⟨halive.claims, halive.heartbeats, halive.replays, halive.batcher, hdead,
      halive.shutdown, hasked, fun hepoch hspan hgone => ?_⟩
    exact not_overrunsIn hvalid hb hown hbegun hepoch hspan (hdead.1 hgone)

/-- The task that looks for workers that are gone wakes, and then the worker is shut down. -/
def lookAndLeave : List (Action Bool) :=
  [.wait 30000, .step .reclaims false 0, .shutDown, .step .claims false 0,
    .step .heartbeats false 0, .step .reclaims false 0, .step .replays false 0,
    .step .shutdown false 0]

/-- A threshold of one minute leads back from every look since the epoch. -/
theorem valid_config_suffices_iff_minute :
    ∃ w a, World.start frailWorker true .epoch = .ok w ∧
      (∀ action ∈ lookAndLeave, action.isOwn) ∧
      run frailWorker lookAndLeave { world := w } = some a ∧
      a.world.engine.shutdown = .draining 31000 ∧ a.world.engine.reclaims ≠ .dead ∧
      ¬OverrunsIn frailWorker lookAndLeave { world := w } := by
  have hown : ∀ action ∈ lookAndLeave, action.isOwn := by
    simp [lookAndLeave, Action.isOwn]
  obtain ⟨w, hstart⟩ : ∃ w, World.start frailWorker true .epoch = .ok w := ⟨_, rfl⟩
  obtain ⟨a, hrun, hpoint⟩ : ∃ a, run frailWorker lookAndLeave { world := w } = some a ∧
      a.world.engine.shutdown = .draining 31000 := by
    cases hstart
    exact ⟨_, rfl, rfl⟩
  have hvalid : frailWorker.config.fault? = none := by decide +kernel
  obtain ⟨-, -, -, -, -, hworlds⟩ := valid_config_suffices_iff hvalid frailBackend_neverCrashes
  obtain ⟨-, -, -, -, hdead, -, -, halive⟩ := (hworlds true .epoch).2 w _ a hstart hown hrun
  have hlives := halive (Int.le_refl _) (by decide +kernel)
  exact ⟨w, a, hstart, hown, hrun, hpoint, hlives, fun hover => hlives (hdead.2 hover)⟩

/-- A queue with more places than can be counted. -/
def vastConfig : WorkerConfig := { tightConfig with retryQueueCapacity := 2305843009213693952 }

/-- A threshold of more than three hundred thousand years. -/
def ancientConfig : WorkerConfig := { tightConfig with staleThreshold := .ofSeconds 10000000000000 }

/-- Both configurations are valid. A worker with the first one crashes at its start. In a worker with
the second one the task that looks for workers that are gone dies when it wakes for the first time,
and a shutdown fails. -/
theorem valid_config_harms :
    vastConfig.fault? = none ∧ ancientConfig.fault? = none ∧
    World.start { frailWorker with config := vastConfig } true .epoch = .error .crash ∧
    ∃ w a b, World.start { frailWorker with config := ancientConfig } true .epoch = .ok w ∧
      run { frailWorker with config := ancientConfig } (lookAndLeave.take 2) { world := w } = some a ∧
      a.world.engine.reclaims = .dead ∧
      run { frailWorker with config := ancientConfig }
        [.shutDown, .step .claims false 0, .step .heartbeats false 0, .step .shutdown false 0] a =
          some b ∧
      b.world.engine.shutdown = .returned (.error (.error .shutdownFailed)) := by
  refine ⟨by decide +kernel, by decide +kernel, rfl, ?_⟩
  exact ⟨_, _, _, rfl, rfl, rfl, rfl, rfl⟩

end Audit

end JobQueue
