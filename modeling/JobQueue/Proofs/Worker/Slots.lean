import JobQueue.Proofs.Worker.Audit
import JobQueue.Proofs.Worker.Calls

/-!
# The slots of a worker

A worker has as many slots as it may execute jobs at a time. Each of them is free, or an execution
has it, or the task that claims jobs holds it, until the shutdown takes them all. That task asks for
as many jobs as can have a slot at that moment, and no other task takes slots away meanwhile: jobs
that are claimed never wait for one.
-/

namespace JobQueue

variable {σ : Type}

/-! ## 1. Where the slots are -/

/-- The slots that are free, those of the executions, and the one that is held for a claim. -/
def Engine.allSlots (e : Engine) : Nat := e.freeSlots + e.executions.length + e.claims.slots

/-- The jobs that were claimed and are still to be started. -/
def ClaimLoop.left : ClaimLoop → List ClaimedJob
  | .dispatching jobs _ => jobs
  | _ => []

/-- Whether the shutdown waits for all slots. -/
def Shutdown.isDraining : Shutdown → Bool
  | .draining _ => true
  | .drainReplaying _ => true
  | _ => false

/-- Whether the shutdown has all slots, and has not failed since. -/
def Shutdown.isClosing : Shutdown → Bool
  | .drained => true
  | .lastReplay _ => true
  | .closing => true
  | .returned (.ok _) => true
  | _ => false

/-- Whether a claim has not brought more jobs than it asked for. -/
def Event.isWithinLimit : Event → Bool
  | .asked (.claim _ limit _) (.ok jobs) => jobs.length ≤ limit
  | _ => true

/-- Either all slots are there, or the shutdown has them. It waits for them, and gets them, only
after the loops have stopped. -/
inductive Engine.Slots (max : Nat) (e : Engine) : Prop
  | shared (hall : e.allSlots = max) (hstage : e.shutdown.isClosing = false)
      (hjoined : e.shutdown.isDraining = true → e.joinLoops = some (.ok ()))
  | taken (hnone : e.executions = []) (hjoined : e.joinLoops = some (.ok ()))
      (hstage : e.shutdown.isClosing = true ∨ ∃ stop, e.shutdown = .returned (.error stop))

theorem ClaimLoop.dispatching_of_left {c : ClaimLoop} (h : c.left ≠ []) :
    ∃ jobs held, c = .dispatching jobs held := by
  cases c with
  | dispatching jobs held => exact ⟨jobs, held, rfl⟩
  | _ => exact absurd rfl h

namespace Engine

variable {e e' : Engine} {max : Nat}

theorem joinLoops_eq_ok_iff : e.joinLoops = some (.ok ()) ↔
    e.claims = .stopped ∧ e.heartbeats = .stopped ∧ e.reclaims = .stopped ∧
      e.replays = .stopped := by
  unfold joinLoops
  split <;> simp_all

/-- The slots are where they were if there are as many, and nothing is started by loops that have
stopped. -/
theorem Slots.of_kept (h : e.Slots max) (hall : e'.allSlots = e.allSlots)
    (hshutdown : e'.shutdown = e.shutdown)
    (hjoined : e.joinLoops = some (.ok ()) →
      e'.joinLoops = some (.ok ()) ∧ (e.executions = [] → e'.executions = [])) :
    e'.Slots max := by
  cases h with
  | shared hsum hstage hloops =>
    exact .shared (hall.trans hsum) (hshutdown ▸ hstage) fun hdraining =>
      (hjoined (hloops (hshutdown ▸ hdraining))).1
  | taken hnone hloops hstage =>
    exact .taken ((hjoined hloops).2 hnone) (hjoined hloops).1 (hshutdown ▸ hstage)

theorem Slots.of_draining (h : e.Slots max) (hstage : e.shutdown.isDraining = true) :
    e.allSlots = max ∧ e.joinLoops = some (.ok ()) := by
  cases h with
  | shared hall _ hjoined => exact ⟨hall, hjoined hstage⟩
  | taken _ hjoined hclosing =>
    exfalso
    rcases hclosing with hclosing | ⟨stop, hfailed⟩
    · cases hshutdown : e.shutdown <;> simp_all [Shutdown.isDraining, Shutdown.isClosing]
    · rw [hfailed] at hstage
      cases hstage

theorem Slots.of_closing (h : e.Slots max) (hstage : e.shutdown.isClosing = true) :
    e.executions = [] ∧ e.joinLoops = some (.ok ()) := by
  cases h with
  | shared _ hopen _ =>
    rw [hopen] at hstage
    cases hstage
  | taken hnone hjoined _ => exact ⟨hnone, hjoined⟩

/-- As long as the shutdown has not got past the loops, all slots are there. -/
theorem Slots.all (h : e.Slots max)
    (hstage : e.shutdown = .notRequested ∨ e.shutdown = .joining ∨
      e.joinLoops ≠ some (.ok ())) : e.allSlots = max := by
  cases h with
  | shared hall _ _ => exact hall
  | taken _ hjoined hclosing =>
    exfalso
    rcases hstage with hstage | hstage | hopen
    · rw [hstage] at hclosing
      simp [Shutdown.isClosing] at hclosing
    · rw [hstage] at hclosing
      simp [Shutdown.isClosing] at hclosing
    · exact hopen hjoined

end Engine

namespace World

variable {worker : Worker (Backend σ)} {w w' : World σ} {R : List WriteProgress}

/-! ## 2. What a step does to them -/

/-- A loop that has stopped takes no step. -/
theorem step_joined {t : Task} {eager : Bool} {draw : Int}
    (h : w.step worker t eager draw = some w') (hjoined : w.engine.joinLoops = some (.ok ())) :
    t ≠ .claims ∧ t ≠ .heartbeats ∧ t ≠ .reclaims ∧ t ≠ .replays := by
  obtain ⟨hclaims, hheartbeats, hreclaims, hreplays⟩ := Engine.joinLoops_eq_ok_iff.1 hjoined
  refine ⟨?_, ?_, ?_, ?_⟩
  all_goals
    rintro rfl
    simp [step, stepClaims, stepHeartbeats, stepReclaims, stepReplays, *] at h

/-- The shutdown leaves the loops and the executions alone. It takes all slots at once. -/
theorem stepShutdown_engine {eager : Bool} (h : w.stepShutdown worker eager = some w') :
    ∃ freeSlots shutdown queue replaying completion,
      w'.engine = { w.engine with freeSlots, shutdown, queue, replaying, completion } ∧
      (freeSlots = w.engine.freeSlots ∨
        w.engine.shutdown.isDraining = true ∧ shutdown = .drained) := by
  have hbegins : ∀ {p : WriteProgress} {v : World σ} (s : Shutdown), w.beginReplay = some (p, v) →
      (v.update ({ · with shutdown := s })).engine =
        { w.engine with shutdown := s, replaying := true } := by
    intro p v s hbegin
    obtain ⟨-, hengine, -⟩ := beginReplay_engine hbegin
    exact congrArg ({ · with shutdown := s }) hengine
  have hreplays : ∀ {p : WriteProgress} {r : ReplayStep σ} (s : Shutdown),
      stepReplay worker .shutdown p w = some r →
      ∃ queue replaying completion, (r.world.update ({ · with shutdown := s })).engine =
        { w.engine with shutdown := s, queue, replaying, completion } := by
    intro p r s hstep
    obtain ⟨completion, queue, replaying, hengine⟩ := stepReplay_engine hstep
    exact ⟨queue, replaying, completion, congrArg ({ · with shutdown := s }) hengine⟩
  cases stepShutdown_cases h with
  | emptied hpoint _ => exact ⟨0, .drained, _, _, _, rfl, Or.inr ⟨by rw [hpoint]; rfl, rfl⟩⟩
  | begun _ hbegin => exact ⟨_, _, _, _, _, hbegins _ hbegin, Or.inl rfl⟩
  | lastBegun _ hbegin => exact ⟨_, _, _, _, _, hbegins _ hbegin, Or.inl rfl⟩
  | replayed _ hstep =>
    obtain ⟨queue, replaying, completion, hengine⟩ := hreplays _ hstep
    exact ⟨_, _, queue, replaying, completion, hengine, Or.inl rfl⟩
  | lastReplayed _ hstep =>
    obtain ⟨queue, replaying, completion, hengine⟩ := hreplays _ hstep
    exact ⟨_, _, queue, replaying, completion, hengine, Or.inl rfl⟩
  | _ => exact ⟨_, _, _, _, _, rfl, Or.inl rfl⟩

/-- Each loop, and the shutdown, is moved by its own task only. -/
structure Points (t : Task) (w w' : World σ) : Prop where
  claims : t ≠ .claims → w'.engine.claims = w.engine.claims
  heartbeats : t ≠ .heartbeats → w'.engine.heartbeats = w.engine.heartbeats
  reclaims : t ≠ .reclaims → w'.engine.reclaims = w.engine.reclaims
  replays : t ≠ .replays → w'.engine.replays = w.engine.replays
  shutdown : t ≠ .shutdown → w'.engine.shutdown = w.engine.shutdown

theorem step_points {t : Task} {eager : Bool} {draw : Int}
    (h : w.step worker t eager draw = some w') : Points t w w' := by
  cases t with
  | batcher =>
    obtain ⟨completion, hengine⟩ := stepBatcher_engine h
    constructor <;> intro <;> rw [hengine]
  | claims =>
    rcases stepClaims_engine h with ⟨claims, freeSlots, -, hengine⟩ |
      ⟨job, claims, freeSlots, -, hengine⟩
    · refine ⟨fun hne => absurd rfl hne, ?_, ?_, ?_, ?_⟩ <;> intro <;> rw [hengine]
    · refine ⟨fun hne => absurd rfl hne, ?_, ?_, ?_, ?_⟩ <;> intro <;> rw [hengine] <;> rfl
  | heartbeats =>
    obtain ⟨heartbeats, hengine⟩ := stepHeartbeats_engine h
    refine ⟨?_, fun hne => absurd rfl hne, ?_, ?_, ?_⟩ <;> intro <;> rw [hengine]
  | reclaims =>
    obtain ⟨reclaims, hengine⟩ := stepReclaims_engine h
    refine ⟨?_, ?_, fun hne => absurd rfl hne, ?_, ?_⟩ <;> intro <;> rw [hengine]
  | replays =>
    obtain ⟨replays, completion, queue, replaying, hengine⟩ := stepReplays_engine h
    refine ⟨?_, ?_, ?_, fun hne => absurd rfl hne, ?_⟩ <;> intro <;> rw [hengine]
  | execution key =>
    obtain ⟨x, -, hstep⟩ := Option.bind_eq_some_iff.1 h
    obtain ⟨freeSlots, executions, queue, completion, asked, hengine⟩ := stepExecution_engine hstep
    constructor <;> intro <;> rw [hengine]
  | shutdown =>
    obtain ⟨freeSlots, shutdown, queue, replaying, completion, hengine, -⟩ :=
      stepShutdown_engine h
    refine ⟨?_, ?_, ?_, ?_, fun hne => absurd rfl hne⟩ <;> intro <;> rw [hengine]

theorem closed_isClosing (worker : Worker (Backend σ)) : (closed worker).isClosing = true := by
  unfold closed
  split <;> rfl

/-- The shutdown waits for the loops, then for all slots, and gives none of them back. -/
theorem stepShutdown_slots {eager : Bool} (h : w.stepShutdown worker eager = some w')
    (hw : w.engine.Slots worker.config.maxConcurrency) :
    w'.engine.Slots worker.config.maxConcurrency := by
  obtain ⟨freeSlots, shutdown, queue, replaying, completion, hengine, hfree⟩ :=
    stepShutdown_engine h
  have hloops : w'.engine.joinLoops = w.engine.joinLoops := by rw [hengine]; rfl
  have hexecutions : w'.engine.executions = w.engine.executions := by rw [hengine]
  have hsame : w'.engine.shutdown.isClosing = false → w'.engine.allSlots = w.engine.allSlots := by
    intro hopen
    rcases hfree with rfl | ⟨-, rfl⟩
    · rw [hengine]
      rfl
    · rw [hengine] at hopen
      cases hopen
  -- a stage before it has the slots, and a stage after that
  have hshared : w.engine.allSlots = worker.config.maxConcurrency →
      w'.engine.shutdown.isClosing = false →
      (w'.engine.shutdown.isDraining = true → w.engine.joinLoops = some (.ok ())) →
      w'.engine.Slots worker.config.maxConcurrency := fun hall hopen hjoined =>
    .shared ((hsame hopen).trans hall) hopen fun hdraining => hloops.trans (hjoined hdraining)
  have htaken : w.engine.shutdown.isClosing = true →
      (w'.engine.shutdown.isClosing = true ∨ ∃ stop, w'.engine.shutdown = .returned (.error stop)) →
      w'.engine.Slots worker.config.maxConcurrency := by
    intro hclosing hstage
    obtain ⟨hnone, hjoined⟩ := hw.of_closing hclosing
    exact .taken (hexecutions.trans hnone) (hloops.trans hjoined) hstage
  cases stepShutdown_cases h with
  | joined hpoint hjoined =>
    exact hshared (hw.all (Or.inr (Or.inl hpoint))) rfl fun _ => hjoined
  | failed hpoint _ => exact hshared (hw.all (Or.inr (Or.inl hpoint))) rfl nofun
  | emptied hpoint hall =>
    obtain ⟨hsum, hjoined⟩ := hw.of_draining (by rw [hpoint]; rfl)
    -- all slots are free, so no execution has one
    rw [Engine.allSlots, hall] at hsum
    have hnone : w.engine.executions.length = 0 := by omega
    exact .taken (List.length_eq_zero_iff.1 hnone) hjoined (Or.inl rfl)
  | waited hpoint _ =>
    obtain ⟨hsum, hjoined⟩ := hw.of_draining (by rw [hpoint]; rfl)
    exact hshared hsum rfl fun _ => hjoined
  | begun hpoint _ =>
    obtain ⟨hsum, hjoined⟩ := hw.of_draining (by rw [hpoint]; rfl)
    exact hshared hsum rfl fun _ => hjoined
  | @replayed _ r hpoint _ =>
    obtain ⟨hsum, hjoined⟩ := hw.of_draining (by rw [hpoint]; rfl)
    exact hshared hsum (by cases r <;> rfl) fun _ => hjoined
  | unqueued hpoint _ => exact htaken (by rw [hpoint]; rfl) (Or.inl (closed_isClosing worker))
  | lastBegun hpoint _ => exact htaken (by rw [hpoint]; rfl) (Or.inl rfl)
  | @lastReplayed _ r hpoint _ =>
    refine htaken (by rw [hpoint]; rfl) ?_
    cases r with
    | goesOn p v => exact Or.inl rfl
    | ended v => exact Or.inl (closed_isClosing worker)
    | crashed v => exact Or.inr ⟨.crash, rfl⟩
  | finished hpoint _ => exact htaken (by rw [hpoint]; rfl) (Or.inl rfl)
  | unfinished hpoint _ => exact htaken (by rw [hpoint]; rfl) (Or.inr ⟨_, rfl⟩)

/-- No step of a task loses a slot, nor finds one. -/
theorem step_slots {t : Task} {eager : Bool} {draw : Int} (hd : (w.engine.desk R).Numbered)
    (h : w.step worker t eager draw = some w')
    (hw : w.engine.Slots worker.config.maxConcurrency) :
    w'.engine.Slots worker.config.maxConcurrency := by
  have hjoined := step_joined h
  cases t with
  | batcher =>
    obtain ⟨completion, hengine⟩ := stepBatcher_engine h
    rw [hengine]
    exact hw.of_kept rfl rfl fun hstopped => ⟨hstopped, id⟩
  | claims =>
    -- a loop that goes on has not stopped, so the shutdown still waits for it
    refine hw.of_kept ?_ ?_ fun hstopped => absurd rfl (hjoined hstopped).1
    · rcases stepClaims_engine h with ⟨claims, freeSlots, hslots, hengine⟩ |
        ⟨job, claims, freeSlots, hslots, hengine⟩
      · rw [hengine]
        simp only [Engine.allSlots]
        omega
      · rw [hengine]
        simp only [Engine.allSlots, Engine.launch, List.length_append, List.length_singleton]
        omega
    · rcases stepClaims_engine h with ⟨_, _, -, hengine⟩ | ⟨_, _, _, -, hengine⟩
      · rw [hengine]
      · rw [hengine]
        rfl
  | heartbeats =>
    obtain ⟨heartbeats, hengine⟩ := stepHeartbeats_engine h
    rw [hengine]
    exact hw.of_kept rfl rfl fun hstopped => absurd rfl (hjoined hstopped).2.1
  | reclaims =>
    obtain ⟨reclaims, hengine⟩ := stepReclaims_engine h
    rw [hengine]
    exact hw.of_kept rfl rfl fun hstopped => absurd rfl (hjoined hstopped).2.2.1
  | replays =>
    obtain ⟨replays, completion, queue, replaying, hengine⟩ := stepReplays_engine h
    rw [hengine]
    exact hw.of_kept rfl rfl fun hstopped => absurd rfl (hjoined hstopped).2.2.2
  | execution key =>
    obtain ⟨x, hx, hstep⟩ := Option.bind_eq_some_iff.1 h
    have hmem := (mem_of_execution? hx).1
    obtain rfl : x.key = key := (mem_of_execution? hx).2
    have hslots := (stepExecution_turn hx hstep R).slots_eq hd hmem
    obtain ⟨freeSlots, executions, queue, completion, asked, hengine⟩ := stepExecution_engine hstep
    rw [hengine] at hslots ⊢
    refine hw.of_kept ?_ rfl fun hstopped => ⟨hstopped, fun hnone => ?_⟩
    · simp only [Engine.desk] at hslots
      simp only [Engine.allSlots]
      omega
    · rw [hnone] at hmem
      cases hmem
  | shutdown => exact stepShutdown_slots h hw

/-- The other tasks leave the one that claims jobs alone. They start nothing, and take no slot away
but for the shutdown. -/
theorem step_others {t : Task} {eager : Bool} {draw : Int} (ht : t ≠ .claims)
    (h : w.step worker t eager draw = some w') :
    w'.engine.claims = w.engine.claims ∧ w'.engine.started = w.engine.started ∧
      (w.engine.freeSlots ≤ w'.engine.freeSlots ∨ w.engine.shutdown.isDraining = true) := by
  cases t with
  | batcher =>
    obtain ⟨completion, hengine⟩ := stepBatcher_engine h
    rw [hengine]
    exact ⟨rfl, rfl, Or.inl (Nat.le_refl _)⟩
  | claims => exact absurd rfl ht
  | heartbeats =>
    obtain ⟨heartbeats, hengine⟩ := stepHeartbeats_engine h
    rw [hengine]
    exact ⟨rfl, rfl, Or.inl (Nat.le_refl _)⟩
  | reclaims =>
    obtain ⟨reclaims, hengine⟩ := stepReclaims_engine h
    rw [hengine]
    exact ⟨rfl, rfl, Or.inl (Nat.le_refl _)⟩
  | replays =>
    obtain ⟨replays, completion, queue, replaying, hengine⟩ := stepReplays_engine h
    rw [hengine]
    exact ⟨rfl, rfl, Or.inl (Nat.le_refl _)⟩
  | execution key =>
    obtain ⟨x, hx, hstep⟩ := Option.bind_eq_some_iff.1 h
    obtain rfl : x.key = key := (mem_of_execution? hx).2
    have hmore := (stepExecution_turn hx hstep []).slots_le
    obtain ⟨freeSlots, executions, queue, completion, asked, hengine⟩ := stepExecution_engine hstep
    rw [hengine] at hmore ⊢
    exact ⟨rfl, rfl, Or.inl (Nat.le_of_add_le_add_left hmore)⟩
  | shutdown =>
    obtain ⟨freeSlots, shutdown, queue, replaying, completion, hengine, hfree⟩ :=
      stepShutdown_engine h
    rw [hengine]
    refine ⟨rfl, rfl, ?_⟩
    rcases hfree with rfl | ⟨hdraining, -⟩
    · exact Or.inl (Nat.le_refl _)
    · exact Or.inr hdraining

/-! ## 3. What is asked for -/

/-- No claim so far has brought more jobs than it asked for. -/
def WithinLimits (w : World σ) : Prop := ∀ entry ∈ w.log, entry.2.isWithinLimit = true

instance (w : World σ) : Decidable w.WithinLimits :=
  inferInstanceAs (Decidable (∀ entry ∈ w.log, _))

/-- A claim asks for some jobs, and each of them can have a slot; and there is a slot for each job
that was claimed and is not started yet. -/
structure Fits (w : World σ) : Prop where
  asked : ∀ delay limit, w.engine.claims = .claiming delay limit →
    1 ≤ limit ∧ limit ≤ w.engine.freeSlots + 1
  startable : w.WithinLimits →
    w.engine.claims.left.length ≤ w.engine.freeSlots + w.engine.claims.slots

theorem WithinLimits.of_suffix (h : w'.WithinLimits) (hlog : w.log <:+ w'.log) :
    w.WithinLimits := fun entry hmem => h entry (hlog.subset hmem)

/-- A claim that is under way still fits when more slots have become free. -/
theorem Fits.of_more (h : w.Fits) (hlog : w.log <:+ w'.log)
    (hclaims : w'.engine.claims = w.engine.claims)
    (hfree : w.engine.freeSlots ≤ w'.engine.freeSlots) : w'.Fits := by
  refine ⟨?_, ?_⟩
  · intro delay limit hpoint
    obtain ⟨hsome, hlimit⟩ := h.asked delay limit (hclaims ▸ hpoint)
    exact ⟨hsome, by omega⟩
  · intro hwithin
    have hjobs := h.startable (hwithin.of_suffix hlog)
    rw [hclaims]
    omega

theorem Fits.of_idle (hasking : ∀ delay limit, w.engine.claims ≠ .claiming delay limit)
    (hleft : w.engine.claims.left = []) : w.Fits := by
  refine ⟨fun delay limit hpoint => absurd hpoint (hasking delay limit), fun _ => ?_⟩
  rw [hleft]
  exact Nat.zero_le _

theorem claimLimit_bounds (mode : ClaimMode) (hmode : mode ≠ .batch 0) (freeSlots : Nat) :
    1 ≤ claimLimit mode freeSlots ∧ claimLimit mode freeSlots ≤ freeSlots + 1 := by
  cases mode with
  | single => exact ⟨Nat.le_refl 1, Nat.le_add_left 1 freeSlots⟩
  | batch size =>
    have hsize : size ≠ 0 := fun hzero => hmode (hzero ▸ rfl)
    simp only [claimLimit]
    omega

theorem afterMiss_idle (config : WorkerConfig) (delay : Duration) (v : World σ)
    (answer : Answer (List ClaimedJob)) :
    (∀ delay' limit, ClaimLoop.afterMiss config delay v answer ≠ .claiming delay' limit) ∧
      (ClaimLoop.afterMiss config delay v answer).left = [] := by
  unfold ClaimLoop.afterMiss
  split <;> exact ⟨fun _ _ => ClaimLoop.noConfusion, rfl⟩

/-- The task that claims jobs keeps to the slots that there are. -/
theorem ClaimMove.fits (h : ClaimMove worker w w') (hmode : worker.config.claimMode ≠ .batch 0)
    (hw : w.Fits) : w'.Fits := by
  cases h with
  | gaveUp _ _ => exact .of_idle (fun _ _ => ClaimLoop.noConfusion) rfl
  | acquired _ _ =>
    -- the limit is computed from the slots that are left when this one is taken
    refine ⟨?_, fun _ => Nat.zero_le _⟩
    rintro delay limit ⟨⟩
    exact claimLimit_bounds _ hmode _
  | @claimed delay limit job jobs v hpoint hask =>
    refine ⟨fun _ _ => ClaimLoop.noConfusion, fun hwithin => ?_⟩
    have hentry : (w.now, Event.asked (.claim worker.id limit w.clock) (.ok (job :: jobs))) ∈
        v.log := ask_log hask ▸ List.mem_cons_self
    have hjobs : jobs.length + 1 ≤ limit := of_decide_eq_true (hwithin _ hentry)
    have hlimit := (hw.asked delay limit hpoint).2
    simp only [update, ask_engine hask, ClaimLoop.slots, ClaimLoop.left, List.length_cons]
    omega
  | @missed delay limit answer v hpoint hask hnone =>
    obtain ⟨hasking, hleft⟩ := afterMiss_idle worker.config delay v answer
    exact .of_idle hasking hleft
  | @launched job jobs held hpoint hfree =>
    refine ⟨fun _ _ => ClaimLoop.noConfusion, fun hwithin => ?_⟩
    have hjobs := hw.startable hwithin
    refine Nat.le_trans ?_ (Nat.le_add_right _ _)
    -- the job takes over the slot that is held, or one that is free
    rw [hpoint] at hjobs
    cases held with
    | true =>
      simp only [ClaimLoop.slots, ClaimLoop.left, List.length_cons] at hjobs
      simp only [update, ClaimLoop.left, if_true]
      omega
    | false =>
      simp only [ClaimLoop.slots, ClaimLoop.left, List.length_cons] at hjobs
      simp only [update, ClaimLoop.left, Bool.false_eq_true, if_false]
      omega
  | dispatched _ => exact .of_idle (fun _ _ => ClaimLoop.noConfusion) rfl
  | woken _ => exact .of_idle (fun _ _ => ClaimLoop.noConfusion) rfl
  | stopped _ _ => exact .of_idle (fun _ _ => ClaimLoop.noConfusion) rfl

theorem step_fits {t : Task} {eager : Bool} {draw : Int}
    (hmode : worker.config.claimMode ≠ .batch 0) (h : w.step worker t eager draw = some w')
    (hslots : w.engine.Slots worker.config.maxConcurrency) (hw : w.Fits) : w'.Fits := by
  by_cases ht : t = .claims
  · subst ht
    exact (stepClaims_move h).fits hmode hw
  · obtain ⟨events, hlog, -⟩ := step_asked h
    obtain ⟨hclaims, -, hmore | hdraining⟩ := step_others ht h
    · exact hw.of_more ⟨events, hlog.symm⟩ hclaims hmore
    · -- the shutdown takes the slots when nobody claims any more
      have hstopped := (Engine.joinLoops_eq_ok_iff.1 (hslots.of_draining hdraining).2).1
      rw [← hclaims] at hstopped
      exact .of_idle (fun _ _ hpoint => by cases hstopped.symm.trans hpoint) (by rw [hstopped]; rfl)

/-- A claim that is made asks for some jobs, and not for more than there are slots. -/
theorem step_limit {t : Task} {eager : Bool} {draw : Int} {events : List (Nat × Event)} {n : Nat}
    {owner : WorkerId} {limit : Nat} {now : Instant} {answer : Answer (List ClaimedJob)}
    (h : w.step worker t eager draw = some w') (hlog : w'.log = events ++ w.log)
    (hmem : (n, .asked (.claim owner limit now) answer) ∈ events) (hw : w.Fits) :
    1 ≤ limit ∧ limit ≤ w.engine.freeSlots + 1 := by
  have hcall : ∀ {v : World σ} {delay : Duration} {asked : Nat} {answer' : Answer _},
      w.engine.claims = .claiming delay asked →
      w.ask worker.backend (.claim worker.id asked w.clock) = (answer', v) →
      v.log = events ++ w.log → 1 ≤ limit ∧ limit ≤ w.engine.freeSlots + 1 := by
    intro v delay asked answer' hpoint hask hv
    rw [ask_log hask, ← List.singleton_append, List.append_left_inj] at hv
    rw [← hv, List.mem_singleton] at hmem
    cases hmem
    exact hw.asked delay limit hpoint
  by_cases ht : t = .claims
  · subst ht
    cases stepClaims_move h with
    | claimed hpoint hask => exact hcall hpoint hask hlog
    | missed hpoint hask _ => exact hcall hpoint hask hlog
    | _ =>
      rw [List.self_eq_append_left.1 hlog] at hmem
      cases hmem
  · -- no other task claims jobs
    obtain ⟨events', hlog', hcalls⟩ := step_asked h
    rw [hlog, List.append_left_inj] at hlog'
    cases Task.not_isClaim_of_asks ht (hcalls n (.claim owner limit now) answer (hlog' ▸ hmem))

end World

/-! ## 4. Runs -/

namespace Audit

/-- Whether only the worker itself hands writes over and replays them in this action. -/
def Action.isOwn : Action σ → Bool
  | .step _ _ _ => true
  | .disturb _ => true
  | .wait _ => true
  | .shutDown => true
  | _ => false

/-- The slots are where they belong, and claims keep to them unless they ask for no job at all. -/
structure Admits (worker : Worker (Backend σ)) (w : World σ) : Prop where
  slots : w.engine.Slots worker.config.maxConcurrency
  fits : worker.config.claimMode ≠ .batch 0 → w.Fits

variable {worker : Worker (Backend σ)} {a b : Audit σ} {action : Action σ}
  {actions : List (Action σ)} {w : World σ}

/-- What an action of a worker that is left to itself does to its world. -/
theorem act_own (h : a.act worker action = some b) (hown : action.isOwn = true) :
    (∃ t eager draw, a.world.step worker t eager draw = some b.world) ∨
      (b.world.engine = a.world.engine ∧ b.world.log = a.world.log) ∨
      (a.world.engine.shutdown = .notRequested ∧ b.world = a.world.requestShutdown) := by
  cases action with
  | step t eager draw =>
    obtain ⟨v, hstep, rfl⟩ := Option.map_eq_some_iff.1 h
    exact Or.inl ⟨t, eager, draw, hstep⟩
  | disturb change =>
    cases h
    exact Or.inr (Or.inl ⟨rfl, rfl⟩)
  | wait now =>
    cases h
    exact Or.inr (Or.inl ⟨rfl, rfl⟩)
  | shutDown =>
    simp only [act] at h
    split at h
    · rename_i hpoint
      cases h
      exact Or.inr (Or.inr ⟨hpoint, rfl⟩)
    · cases h
  | _ => cases hown

theorem start_admits {state : σ} {origin : Instant}
    (h : World.start worker state origin = .ok w) : Admits worker w := by
  have hengine := engine_of_start h
  refine ⟨?_, fun _ => ?_⟩
  · rw [hengine]
    exact .shared rfl rfl nofun
  · refine .of_idle (fun delay limit hpoint => ?_) (by rw [hengine]; rfl)
    rw [hengine] at hpoint
    cases hpoint

theorem act_admits (h : a.act worker action = some b) (hown : action.isOwn = true)
    (hsound : Sound worker a) (ha : Admits worker a.world) : Admits worker b.world := by
  rcases act_own h hown with ⟨t, eager, draw, hstep⟩ | ⟨hengine, hlog⟩ | ⟨hpoint, hworld⟩
  · exact ⟨World.step_slots hsound.balanced.numbered hstep ha.slots,
      fun hmode => World.step_fits hmode hstep ha.slots (ha.fits hmode)⟩
  · refine ⟨hengine ▸ ha.slots, fun hmode => ?_⟩
    exact (ha.fits hmode).of_more (hlog ▸ List.suffix_refl _) (by rw [hengine])
      (Nat.le_of_eq (by rw [hengine]))
  · rw [hworld]
    refine ⟨?_, fun hmode => (ha.fits hmode).of_more (List.suffix_refl _) rfl (Nat.le_refl _)⟩
    exact .shared (ha.slots.all (Or.inl hpoint)) rfl nofun

theorem run_admits (h : run worker actions a = some b) (hown : ∀ action ∈ actions, action.isOwn)
    (hsound : Sound worker a) (ha : Admits worker a.world) : Admits worker b.world := by
  refine (run_keeps (P := fun c => Sound worker c ∧ Admits worker c.world) h ?_ ⟨hsound, ha⟩).2
  rintro action hmem c d hact ⟨hc, hadmits⟩
  exact ⟨act_sound hact hc, act_admits hact (hown action hmem) hc hadmits⟩

/-! ## 5. Admission -/

theorem claimMode_of_valid {config : WorkerConfig} (h : config.fault? = none) :
    config.claimMode ≠ .batch 0 := by
  have hcheck : (ConfigFault.emptyBatch, decide (config.claimMode = .batch 0)) ∈ config.checks := by
    simp [WorkerConfig.checks]
  exact of_decide_eq_false (WorkerConfig.check_of_valid h hcheck)

/-- **Admission is exact.** Until the shutdown, with the loops stopped, begins to take the slots,
each slot is free, or has one execution, or is held for a claim; so no more jobs are executed at a
time than may be. A claim that is made asks for one job at least, and for no more than there are
slots for. If no claim brings more than it asked for, there is a slot for each job that was claimed,
and the task that starts them never waits for one. -/
theorem admission_exact {state : σ} {origin : Instant} (hvalid : worker.config.fault? = none)
    (hstart : World.start worker state origin = .ok w) (hown : ∀ action ∈ actions, action.isOwn)
    (hrun : run worker actions { world := w } = some a) :
    (a.world.engine.shutdown = .notRequested ∨ a.world.engine.shutdown = .joining ∨
        a.world.engine.joinLoops ≠ some (.ok ()) →
      a.world.engine.freeSlots + a.world.engine.executions.length + a.world.engine.claims.slots =
        worker.config.maxConcurrency) ∧
    a.world.engine.executions.length ≤ worker.config.maxConcurrency ∧
    (∀ t eager draw w' events n owner limit now answer,
      a.world.step worker t eager draw = some w' → w'.log = events ++ a.world.log →
      (n, .asked (.claim owner limit now) answer) ∈ events →
      1 ≤ limit ∧ limit ≤ a.world.engine.freeSlots + 1) ∧
    (a.world.WithinLimits →
      a.world.engine.claims.left.length ≤ a.world.engine.freeSlots + a.world.engine.claims.slots ∧
      (a.world.engine.claims.left ≠ [] →
        ∀ eager draw, (a.world.step worker .claims eager draw).isSome)) := by
  have hsound := run_sound hrun (start_sound hstart)
  have hadmits := run_admits hrun hown (start_sound hstart) (start_admits hstart)
  have hfits := hadmits.fits (claimMode_of_valid hvalid)
  refine ⟨hadmits.slots.all, ?_, ?_, ?_⟩
  · exact Nat.le_trans (Nat.le_add_left _ _) hsound.slots
  · intro t eager draw w' events n owner limit now answer hstep hlog hmem
    exact World.step_limit hstep hlog hmem hfits
  · intro hwithin
    have hjobs := hfits.startable hwithin
    refine ⟨hjobs, fun hleft eager draw => ?_⟩
    obtain ⟨jobs, held, hpoint⟩ := ClaimLoop.dispatching_of_left hleft
    refine World.stepClaims_isSome hpoint ?_ eager
    -- without a slot that is held, the first job needs a free one
    rintro rfl hsome
    have hlength := List.length_pos_iff.2 hsome
    have hnone : (ClaimLoop.dispatching jobs false).slots = 0 := by cases jobs <;> rfl
    rw [hpoint, hnone, ClaimLoop.left] at hjobs
    omega

/-- A worker that claims up to two jobs at a time. -/
def pairWorker : Worker (Backend Store) where
  id := ⟨.ofNat 1⟩
  backend := Store.backend
  config := { tightConfig with claimMode := .batch 2 }
  registry := ⟨[], .standard⟩
  pipeline := ⟨[], false⟩

/-- It has claimed the only job that there is, and holds a slot for it. -/
theorem admission_exact_pair :
    ∃ w a, World.start pairWorker { jobs := [(NewJob.plain 1).toJob .epoch] } .epoch = .ok w ∧
      run pairWorker (List.replicate 2 (.step .claims false 0)) { world := w } = some a ∧
      a.world.WithinLimits ∧ a.world.engine.claims.left.length = 1 ∧
      a.world.engine.freeSlots + a.world.engine.executions.length +
        a.world.engine.claims.slots = 3 ∧
      ∀ eager draw, (a.world.step pairWorker .claims eager draw).isSome := by
  obtain ⟨w, hstart⟩ : ∃ w, World.start pairWorker { jobs := [(NewJob.plain 1).toJob .epoch] }
      .epoch = .ok w := ⟨_, rfl⟩
  have hreached : (run pairWorker (List.replicate 2 (.step .claims false 0)) { world := w }).any
      (fun a => decide a.world.WithinLimits && decide (a.world.engine.claims.left.length = 1) &&
        a.world.engine.joinLoops.isNone) = true := by
    cases hstart
    decide +kernel
  simp only [Option.any_eq_true, Bool.and_eq_true, decide_eq_true_eq] at hreached
  obtain ⟨a, hrun, ⟨hwithin, hone⟩, hgoesOn⟩ := hreached
  obtain ⟨hall, -, -, hstarts⟩ :=
    admission_exact (by decide +kernel) hstart (by simp [Action.isOwn]) hrun
  have hopen : a.world.engine.joinLoops ≠ some (.ok ()) := by
    rw [Option.isNone_iff_eq_none.1 hgoesOn]
    exact (Option.some_ne_none _).symm
  have hleft : a.world.engine.claims.left ≠ [] := List.ne_nil_of_length_eq_add_one hone
  exact ⟨w, a, hstart, hrun, hwithin, hone, hall (Or.inr (Or.inr hopen)),
    (hstarts hwithin).2 hleft⟩

end Audit

end JobQueue
