import JobQueue.Proofs.Worker.Steps

/-!
# What the tasks leave alone

A step of a task changes the engine, makes calls and records events. Each task makes calls of one
kind only, and only executions record other events than the answers to calls. `Frame` is what has to
be shown of a property of worlds so that the steps of a task keep it: that it survives these
changes, one by one. There is one lemma for each function that a step is made of.
-/

namespace JobQueue

/-! ## 1. Kinds of calls -/

def Call.isClaim : Call → Bool
  | .claim .. => true
  | _ => false

def Call.isBeat : Call → Bool
  | .heartbeat .. => true
  | _ => false

def Call.isReclaim : Call → Bool
  | .reclaim _ => true
  | _ => false

/-- Whether the call is a write that ends claims. -/
def Call.isWrite : Call → Bool
  | .complete .. => true
  | .retry .. => true
  | .reschedule .. => true
  | .fail .. => true
  | _ => false

/-- The calls that a task makes. -/
def Task.asks : Task → Call → Bool
  | .claims => Call.isClaim
  | .heartbeats => Call.isBeat
  | .reclaims => Call.isReclaim
  | .batcher => Call.isWrite
  | .replays => Call.isWrite
  | .execution _ => Call.isWrite
  | .shutdown => Call.isWrite

theorem Task.isBeat_of_asks {t : Task} (ht : t ≠ .heartbeats) {c : Call} (hc : t.asks c = true) :
    c.isBeat = false := by
  cases t with
  | heartbeats => exact absurd rfl ht
  | _ => cases c <;> first | rfl | cases hc

/-- Whether the event is the answer to a call. -/
def Event.isCall : Event → Bool
  | .asked .. => true
  | _ => false

/-- The events that a task records, beside the answers to its calls. -/
def Task.notes : Task → Event → Bool
  | .execution _ => (!·.isCall)
  | _ => fun _ => false

theorem Task.isCall_of_notes {t : Task} {e : Event} (he : t.notes e = true) : e.isCall = false := by
  cases t with
  | execution key => simpa only [notes, Bool.not_eq_true'] using he
  | _ => cases he

variable {σ : Type}

namespace World

/-! ## 2. Properties that steps keep -/

/-- A property that survives changes of the engine, and calls and events of some kinds. Whether the
worker is told to stop and when it sends its next sign of life is not changed. -/
structure Frame (b : Backend σ) (asks : Call → Bool) (notes : Event → Bool)
    (P : World σ → Prop) : Prop where
  update : ∀ (w : World σ) (f : Engine → Engine), P w →
    (f w.engine).cancelled = w.engine.cancelled → (f w.engine).heartbeats = w.engine.heartbeats →
    P (w.update f)
  record : ∀ (w : World σ) (e : Event), P w → notes e = true → P (w.record e)
  ask : ∀ (w : World σ) (c : Call), P w → asks c = true → P (w.ask b c).2

variable {worker : Worker (Backend σ)} {w w' : World σ} {b : Backend σ} {asks : Call → Bool}
  {notes : Event → Bool} {P : World σ → Prop}

theorem Frame.of_ask (hP : Frame b asks notes P) (hw : P w) {c : Call} (hc : asks c = true)
    {a : Answer c.Result} (h : w.ask b c = (a, w')) : P w' := by
  have hnext := hP.ask w c hw hc
  rwa [h] at hnext

/-! ## 3. Writes -/

theorem perform_frame (hP : Frame b Call.isWrite notes P) (hw : P w) (write : OutcomeWrite)
    (delete : Bool) : P (write.perform delete (fun c w => w.ask b c) w).2 := by
  cases write with
  | complete finished => exact hP.ask w _ hw rfl
  | retry job t e => exact hP.ask w _ hw rfl
  | reschedule job t e => exact hP.ask w _ hw rfl
  | fail job e => exact hP.ask w _ hw rfl

theorem writeDirectly_frame (hP : Frame worker.backend Call.isWrite notes P) (hw : P w)
    (write : OutcomeWrite) : P (writeDirectly worker write w).world := by
  have hafter := perform_frame hP hw write worker.config.deleteCompleted
  simp only [writeDirectly]
  split
  all_goals
    rename_i heq
    rw [heq] at hafter
    exact hafter

theorem stepWrite_frame (hP : Frame worker.backend Call.isWrite notes P) (hw : P w)
    {writer : Writer} {p : WriteProgress} {r : WriteStep σ} (h : stepWrite worker writer p w = some r) :
    P r.world := by
  unfold stepWrite at h
  simp only at h
  split at h
  · split at h
    · cases h
      exact writeDirectly_frame hP hw _
    · split at h
      · cases h
        exact hw
      · split at h
        · cases h
          simp only [WriteStep.world]
          exact hP.update w _ hw rfl rfl
        · cases h
  · obtain ⟨result, -, rfl⟩ := Option.map_eq_some_iff.1 h
    simp only [WriteStep.world]
    exact hP.update w _ hw rfl rfl

theorem stepBatcher_frame (hP : Frame worker.backend Call.isWrite notes P) (hw : P w)
    (h : w.stepBatcher worker = some w') : P w' := by
  unfold stepBatcher at h
  simp only at h
  obtain ⟨⟨completion, v⟩, hstep, rfl⟩ := Option.map_eq_some_iff.1 h
  rcases completion_step hstep with rfl | ⟨jobs, rfl⟩
  · exact hP.update _ _ hw rfl rfl
  · exact hP.update _ _ (hP.ask w _ hw rfl) rfl rfl

/-! ## 4. Loops -/

theorem stepClaims_frame (hP : Frame worker.backend Call.isClaim notes P) (hw : P w)
    {eager : Bool} (h : w.stepClaims worker eager = some w') : P w' := by
  cases stepClaims_move h with
  | claimed _ hask => exact hP.update _ _ (hP.of_ask hw rfl hask) rfl rfl
  | missed _ hask _ => exact hP.update _ _ (hP.of_ask hw rfl hask) rfl rfl
  | _ => exact hP.update w _ hw rfl rfl

theorem stepReclaims_frame (hP : Frame worker.backend Call.isReclaim notes P) (hw : P w)
    {eager : Bool} (h : w.stepReclaims worker eager = some w') : P w' := by
  rcases stepReclaims_cases h with ⟨next, rfl⟩ | ⟨staleBefore, next, -, rfl⟩
  · exact hP.update w _ hw rfl rfl
  · exact hP.update _ _ (hP.ask w _ hw rfl) rfl rfl

/-! ## 5. Replays -/

theorem beginReplay_frame (hP : Frame b asks notes P) (hw : P w) {p : WriteProgress}
    (h : w.beginReplay = some (p, w')) : P w' := by
  unfold beginReplay at h
  split at h
  · cases h
  · obtain ⟨write, -, heq⟩ := Option.map_eq_some_iff.1 h
    cases heq
    exact hP.update w _ hw rfl rfl

theorem stepReplay_frame (hP : Frame worker.backend Call.isWrite notes P) (hw : P w)
    {writer : Writer} {p : WriteProgress} {r : ReplayStep σ} (h : stepReplay worker writer p w = some r) :
    P r.world := by
  unfold stepReplay at h
  obtain ⟨step, hstep, rfl⟩ := Option.map_eq_some_iff.1 h
  have hafter := stepWrite_frame hP hw hstep
  have hfinish : ∀ v, P v → P (v.update ({ · with replaying := false })) := fun v hv =>
    hP.update v _ hv rfl rfl
  cases step with
  | goesOn p v => exact hafter
  | crashed v => exact hfinish v hafter
  | ended result v =>
    -- after a success the queue is popped, and the replay goes on or is over
    cases result with
    | error e => exact hfinish v hafter
    | ok _ =>
      have hpop : P (v.update fun e => { e with queue := e.queue.pop }) :=
        hP.update v _ hafter rfl rfl
      simp only
      split
      · exact hpop
      · exact hfinish _ hpop

theorem stepReplays_frame (hP : Frame worker.backend Call.isWrite notes P) (hw : P w)
    {eager : Bool} (h : w.stepReplays worker eager = some w') : P w' := by
  unfold stepReplays at h
  simp only at h
  split at h
  · split at h
    · split at h
      · cases h
        exact hP.update w _ hw rfl rfl
      · rename_i hbegin
        cases h
        exact hP.update _ _ (beginReplay_frame hP hw hbegin) rfl rfl
    · cases h
      exact hP.update w _ hw rfl rfl
    · cases h
  · obtain ⟨step, hstep, rfl⟩ := Option.map_eq_some_iff.1 h
    have hafter := stepReplay_frame hP hw hstep
    cases step with
    | goesOn p v => exact hP.update v _ hafter rfl rfl
    | ended v => exact hP.update v _ hafter rfl rfl
    | crashed v => exact hP.update v _ hafter rfl rfl
  · cases h
  · cases h

/-! ## 6. Executions -/

theorem conclude_frame (hP : Frame b asks notes P) (hw : P w) (worker : Worker (Backend σ))
    (x : Execution) (failure : Option Failure) (draw : Int) :
    P (w.conclude worker x failure draw) := by
  simp only [conclude]
  split
  · exact hP.update w _ hw rfl rfl
  · exact hP.update w _ hw rfl rfl

theorem begin_frame (hP : Frame b asks notes P) (hw : P w) (worker : Worker (Backend σ))
    (x : Execution) (draw : Int) : P (w.begin worker x draw) := by
  -- asking the factory is counted first, whatever comes of it
  have hcount : P (if worker.registry.asksFactory x.job.jobType x.job.parameter
      then w.update (·.countAsking x.job.jobType) else w) := by
    split
    · exact hP.update w _ hw rfl rfl
    · exact hw
  simp only [begin]
  split
  · exact hP.update _ _ hcount rfl rfl
  · exact conclude_frame hP hcount worker x _ draw
  · exact hP.update _ _ hcount rfl rfl

theorem carryOut_frame (hP : Frame b asks (!·.isCall) P) (hw : P w) {x : Execution}
    {effect : Effect} {rest : List Effect} {exit : Exit}
    (h : w.carryOut worker x effect rest exit = some w') : P w' := by
  cases effect with
  | awaitShutdown =>
    simp only [carryOut] at h
    split at h
    · cases h
      exact hP.update w _ hw rfl rfl
    · cases h
  | sleep span =>
    cases h
    exact hP.update w _ hw rfl rfl
  | invoke =>
    cases h
    exact hP.update _ _ (hP.record _ _ (hP.record w _ hw rfl) rfl) rfl rfl
  | note line =>
    cases h
    exact hP.update _ _ (hP.record w _ hw rfl) rfl rfl
  | stamp label =>
    cases h
    exact hP.update _ _ (hP.record w _ hw rfl) rfl rfl
  | observe succeeded =>
    cases h
    exact hP.update _ _ (hP.record w _ hw rfl) rfl rfl

theorem stepExecution_frame (hP : Frame worker.backend Call.isWrite (!·.isCall) P) (hw : P w)
    {draw : Int} {x : Execution} (h : w.stepExecution worker draw x = some w') : P w' := by
  unfold stepExecution at h
  simp only at h
  split at h
  · cases h
    exact begin_frame hP hw worker x draw
  · exact carryOut_frame hP hw h
  · cases h
    exact conclude_frame hP hw worker x _ draw
  · split at h
    · cases h
      exact hP.update w _ hw rfl rfl
    · cases h
  · obtain ⟨step, hstep, rfl⟩ := Option.map_eq_some_iff.1 h
    have hafter := stepWrite_frame hP hw hstep
    split
    all_goals exact hP.update _ _ hafter rfl rfl
  · split at h
    · cases h
      exact hP.update w _ hw rfl rfl
    · cases h

/-! ## 7. Shutdown -/

theorem stepShutdown_frame (hP : Frame worker.backend Call.isWrite notes P) (hw : P w)
    {eager : Bool} (h : w.stepShutdown worker eager = some w') : P w' := by
  cases stepShutdown_cases h with
  | begun _ hbegin => exact hP.update _ _ (beginReplay_frame hP hw hbegin) rfl rfl
  | lastBegun _ hbegin => exact hP.update _ _ (beginReplay_frame hP hw hbegin) rfl rfl
  | replayed _ hstep => exact hP.update _ _ (stepReplay_frame hP hw hstep) rfl rfl
  | lastReplayed _ hstep => exact hP.update _ _ (stepReplay_frame hP hw hstep) rfl rfl
  | _ => exact hP.update w _ hw rfl rfl

/-! ## 8. Every other task -/

/-- What the calls of a task do not break its steps keep, but for the task that sends signs of
life. -/
theorem step_frame {t : Task} {eager : Bool} {draw : Int} (ht : t ≠ .heartbeats)
    (hP : Frame worker.backend t.asks t.notes P) (hw : P w)
    (h : w.step worker t eager draw = some w') : P w' := by
  cases t with
  | batcher => exact stepBatcher_frame hP hw h
  | claims => exact stepClaims_frame hP hw h
  | heartbeats => exact absurd rfl ht
  | reclaims => exact stepReclaims_frame hP hw h
  | replays => exact stepReplays_frame hP hw h
  | execution key =>
    obtain ⟨x, -, hstep⟩ := Option.bind_eq_some_iff.1 h
    exact stepExecution_frame hP hw hstep
  | shutdown => exact stepShutdown_frame hP hw h

end World

end JobQueue
