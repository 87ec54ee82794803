import JobQueue.Proofs.Fleet
import JobQueue.Proofs.Store.Lease

/-!
# Reclaiming in a fleet

A worker takes another one for gone if its last sign of life is older than the stale threshold. As
long as the heartbeats of a worker go on they are never that old, however long its jobs run. A
worker that shuts down stops them first and waits for its jobs afterwards, so these can be taken
from it.
-/

namespace JobQueue

/-! ## 1. The age of a sign of life -/

theorem WorkerConfig.heartbeat_lt_stale {config : WorkerConfig} (h : config.fault? = none) :
    (config.heartbeatInterval.nanos : Int) < config.staleThreshold.nanos := by
  have hcheck : (ConfigFault.staleThresholdTooLow,
      decide (config.staleThreshold.nanos ≤ config.heartbeatInterval.nanos)) ∈ config.checks := by
    simp [checks]
  exact Int.lt_of_not_ge (of_decide_eq_false (check_of_valid h hcheck))

namespace Fleet

variable {config : WorkerConfig} {f : Fleet} {r m : Member} {w : World Store} {origin : Instant}
  {actions : List Action} {eager : Bool} {draw : Int} {n : Nat} {staleBefore : Instant}
  {reports : List ReclaimedJob} {id : JobId}

theorem reclaim_call {store : Store} {clock : Instant} (hbeats : r.Beats config store clock)
    (hticks : r.Ticks clock)
    (hstep : (r.world store clock).step r.worker .reclaims eager draw = some w)
    (hlog : (n, Event.asked (.reclaim staleBefore) (.ok reports)) ∈ w.log) :
    staleBefore.nanos = clock.nanos - config.staleThreshold.nanos ∧
      store.reclaim staleBefore = (reports, w.state) := by
  rcases World.stepReclaims_cases hstep with ⟨next, rfl⟩ | ⟨before, next, hstale, rfl⟩
  · cases hlog
  · rw [Member.world_clock hticks, hbeats.configured] at hstale
    rw [hbeats.backend] at hlog
    have hentry := List.mem_singleton.1 hlog
    cases hentry
    refine ⟨Instant.ofNanos?_eq_some_iff.1 hstale, ?_⟩
    rw [hbeats.backend]
    rfl

/-- A member that is on record with a stale sign of life has stopped its heartbeats on request,
unless the rounding of its timer alone exceeds the threshold. -/
theorem stale_of_steady (h : f.Steady config) (hm : m ∈ f.members) {beat : Instant}
    (hbeat : (m.worker.id, beat) ∈ f.store.workers)
    (hstale : beat.nanos + config.staleThreshold.nanos < f.clock.nanos) :
    (m.engine.cancelled = true ∧ m.engine.heartbeats = .stopped) ∨
      ¬ 1000000 ∣ config.heartbeatInterval.nanos ∧
        config.staleThreshold.nanos < 1000000 * config.heartbeatInterval.ceilMillis := by
  have hbeats := h.beats m hm
  by_cases hsleeping : ∃ wake, m.engine.heartbeats = .sleeping wake
  · right
    obtain ⟨wake, hwake⟩ := hsleeping
    -- the next sign of life is not overdue, and the last one is an interval before it
    have hnext := hbeats.onTime wake hwake
    have hlast := hbeats.recorded wake hwake beat hbeat
    have hvalid := WorkerConfig.heartbeat_lt_stale hbeats.valid
    have hrounded : config.staleThreshold.nanos <
        1000000 * config.heartbeatInterval.ceilMillis := by omega
    refine ⟨?_, hrounded⟩
    intro hwhole
    unfold Duration.ceilMillis at hrounded
    omega
  · left
    obtain ⟨hstopped, hcancelled⟩ := hbeats.stopped fun wake hwake => hsleeping ⟨wake, hwake⟩
    exact ⟨hcancelled, hstopped⟩

/-! ## 2. Who is reported -/

/-- **When the reclaim loop takes a job from a running worker.** Among the workers of one fleet, a
call of a reclaim loop reports a job that a member holds, whether the member has begun to run it or
is long at it, exactly if the last sign of life of the member is older than the stale threshold; and
a job that is not reported stays as it is. With heartbeats that go on that does not happen: only a
member that has been told to shut down, and has stopped its heartbeats, is so long silent. (An
interval that is no whole number of milliseconds takes longer than it says, and a threshold between
the two is accepted; that apart.) -/
theorem reclaim_reports_iff (hrun : run config actions { clock := origin } = some f)
    (hr : r ∈ f.members) (hticks : r.Ticks f.clock)
    (hstep : (r.world f.store f.clock).step r.worker .reclaims eager draw = some w)
    (hlog : (n, Event.asked (.reclaim staleBefore) (.ok reports)) ∈ w.log)
    (hm : m ∈ f.members) (hheld : f.store.Holds ⟨id, m.worker.id⟩) :
    (id ∈ reports.map (·.id) ↔ ∃ beat, (m.worker.id, beat) ∈ f.store.workers ∧
      beat.nanos + config.staleThreshold.nanos < f.clock.nanos) ∧
    (id ∈ reports.map (·.id) → (m.engine.cancelled = true ∧ m.engine.heartbeats = .stopped) ∨
      ¬ 1000000 ∣ config.heartbeatInterval.nanos ∧
        config.staleThreshold.nanos < 1000000 * config.heartbeatInterval.ceilMillis) ∧
    (id ∉ reports.map (·.id) → w.state.get? id = f.store.get? id) := by
  have hsteady := steady_run hrun
  obtain ⟨hstale, hreclaim⟩ := reclaim_call (hsteady.beats r hr) hticks hstep hlog
  have hreports : (f.store.reclaim staleBefore).1 = reports := congrArg Prod.fst hreclaim
  have hstate : (f.store.reclaim staleBefore).2 = w.state := congrArg Prod.snd hreclaim
  have hreported : id ∈ reports.map (·.id) ↔ ∃ beat, (m.worker.id, beat) ∈ f.store.workers ∧
      beat.nanos + config.staleThreshold.nanos < f.clock.nanos := by
    rw [← hreports, Store.mem_reclaim_of_holds hsteady.distinct hheld]
    -- both sides speak of the same record, once in instants and once in nanoseconds
    constructor
    · rintro ⟨beat, hbeat, hold⟩
      have hold : beat.nanos < staleBefore.nanos := hold
      exact ⟨beat, hbeat, by omega⟩
    · rintro ⟨beat, hbeat, hlt⟩
      have hold : beat.nanos < staleBefore.nanos := by omega
      exact ⟨beat, hbeat, hold⟩
  refine ⟨hreported, ?_, ?_⟩
  · intro hid
    obtain ⟨beat, hbeat, hlt⟩ := hreported.1 hid
    exact stale_of_steady hsteady hm hbeat hlt
  · intro hid
    rw [← hreports] at hid
    rw [← hstate]
    exact Store.get?_reclaim_of_not_mem hsteady.distinct hid

/-! ## 3. Two workers -/

def briskConfig : WorkerConfig where
  maxConcurrency := 1
  heartbeatInterval := .ofMillis 1
  staleThreshold := ⟨2000000, by decide, by decide⟩
  reclaimInterval := .ofMillis 3

/-- A worker whose only handler takes a minute. -/
def sleeper (id : Nat) : Blueprint (Backend Store) where
  backend := none
  config := briskConfig
  workerId := ⟨.ofNat id⟩
  handlers := [{
    type := { name := "plain", parameter := .nothing }
    factory := fun _ => .made
    run := fun _ _ => ⟨[.invoke, .sleep (.ofSeconds 60)], .done⟩ }]

/-- Two workers are started, the first of them runs the only job, and the second finds none. -/
def busy : List Action := [
  .start (sleeper 1), .start (sleeper 2), .call (.insert (.plain 1)),
  .step 0 .claims false 0, .step 0 .claims false 0, .step 0 .claims false 0,
  .step 0 .claims false 0, .step 0 (.execution 0) false 0, .step 0 (.execution 0) false 0,
  .step 0 (.execution 0) false 0, .step 1 .claims false 0, .step 1 .claims false 0]

/-- Three milliseconds pass, with the heartbeats of the given workers. -/
def pass (workers : List Nat) : List Action :=
  [1, 2, 3].flatMap fun millis =>
    .wait (World.instantAt .epoch millis) :: workers.map fun i => .step i .heartbeats false 0

/-- The first worker is told to shut down: its loops stop, and it waits for its job. -/
def drain : List Action := [
  .shutDown 0, .step 0 .claims false 0, .step 0 .heartbeats false 0, .step 0 .reclaims false 0,
  .step 0 .replays false 0, .step 0 .shutdown false 0]

/-- Whether two workers come to a call of the second one's reclaim loop, with the given property. -/
def comesTo (actions : List Action)
    (p : Fleet → Member → Member → World Store → List ReclaimedJob → Bool) : Bool :=
  match run briskConfig actions { clock := .epoch } with
  | none => false
  | some f =>
    match f.members with
    | [m, r] =>
      match (r.world f.store f.clock).step r.worker .reclaims false 0 with
      | none => false
      | some w =>
        match w.log with
        | [(_, .asked (.reclaim _) (.ok reports))] => p f m r w reports
        | _ => false
    | _ => false

theorem exists_of_comesTo (actions : List Action)
    (p : Fleet → Member → Member → World Store → List ReclaimedJob → Bool)
    (h : comesTo actions p = true) :
    ∃ f m r w n staleBefore reports, run briskConfig actions { clock := .epoch } = some f ∧
      f.members = [m, r] ∧ (r.world f.store f.clock).step r.worker .reclaims false 0 = some w ∧
      (n, Event.asked (.reclaim staleBefore) (.ok reports)) ∈ w.log ∧ p f m r w reports = true := by
  unfold comesTo at h
  split at h
  · cases h
  · rename_i f hrun
    split at h
    · rename_i m r hmembers
      split at h
      · cases h
      · rename_i w hstep
        split at h
        · rename_i n staleBefore reports hlog
          refine ⟨f, m, r, w, n, staleBefore, reports, hrun, hmembers, hstep, ?_, h⟩
          rw [hlog]
          exact List.mem_singleton_self _
        · cases h
    · cases h

/-- Whether an execution is asleep at the request of its handler. -/
def sleeps (x : Execution) : Bool :=
  match x.phase with
  | .sleeping _ _ _ => true
  | _ => false

theorem phase_of_sleeps {x : Execution} (h : sleeps x = true) :
    ∃ wake rest exit, x.phase = .sleeping wake rest exit := by
  unfold sleeps at h
  split at h
  · rename_i wake rest exit hphase
    exact ⟨wake, rest, exit, hphase⟩
  · cases h

/-- While the heartbeats of the first worker go on, the second one leaves its job alone. -/
theorem reclaim_reports_iff_busy :
    ∃ f m r w, run briskConfig (busy ++ pass [0, 1]) { clock := .epoch } = some f ∧
      f.members = [m, r] ∧ (r.world f.store f.clock).step r.worker .reclaims false 0 = some w ∧
      f.store.Holds ⟨⟨.ofNat 1⟩, m.worker.id⟩ ∧
      w.state.get? ⟨.ofNat 1⟩ = f.store.get? ⟨.ofNat 1⟩ := by
  obtain ⟨f, m, r, w, n, staleBefore, reports, hrun, hmembers, hstep, hlog, hp⟩ :=
    exists_of_comesTo (busy ++ pass [0, 1])
      (fun f m r _ _ => decide (r.Ticks f.clock) &&
        decide (f.store.Holds ⟨⟨.ofNat 1⟩, m.worker.id⟩) && !m.engine.cancelled)
      (by decide +kernel)
  simp only [Bool.and_eq_true, decide_eq_true_eq, Bool.not_eq_true'] at hp
  obtain ⟨⟨hticks, hheld⟩, hgoesOn⟩ := hp
  have hm : m ∈ f.members := by simp [hmembers]
  have hr : r ∈ f.members := by simp [hmembers]
  obtain ⟨-, hreason, hsame⟩ := reclaim_reports_iff hrun hr hticks hstep hlog hm hheld
  refine ⟨f, m, r, w, hrun, hmembers, hstep, hheld, hsame ?_⟩
  intro hid
  rcases hreason hid with ⟨hcancelled, -⟩ | ⟨hrounded, -⟩
  · rw [hgoesOn] at hcancelled
    cases hcancelled
  · exact hrounded (by decide)

/-- The second worker takes the job from the first one, which waits for it to end: the handler is
still asleep, and the job is reported and can be claimed again. -/
theorem reclaims_from_draining :
    ∃ f m r w n staleBefore reports,
      run briskConfig (busy ++ drain ++ pass [1]) { clock := .epoch } = some f ∧
      f.members = [m, r] ∧ (r.world f.store f.clock).step r.worker .reclaims false 0 = some w ∧
      (n, Event.asked (.reclaim staleBefore) (.ok reports)) ∈ w.log ∧
      f.store.Holds ⟨⟨.ofNat 1⟩, m.worker.id⟩ ∧
      (∃ x ∈ m.engine.executions, x.job.id = ⟨.ofNat 1⟩ ∧
        ∃ wake rest exit, x.phase = .sleeping wake rest exit) ∧
      ⟨.ofNat 1⟩ ∈ reports.map (·.id) ∧
      (w.state.get? ⟨.ofNat 1⟩).map (·.status) = some .scheduled := by
  obtain ⟨f, m, r, w, n, staleBefore, reports, hrun, hmembers, hstep, hlog, hp⟩ :=
    exists_of_comesTo (busy ++ drain ++ pass [1])
      (fun f m _ w reports => decide (f.store.Holds ⟨⟨.ofNat 1⟩, m.worker.id⟩) &&
        m.engine.executions.any (fun x => decide (x.job.id = ⟨.ofNat 1⟩) && sleeps x) &&
        decide ((⟨.ofNat 1⟩ : JobId) ∈ reports.map (·.id)) &&
        decide ((w.state.get? ⟨.ofNat 1⟩).map (·.status) = some .scheduled))
      (by decide +kernel)
  simp only [Bool.and_eq_true, decide_eq_true_eq, List.any_eq_true] at hp
  obtain ⟨⟨⟨hheld, x, hx, hid, hsleeps⟩, hreported⟩, hscheduled⟩ := hp
  exact ⟨f, m, r, w, n, staleBefore, reports, hrun, hmembers, hstep, hlog, hheld,
    ⟨x, hx, hid, phase_of_sleeps hsleeps⟩, hreported, hscheduled⟩

end Fleet

end JobQueue
