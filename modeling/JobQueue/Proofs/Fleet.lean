import JobQueue.Proofs.Registry
import JobQueue.Proofs.Store.Life
import JobQueue.Proofs.Worker.Quiet
import JobQueue.Worker.Timeline

/-!
# Fleets

Workers of one configuration that share a store, each with a clock of its own that counts from its
start. Their tasks take steps in any order, and workers come and go; calls are answered at once, and
time does not pass a timer of any worker before it has been obeyed. The invariant is `Steady`: a
worker whose heartbeats go on is on record with its last one, and its next one is not overdue.
-/

namespace JobQueue

structure Member where
  worker : Worker (Backend Store)
  /-- The clock when it was started. -/
  origin : Instant
  engine : Engine

structure Fleet where
  store : Store := {}
  clock : Instant
  members : List Member := []

/-! ## 1. What a fleet does -/

namespace Member

/-- Whole milliseconds since the start. -/
def millis (m : Member) (clock : Instant) : Nat := (clock.nanos - m.origin.nanos).toNat / 1000000

/-- Whether it is a whole number of milliseconds since the start. Only then can a timer ring. -/
def Ticks (m : Member) (clock : Instant) : Prop :=
  clock.nanos = m.origin.nanos + 1000000 * m.millis clock

instance (m : Member) (clock : Instant) : Decidable (m.Ticks clock) :=
  inferInstanceAs (Decidable (_ = _))

def world (m : Member) (store : Store) (clock : Instant) : World Store where
  state := store
  origin := m.origin
  now := m.millis clock
  engine := m.engine

/-- Whether a timer of the member rings before the given time. -/
def Misses (m : Member) (clock : Instant) : Prop :=
  ∃ wake ∈ World.wakeTimes m.engine, m.origin.nanos + 1000000 * (wake : Int) < clock.nanos

instance (m : Member) (clock : Instant) : Decidable (m.Misses clock) :=
  inferInstanceAs (Decidable (∃ _ ∈ _, _))

end Member

/-- Whether a call is one of those who enqueue jobs. -/
def Call.ofClient : Call → Bool
  | .insert _ => true
  | .insertMany _ => true
  | .upsertRecurrent _ => true
  | .cancel _ => true
  | .deleteRecurrent _ => true
  | .get _ => true
  | _ => false

namespace Fleet

inductive Action
  /-- A worker is started: with the store as its backend, and the configuration of the fleet. -/
  | start (b : Blueprint (Backend Store))
  /-- Jobs are enqueued, cancelled or looked up. -/
  | call (c : Call)
  | step (i : Nat) (t : Task) (eager : Bool) (draw : Int)
  | shutDown (i : Nat)
  /-- A member is gone, whatever it was at. -/
  | leave (i : Nat)
  | wait (clock : Instant)

def put (f : Fleet) (i : Nat) (m : Member) (w : World Store) : Fleet :=
  { f with store := w.state, members := f.members.set i { m with engine := w.engine } }

/-- What comes of an action, if it can be taken. No two workers have the same id. -/
def act (config : WorkerConfig) (a : Action) (f : Fleet) : Option Fleet :=
  match a with
  | .start b =>
    match { b with backend := some Store.backend, config }.build with
    | .error _ => none
    | .ok worker =>
      if worker.id ∈ f.members.map (·.worker.id) then none
      else
        match World.start worker f.store f.clock with
        | .error _ => none
        | .ok w => some { f with
            store := w.state
            members := f.members ++ [⟨worker, f.clock, w.engine⟩] }
  | .call c =>
    if c.ofClient then some { f with store := (Store.answer f.clock c f.store).2 } else none
  | .step i t eager draw =>
    match f.members[i]? with
    | none => none
    | some m =>
      if m.Ticks f.clock then
        ((m.world f.store f.clock).step m.worker t eager draw).map (f.put i m)
      else none
  | .shutDown i =>
    match f.members[i]? with
    | none => none
    | some m =>
      if m.Ticks f.clock ∧ m.engine.cancelled = false then
        some (f.put i m (m.world f.store f.clock).requestShutdown)
      else none
  | .leave i => some { f with members := f.members.eraseIdx i }
  | .wait clock =>
    if f.clock < clock ∧ ∀ m ∈ f.members, ¬ m.Misses clock then some { f with clock } else none

def run (config : WorkerConfig) : List Action → Fleet → Option Fleet
  | [], f => some f
  | a :: rest, f => (f.act config a).bind (run config rest)

end Fleet

/-! ## 2. Time -/

namespace World

theorem nanos_instantAt {origin clock : Instant} {millis : Nat}
    (h : clock.nanos = origin.nanos + 1000000 * millis) : instantAt origin millis = clock := by
  have hmin := origin.min_le
  have hmax := clock.le_max
  unfold Instant.minNanos at hmin
  unfold Instant.maxNanos at hmax
  have hbound : (millis : Int) * 1000000 ≤ Delta.bound := by
    unfold Delta.bound
    omega
  -- instants are few enough for the difference to be representable
  obtain ⟨d, hd⟩ : ∃ d, Delta.ofMillis? millis = some d := by
    refine ⟨⟨(millis : Int) * 1000000, ?_, hbound⟩, Delta.ofNanos?_eq_some_iff.2 rfl⟩
    unfold Delta.bound
    omega
  have hnanos : d.nanos = (millis : Int) * 1000000 := Delta.ofNanos?_eq_some_iff.1 hd
  have hadd : origin.add? d = some clock := by
    refine Instant.ofNanos?_eq_some_iff.2 ?_
    omega
  rw [instantAt, hd, Option.bind_some, hadd, Option.getD_some]

end World

namespace Member

variable {m : Member} {store : Store} {clock : Instant}

theorem world_clock (h : m.Ticks clock) : (m.world store clock).clock = clock :=
  World.nanos_instantAt h

end Member

/-! ## 3. Signs of life -/

namespace Store

theorem answerAll_workers (clock : Instant) {calls : List Call}
    (hcalls : ∀ c ∈ calls, c.isBeat = false) (s : Store) :
    ∀ e ∈ (Store.backend.answerAll clock calls s).workers, e ∈ s.workers := by
  induction calls generalizing s with
  | nil => exact fun e he => he
  | cons c rest ih =>
    intro e he
    obtain ⟨hc, hrest⟩ := List.forall_mem_cons.1 hcalls
    have hfirst := ih hrest (Store.answer clock c s).2 e he
    rw [answer_workers] at hfirst
    cases c with
    | heartbeat worker now => cases hc
    | reclaim staleBefore => exact List.mem_of_mem_filter hfirst
    | _ => exact hfirst

theorem answerAll_distinct (clock : Instant) (calls : List Call) {s : Store} (hs : s.Distinct) :
    (Store.backend.answerAll clock calls s).Distinct := by
  induction calls generalizing s with
  | nil => exact hs
  | cons c rest ih => exact ih (answer_distinct hs clock c)

end Store

/-- A step of the task that sends signs of life: it stops, which takes a request to, or it sends one
and plans the next. -/
theorem World.stepHeartbeats_cases {worker : Worker (Backend Store)} {eager : Bool}
    {w w' : World Store} (hbackend : worker.backend = Store.backend)
    (h : w.stepHeartbeats worker eager = some w') :
    (w.engine.cancelled = true ∧ w' = w.update ({ · with heartbeats := .stopped })) ∨
    (w'.state = w.state.heartbeat worker.id w.clock ∧
      w'.engine.cancelled = w.engine.cancelled ∧
      w'.engine.heartbeats = .sleeping (w.after worker.config.heartbeatInterval)) := by
  unfold stepHeartbeats at h
  split at h
  · rename_i wake hsleeping
    split at h
    · rename_i hgoes
      rw [hbackend] at h
      right
      rw [← Option.some.inj h]
      exact ⟨rfl, rfl, rfl⟩
    · rename_i hstops
      left
      refine ⟨?_, (Option.some.inj h).symm⟩
      -- a sleeper that is not told to stop can only ring or sleep on
      by_contra hcancelled
      rw [Bool.not_eq_true] at hcancelled
      unfold wakes at hstops
      simp only [hcancelled, Bool.false_and, Bool.false_eq_true, if_false] at hstops
      split at hstops <;> cases hstops
    · cases h
  · cases h
  · cases h

/-! ## 4. The invariant -/

/-- A member whose heartbeats go on is on record with the last one, if it is on record, and its next
one is not overdue. Heartbeats only stop on request. -/
structure Member.Beats (config : WorkerConfig) (store : Store) (clock : Instant) (m : Member) :
    Prop where
  valid : config.fault? = none
  configured : m.worker.config = config
  backend : m.worker.backend = Store.backend
  onTime : ∀ wake : Nat, m.engine.heartbeats = .sleeping wake →
    clock.nanos ≤ m.origin.nanos + 1000000 * wake
  recorded : ∀ wake : Nat, m.engine.heartbeats = .sleeping wake →
    ∀ beat, (m.worker.id, beat) ∈ store.workers →
      beat.nanos + 1000000 * config.heartbeatInterval.ceilMillis = m.origin.nanos + 1000000 * wake
  stopped : (∀ wake, m.engine.heartbeats ≠ .sleeping wake) →
    m.engine.heartbeats = .stopped ∧ m.engine.cancelled = true

structure Fleet.Steady (config : WorkerConfig) (f : Fleet) : Prop where
  distinct : f.store.Distinct
  ids : (f.members.map (·.worker.id)).Nodup
  beats : ∀ m ∈ f.members, m.Beats config f.store f.clock

namespace Member

variable {config : WorkerConfig} {store store' : Store} {clock : Instant} {m : Member}

theorem Beats.of_workers (h : m.Beats config store clock)
    (hsub : ∀ beat, (m.worker.id, beat) ∈ store'.workers → (m.worker.id, beat) ∈ store.workers) :
    m.Beats config store' clock :=
  { h with recorded := fun wake hwake beat hbeat => h.recorded wake hwake beat (hsub beat hbeat) }

theorem eq_of_mem_heartbeat {worker : WorkerId} {now beat : Instant}
    (h : (worker, beat) ∈ (store.heartbeat worker now).workers) : beat = now := by
  rcases List.mem_append.1 h with h | h
  · have hother := (List.mem_filter.1 h).2
    simp at hother
  · cases List.mem_singleton.1 h
    rfl

theorem mem_of_mem_heartbeat {worker : WorkerId} {now : Instant} {e : WorkerId × Instant}
    (h : e ∈ (store.heartbeat worker now).workers) (he : e.1 ≠ worker) : e ∈ store.workers := by
  rcases List.mem_append.1 h with h | h
  · exact List.mem_of_mem_filter h
  · rw [List.mem_singleton.1 h] at he
    exact absurd rfl he

/-- What a step of a member leaves: its own record as it should be, and all others as they were. -/
structure Keeps (config : WorkerConfig) (store : Store) (clock : Instant) (m : Member)
    (w : World Store) : Prop where
  beats : { m with engine := w.engine }.Beats config w.state clock
  others : ∀ e ∈ w.state.workers, e.1 ≠ m.worker.id → e ∈ store.workers
  distinct : store.Distinct → w.state.Distinct

/-- A member that has just sent a sign of life, and has planned the next. -/
theorem beats_of_sent (hvalid : config.fault? = none) (hconfigured : m.worker.config = config)
    (hbackend : m.worker.backend = Store.backend) (hticks : m.Ticks clock)
    (hnext : m.engine.heartbeats =
      .sleeping (m.millis clock + config.heartbeatInterval.ceilMillis)) :
    m.Beats config (store.heartbeat m.worker.id clock) clock := by
  have hnow : clock.nanos = m.origin.nanos + 1000000 * m.millis clock := hticks
  have hplanned : ∀ wake : Nat, m.engine.heartbeats = .sleeping wake →
      wake = m.millis clock + config.heartbeatInterval.ceilMillis := by
    intro wake hwake
    rw [hnext] at hwake
    cases hwake
    rfl
  refine ⟨hvalid, hconfigured, hbackend, ?_, ?_, ?_⟩
  · intro wake hwake
    have hwake := hplanned wake hwake
    omega
  · intro wake hwake beat hbeat
    have hwake := hplanned wake hwake
    rw [eq_of_mem_heartbeat hbeat]
    omega
  · intro hnone
    exact absurd hnext (hnone _)

theorem Beats.keeps_of_heartbeats (h : m.Beats config store clock) (hticks : m.Ticks clock)
    {eager : Bool} {w : World Store}
    (hstep : (m.world store clock).stepHeartbeats m.worker eager = some w) :
    m.Keeps config store clock w := by
  rcases World.stepHeartbeats_cases h.backend hstep with
    ⟨hcancelled, rfl⟩ | ⟨hstate, -, hheartbeats⟩
  · refine ⟨⟨h.valid, h.configured, h.backend, nofun, nofun, fun _ => ⟨rfl, hcancelled⟩⟩, ?_, ?_⟩
    · exact fun e he _ => he
    · exact fun hs => hs
  · rw [world_clock hticks] at hstate
    rw [h.configured] at hheartbeats
    refine ⟨?_, ?_, ?_⟩
    · rw [hstate]
      exact beats_of_sent (m := { m with engine := w.engine }) h.valid h.configured h.backend hticks
        hheartbeats
    · intro e he hother
      rw [hstate] at he
      exact mem_of_mem_heartbeat he hother
    · intro hs
      rw [hstate]
      exact hs

theorem Beats.keeps_of_quiet (h : m.Beats config store clock) {w : World Store}
    (hquiet : World.Quiet m.worker.backend (m.world store clock) w) :
    m.Keeps config store clock w := by
  obtain ⟨calls, hcalls, hstate⟩ := hquiet.calls
  rw [h.backend] at hstate
  have hworkers : ∀ e ∈ w.state.workers, e ∈ store.workers := by
    rw [hstate]
    exact Store.answerAll_workers _ hcalls store
  refine ⟨⟨h.valid, h.configured, h.backend, ?_, ?_, ?_⟩, fun e he _ => hworkers e he, ?_⟩
  · intro wake hwake
    exact h.onTime wake (hquiet.heartbeats.symm.trans hwake)
  · intro wake hwake beat hbeat
    exact h.recorded wake (hquiet.heartbeats.symm.trans hwake) beat (hworkers _ hbeat)
  · intro hnone
    obtain ⟨hstopped, hcancelled⟩ := h.stopped fun wake hwake =>
      hnone wake (hquiet.heartbeats.trans hwake)
    exact ⟨hquiet.heartbeats.trans hstopped, hquiet.cancelled.trans hcancelled⟩
  · intro hs
    rw [hstate]
    exact Store.answerAll_distinct _ calls hs

theorem Beats.step (h : m.Beats config store clock) (hticks : m.Ticks clock) {t : Task}
    {eager : Bool} {draw : Int} {w : World Store}
    (hstep : (m.world store clock).step m.worker t eager draw = some w) :
    m.Keeps config store clock w := by
  by_cases ht : t = .heartbeats
  · subst ht
    exact h.keeps_of_heartbeats hticks hstep
  · exact h.keeps_of_quiet (World.step_quiet ht hstep)

theorem start_spec {worker : Worker (Backend Store)} (hbackend : worker.backend = Store.backend)
    {w : World Store} (h : World.start worker store clock = .ok w) :
    w.state = store.heartbeat worker.id clock ∧ w.engine = Engine.start worker 0 := by
  unfold World.start at h
  rw [hbackend] at h
  change (if RetryQueue.capacityLimit < worker.config.retryQueueCapacity
    then (.error .crash : Except (Stop QueueError) (World Store)) else .ok _) = .ok w at h
  split at h
  · cases h
  · cases h
    exact ⟨rfl, rfl⟩

theorem beats_start {worker : Worker (Backend Store)} (hvalid : config.fault? = none)
    (hconfigured : worker.config = config) (hbackend : worker.backend = Store.backend) :
    Beats config (store.heartbeat worker.id clock) clock ⟨worker, clock, .start worker 0⟩ := by
  have hmillis : (⟨worker, clock, .start worker 0⟩ : Member).millis clock = 0 := by
    simp [millis]
  apply beats_of_sent (m := ⟨worker, clock, .start worker 0⟩) hvalid hconfigured hbackend
  · show clock.nanos = clock.nanos + 1000000 * _
    rw [hmillis]
    omega
  · rw [hmillis, ← hconfigured]
    rfl

end Member

namespace Fleet

variable {config : WorkerConfig} {f f' : Fleet} {m : Member}

theorem Steady.put (h : f.Steady config) {i : Nat} (hm : f.members[i]? = some m)
    {w : World Store} (hkeeps : m.Keeps config f.store f.clock w) :
    (f.put i m w).Steady config := by
  obtain ⟨hi, rfl⟩ := List.getElem?_eq_some_iff.1 hm
  -- who the members are does not change
  have hids : (f.put i f.members[i] w).members.map (·.worker.id) =
      f.members.map (·.worker.id) := by
    apply List.ext_getElem?
    intro j
    simp only [Fleet.put, List.getElem?_map, List.getElem?_set]
    by_cases hij : i = j
    · subst hij
      simp [hi]
    · simp [hij]
  refine ⟨hkeeps.distinct h.distinct, by rw [hids]; exact h.ids, ?_⟩
  intro a ha
  obtain ⟨j, hj⟩ := List.mem_iff_getElem?.1 ha
  change (f.members.set i _)[j]? = some a at hj
  rw [List.getElem?_set] at hj
  by_cases hij : i = j
  · rw [if_pos hij, if_pos hi] at hj
    cases hj
    exact hkeeps.beats
  · rw [if_neg hij] at hj
    refine (h.beats a (List.mem_of_getElem? hj)).of_workers fun beat hbeat => ?_
    -- ids are distinct, so the record of this member is another one
    apply hkeeps.others _ hbeat
    intro hsame
    apply hij
    have hlt : i < (f.members.map (·.worker.id)).length := by
      rw [List.length_map]
      exact hi
    refine (List.getElem?_inj hlt h.ids).1 ?_
    rw [List.getElem?_map, List.getElem?_map, hj, List.getElem?_eq_getElem hi, Option.map_some,
      Option.map_some]
    exact congrArg some hsame.symm

theorem build_spec {b : Blueprint (Backend Store)} {worker : Worker (Backend Store)}
    (h : { b with backend := some Store.backend, config }.build = .ok worker) :
    config.fault? = none ∧ worker.config = config ∧ worker.backend = Store.backend := by
  obtain ⟨hbackend, hvalid, -, -, hconfig, -⟩ := Blueprint.build_eq_ok_iff.1 h
  exact ⟨hvalid, hconfig, (Option.some.inj hbackend).symm⟩

theorem Steady.join (h : f.Steady config) {worker : Worker (Backend Store)}
    (hvalid : config.fault? = none) (hconfigured : worker.config = config)
    (hbackend : worker.backend = Store.backend)
    (hnew : worker.id ∉ f.members.map (·.worker.id)) {w : World Store}
    (hstart : World.start worker f.store f.clock = .ok w) :
    Steady config { f with
      store := w.state
      members := f.members ++ [⟨worker, f.clock, w.engine⟩] } := by
  obtain ⟨hstate, hengine⟩ := Member.start_spec hbackend hstart
  rw [hstate, hengine]
  refine ⟨h.distinct, ?_, ?_⟩
  · rw [List.map_append]
    exact h.ids.append (List.nodup_singleton _) (by simpa using hnew)
  · intro m hm
    rcases List.mem_append.1 hm with hm | hm
    · apply (h.beats m hm).of_workers
      intro beat hbeat
      apply Member.mem_of_mem_heartbeat hbeat
      intro hsame
      apply hnew
      rw [← hsame]
      exact List.mem_map_of_mem hm
    · rw [List.mem_singleton.1 hm]
      exact Member.beats_start hvalid hconfigured hbackend

/-- No member misses a timer, and each sends its signs of life as planned, whatever is done. -/
theorem Steady.act (h : f.Steady config) {a : Action} (hact : f.act config a = some f') :
    f'.Steady config := by
  cases a with
  | start b =>
    simp only [Fleet.act] at hact
    split at hact
    · cases hact
    · rename_i worker hbuild
      obtain ⟨hvalid, hconfigured, hbackend⟩ := build_spec hbuild
      split at hact
      · cases hact
      · rename_i hnew
        split at hact
        · cases hact
        · rename_i w hstart
          cases hact
          exact h.join hvalid hconfigured hbackend hnew hstart
  | call c =>
    simp only [Fleet.act] at hact
    split at hact
    · rename_i hclient
      cases hact
      refine ⟨Store.answer_distinct h.distinct f.clock c, h.ids, ?_⟩
      intro m hm
      apply (h.beats m hm).of_workers
      intro beat hbeat
      rw [Store.answer_workers] at hbeat
      cases c <;> first | exact hbeat | cases hclient
    · cases hact
  | step i t eager draw =>
    simp only [Fleet.act] at hact
    split at hact
    · cases hact
    · rename_i m hm
      split at hact
      · rename_i hticks
        obtain ⟨w, hstep, rfl⟩ := Option.map_eq_some_iff.1 hact
        exact h.put hm ((h.beats m (List.mem_of_getElem? hm)).step hticks hstep)
      · cases hact
  | shutDown i =>
    simp only [Fleet.act] at hact
    split at hact
    · cases hact
    · rename_i m hm
      split at hact
      · cases hact
        have hbeats := h.beats m (List.mem_of_getElem? hm)
        refine h.put hm ⟨?_, fun e he _ => he, fun hs => hs⟩
        exact ⟨hbeats.valid, hbeats.configured, hbeats.backend, hbeats.onTime, hbeats.recorded,
          fun hnone => ⟨(hbeats.stopped hnone).1, rfl⟩⟩
      · cases hact
  | leave i =>
    cases hact
    have hsub := List.eraseIdx_sublist f.members i
    exact ⟨h.distinct, h.ids.sublist (hsub.map _), fun m hm => h.beats m (hsub.subset hm)⟩
  | wait clock =>
    simp only [Fleet.act] at hact
    split at hact
    · rename_i hwait
      cases hact
      refine ⟨h.distinct, h.ids, ?_⟩
      intro m hm
      have hbeats := h.beats m hm
      refine { hbeats with onTime := fun wake hwake => ?_ }
      -- time does not pass a timer, so the next sign of life is not overdue
      by_contra hlate
      refine hwait.2 m hm ⟨wake, ?_, Int.not_le.1 hlate⟩
      simp [World.wakeTimes, hwake]
    · cases hact

theorem Steady.run (h : f.Steady config) {actions : List Action}
    (hrun : f.run config actions = some f') : f'.Steady config := by
  induction actions generalizing f with
  | nil =>
    cases hrun
    exact h
  | cons a rest ih =>
    obtain ⟨g, hact, hrest⟩ := Option.bind_eq_some_iff.1 hrun
    exact ih (h.act hact) hrest

theorem steady_run {actions : List Action} {origin : Instant}
    (hrun : run config actions { clock := origin } = some f) : f.Steady config := by
  have hempty : Steady config { clock := origin } :=
    ⟨Store.distinct_empty, List.nodup_nil, List.forall_mem_nil _⟩
  exact hempty.run hrun

end Fleet

end JobQueue
