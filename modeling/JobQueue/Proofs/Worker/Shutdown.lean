import JobQueue.Proofs.Worker.Execution
import JobQueue.Proofs.Worker.Slots

/-!
# What a shutdown leaves behind

Jobs are started in the order in which they were claimed, and the task that claims them does not
stop before it has started all of them. The shutdown waits for that task, and then for all slots. So
when it returns without an error each job that was claimed has been executed, and its write is made
or in the queue, but for the executions that have ended without a write or have lost it.
-/

namespace JobQueue

variable {σ : Type}

/-- Whether the shutdown has returned without an error. -/
def Shutdown.succeeded : Shutdown → Bool
  | .returned (.ok _) => true
  | _ => false

theorem Shutdown.eq_of_succeeded {s : Shutdown} (h : s.succeeded = true) :
    s = .returned (.ok ()) := by
  unfold succeeded at h
  split at h
  · rfl
  · cases h

/-! ## 1. From a claim to a start -/

namespace World

variable {worker : Worker (Backend σ)} {w w' : World σ}

/-- Claimed jobs line up behind those that are still to be started, or the first of them is
started. -/
inductive Enlists (w w' : World σ) : Prop
  | queued (jobs : List ClaimedJob) (hclaimed : w'.claimed = w.claimed ++ jobs)
      (hleft : w'.engine.claims.left = w.engine.claims.left ++ jobs)
      (hstarted : w'.engine.started = w.engine.started)
  | started {x : Execution} (hclaimed : w'.claimed = w.claimed)
      (hleft : w.engine.claims.left = x.job :: w'.engine.claims.left)
      (hstarted : w'.engine.started = w.engine.started + 1) (hx : x ∈ w'.engine.executions)
      (hkey : x.key = w.engine.started) (hphase : x.phase = .starting)

theorem Enlists.of_same (hclaimed : w'.claimed = w.claimed)
    (hleft : w'.engine.claims.left = w.engine.claims.left)
    (hstarted : w'.engine.started = w.engine.started) : Enlists w w' :=
  .queued [] (hclaimed.trans (List.append_nil _).symm) (hleft.trans (List.append_nil _).symm)
    hstarted

theorem ClaimMove.enlists (h : ClaimMove worker w w') : Enlists w w' := by
  cases h with
  | gaveUp hpoint _ => exact .of_same rfl (by rw [hpoint]; rfl) rfl
  | acquired hpoint _ => exact .of_same rfl (by rw [hpoint]; rfl) rfl
  | @claimed _ _ job jobs v hpoint hask =>
    refine .queued (job :: jobs) (claimed_ask hask) (by rw [hpoint]; rfl) ?_
    rw [update, ask_engine hask]
  | @missed delay limit answer v hpoint hask hnone =>
    have hclaimed : (Event.asked (.claim worker.id limit w.clock) answer).claimed = [] := by
      cases answer with
      | ok jobs => exact hnone jobs rfl
      | error e => rfl
    have hafter := claimed_ask hask
    rw [hclaimed, List.append_nil] at hafter
    refine .of_same hafter ?_ ?_
    · rw [hpoint]
      exact (afterMiss_idle worker.config delay v answer).2
    · rw [update, ask_engine hask]
      rfl
  | @launched job jobs held hpoint _ =>
    exact .started (x := ⟨w.engine.started, job, w.now, .starting⟩) rfl (by rw [hpoint]; rfl) rfl
      (List.mem_append_right _ (List.mem_singleton.2 rfl)) rfl rfl
  | dispatched hpoint => exact .of_same rfl (by rw [hpoint]; rfl) rfl
  | woken hpoint => exact .of_same rfl (by rw [hpoint]; rfl) rfl
  | stopped hpoint _ => exact .of_same rfl (by rw [hpoint]; rfl) rfl

theorem step_enlists {t : Task} {eager : Bool} {draw : Int}
    (h : w.step worker t eager draw = some w') : Enlists w w' := by
  by_cases ht : t = .claims
  · subst ht
    exact (stepClaims_move h).enlists
  · obtain ⟨hclaims, hstarted, -⟩ := step_others ht h
    exact .of_same (step_claimed_eq ht h) (by rw [hclaims]) hstarted

end World

namespace Audit

variable {worker : Worker (Backend σ)} {a b c : Audit σ} {action : Action σ}
  {actions before rest : List (Action σ)} {w : World σ} {key : Nat} {job : ClaimedJob}

/-! ## 2. The order in which jobs are started -/

/-- At some point of a run an execution with this number begins the job, and the run goes on from
there. -/
def BeginsIn (worker : Worker (Backend σ)) (actions : List (Action σ)) (w : World σ) (key : Nat)
    (job : ClaimedJob) (rest : List (Action σ)) (c : Audit σ) : Prop :=
  ∃ before x, actions = before ++ rest ∧ run worker before { world := w } = some c ∧
    x ∈ c.world.engine.executions ∧ x.key = key ∧ x.job = job ∧ x.phase = .starting

/-- The jobs that were claimed are those that have been started, in the order of their numbers, and
those that are still to be started. -/
structure Roster (worker : Worker (Backend σ)) (actions : List (Action σ)) (w : World σ)
    (a : Audit σ) (launched : List ClaimedJob) : Prop where
  claimed : a.world.claimed = launched ++ a.world.engine.claims.left
  started : launched.length = a.world.engine.started
  begun : ∀ key job, launched[key]? = some job →
    ∃ rest c, BeginsIn worker actions w key job rest c

theorem BeginsIn.later (h : BeginsIn worker actions w key job rest c) (action : Action σ) :
    BeginsIn worker (actions ++ [action]) w key job (rest ++ [action]) c := by
  obtain ⟨before, x, rfl, hbegun⟩ := h
  exact ⟨before, x, List.append_assoc _ _ _, hbegun⟩

theorem Roster.of_enlists {launched : List ClaimedJob} (h : Roster worker actions w a launched)
    (hrun : run worker (actions ++ [action]) { world := w } = some b)
    (henlists : World.Enlists a.world b.world) :
    ∃ launched, Roster worker (actions ++ [action]) w b launched := by
  have hbegun : ∀ key job, launched[key]? = some job →
      ∃ rest c, BeginsIn worker (actions ++ [action]) w key job rest c := by
    intro key job hjob
    obtain ⟨rest, c, hbegins⟩ := h.begun key job hjob
    exact ⟨_, c, hbegins.later action⟩
  cases henlists with
  | queued jobs hclaimed hleft hstarted =>
    refine ⟨launched, ?_, h.started.trans hstarted.symm, hbegun⟩
    rw [hclaimed, hleft, h.claimed, List.append_assoc]
  | @started x hclaimed hleft hstarted hx hkey hphase =>
    refine ⟨launched ++ [x.job], ?_, ?_, ?_⟩
    · rw [hclaimed, h.claimed, hleft, List.append_assoc, List.singleton_append]
    · rw [hstarted, List.length_append, List.length_singleton, h.started]
    · intro key job hjob
      rw [List.getElem?_append] at hjob
      split at hjob
      · exact hbegun key job hjob
      · -- the new number is the length of the list so far
        obtain ⟨hlt, hsame⟩ := List.getElem?_eq_some_iff.1 hjob
        rename_i hold
        rw [List.length_singleton] at hlt
        have hlength := h.started
        have hnew : key = launched.length := by omega
        subst hnew
        simp only [Nat.sub_self, List.getElem_singleton] at hsame
        exact ⟨[], b, _, x, (List.append_nil _).symm, hrun, hx, hkey.trans hlength.symm, hsame,
          hphase⟩

theorem act_enlists (h : a.act worker action = some b) (hown : action.isOwn = true) :
    World.Enlists a.world b.world := by
  rcases act_own h hown with ⟨t, eager, draw, hstep⟩ | ⟨hengine, hlog⟩ | ⟨-, hworld⟩
  · exact World.step_enlists hstep
  · exact .of_same (by rw [World.claimed, World.claimed, hlog]) (by rw [hengine]) (by rw [hengine])
  · rw [hworld]
    exact .of_same rfl rfl rfl

theorem run_roster {launched : List ClaimedJob}
    (hbefore : run worker before { world := w } = some a)
    (h : Roster worker before w a launched) (hrun : run worker actions a = some b)
    (hown : ∀ action ∈ actions, action.isOwn) :
    ∃ launched, Roster worker (before ++ actions) w b launched := by
  -- the roster names points of the whole run, so the part that is behind grows in the induction
  induction actions generalizing a before launched with
  | nil =>
    cases hrun
    exact ⟨launched, (List.append_nil before).symm ▸ h⟩
  | cons action rest ih =>
    obtain ⟨next, hact, hrest⟩ := Option.bind_eq_some_iff.1 hrun
    have hnext : run worker (before ++ [action]) { world := w } = some next := by
      rw [run_append, hbefore, Option.bind_some, run, hact, Option.bind_some, run]
    obtain ⟨launched', hroster⟩ :=
      h.of_enlists hnext (act_enlists hact (hown action List.mem_cons_self))
    rw [List.append_cons]
    exact ih hnext hroster hrest fun action hmem => hown action (List.mem_cons_of_mem _ hmem)

theorem start_roster {state : σ} {origin : Instant}
    (h : World.start worker state origin = .ok w) : Roster worker [] w { world := w } [] := by
  have hengine := engine_of_start h
  have hclaimed : w.claimed = [] := by
    simp only [World.start] at h
    split at h
    · rename_i hask
      split at h
      · cases h
      · cases h
        exact World.claimed_ask hask
    · cases h
    · cases h
  refine ⟨?_, ?_, ?_⟩
  · rw [hclaimed, hengine]
    rfl
  · rw [hengine]
    rfl
  · intro key job hjob
    rw [List.getElem?_nil] at hjob
    cases hjob

/-! ## 3. What becomes of the writes -/

section Course

variable {asked ended : World σ → Prop} {x : Execution}

/-- When nothing is executed any more, the write of an execution that has been started is in one of
the places where it is kept, exactly unless there is none or the call has crashed. -/
theorem course_kept_iff {kept : List (Nat × OutcomeWrite)}
    (hcourse : Course worker asked ended x a.desk a.ledger) (hnone : a.world.engine.executions = [])
    (honce : (a.ledger.handed.map (·.1)).Nodup)
    (hplaces : a.ledger.handed.Perm (kept ++ a.ledger.crashed)) :
    ∃ asking ending, asked asking ∧ ended ending ∧
      ((∃ failure write,
          worker.verdict? x.job (asking.engine.askedFor x.job.jobType) = some failure ∧
          x.job.EndsIn (worker.registry.retryPolicy x.job.jobType) ending.clock failure write ∧
          (x.key, write) ∈ kept) ↔
        ¬ (worker.PanicsOn x.job (asking.engine.askedFor x.job.jobType) ∨
          x.job.RunsOut ending.clock ∨ x.key ∈ a.ledger.crashed.map (·.1))) := by
  cases hcourse with
  | underway hy _ _ _ _ =>
    -- it would still be executed
    have hempty : a.desk.executions = [] := hnone
    rw [hempty] at hy
    cases hy
  | @handed asking ending failure write hasking hending hverdict hcalendar hends hone _ =>
    refine ⟨asking, ending, hasking, hending, ?_⟩
    have hhanded : (x.key, write) ∈ kept ++ a.ledger.crashed :=
      hplaces.subset (Ledger.mem_handedBy.1 (hone ▸ List.mem_singleton.2 rfl))
    constructor
    · rintro ⟨failure', write', -, -, hkept⟩ (hpanics | hlate | hcrashed)
      · rw [Worker.verdict?_eq_none_iff.2 hpanics] at hverdict
        cases hverdict
      · exact hcalendar hlate
      · -- a number stands for one write, which is in one place
        have hkeys := (hplaces.map (·.1)).nodup_iff.1 honce
        rw [List.map_append] at hkeys
        exact List.disjoint_of_nodup_append hkeys (List.mem_map_of_mem hkept) hcrashed
    · intro hnot
      refine ⟨failure, write, hverdict, hends, ?_⟩
      refine (List.mem_append.1 hhanded).resolve_right fun hcrashed => ?_
      exact hnot (Or.inr (Or.inr (List.mem_map_of_mem hcrashed)))
  | @lost asking ending hasking hending hlost _ hempty =>
    refine ⟨asking, ending, hasking, hending, ?_⟩
    rw [Worker.verdict?_eq_none_iff] at hlost
    constructor
    · rintro ⟨failure, write, -, -, hkept⟩
      have hhanded := hplaces.symm.subset (List.mem_append_left _ hkept)
      rw [← Ledger.mem_handedBy, hempty] at hhanded
      cases hhanded
    · intro hnot
      rcases hlost with hpanics | hlate
      · exact absurd (Or.inl hpanics) hnot
      · exact absurd (Or.inr (Or.inl hlate)) hnot

end Course

/-! ## 4. What a shutdown keeps -/

/-- **What a shutdown keeps.** When the shutdown has returned without an error, nothing is executed
any more, and an execution has begun each job that was claimed. Its write has been made, at once or
by a replay, or waits in the queue, exactly unless the factory of its handler has panicked, or it
has run out of calendar when it came to its end, or the call that was to make the write has
crashed. -/
theorem shutdown_keeps_iff {state : σ} {origin : Instant}
    (hstart : World.start worker state origin = .ok w) (hown : ∀ action ∈ actions, action.isOwn)
    (hrun : run worker actions { world := w } = some a)
    (hreturned : a.world.engine.shutdown = .returned (.ok ())) :
    a.world.engine.executions = [] ∧ a.world.claimed.length = a.world.engine.started ∧
    ∃ replayed waiting, a.ledger.queued = replayed ++ waiting ∧
      replayed.map (·.2) = a.ledger.replayed ∧
      waiting.map (·.2) = a.world.engine.queue.items ∧
      (worker.backend.NeverCrashes → a.ledger.crashed = []) ∧
      ∀ key job, a.world.claimed[key]? = some job →
        ∃ rest c asking ending, BeginsIn worker actions w key job rest c ∧
          LeavesIn worker rest c key (· = .starting) asking ∧
          LeavesIn worker rest c key (·.write? = none) ending ∧
          ((∃ failure write,
              worker.verdict? job (asking.engine.askedFor job.jobType) = some failure ∧
              job.EndsIn (worker.registry.retryPolicy job.jobType) ending.clock failure write ∧
              (key, write) ∈ a.ledger.recorded ++ waiting ++ replayed) ↔
            ¬ (worker.PanicsOn job (asking.engine.askedFor job.jobType) ∨
              job.RunsOut ending.clock ∨ key ∈ a.ledger.crashed.map (·.1))) := by
  have hadmits := run_admits hrun hown (start_sound hstart) (start_admits hstart)
  obtain ⟨hnone, hjoined⟩ := hadmits.slots.of_closing (by rw [hreturned]; rfl)
  have hstopped := (Engine.joinLoops_eq_ok_iff.1 hjoined).1
  obtain ⟨launched, hroster⟩ := run_roster rfl (start_roster hstart) hrun hown
  rw [List.nil_append] at hroster
  have hall : a.world.claimed = launched := by
    rw [hroster.claimed, hstopped]
    exact List.append_nil launched
  obtain ⟨replayed, waiting, hqueued, hreplayed, hwaiting, honce, hplaces, -, -, hcrashed⟩ :=
    writes_accounted hstart hrun
  have hheld : a.world.engine.held = [] := by
    rw [Engine.held, hnone]
    rfl
  rw [hheld, List.append_nil] at hplaces
  refine ⟨hnone, hall ▸ hroster.started, replayed, waiting, hqueued, hreplayed, hwaiting, hcrashed,
    ?_⟩
  intro key job hjob
  obtain ⟨rest, c, hbegins⟩ := hroster.begun key job (hall ▸ hjob)
  obtain ⟨before, x, rfl, hbefore, hx, rfl, rfl, hphase⟩ := id hbegins
  have hrest : run worker rest c = some a := by
    rw [run_append, hbefore, Option.bind_some] at hrun
    exact hrun
  obtain ⟨asking, ending, hasking, hending, hiff⟩ := course_kept_iff
    (course_of_starting hstart hbefore hx hphase hrest) hnone honce hplaces
  exact ⟨rest, c, asking, ending, hbegins, hasking, hending, hiff⟩

/-- The worker is told to stop, and its tasks do so. -/
def shuttingDown : List (Action Store) :=
  [.shutDown, .step .claims false 0, .step .heartbeats false 0, .step .reclaims false 0,
    .step .replays false 0, .step .shutdown false 0, .step .shutdown false 0,
    .step .shutdown false 0]

/-- Whether the worker claims the job, executes it and shuts down without an error, and what it
leaves has the given property. -/
def shutsDown (worker : Worker (Backend Store)) (job : Job) (origin : Instant)
    (turns : Nat) (p : Audit Store → Bool) : Bool :=
  match World.start worker { jobs := [job] } origin with
  | .error _ => false
  | .ok w =>
    (run worker (List.replicate 4 (.step .claims false 0) ++ List.replicate turns turn ++
      shuttingDown) { world := w }).any fun a =>
        a.world.engine.shutdown.succeeded && p a

theorem exists_of_shutsDown {worker : Worker (Backend Store)} {job : Job} {origin : Instant}
    {turns : Nat} {p : Audit Store → Bool} (h : shutsDown worker job origin turns p = true) :
    ∃ w a actions, World.start worker { jobs := [job] } origin = .ok w ∧
      (∀ action ∈ actions, action.isOwn) ∧ run worker actions { world := w } = some a ∧
      a.world.engine.shutdown = .returned (.ok ()) ∧ p a = true := by
  unfold shutsDown at h
  split at h
  · cases h
  · rename_i w hstart
    simp only [Option.any_eq_true, Bool.and_eq_true] at h
    obtain ⟨a, hrun, hreturned, hp⟩ := h
    refine ⟨w, a, _, hstart, ?_, hrun, Shutdown.eq_of_succeeded hreturned, hp⟩
    simp [shuttingDown, turn, Action.isOwn, or_imp, forall_and]

/-- The job of a worker that is told to stop right after its execution is completed. -/
theorem shutdown_keeps_iff_chore :
    ∃ w a actions job write ending,
      World.start (handyman (fun _ => .made) .done) { jobs := [chore none] } .epoch = .ok w ∧
      run (handyman (fun _ => .made) .done) actions { world := w } = some a ∧
      a.world.engine.shutdown = .returned (.ok ()) ∧ a.world.claimed = [job] ∧
      job.EndsIn ((handyman (fun _ => .made) .done).registry.retryPolicy job.jobType) ending none
        write ∧ (0, write) ∈ a.ledger.recorded := by
  have hshuts : shutsDown (handyman (fun _ => .made) .done) (chore none) .epoch 4 (fun a =>
      decide (a.world.claimed = [((chore none).start ⟨.ofNat 1⟩ .epoch).claimed ⟨.ofNat 1⟩]) &&
        decide (a.ledger.crashed = []) && decide (a.ledger.queued = [])) = true := by
    decide +kernel
  obtain ⟨w, a, actions, hstart, hown, hrun, hreturned, hp⟩ := exists_of_shutsDown hshuts
  simp only [Bool.and_eq_true, decide_eq_true_eq] at hp
  obtain ⟨⟨hone, hcrashed⟩, hqueued⟩ := hp
  obtain ⟨job, hclaimed, htype, hparameter, honce⟩ : ∃ job, a.world.claimed = [job] ∧
      job.jobType = "plain" ∧ job.parameter = "null" ∧ job.cron = none := ⟨_, hone, rfl, rfl, rfl⟩
  obtain ⟨-, -, replayed, waiting, hsplit, -, -, -, hkept⟩ :=
    shutdown_keeps_iff hstart hown hrun hreturned
  obtain ⟨-, -, asking, ending, -, -, -, hiff⟩ := hkept 0 job (by rw [hclaimed]; rfl)
  have hverdict := verdict?_handyman .done htype hparameter (asking.engine.askedFor job.jobType)
  have hkeeps : ¬ ((handyman (fun _ => .made) .done).PanicsOn job
      (asking.engine.askedFor job.jobType) ∨ job.RunsOut ending.clock ∨
        0 ∈ a.ledger.crashed.map (·.1)) := by
    rintro (hpanics | ⟨cron, schedule, hcron, -⟩ | hlost)
    · rw [Worker.verdict?_eq_none_iff.2 hpanics] at hverdict
      cases hverdict
    · rw [honce] at hcron
      cases hcron
    · rw [hcrashed] at hlost
      cases hlost
  obtain ⟨failure, write, hfailure, hends, hplace⟩ := hiff.2 hkeeps
  cases hverdict.symm.trans hfailure
  obtain ⟨rfl, rfl⟩ := List.append_eq_nil_iff.1 (hsplit.symm.trans hqueued)
  rw [List.append_nil, List.append_nil] at hplace
  exact ⟨w, a, actions, job, write, ending.clock, hstart, hrun, hreturned, hclaimed, hends, hplace⟩

/-- The job of a worker that shuts down at the end of the calendar stays processing, and nothing is
left that would end its claim. -/
theorem shutdown_abandons_at_last :
    ∃ w a actions job,
      World.start (handyman (fun _ => .made) .done) { jobs := [chore (some "0 0 12 * * *")] }
        .last = .ok w ∧
      (∀ action ∈ actions, action.isOwn) ∧
      run (handyman (fun _ => .made) .done) actions { world := w } = some a ∧
      a.world.engine.shutdown = .returned (.ok ()) ∧ a.world.claimed = [job] ∧
      a.ledger.handed = [] ∧ a.world.engine.queue.items = [] ∧
      (a.world.state.get? job.id).map (·.status) = some .processing := by
  have hshuts : shutsDown (handyman (fun _ => .made) .done) (chore (some "0 0 12 * * *")) .last 3
      (fun a => decide (a.ledger.handed = []) && decide (a.world.engine.queue.items = []) &&
        decide (a.world.claimed.length = 1) && a.world.claimed.all fun job =>
          (a.world.state.get? job.id).map (·.status) = some .processing) = true := by
    decide +kernel
  obtain ⟨w, a, actions, hstart, hown, hrun, hreturned, hp⟩ := exists_of_shutsDown hshuts
  simp only [Bool.and_eq_true, decide_eq_true_eq, List.all_eq_true] at hp
  obtain ⟨⟨⟨hhanded, hqueue⟩, hone⟩, hprocessing⟩ := hp
  obtain ⟨job, hclaimed⟩ := List.length_eq_one_iff.1 hone
  exact ⟨w, a, actions, job, hstart, hown, hrun, hreturned, hclaimed, hhanded, hqueue,
    hprocessing job (hclaimed ▸ List.mem_singleton.2 rfl)⟩

end Audit

end JobQueue
