import JobQueue.Proofs.Draft
import JobQueue.Proofs.Pipeline
import JobQueue.Proofs.Registry
import JobQueue.Proofs.Worker.Execution
import JobQueue.Proofs.Worker.Slots

/-!
# What the observer is told

The outermost layer reports how the layers inside of it have ended, so it reports an execution that
has come to a handler, once, and as what it is recorded. A job whose handler is not found never
gets there: it is recorded as failed, and the observer is told nothing.
-/

namespace JobQueue

/-! ## 1. Handlers and layers -/

/-- The handler leaves it to the layers around it to tell the observer. -/
def Handler.Silent (h : Handler) : Prop :=
  ∀ parameter attempt succeeded, Effect.observe succeeded ∉ (h.run parameter attempt).effects

theorem Handler.Silent.reports {h : Handler} (hh : h.Silent) (parameter : Parameter)
    (attempt : UInt16) : (h.run parameter attempt).effects.filterMap Effect.report? = [] := by
  rw [List.filterMap_eq_nil_iff]
  intro effect heffect
  cases effect with
  | observe succeeded => exact absurd heffect (hh parameter attempt succeeded)
  | _ => rfl

variable {σ : Type} {worker : Worker (Backend σ)} {w w' : World σ} {d d' : Desk}
  {event : Option WriteEvent} {x y : Execution} {key : Nat} {job : ClaimedJob} {dues : List Bool}

theorem Exit.isNone_failure? (e : Exit) : e.failure?.isNone = decide (e = .done) := by
  cases e <;> rfl

/-- What there is to tell the observer of an execution, if its handler was asked for `calls` times
before. -/
def Worker.reports {β : Type} (worker : Worker β) (job : ClaimedJob) (calls : Nat) : List Bool :=
  match worker.registry.resolve job.jobType job.parameter calls with
  | .endpoint handler parameter =>
    [(worker.pipeline.execute job.attempt
      (handler.run parameter job.attempt)).exit.failure?.isNone]
  | _ => []

/-- The worker has an observer, and only the layer for it tells it anything. -/
structure Worker.Observed {β : Type} (worker : Worker β) : Prop where
  observed : worker.pipeline.observed = true
  silent : ∀ entry ∈ worker.registry.entries, entry.1.Silent

theorem Worker.Observed.reports_eq {β : Type} {worker : Worker β} (hworker : worker.Observed)
    {calls : Nat} {handler : Handler} {parameter : Parameter}
    (h : worker.registry.resolve job.jobType job.parameter calls = .endpoint handler parameter) :
    worker.reports job calls =
      (worker.pipeline.execute job.attempt (handler.run parameter job.attempt)).effects.filterMap
        Effect.report? := by
  have hsilent : handler.Silent := by
    unfold Registry.resolve at h
    split at h
    · cases h
    · rename_i hentry
      have hmem := hworker.silent _ (List.mem_of_find?_eq_some hentry)
      split at h
      · cases h
      · split at h
        · cases h
          exact hmem
        · cases h
        · cases h
  rw [Pipeline.execute_reports hworker.observed _ (hsilent.reports parameter job.attempt),
    ← Exit.isNone_failure?]
  simp only [reports, h]

/-! ## 2. Turns -/

/-- What an execution tells the observer in its next turn. -/
def Phase.tells : Phase → List Bool
  | .running (effect :: _) _ => effect.report?.toList
  | _ => []

/-- What an execution has still to tell the observer once it has begun. -/
def Phase.owed : Phase → List Bool
  | .running effects _ => effects.filterMap Effect.report?
  | .sleeping _ effects _ => effects.filterMap Effect.report?
  | _ => []

theorem Phase.owed_of_write? {phase : Phase} (h : phase.write? ≠ none) : phase.owed = [] := by
  cases phase with
  | starting => rfl
  | running effects exit => exact absurd rfl h
  | sleeping wake effects exit => exact absurd rfl h
  | writing p => rfl
  | queueing write => rfl

/-- What is still to be told of an execution that has begun. -/
inductive Desk.Owes (key : Nat) (job : ClaimedJob) (d : Desk) : List Bool → Prop
  | underway {y : Execution} (hy : y ∈ d.executions) (hkey : y.key = key) (hjob : y.job = job)
      (hbegun : y.phase ≠ .starting) : Owes key job d y.phase.owed
  | ended (hgone : ∀ y ∈ d.executions, y.key ≠ key) : Owes key job d []

theorem Desk.Owes.of_same (h : d.Owes key job dues)
    (hsame : ∀ y : Execution, y.key = key → (y ∈ d'.executions ↔ y ∈ d.executions)) :
    d'.Owes key job dues := by
  cases h with
  | underway hy hkey hjob hbegun => exact .underway ((hsame _ hkey).2 hy) hkey hjob hbegun
  | ended hgone => exact .ended fun y hy hkey => hgone y ((hsame y hkey).1 hy) hkey

theorem Desk.Owes.begun (h : d.Owes key job dues) (hd : d.Numbered) (hy : y ∈ d.executions)
    (hkey : y.key = key) : y.phase ≠ .starting ∧ y.job = job ∧ y.phase.owed = dues := by
  cases h with
  | @underway z hz hzkey hjob hbegun =>
    obtain rfl : y = z := List.inj_on_of_nodup_map hd.keys hy hz (hkey.trans hzkey.symm)
    exact ⟨hbegun, hjob, rfl⟩
  | ended hgone => exact absurd hkey (hgone y hy)

/-- Nothing is left to be told of an execution that has come to its write, or has ended. -/
theorem Desk.Owes.eq_nil (h : d.Owes key job dues)
    (hpast : ∀ y ∈ d.executions, y.key = key → y.phase.write? ≠ none) : dues = [] := by
  cases h with
  | underway hy hkey _ _ => exact Phase.owed_of_write? (hpast _ hy hkey)
  | ended _ => rfl

theorem Desk.owes_enter {phase : Phase} (hx : x ∈ d.executions) (hphase : phase ≠ .starting) :
    (d.enter x.key phase).Owes x.key x.job phase.owed :=
  .underway (y := { x with phase }) (Desk.mem_enter hx phase) rfl rfl hphase

theorem Desk.owes_finish (d : Desk) (x : Execution) : (d.finish x.key).Owes x.key x.job [] :=
  .ended fun _ hy => (Desk.mem_finish.1 hy).2

/-- A turn of an execution that has begun takes away what is told in it. -/
theorem Turn.owes (h : Turn worker w d x event d') (hx : x ∈ d.executions)
    (hbegun : x.phase ≠ .starting) :
    ∃ left, d'.Owes x.key x.job left ∧ x.phase.owed = x.phase.tells ++ left := by
  have hends : ∀ {failure : Option Failure}, x.phase.Ends worker w x.job failure →
      x.phase.owed = x.phase.tells ++ [] := by
    intro failure hends
    generalize x.phase = phase at hends hbegun
    cases hends with
    | unresolved _ => exact absurd rfl hbegun
    | returned => rfl
  cases h with
  | @advanced phase hadvances =>
    refine ⟨phase.owed, Desk.owes_enter hx hadvances.ne_starting, ?_⟩
    cases hphase : x.phase with
    | starting => exact absurd hphase hbegun
    | running effects exit =>
      rw [hphase] at hadvances
      cases hadvances with
      | @goesOn effect rest exit =>
        cases hreport : effect.report? <;>
          simp only [Phase.owed, Phase.tells, List.filterMap_cons, hreport, Option.toList_none,
            Option.toList_some, List.nil_append, List.singleton_append]
      | sleeps => rfl
    | sleeping wake effects exit =>
      rw [hphase] at hadvances
      cases hadvances
      rfl
    | writing p =>
      rw [hphase] at hadvances
      cases hadvances
    | queueing write =>
      rw [hphase] at hadvances
      cases hadvances
  | concluded hphase _ => exact ⟨[], Desk.owes_enter hx nofun, hends hphase⟩
  | overflowed hphase _ => exact ⟨[], Desk.owes_finish d x, hends hphase⟩
  | panicked hphase _ => exact absurd hphase hbegun
  | sent hphase => exact ⟨[], Desk.owes_enter hx nofun, by rw [hphase]; rfl⟩
  | recorded hphase => exact ⟨[], Desk.owes_finish d x, by rw [hphase]; rfl⟩
  | crashed hphase _ => exact ⟨[], Desk.owes_finish d x, by rw [hphase]; rfl⟩
  | @refused p hphase =>
    have howes := @Desk.owes_enter d x (.queueing p.write) hx nofun
    exact ⟨[], howes.of_same fun _ _ => Iff.rfl, by rw [hphase]; rfl⟩
  | queued hphase _ =>
    exact ⟨[], (Desk.owes_finish d x).of_same fun _ _ => Iff.rfl, by rw [hphase]; rfl⟩

/-- With its first turn an execution owes what there is to tell of it. -/
theorem Turn.owes_of_starting (h : Turn worker w d x event d') (hworker : worker.Observed)
    (hx : x ∈ d.executions) (hstarting : x.phase = .starting) :
    d'.Owes x.key x.job (worker.reports x.job (w.engine.askedFor x.job.jobType)) := by
  have hnone : ∀ {failure : Option Failure}, x.phase.Ends worker w x.job failure →
      worker.reports x.job (w.engine.askedFor x.job.jobType) = [] := by
    intro failure hends
    rw [hstarting] at hends
    cases hends with
    | unresolved hresolve => simp only [Worker.reports, hresolve]
  cases h with
  | advanced hadvances =>
    rw [hstarting] at hadvances
    cases hadvances with
    | begins hresolve hrun =>
      rw [hworker.reports_eq hresolve, ← hrun]
      exact Desk.owes_enter hx nofun
  | concluded hends _ =>
    rw [hnone hends]
    exact Desk.owes_enter hx nofun
  | overflowed hends _ =>
    rw [hnone hends]
    exact Desk.owes_finish d x
  | panicked _ hresolve =>
    simp only [Worker.reports, hresolve]
    exact Desk.owes_finish d x
  | sent hphase => rw [hstarting] at hphase; cases hphase
  | recorded hphase => rw [hstarting] at hphase; cases hphase
  | crashed hphase _ => rw [hstarting] at hphase; cases hphase
  | refused hphase => rw [hstarting] at hphase; cases hphase
  | queued hphase _ => rw [hstarting] at hphase; cases hphase

/-! ## 3. Steps -/

def Event.report? : Event → Option (String × Bool)
  | .observed jobType succeeded _ => some (jobType, succeeded)
  | _ => none

namespace World

/-- What the observer has been told, with the type of the job. -/
def reports (w : World σ) : List (String × Bool) := w.log.reverse.filterMap (·.2.report?)

theorem reports_record (w : World σ) (e : Event) :
    (w.record e).reports = w.reports ++ e.report?.toList := by
  cases h : e.report? <;> simp [reports, record, h]

theorem reports_frame (b : Backend σ) (asks : Call → Bool) (w : World σ) :
    Frame b asks (fun _ => false) (·.reports = w.reports) := by
  refine ⟨fun v f h _ _ => h, fun v e h hnone => absurd hnone Bool.false_ne_true, fun v c h _ => ?_⟩
  exact (reports_record _ _).trans ((List.append_nil _).trans h)

/-- No task tells the observer anything but an execution. -/
theorem step_reports {t : Task} {eager : Bool} {draw : Int} (ht : ∀ key, t ≠ .execution key)
    (h : w.step worker t eager draw = some w') : w'.reports = w.reports := by
  by_cases hbeat : t = .heartbeats
  · subst hbeat
    obtain ⟨next, rfl | rfl⟩ := stepHeartbeats_asks h
    · rfl
    · exact (reports_frame worker.backend (fun _ => true) w).ask w _ rfl rfl
  · have hnotes : t.notes = fun _ => false := by
      cases t with
      | execution key => exact absurd rfl (ht key)
      | _ => rfl
    have hframe : Frame worker.backend t.asks t.notes (·.reports = w.reports) := by
      rw [hnotes]
      exact reports_frame worker.backend t.asks w
    exact step_frame hbeat hframe rfl h

theorem carryOut_reports {effect : Effect} {rest : List Effect} {exit : Exit}
    (h : w.carryOut worker x effect rest exit = some w') :
    w'.reports = w.reports ++ effect.report?.toList.map (x.job.jobType, ·) := by
  cases effect with
  | awaitShutdown =>
    simp only [carryOut] at h
    split at h
    · cases h
      exact (List.append_nil _).symm
    · cases h
  | sleep span =>
    cases h
    exact (List.append_nil _).symm
  | invoke =>
    cases h
    exact (reports_record _ _).trans (congrArg (· ++ []) (reports_record _ _)) |>.trans
      (List.append_nil _)
  | note line =>
    cases h
    exact reports_record _ _
  | stamp label =>
    cases h
    exact reports_record _ _
  | observe succeeded =>
    cases h
    exact reports_record _ _

theorem stepExecution_reports {draw : Int} (h : w.stepExecution worker draw x = some w') :
    w'.reports = w.reports ++ x.phase.tells.map (x.job.jobType, ·) := by
  have hframe := reports_frame worker.backend Call.isWrite w
  have hquiet : w.reports = w.reports ++ [] := (List.append_nil _).symm
  unfold stepExecution at h
  simp only at h
  split at h
  · rename_i hphase
    cases h
    rw [hphase]
    exact (begin_frame hframe rfl worker x draw).trans hquiet
  · rename_i hphase
    rw [hphase]
    exact carryOut_reports h
  · rename_i hphase
    cases h
    rw [hphase]
    exact (conclude_frame hframe rfl worker x _ draw).trans hquiet
  · rename_i hphase
    rw [hphase]
    split at h
    · cases h
      exact hquiet
    · cases h
  · rename_i hphase
    rw [hphase]
    obtain ⟨r, hstep, rfl⟩ := Option.map_eq_some_iff.1 h
    have hafter := stepWrite_frame hframe rfl hstep
    split
    all_goals exact Eq.trans hafter hquiet
  · rename_i hphase
    rw [hphase]
    split at h
    · cases h
      exact hquiet
    · cases h

/-- The executions that are under way go on by their own steps only. -/
theorem step_executions {t : Task} {eager : Bool} {draw : Int} (ht : ∀ key, t ≠ .execution key)
    (h : w.step worker t eager draw = some w') :
    w'.engine.executions = w.engine.executions ∨
      ∃ y : Execution, y.key = w.engine.started ∧
        w'.engine.executions = w.engine.executions ++ [y] := by
  cases t with
  | batcher =>
    obtain ⟨completion, hengine⟩ := stepBatcher_engine h
    exact Or.inl (by rw [hengine])
  | claims =>
    rcases stepClaims_engine h with ⟨claims, freeSlots, -, hengine⟩ |
      ⟨job, claims, freeSlots, -, hengine⟩
    · exact Or.inl (by rw [hengine])
    · exact Or.inr ⟨⟨w.engine.started, job, w.now, .starting⟩, rfl, by rw [hengine]; rfl⟩
  | heartbeats =>
    obtain ⟨heartbeats, hengine⟩ := stepHeartbeats_engine h
    exact Or.inl (by rw [hengine])
  | reclaims =>
    obtain ⟨reclaims, hengine⟩ := stepReclaims_engine h
    exact Or.inl (by rw [hengine])
  | replays =>
    obtain ⟨replays, completion, queue, replaying, hengine⟩ := stepReplays_engine h
    exact Or.inl (by rw [hengine])
  | execution key => exact absurd rfl (ht key)
  | shutdown =>
    obtain ⟨freeSlots, shutdown, queue, replaying, completion, hengine, -⟩ :=
      stepShutdown_engine h
    exact Or.inl (by rw [hengine])

end World

/-! ## 4. Runs -/

namespace Audit

variable {a b c : Audit σ} {action : Action σ} {actions more : List (Action σ)}

/-- What the observer is told in an action, if it is a turn of the execution. -/
def tells (key : Nat) (action : Action σ) (a b : Audit σ) : List (String × Bool) :=
  if action.isTurnOf key then b.world.reports.drop a.world.reports.length else []

/-- What the observer is told in the turns of an execution. -/
def told (worker : Worker (Backend σ)) (key : Nat) : List (Action σ) → Audit σ →
    List (String × Bool)
  | [], _ => []
  | action :: rest, a =>
    match a.act worker action with
    | none => []
    | some b => tells key action a b ++ told worker key rest b

theorem told_cons (h : a.act worker action = some b) :
    told worker key (action :: actions) a = tells key action a b ++ told worker key actions b := by
  simp only [told, h]

theorem told_append (h : run worker actions a = some b) :
    told worker key (actions ++ more) a = told worker key actions a ++ told worker key more b := by
  induction actions generalizing a with
  | nil =>
    cases h
    rfl
  | cons action rest ih =>
    obtain ⟨next, hact, hrest⟩ := Option.bind_eq_some_iff.1 h
    rw [List.cons_append, told_cons hact, told_cons hact, ih hrest, List.append_assoc]

/-- The observer is told nothing in an action that is a turn of no execution. -/
theorem act_reports (h : a.act worker action = some b)
    (haction : ∀ key, action.isTurnOf key = false) : b.world.reports = a.world.reports := by
  cases action with
  | step t eager draw =>
    obtain ⟨w, hstep, rfl⟩ := Option.map_eq_some_iff.1 h
    refine World.step_reports ?_ hstep
    rintro key rfl
    exact absurd (haction key) (by simp [Action.isTurnOf])
  | apply job write =>
    simp only [act] at h
    split at h
    · cases h
      rfl
    · cases h
  | replay =>
    simp only [act] at h
    split at h
    · cases h
      rfl
    · rename_i hbegin
      cases h
      exact World.beginReplay_frame (World.reports_frame worker.backend (fun _ => true) a.world) rfl
        hbegin
  | goOn i =>
    obtain ⟨p, -, h⟩ := Option.bind_eq_some_iff.1 h
    obtain ⟨r, hstep, rfl⟩ := Option.map_eq_some_iff.1 h
    exact World.stepReplay_frame (World.reports_frame worker.backend _ a.world) rfl hstep
  | disturb change =>
    cases h
    rfl
  | wait now =>
    cases h
    rfl
  | shutDown =>
    simp only [act] at h
    split at h
    · cases h
      rfl
    · cases h

/-- An action that is not a turn of an execution leaves it where it is. -/
theorem act_same (h : a.act worker action = some b) (hkey : key < a.desk.started)
    (haction : action.isTurnOf key = false) (hd : a.desk.Numbered) :
    ∀ y : Execution, y.key = key → (y ∈ b.desk.executions ↔ y ∈ a.desk.executions) := by
  intro y hy
  have hlaunch : ∀ {z : Execution}, z.key = a.desk.started →
      (y ∈ a.desk.executions ++ [z] ↔ y ∈ a.desk.executions) := by
    intro z hz
    rw [List.mem_append, List.mem_singleton]
    refine ⟨fun hmem => hmem.resolve_right ?_, Or.inl⟩
    rintro rfl
    omega
  cases action with
  | step t eager draw =>
    obtain ⟨w, hstep, rfl⟩ := Option.map_eq_some_iff.1 h
    by_cases ht : ∃ other, t = .execution other
    · obtain ⟨other, rfl⟩ := ht
      obtain ⟨x, hx, hturn⟩ := Option.bind_eq_some_iff.1 hstep
      obtain ⟨-, rfl⟩ := World.mem_of_execution? hx
      have hne : x.key ≠ key := of_decide_eq_false haction
      exact ((World.stepExecution_turn hx hturn []).spared hne).executions y hy
    · rcases World.step_executions (fun other hother => ht ⟨other, hother⟩) hstep with
        hsame | ⟨z, hz, hadded⟩
      · show y ∈ w.engine.executions ↔ _
        rw [hsame]
        exact Iff.rfl
      · show y ∈ w.engine.executions ↔ _
        rw [hadded]
        exact hlaunch hz
  | apply job write =>
    simp only [act] at h
    split at h
    · rename_i hfree
      cases h
      show y ∈ ((a.world.engine.handOver job write a.world.now).desk
        (a.world.engine.replaysWith a.replays)).executions ↔ _
      rw [handOver_desk hd hfree]
      exact hlaunch rfl
    · cases h
  | replay =>
    simp only [act] at h
    split at h
    · cases h
      exact Iff.rfl
    · rename_i hbegin
      cases h
      obtain ⟨-, hengine, -⟩ := World.beginReplay_engine hbegin
      show y ∈ Engine.executions _ ↔ _
      rw [hengine]
      exact Iff.rfl
  | goOn i =>
    obtain ⟨p, -, h⟩ := Option.bind_eq_some_iff.1 h
    obtain ⟨r, hstep, rfl⟩ := Option.map_eq_some_iff.1 h
    obtain ⟨completion, queue, replaying, hengine⟩ := World.stepReplay_engine hstep
    show y ∈ r.world.engine.executions ↔ _
    rw [hengine]
    exact Iff.rfl
  | disturb change =>
    cases h
    exact Iff.rfl
  | wait now =>
    cases h
    exact Iff.rfl
  | shutDown =>
    simp only [act] at h
    split at h
    · cases h
      exact Iff.rfl
    · cases h

/-- What an action tells of an execution that has begun is no longer owed. -/
theorem act_owes (h : a.act worker action = some b) (ha : Sound worker a)
    (hkey : key < a.desk.started) (howes : a.desk.Owes key job dues) :
    ∃ left, b.desk.Owes key job left ∧
      dues.map (job.jobType, ·) = tells key action a b ++ left.map (job.jobType, ·) := by
  have hd := ha.balanced.numbered
  cases haction : action.isTurnOf key with
  | true =>
    obtain ⟨y, hy, hsame, ⟨event, hturn⟩, draw, hstep⟩ := act_turn h haction
    obtain ⟨hbegun, hjob, rfl⟩ := howes.begun hd hy hsame
    obtain ⟨left, howes', hsplit⟩ := hturn.owes hy hbegun
    rw [hsame, hjob] at howes'
    refine ⟨left, howes', ?_⟩
    rw [tells, if_pos haction, World.stepExecution_reports hstep, List.drop_left, hsplit,
      List.map_append, hjob]
  | false =>
    refine ⟨dues, howes.of_same (act_same h hkey haction hd), ?_⟩
    rw [tells, if_neg (by rw [haction]; exact Bool.false_ne_true), List.nil_append]

/-- The first turn of an execution tells nothing yet, and other actions leave it where it is. -/
theorem act_of_starting (h : a.act worker action = some b) (ha : Sound worker a)
    (hworker : worker.Observed) (hx : x ∈ a.desk.executions) (hstarting : x.phase = .starting) :
    tells x.key action a b = [] ∧
      (x ∈ b.desk.executions ∨
        b.desk.Owes x.key x.job (worker.reports x.job (a.world.engine.askedFor x.job.jobType))) := by
  have hd := ha.balanced.numbered
  cases haction : action.isTurnOf x.key with
  | true =>
    obtain ⟨y, hy, hsame, ⟨event, hturn⟩, draw, hstep⟩ := act_turn h haction
    obtain rfl : y = x := List.inj_on_of_nodup_map hd.keys hy hx hsame
    refine ⟨?_, Or.inr (hturn.owes_of_starting hworker hy hstarting)⟩
    rw [tells, if_pos haction, World.stepExecution_reports hstep, List.drop_left, hstarting]
    rfl
  | false =>
    refine ⟨if_neg (by rw [haction]; exact Bool.false_ne_true), Or.inl ?_⟩
    exact (act_same h (hd.fresh x hx) haction hd x rfl).2 hx

/-- What is owed of an execution is told in its turns, or owed still. -/
theorem run_owes (hrun : run worker actions a = some b) (ha : Sound worker a)
    (hkey : key < a.desk.started) (howes : a.desk.Owes key job dues) :
    ∃ left, b.desk.Owes key job left ∧
      dues.map (job.jobType, ·) = told worker key actions a ++ left.map (job.jobType, ·) := by
  induction actions generalizing a dues with
  | nil =>
    cases hrun
    exact ⟨dues, howes, rfl⟩
  | cons action rest ih =>
    obtain ⟨next, hact, hrest⟩ := Option.bind_eq_some_iff.1 hrun
    obtain ⟨mid, hmid, hfirst⟩ := act_owes hact ha hkey howes
    obtain ⟨left, hleft, hlater⟩ := ih hrest (act_sound hact ha)
      (Nat.lt_of_lt_of_le hkey (act_started_le hact ha)) hmid
    exact ⟨left, hleft, by rw [told_cons hact, hfirst, hlater, List.append_assoc]⟩

/-- An execution that has not begun is as it was, and nothing has been told of it. -/
theorem told_of_starting (hrun : run worker actions a = some b) (ha : Sound worker a)
    (hworker : worker.Observed) (hx : x ∈ a.desk.executions) (hstarting : x.phase = .starting)
    (hy : y ∈ b.desk.executions) (hkey : y.key = x.key) (hstill : y.phase = .starting) :
    y = x ∧ told worker x.key actions a = [] := by
  induction actions generalizing a with
  | nil =>
    cases hrun
    exact ⟨List.inj_on_of_nodup_map ha.balanced.numbered.keys hy hx hkey, rfl⟩
  | cons action rest ih =>
    obtain ⟨next, hact, hrest⟩ := Option.bind_eq_some_iff.1 hrun
    obtain ⟨htells, hthere | howes⟩ := act_of_starting hact ha hworker hx hstarting
    · rw [told_cons hact, htells]
      exact ih hrest (act_sound hact ha) hthere
    · -- an execution that has begun does not start again
      have hsound := act_sound hact ha
      have hfresh := Nat.lt_of_lt_of_le (ha.balanced.numbered.fresh x hx) (act_started_le hact ha)
      obtain ⟨left, hleft, -⟩ := run_owes hrest hsound hfresh howes
      have hb := run_sound hrest hsound
      exact absurd hstill (hleft.begun hb.balanced.numbered hy hkey).1

/-- What is told in a run of an execution that begins in it, and what is owed of it afterwards, is
what there was to tell when its handler was asked for. -/
theorem told_of_leaves {v : World σ} (hrun : run worker actions a = some b) (ha : Sound worker a)
    (hworker : worker.Observed) (hx : x ∈ a.desk.executions) (hstarting : x.phase = .starting)
    (hleaves : LeavesIn worker actions a x.key (· = .starting) v) :
    ∃ left, b.desk.Owes x.key x.job left ∧
      (worker.reports x.job (v.engine.askedFor x.job.jobType)).map (x.job.jobType, ·) =
        told worker x.key actions a ++ left.map (x.job.jobType, ·) := by
  obtain ⟨before, action, after, c, c', rfl, hbefore, hact, rfl, ⟨y, hy, hkey, hphase⟩, hgone⟩ :=
    hleaves
  have hc := run_sound hbefore ha
  obtain ⟨rfl, hnone⟩ := told_of_starting hbefore ha hworker hx hstarting hy hkey hphase
  obtain ⟨hnothing, hthere | howes⟩ := act_of_starting hact hc hworker hy hphase
  · exact absurd hphase (hgone y hthere rfl)
  · rw [run_append, hbefore, Option.bind_some, run, hact, Option.bind_some] at hrun
    have hkey := Nat.lt_of_lt_of_le (hc.balanced.numbered.fresh y hy) (act_started_le hact hc)
    obtain ⟨left, hleft, htold⟩ := run_owes hrun (act_sound hact hc) hkey howes
    refine ⟨left, hleft, ?_⟩
    rw [told_append hbefore, told_cons hact, hnone, hnothing, htold]
    rfl

end Audit

/-! ## 5. Every execution -/

theorem Blueprint.observed_of_build {β : Type} {b : Blueprint β} {worker : Worker β}
    (hbuild : b.build = .ok worker) (hobserved : b.observed = true)
    (hsilent : ∀ h ∈ b.handlers, h.Silent) : worker.Observed := by
  obtain ⟨-, -, hregistry, -, -, hpipeline⟩ := Blueprint.build_eq_ok_iff.1 hbuild
  refine ⟨?_, fun entry hentry => hsilent _ (Registry.mem_of_build hregistry entry hentry)⟩
  rw [hpipeline]
  exact hobserved

theorem Worker.reports_length_le {β : Type} (worker : Worker β) (job : ClaimedJob) (calls : Nat) :
    (worker.reports job calls).length ≤ 1 := by
  unfold reports
  split
  · exact Nat.le_refl _
  · exact Nat.zero_le _

namespace Audit

variable {a b : Audit σ} {actions : List (Action σ)}

/-- The execution has been recorded as this failure, or as a success. There is no write for it at
the end of the calendar. -/
def Records (worker : Worker (Backend σ)) (x : Execution) (ending : World σ)
    (failure : Option Failure) (b : Audit σ) : Prop :=
  x.job.RunsOut ending.clock ∧ b.ledger.handedBy x.key = [] ∨
    ∃ write, b.ledger.handedBy x.key = [write] ∧
      x.job.EndsIn (worker.registry.retryPolicy x.job.jobType) ending.clock failure write

/-- **What the observer is told of an execution.** The observer is told something in turns of
executions only, and of no execution twice. An execution that has come to its end was reported
exactly if its handler was found, and then as what it is recorded: as a success or as a failure,
whichever layer or handler made it one. An execution whose type is not registered, whose parameter
cannot be read or whose factory yields no handler is recorded as failed, and the observer is told
nothing of it; if the factory panics nothing is recorded either. -/
theorem observed_iff_resolved {blueprint : Blueprint (Backend σ)}
    (hbuild : blueprint.build = .ok worker) (hobserved : blueprint.observed = true)
    (hsilent : ∀ h ∈ blueprint.handlers, h.Silent) {state : σ} {origin : Instant}
    {before : List (Action σ)} (hstart : World.start worker state origin = .ok w)
    (hbefore : run worker before { world := w } = some a) (hx : x ∈ a.world.engine.executions)
    (hphase : x.phase = .starting) (hrun : run worker actions a = some b) :
    (∀ (action : Action σ) (c d : Audit σ), c.act worker action = some d →
      (∀ key, action.isTurnOf key = false) →
      d.world.reports = c.world.reports) ∧
    (told worker x.key actions a).length ≤ 1 ∧
    ((∃ y ∈ b.world.engine.executions, y.key = x.key ∧ y.job = x.job ∧ y.phase.write? = none ∧
        b.ledger.handedBy x.key = []) ∨
      ∃ asking ending, LeavesIn worker actions a x.key (· = .starting) asking ∧
        LeavesIn worker actions a x.key (·.write? = none) ending ∧
        match worker.registry.resolve x.job.jobType x.job.parameter
            (asking.engine.askedFor x.job.jobType) with
        | .endpoint handler parameter =>
          let run := worker.pipeline.execute x.job.attempt (handler.run parameter x.job.attempt)
          told worker x.key actions a = [(x.job.jobType, run.exit.failure?.isNone)] ∧
            Records worker x ending run.exit.failure? b
        | .failed reason =>
          told worker x.key actions a = [] ∧
            Records worker x ending (some ⟨"resolution", reason.message⟩) b
        | .panicked _ => told worker x.key actions a = [] ∧ b.ledger.handedBy x.key = []) := by
  have hworker := Blueprint.observed_of_build hbuild hobserved hsilent
  have ha := run_sound hbefore (start_sound hstart)
  have htold := fun v => told_of_leaves (v := v) hrun ha hworker hx hphase
  have hatMost : ∀ v, LeavesIn worker actions a x.key (· = .starting) v →
      (told worker x.key actions a).length ≤ 1 := by
    intro v hv
    obtain ⟨left, -, hsplit⟩ := htold v hv
    have hlength := congrArg List.length hsplit
    have hone := worker.reports_length_le x.job (v.engine.askedFor x.job.jobType)
    rw [List.length_map, List.length_append] at hlength
    omega
  have hall : ∀ v, LeavesIn worker actions a x.key (· = .starting) v →
      (∀ y ∈ b.desk.executions, y.key = x.key → y.phase.write? ≠ none) →
      told worker x.key actions a =
        (worker.reports x.job (v.engine.askedFor x.job.jobType)).map (x.job.jobType, ·) := by
    intro v hv hpast
    obtain ⟨left, howes, hsplit⟩ := htold v hv
    rw [hsplit, howes.eq_nil hpast, List.map_nil, List.append_nil]
  refine ⟨fun action c d hact hturn => act_reports hact hturn, ?_, ?_⟩
  · cases course_of_starting hstart hbefore hx hphase hrun with
    | @underway y hy hkey hjob hon hnone =>
      generalize hstage : y.phase = phase at hon
      cases hon with
      | starting =>
        rw [(told_of_starting hrun ha hworker hx hphase hy hkey hstage).2]
        exact Nat.zero_le _
      | running hasking _ => exact hatMost _ hasking
      | sleeping hasking _ => exact hatMost _ hasking
    | handed hasking => exact hatMost _ hasking
    | lost hasking => exact hatMost _ hasking
  · cases course_of_starting hstart hbefore hx hphase hrun with
    | underway hy hkey hjob hon hnone => exact Or.inl ⟨_, hy, hkey, hjob, hon.write?, hnone⟩
    | @handed asking ending failure write hasking hending hverdict hcalendar hends hone hheld =>
      have htells := hall asking hasking fun y hy hkey => by rw [hheld y hy hkey]; exact nofun
      refine Or.inr ⟨asking, ending, hasking, hending, ?_⟩
      unfold Worker.verdict? at hverdict
      unfold Worker.reports at htells
      split <;> rename_i hresolve <;> rw [hresolve] at hverdict htells
      · cases hverdict
        exact ⟨htells, Or.inr ⟨write, hone, hends⟩⟩
      · cases hverdict
        exact ⟨htells, Or.inr ⟨write, hone, hends⟩⟩
      · cases hverdict
    | @lost asking ending hasking hending hlost hgone hnone =>
      have htells := hall asking hasking fun y hy hkey => absurd hkey (hgone y hy)
      refine Or.inr ⟨asking, ending, hasking, hending, ?_⟩
      unfold Worker.verdict? at hlost
      unfold Worker.reports at htells
      split <;> rename_i hresolve <;> rw [hresolve] at hlost htells
      · exact ⟨htells, Or.inl ⟨hlost.resolve_left nofun, hnone⟩⟩
      · exact ⟨htells, Or.inl ⟨hlost.resolve_left nofun, hnone⟩⟩
      · exact ⟨htells, hnone⟩

/-! ## 6. A worker with an observer -/

/-- A handler whose runs end in this way. -/
def doer (exit : Exit) : Handler where
  type := { name := "plain", parameter := .nothing }
  factory _ := .made
  run _ _ := ⟨[.invoke], exit⟩

/-- A worker with that handler and an observer, and with one more layer. -/
def watched (exit : Exit) : Blueprint (Backend Store) where
  backend := some Store.backend
  config := tightConfig
  workerId := ⟨.ofNat 1⟩
  handlers := [doer exit]
  inner := [⟨"trace", .record, none⟩]
  observed := true

def watchman (exit : Exit) : Worker (Backend Store) where
  id := ⟨.ofNat 1⟩
  backend := Store.backend
  config := tightConfig
  registry := ⟨[(doer exit, .standard)], .standard⟩
  pipeline := ⟨[⟨"trace", .record, none⟩], true⟩

theorem build_watched (exit : Exit) : (watched exit).build = .ok (watchman exit) := by
  have hvalid : tightConfig.fault? = none := by decide +kernel
  unfold Blueprint.build
  simp only [show (watched exit).backend = some Store.backend from rfl,
    show (watched exit).config = tightConfig from rfl, hvalid]
  rfl

theorem silent_watched (exit : Exit) : ∀ h ∈ (watched exit).handlers, h.Silent := by
  intro h hh parameter attempt succeeded hmem
  cases List.mem_singleton.1 hh
  cases List.mem_singleton.1 hmem

theorem resolve_watchman (exit : Exit) {job : ClaimedJob} (htype : job.jobType = "plain")
    (hparameter : job.parameter = "null") (calls : Nat) :
    (watchman exit).registry.resolve job.jobType job.parameter calls =
      .endpoint (doer exit) .nothing := by
  rw [htype, hparameter]
  rfl

/-- A handler fails; the observer is told so once, and the job is tried again. -/
theorem observed_iff_resolved_failed :
    ∃ w a b x before actions write ending,
      World.start (watchman (.error ⟨"custom", "no disk"⟩)) { jobs := [chore none] } .epoch =
        .ok w ∧
      run (watchman (.error ⟨"custom", "no disk"⟩)) before { world := w } = some a ∧
      x ∈ a.world.engine.executions ∧ x.phase = .starting ∧
      run (watchman (.error ⟨"custom", "no disk"⟩)) actions a = some b ∧
      told (watchman (.error ⟨"custom", "no disk"⟩)) x.key actions a = [("plain", false)] ∧
      b.ledger.handedBy x.key = [write] ∧
      x.job.EndsIn .standard ending (some ⟨"custom", "no disk"⟩) write := by
  have hcomes : comesTo (watchman (.error ⟨"custom", "no disk"⟩)) (chore none) .epoch
      (List.replicate 6 turn) (fun x b =>
        decide (x.job = ((chore none).start ⟨.ofNat 1⟩ .epoch).claimed ⟨.ofNat 1⟩) &&
          b.world.engine.executions.all (·.phase.write? ≠ none)) = true := by decide +kernel
  obtain ⟨w, a, b, x, before, hstart, hbefore, hx, hphase, hrun, hp⟩ := exists_of_comesTo hcomes
  simp only [Bool.and_eq_true, decide_eq_true_eq, List.all_eq_true] at hp
  obtain ⟨hjob, hwriting⟩ := hp
  obtain ⟨-, -, hunder | ⟨asking, ending, -, -, hcase⟩⟩ :=
    observed_iff_resolved (build_watched _) rfl (silent_watched _) hstart hbefore hx hphase hrun
  · obtain ⟨y, hy, -, -, hno, -⟩ := hunder
    exact absurd hno (hwriting y hy)
  · rw [resolve_watchman _ (hjob ▸ rfl) (hjob ▸ rfl)] at hcase
    obtain ⟨htold, ⟨⟨cron, schedule, hcron, -⟩, -⟩ | ⟨write, hone, hends⟩⟩ := hcase
    · rw [hjob] at hcron
      cases hcron
    · have hpolicy : (watchman (.error ⟨"custom", "no disk"⟩)).registry.retryPolicy x.job.jobType =
          .standard := by
        rw [hjob]
        rfl
      rw [hpolicy] at hends
      rw [hjob] at htold
      exact ⟨w, a, b, x, before, _, write, ending.clock, hstart, hbefore, hx, hphase, hrun,
        htold, hone, hends⟩

/-- A job whose type is not registered is recorded as failed, to be tried again, and the observer is
told nothing of its execution. -/
theorem unresolved_not_observed :
    ∃ w a b x before actions,
      World.start (watchman .done) { jobs := [{ chore none with jobType := "other" }] } .epoch =
        .ok w ∧
      run (watchman .done) before { world := w } = some a ∧
      x ∈ a.world.engine.executions ∧ x.phase = .starting ∧
      run (watchman .done) actions a = some b ∧ b.world.engine.executions = [] ∧
      (b.world.state.get? ⟨.ofNat 1⟩).map (·.lastError) =
        some (some "resolution: No handler registered for job type other") ∧
      b.world.reports = [] := by
  have hcomes : comesTo (watchman .done) { chore none with jobType := "other" } .epoch
      [turn, turn] (fun _ b => b.world.engine.executions.isEmpty &&
        decide ((b.world.state.get? ⟨.ofNat 1⟩).map (·.lastError) =
          some (some "resolution: No handler registered for job type other")) &&
        b.world.reports.isEmpty) = true := by decide +kernel
  obtain ⟨w, a, b, x, before, hstart, hbefore, hx, hphase, hrun, hp⟩ := exists_of_comesTo hcomes
  simp only [Bool.and_eq_true, decide_eq_true_eq, List.isEmpty_iff] at hp
  exact ⟨w, a, b, x, before, _, hstart, hbefore, hx, hphase, hrun, hp.1.1, hp.1.2, hp.2⟩

end Audit

end JobQueue
