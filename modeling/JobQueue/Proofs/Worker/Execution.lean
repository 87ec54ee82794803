import JobQueue.Proofs.Store.Life
import JobQueue.Proofs.Worker.Audit
import JobQueue.Proofs.Worker.Verdict

/-!
# The end of an execution

An execution goes on by turns of its own, whatever happens between them, and it has only so many of
them: then it has ended, and has handed over one write, the one that its verdict and the clock call
for. Two kinds of executions end without a write: those without a verdict, and those of recurrent
jobs at the end of the calendar. Nothing is left then that would end the claim of the job.
-/

namespace JobQueue

variable {σ : Type} {worker : Worker (Backend σ)} {w : World σ} {d d' : Desk}
  {event : Option WriteEvent} {x y : Execution} {key : Nat} {l : Ledger}

/-! ## 1. One execution among others -/

/-- The writes that an execution has handed over. -/
def Ledger.handedBy (l : Ledger) (key : Nat) : List OutcomeWrite :=
  (l.handed.filter (·.1 = key)).map (·.2)

theorem Ledger.handedBy_handed (l : Ledger) (key : Nat) (write : OutcomeWrite) :
    (l.record (some (.handed key write))).handedBy key = l.handedBy key ++ [write] := by
  simp [handedBy, record]

theorem Ledger.handedBy_eq_nil (h : key ∉ l.handed.map (·.1)) : l.handedBy key = [] := by
  rw [handedBy, List.map_eq_nil_iff, List.filter_eq_nil_iff]
  intro e he hkey
  exact h (of_decide_eq_true hkey ▸ List.mem_map_of_mem he)

theorem Ledger.handedBy_of_ne (l : Ledger) {key other : Nat} (write : OutcomeWrite)
    (hne : other ≠ key) :
    (l.record (some (.handed other write))).handedBy key = l.handedBy key := by
  simp [handedBy, record, hne]

theorem Ledger.mem_handedBy {write : OutcomeWrite} :
    write ∈ l.handedBy key ↔ (key, write) ∈ l.handed := by
  simp [handedBy]

/-- Nothing happens to the execution with this number, nor to what it has handed over. -/
structure Spared (key : Nat) (d d' : Desk) (event : Option WriteEvent) : Prop where
  executions : ∀ y : Execution, y.key = key → (y ∈ d'.executions ↔ y ∈ d.executions)
  handed : ∀ l : Ledger, (l.record event).handedBy key = l.handedBy key

theorem Desk.mem_enter_of_ne {other : Nat} {phase : Phase} (hkey : y.key ≠ other) :
    y ∈ (d.enter other phase).executions ↔ y ∈ d.executions := by
  rw [enter, List.mem_map]
  constructor
  · rintro ⟨z, hz, rfl⟩
    by_cases hother : z.key = other
    · rw [if_pos hother] at hkey
      exact absurd hother hkey
    · rw [if_neg hother]
      exact hz
  · intro hy
    exact ⟨y, hy, if_neg hkey⟩

theorem Desk.mem_finish {other : Nat} :
    y ∈ (d.finish other).executions ↔ y ∈ d.executions ∧ y.key ≠ other := by
  rw [finish, List.mem_filter, decide_eq_true_eq]

theorem Desk.mem_enter (hx : x ∈ d.executions) (phase : Phase) :
    { x with phase } ∈ (d.enter x.key phase).executions :=
  List.mem_map.2 ⟨x, hx, if_pos rfl⟩

/-- The execution with this number was in a phase of a kind, and no longer is: it has gone to one
of another kind, or has ended. -/
def Desk.Leaves (key : Nat) (p : Phase → Prop) (d d' : Desk) : Prop :=
  (∃ y ∈ d.executions, y.key = key ∧ p y.phase) ∧
    ∀ y ∈ d'.executions, y.key = key → ¬ p y.phase

theorem Desk.Numbered.leaves_enter {p : Phase → Prop} {phase : Phase} (hd : d.Numbered)
    (hx : x ∈ d.executions) (hbefore : p x.phase) (hafter : ¬ p phase) :
    Desk.Leaves x.key p d (d.enter x.key phase) := by
  refine ⟨⟨x, hx, rfl, hbefore⟩, ?_⟩
  intro y hy hkey
  rcases hd.mem_enter hx hy with rfl | ⟨-, hne⟩
  · exact hafter
  · exact absurd hkey hne

theorem Desk.leaves_finish {p : Phase → Prop} (hx : x ∈ d.executions) (hbefore : p x.phase) :
    Desk.Leaves x.key p d (d.finish x.key) :=
  ⟨⟨x, hx, rfl, hbefore⟩, fun _ hy hkey => absurd hkey (Desk.mem_finish.1 hy).2⟩

/-- A turn of another execution. -/
theorem Turn.spared (h : Turn worker w d x event d') (hne : x.key ≠ key) :
    Spared key d d' event := by
  have henter : ∀ (phase : Phase) (y : Execution), y.key = key →
      (y ∈ (d.enter x.key phase).executions ↔ y ∈ d.executions) := fun phase y hy =>
    Desk.mem_enter_of_ne (hy ▸ hne.symm)
  have hfinish : ∀ y : Execution, y.key = key →
      (y ∈ (d.finish x.key).executions ↔ y ∈ d.executions) := by
    intro y hy
    rw [Desk.mem_finish]
    exact and_iff_left (hy ▸ hne.symm)
  cases h with
  | advanced _ => exact ⟨henter _, fun _ => rfl⟩
  | concluded _ _ => exact ⟨henter _, fun l => l.handedBy_of_ne _ hne⟩
  | overflowed _ _ => exact ⟨hfinish, fun _ => rfl⟩
  | panicked _ _ => exact ⟨hfinish, fun _ => rfl⟩
  | sent _ => exact ⟨henter _, fun _ => rfl⟩
  | recorded _ => exact ⟨hfinish, fun _ => rfl⟩
  | crashed _ _ => exact ⟨hfinish, fun _ => rfl⟩
  | refused _ => exact ⟨henter _, fun _ => rfl⟩
  | queued _ _ => exact ⟨hfinish, fun _ => rfl⟩

/-- An execution that was started only goes on by turns of its own. -/
theorem Move.turn_or_spared (h : Move worker w d event d') (hkey : key < d.started) :
    (∃ y ∈ d.executions, y.key = key ∧ Turn worker w d y event d') ∨ Spared key d d' event := by
  have hlaunch : ∀ (job : ClaimedJob) (startedAt : Nat) (phase : Phase) (y : Execution),
      y.key = key → (y ∈ (d.launch job startedAt phase).executions ↔ y ∈ d.executions) := by
    intro job startedAt phase y hy
    rw [Desk.launch, List.mem_append, List.mem_singleton]
    refine ⟨fun hmem => hmem.resolve_right ?_, Or.inl⟩
    rintro rfl
    exact Nat.ne_of_lt hkey hy.symm
  cases h with
  | still => exact Or.inr ⟨fun _ _ => Iff.rfl, fun _ => rfl⟩
  | closed _ => exact Or.inr ⟨fun _ _ => Iff.rfl, fun _ => rfl⟩
  | launched _ => exact Or.inr ⟨hlaunch _ _ _, fun _ => rfl⟩
  | applied _ =>
    exact Or.inr ⟨hlaunch _ _ _, fun l => l.handedBy_of_ne _ (Nat.ne_of_gt hkey)⟩
  | @turned y _ _ hy hturn =>
    by_cases hsame : y.key = key
    · exact Or.inl ⟨y, hy, hsame, hturn⟩
    · exact Or.inr (hturn.spared hsame)
  | replayBegun _ _ _ => exact Or.inr ⟨fun _ _ => Iff.rfl, fun _ => rfl⟩
  | replaySent _ _ => exact Or.inr ⟨fun _ _ => Iff.rfl, fun _ => rfl⟩
  | replayed _ _ => exact Or.inr ⟨fun _ _ => Iff.rfl, fun _ => rfl⟩
  | replayedLast _ _ => exact Or.inr ⟨fun _ _ => Iff.rfl, fun _ => rfl⟩
  | replayEnded _ => exact Or.inr ⟨fun _ _ => Iff.rfl, fun _ => rfl⟩

theorem Turn.started_eq (h : Turn worker w d x event d') : d'.started = d.started := by
  cases h <;> rfl

theorem Move.started_le (h : Move worker w d event d') : d.started ≤ d'.started := by
  cases h with
  | launched _ => exact Nat.le_succ _
  | applied _ => exact Nat.le_succ _
  | turned _ hturn => exact Nat.le_of_eq hturn.started_eq.symm
  | _ => exact Nat.le_refl _

/-! ## 2. Turns -/

/-- The number of effects of the run of a job. -/
def Worker.effectCount (worker : Worker (Backend σ)) (job : ClaimedJob) : Nat :=
  match worker.registry.entry? job.jobType with
  | none => 0
  | some (handler, _) =>
    match handler.type.parameter.decode job.parameter with
    | .error _ => 0
    | .ok parameter =>
      (worker.pipeline.execute job.attempt (handler.run parameter job.attempt)).effects.length

theorem Worker.effectCount_eq {job : ClaimedJob} {calls : Nat} {handler : Handler}
    {parameter : Parameter}
    (h : worker.registry.resolve job.jobType job.parameter calls = .endpoint handler parameter) :
    worker.effectCount job =
      (worker.pipeline.execute job.attempt (handler.run parameter job.attempt)).effects.length := by
  unfold Registry.resolve at h
  split at h
  · cases h
  · rename_i hentry
    split at h
    · cases h
    · rename_i hread
      split at h
      · cases h
        simp only [effectCount, hentry, hread]
      · cases h
      · cases h

/-- How many turns an execution has left at most. -/
def Phase.turnsLeft (worker : Worker (Backend σ)) (job : ClaimedJob) : Phase → Nat
  | .starting => 2 * worker.effectCount job + 5
  | .running effects _ => 2 * effects.length + 4
  | .sleeping _ effects _ => 2 * effects.length + 5
  | .writing (.pending _) => 3
  | .writing (.awaiting _) => 2
  | .queueing _ => 1

theorem Phase.turnsLeft_pos (worker : Worker (Backend σ)) (job : ClaimedJob) (phase : Phase) :
    0 < phase.turnsLeft worker job := by
  unfold turnsLeft
  split <;> omega

theorem Phase.Advances.turnsLeft_lt {job : ClaimedJob} {before after : Phase}
    (h : before.Advances worker w job after) :
    after.turnsLeft worker job < before.turnsLeft worker job := by
  cases h with
  | begins hresolve hrun =>
    have hcount := Worker.effectCount_eq hresolve
    rw [← hrun] at hcount
    simp only [turnsLeft, hcount]
    omega
  | goesOn =>
    simp only [turnsLeft, List.length_cons]
    omega
  | sleeps =>
    simp only [turnsLeft, List.length_cons]
    omega
  | wakes =>
    simp only [turnsLeft]
    omega

theorem Phase.Ends.turnsLeft_gt {job : ClaimedJob} {phase : Phase} {failure : Option Failure}
    (h : phase.Ends worker w job failure) : 3 < phase.turnsLeft worker job := by
  cases h with
  | unresolved _ =>
    simp only [turnsLeft]
    omega
  | returned =>
    simp only [turnsLeft]
    omega

/-- A turn brings an execution nearer to its end. -/
theorem Turn.turnsLeft_lt (h : Turn worker w d x event d') (hd : d.Numbered)
    (hx : x ∈ d.executions) (hy : y ∈ d'.executions) (hkey : y.key = x.key) :
    y.job = x.job ∧ y.phase.turnsLeft worker x.job < x.phase.turnsLeft worker x.job := by
  have henter : ∀ {phase : Phase}, y ∈ (d.enter x.key phase).executions →
      phase.turnsLeft worker x.job < x.phase.turnsLeft worker x.job →
      y.job = x.job ∧ y.phase.turnsLeft worker x.job < x.phase.turnsLeft worker x.job := by
    intro phase hmem hless
    rcases hd.mem_enter hx hmem with rfl | ⟨-, hne⟩
    · exact ⟨rfl, hless⟩
    · exact absurd hkey hne
  have hfinish : y ∉ (d.finish x.key).executions := fun hmem => (Desk.mem_finish.1 hmem).2 hkey
  cases h with
  | advanced hphase => exact henter hy hphase.turnsLeft_lt
  | concluded hends _ => exact henter hy hends.turnsLeft_gt
  | overflowed _ _ => exact absurd hy hfinish
  | panicked _ _ => exact absurd hy hfinish
  | sent hphase =>
    refine henter hy ?_
    rw [hphase]
    exact Nat.lt_succ_self 2
  | recorded _ => exact absurd hy hfinish
  | crashed _ _ => exact absurd hy hfinish
  | @refused p hphase =>
    refine henter hy ?_
    rw [hphase]
    cases p with
    | pending _ => exact (by decide : 1 < 3)
    | awaiting _ => exact (by decide : 1 < 2)
  | queued _ _ => exact absurd hy hfinish

/-- What an execution waits for before its next turn. -/
inductive Execution.Waits (worker : Worker (Backend σ)) (w : World σ) (x : Execution) : Prop
  /-- The end of a sleep of its handler. -/
  | asleep {wake : Nat} {effects : List Effect} {exit : Exit}
      (hphase : x.phase = .sleeping wake effects exit) (hlater : w.now < wake)
  /-- The shutdown, because its handler does. -/
  | idle {effects : List Effect} {exit : Exit}
      (hphase : x.phase = .running (.awaitShutdown :: effects) exit)
      (hgoesOn : w.engine.cancelled = false)
  /-- Room for its write in the channel to the batcher. -/
  | unsent {write : OutcomeWrite} (hphase : x.phase = .writing (.pending write))
      (hfull : w.engine.completion.hasRoom = false)
  /-- The reply of the batcher. -/
  | unanswered {write : OutcomeWrite} (hphase : x.phase = .writing (.awaiting write))
      (hreply : w.engine.completion.reply? (.execution x.key) = none)
  /-- A place for its write in the retry queue. -/
  | crowded {write : OutcomeWrite} (hphase : x.phase = .queueing write)
      (hfull : w.engine.queue.admits x.key = false)

theorem World.stepExecution_isSome (hwaits : ¬ x.Waits worker w) (draw : Int) :
    (w.stepExecution worker draw x).isSome := by
  unfold stepExecution
  cases hphase : x.phase with
  | starting => rfl
  | running effects exit =>
    cases effects with
    | nil => rfl
    | cons effect rest =>
      cases effect with
      | awaitShutdown =>
        cases hcancelled : w.engine.cancelled with
        | true =>
          simp only [carryOut, hcancelled]
          rfl
        | false => exact absurd (.idle hphase hcancelled) hwaits
      | _ => rfl
  | sleeping wake effects exit =>
    by_cases hdue : wake ≤ w.now
    · simp only [if_pos hdue]
      rfl
    · exact absurd (.asleep hphase (Nat.lt_of_not_le hdue)) hwaits
  | writing p =>
    rw [Option.isSome_map]
    cases p with
    | pending write =>
      simp only [stepWrite]
      split
      · rfl
      · split
        · rfl
        · cases hroom : w.engine.completion.hasRoom with
          | true => rfl
          | false => exact absurd (.unsent hphase hroom) hwaits
    | awaiting write =>
      simp only [stepWrite, Option.isSome_map]
      cases hreply : w.engine.completion.reply? (.execution x.key) with
      | none => exact absurd (.unanswered hphase hreply) hwaits
      | some reply => rfl
  | queueing write =>
    cases hroom : w.engine.queue.admits x.key with
    | true => rfl
    | false => exact absurd (.crowded hphase hroom) hwaits

/-! ## 3. Verdicts and writes -/

section Course

variable {asked ended : World σ → Prop} {job : ClaimedJob} {phase : Phase}

/-- An execution that is under way: once its handler has been found there is a verdict on it. -/
inductive Phase.OnCourse (worker : Worker (Backend σ)) (asked : World σ → Prop)
    (job : ClaimedJob) : Phase → Prop
  | starting : OnCourse worker asked job .starting
  | running {asking : World σ} {effects : List Effect} {exit : Exit} (hasking : asked asking)
      (hverdict : worker.verdict? job (asking.engine.askedFor job.jobType) = some exit.failure?) :
      OnCourse worker asked job (.running effects exit)
  | sleeping {asking : World σ} {wake : Nat} {effects : List Effect} {exit : Exit}
      (hasking : asked asking)
      (hverdict : worker.verdict? job (asking.engine.askedFor job.jobType) = some exit.failure?) :
      OnCourse worker asked job (.sleeping wake effects exit)

theorem Phase.OnCourse.write? (h : phase.OnCourse worker asked job) : phase.write? = none := by
  cases h <;> rfl

theorem Phase.Advances.ne_starting {after : Phase} (h : phase.Advances worker w job after) :
    after ≠ .starting := by
  cases h <;> exact nofun

theorem Phase.Advances.onCourse {after : Phase} (h : phase.Advances worker w job after)
    (hw : phase = .starting → asked w) (hphase : phase.OnCourse worker asked job) :
    after.OnCourse worker asked job := by
  cases h with
  | begins hresolve hrun =>
    refine .running (hw rfl) ?_
    simp only [Worker.verdict?, hresolve, hrun]
  | goesOn =>
    cases hphase with
    | running hasking hverdict => exact .running hasking hverdict
  | sleeps =>
    cases hphase with
    | running hasking hverdict => exact .sleeping hasking hverdict
  | wakes =>
    cases hphase with
    | sleeping hasking hverdict => exact .running hasking hverdict

theorem Phase.Ends.verdict {failure : Option Failure} (h : phase.Ends worker w job failure)
    (hw : phase = .starting → asked w) (hphase : phase.OnCourse worker asked job) :
    ∃ asking, asked asking ∧
      worker.verdict? job (asking.engine.askedFor job.jobType) = some failure := by
  cases h with
  | unresolved hresolve =>
    refine ⟨w, hw rfl, ?_⟩
    simp only [Worker.verdict?, hresolve]
  | returned =>
    cases hphase with
    | running hasking hverdict => exact ⟨_, hasking, hverdict⟩

/-- Where an execution is that was started: before its write, or it has handed one over, or it has
ended without. That depends on the world in which its handler was asked for, and on the one in which
it came to its end. -/
inductive Course (worker : Worker (Backend σ)) (asked ended : World σ → Prop) (x : Execution)
    (d : Desk) (l : Ledger) : Prop
  | underway {y : Execution} (hy : y ∈ d.executions) (hkey : y.key = x.key) (hjob : y.job = x.job)
      (hphase : y.phase.OnCourse worker asked x.job) (hnone : l.handedBy x.key = [])
  | handed {asking ending : World σ} {failure : Option Failure} {write : OutcomeWrite}
      (hasking : asked asking) (hending : ended ending)
      (hverdict : worker.verdict? x.job (asking.engine.askedFor x.job.jobType) = some failure)
      (hcalendar : ¬ x.job.RunsOut ending.clock)
      (hends : x.job.EndsIn (worker.registry.retryPolicy x.job.jobType) ending.clock failure write)
      (hone : l.handedBy x.key = [write])
      (hheld : ∀ y ∈ d.executions, y.key = x.key → y.phase.write? = some write)
  | lost {asking ending : World σ} (hasking : asked asking) (hending : ended ending)
      (hlost : worker.verdict? x.job (asking.engine.askedFor x.job.jobType) = none ∨
        x.job.RunsOut ending.clock)
      (hgone : ∀ y ∈ d.executions, y.key ≠ x.key) (hnone : l.handedBy x.key = [])

theorem Course.of_spared (h : Spared x.key d d' event) (hx : Course worker asked ended x d l) :
    Course worker asked ended x d' (l.record event) := by
  have hhanded := h.handed l
  cases hx with
  | underway hy hkey hjob hphase hnone =>
    exact .underway ((h.executions _ hkey).2 hy) hkey hjob hphase (hhanded.trans hnone)
  | handed hasking hending hverdict hcalendar hends hone hheld =>
    refine .handed hasking hending hverdict hcalendar hends (hhanded.trans hone) ?_
    intro y hy hkey
    exact hheld y ((h.executions y hkey).1 hy) hkey
  | lost hasking hending hlost hgone hnone =>
    refine .lost hasking hending hlost ?_ (hhanded.trans hnone)
    intro y hy hkey
    exact hgone y ((h.executions y hkey).1 hy) hkey

/-- A turn of an execution that is under way. -/
theorem Turn.course_of_underway (h : Turn worker w d y event d') (hd : d.Numbered)
    (hasked : Desk.Leaves x.key (· = .starting) d d' → asked w)
    (hended : Desk.Leaves x.key (·.write? = none) d d' → ended w)
    (hy : y ∈ d.executions) (hkey : y.key = x.key) (hjob : y.job = x.job)
    (hphase : y.phase.OnCourse worker asked x.job) (hnone : l.handedBy x.key = []) :
    Course worker asked ended x d' (l.record event) := by
  have hbefore := hphase.write?
  rw [← hkey] at hasked hended
  have hgone : ∀ z ∈ (d.finish y.key).executions, z.key ≠ x.key := fun z hz =>
    hkey ▸ (Desk.mem_finish.1 hz).2
  cases h with
  | advanced hadvances =>
    rw [hjob] at hadvances
    have hleaves := fun hstarting => hasked (hd.leaves_enter hy hstarting hadvances.ne_starting)
    exact .underway (Desk.mem_enter hy _) hkey hjob (hadvances.onCourse hleaves hphase) hnone
  | concluded hends hwrite =>
    rw [hjob] at hends hwrite
    obtain ⟨asking, hasking, hverdict⟩ :=
      hends.verdict (fun hstarting => hasked (hd.leaves_enter hy hstarting nofun)) hphase
    refine .handed hasking (hended (hd.leaves_enter hy hbefore nofun)) hverdict ?_
      (ClaimedJob.outcome?_endsIn hwrite) ?_ ?_
    · intro hlate
      rw [ClaimedJob.outcome?_eq_none_iff.2 hlate] at hwrite
      cases hwrite
    · rw [hkey, l.handedBy_handed, hnone, List.nil_append]
    · intro z hz hsame
      rcases hd.mem_enter hy hz with rfl | ⟨-, hne⟩
      · rfl
      · exact absurd (hsame.trans hkey.symm) hne
  | overflowed hends hwrite =>
    rw [hjob] at hends hwrite
    obtain ⟨asking, hasking, hverdict⟩ :=
      hends.verdict (fun hstarting => hasked (Desk.leaves_finish hy hstarting)) hphase
    exact .lost hasking (hended (Desk.leaves_finish hy hbefore))
      (Or.inr (ClaimedJob.outcome?_eq_none_iff.1 hwrite)) hgone hnone
  | panicked hstarting hresolve =>
    rw [hjob] at hresolve
    refine .lost (hasked (Desk.leaves_finish hy hstarting)) (hended (Desk.leaves_finish hy hbefore))
      (Or.inl ?_) hgone hnone
    simp only [Worker.verdict?, hresolve]
  | sent hwriting =>
    rw [hwriting] at hbefore
    cases hbefore
  | recorded hwriting =>
    rw [hwriting] at hbefore
    cases hbefore
  | crashed hwriting _ =>
    rw [hwriting] at hbefore
    cases hbefore
  | refused hwriting =>
    rw [hwriting] at hbefore
    cases hbefore
  | queued hwriting _ =>
    rw [hwriting] at hbefore
    cases hbefore

/-- A turn of an execution that has handed its write over: it still holds it, or has ended. -/
theorem Turn.held_of_handed {write : OutcomeWrite} (h : Turn worker w d y event d')
    (hd : d.Numbered) (hy : y ∈ d.executions) (hheld : y.phase.write? = some write) :
    (∀ l : Ledger, (l.record event).handedBy y.key = l.handedBy y.key) ∧
      ∀ z ∈ d'.executions, z.key = y.key → z.phase.write? = some write := by
  have henter : ∀ {phase : Phase}, phase.write? = some write →
      ∀ z ∈ (d.enter y.key phase).executions, z.key = y.key → z.phase.write? = some write := by
    intro phase hphase z hz hkey
    rcases hd.mem_enter hy hz with rfl | ⟨-, hne⟩
    · exact hphase
    · exact absurd hkey hne
  have hfinish : ∀ z ∈ (d.finish y.key).executions, z.key = y.key →
      z.phase.write? = some write := fun z hz hkey =>
    absurd hkey (Desk.mem_finish.1 hz).2
  cases h with
  | advanced hadvances =>
    rw [hadvances.write?.1] at hheld
    cases hheld
  | concluded hends _ =>
    rw [hends.write?] at hheld
    cases hheld
  | overflowed hends _ =>
    rw [hends.write?] at hheld
    cases hheld
  | panicked hstarting _ =>
    rw [hstarting] at hheld
    cases hheld
  | sent hwriting =>
    rw [hwriting] at hheld
    exact ⟨fun _ => rfl, henter hheld⟩
  | recorded _ => exact ⟨fun _ => rfl, hfinish⟩
  | crashed _ _ => exact ⟨fun _ => rfl, hfinish⟩
  | refused hwriting =>
    rw [hwriting] at hheld
    exact ⟨fun _ => rfl, henter hheld⟩
  | queued _ _ => exact ⟨fun _ => rfl, hfinish⟩

theorem Move.course (h : Move worker w d event d') (hd : d.Numbered)
    (hasked : Desk.Leaves x.key (· = .starting) d d' → asked w)
    (hended : Desk.Leaves x.key (·.write? = none) d d' → ended w) (hkey : x.key < d.started)
    (hx : Course worker asked ended x d l) :
    Course worker asked ended x d' (l.record event) := by
  rcases h.turn_or_spared hkey with ⟨y, hy, hsame, hturn⟩ | hspared
  · cases hx with
    | @underway z hz hzkey hjob hphase hnone =>
      obtain rfl : z = y := List.inj_on_of_nodup_map hd.keys hz hy (hzkey.trans hsame.symm)
      exact hturn.course_of_underway hd hasked hended hz hzkey hjob hphase hnone
    | handed hasking hending hverdict hcalendar hends hone hheld =>
      obtain ⟨hhanded, hstill⟩ := hturn.held_of_handed hd hy (hheld y hy hsame)
      rw [hsame] at hhanded hstill
      exact .handed hasking hending hverdict hcalendar hends ((hhanded l).trans hone) hstill
    | lost _ _ _ hgone _ => exact absurd hsame (hgone y hy)
  · exact hx.of_spared hspared

end Course

/-! ## 4. Runs -/

namespace Audit

variable {a b : Audit σ} {action : Action σ} {actions : List (Action σ)}

/-- In this world a run takes the action with which an execution leaves the phases of a kind. -/
def LeavesIn (worker : Worker (Backend σ)) (actions : List (Action σ)) (a : Audit σ) (key : Nat)
    (p : Phase → Prop) (v : World σ) : Prop :=
  ∃ before action after c c', actions = before ++ action :: after ∧
    run worker before a = some c ∧ c.act worker action = some c' ∧ c.world = v ∧
    Desk.Leaves key p c.desk c'.desk

theorem LeavesIn.first {p : Phase → Prop} (hact : a.act worker action = some b)
    (hleaves : Desk.Leaves key p a.desk b.desk) :
    LeavesIn worker (action :: actions) a key p a.world :=
  ⟨[], action, actions, a, b, rfl, rfl, hact, rfl, hleaves⟩

theorem LeavesIn.later {p : Phase → Prop} {v : World σ} (hact : a.act worker action = some b)
    (h : LeavesIn worker actions b key p v) : LeavesIn worker (action :: actions) a key p v := by
  obtain ⟨before, next, after, c, c', rfl, hrun, hnext⟩ := h
  refine ⟨action :: before, next, after, c, c', rfl, ?_, hnext⟩
  rw [run, hact, Option.bind_some, hrun]

/-- What a step keeps, a run does, with the worlds that its steps are taken in. -/
theorem run_course {asked ended : World σ → Prop} (hrun : run worker actions a = some b)
    (hasked : ∀ v, LeavesIn worker actions a x.key (· = .starting) v → asked v)
    (hended : ∀ v, LeavesIn worker actions a x.key (·.write? = none) v → ended v)
    (ha : Sound worker a) (hkey : x.key < a.desk.started)
    (hx : Course worker asked ended x a.desk a.ledger) :
    Course worker asked ended x b.desk b.ledger := by
  induction actions generalizing a with
  | nil =>
    cases hrun
    exact hx
  | cons action rest ih =>
    obtain ⟨next, hact, hrest⟩ := Option.bind_eq_some_iff.1 hrun
    obtain ⟨event, hledger, hmove⟩ := act_move hact ha.balanced.numbered
    have hnext := hmove.course ha.balanced.numbered (fun hleaves => hasked _ (.first hact hleaves))
      (fun hleaves => hended _ (.first hact hleaves)) hkey hx
    rw [← hledger] at hnext
    exact ih hrest (fun v hv => hasked v (hv.later hact)) (fun v hv => hended v (hv.later hact))
      (act_sound hact ha) (Nat.lt_of_lt_of_le hkey hmove.started_le) hnext

theorem act_started_le (h : a.act worker action = some b) (ha : Sound worker a) :
    a.world.engine.started ≤ b.world.engine.started := by
  obtain ⟨event, -, hmove⟩ := act_move h ha.balanced.numbered
  exact hmove.started_le

theorem run_started_le (h : run worker actions a = some b)
    (ha : Sound worker a) : a.world.engine.started ≤ b.world.engine.started :=
  (run_keeps (P := fun c => Sound worker c ∧ a.world.engine.started ≤ c.world.engine.started) h
    (fun _ _ _ _ hact hc =>
      ⟨act_sound hact hc.1, Nat.le_trans hc.2 (act_started_le hact hc.1)⟩)
    ⟨ha, Nat.le_refl _⟩).2

/-- Whether an action is a turn of an execution. -/
def Action.isTurnOf (key : Nat) : Action σ → Bool
  | .step (.execution key') _ _ => key' = key
  | _ => false

/-- The turns of an execution in a run. -/
def turnsOf (key : Nat) (actions : List (Action σ)) : Nat := actions.countP (Action.isTurnOf key)

theorem act_turn (h : a.act worker action = some b) (haction : action.isTurnOf key) :
    ∃ y ∈ a.desk.executions, y.key = key ∧
      (∃ event, Turn worker a.world a.desk y event b.desk) ∧
      ∃ draw, a.world.stepExecution worker draw y = some b.world := by
  obtain ⟨eager, draw, rfl⟩ : ∃ eager draw, action = .step (.execution key) eager draw := by
    unfold Action.isTurnOf at haction
    split at haction
    · rename_i key' eager draw
      exact ⟨eager, draw, by rw [of_decide_eq_true haction]⟩
    · cases haction
  obtain ⟨w, hstep, rfl⟩ := Option.map_eq_some_iff.1 h
  obtain ⟨y, hy, hturn⟩ := Option.bind_eq_some_iff.1 hstep
  obtain ⟨hmem, rfl⟩ := World.mem_of_execution? hy
  refine ⟨y, hmem, rfl, ⟨World.executionEvent? worker y a.world w, ?_⟩, draw, hturn⟩
  show Turn worker a.world (a.world.engine.desk (a.world.engine.replaysWith a.replays)) y _
    (w.engine.desk (w.engine.replaysWith a.replays))
  rw [World.stepExecution_replaysWith hturn]
  exact World.stepExecution_turn hy hturn _

/-- An execution with this number has the job, and at most so many turns left. -/
def Within (worker : Worker (Backend σ)) (key : Nat) (job : ClaimedJob) (turns : Nat)
    (d : Desk) : Prop :=
  ∀ y ∈ d.executions, y.key = key → y.job = job ∧ y.phase.turnsLeft worker job ≤ turns

theorem turn_within {job : ClaimedJob} {turns : Nat} (h : Turn worker w d y event d')
    (hd : d.Numbered) (hy : y ∈ d.executions) (hkey : y.key = key)
    (hwithin : Within worker key job turns d) : Within worker key job (turns - 1) d' := by
  intro z hz hzkey
  obtain ⟨hjob, hturns⟩ := hwithin y hy hkey
  obtain ⟨hsame, hless⟩ := h.turnsLeft_lt hd hy hz (hzkey.trans hkey.symm)
  rw [hjob] at hsame hless
  exact ⟨hsame, by omega⟩

theorem act_within {job : ClaimedJob} {turns : Nat} (h : a.act worker action = some b)
    (ha : Sound worker a) (hkey : key < a.desk.started)
    (hwithin : Within worker key job turns a.desk) :
    Within worker key job (turns - turnsOf key [action]) b.desk := by
  have hd := ha.balanced.numbered
  by_cases haction : action.isTurnOf key
  · obtain ⟨y, hy, hsame, ⟨event, hturn⟩, -⟩ := act_turn h haction
    rw [turnsOf, List.countP_singleton, if_pos haction]
    exact turn_within hturn hd hy hsame hwithin
  · rw [turnsOf, List.countP_singleton, if_neg haction, Nat.sub_zero]
    obtain ⟨event, -, hmove⟩ := act_move h hd
    rcases hmove.turn_or_spared hkey with ⟨y, hy, hsame, hturn⟩ | hspared
    · intro z hz hzkey
      obtain ⟨hjob, hturns⟩ := turn_within hturn hd hy hsame hwithin z hz hzkey
      exact ⟨hjob, by omega⟩
    · intro z hz hzkey
      exact hwithin z ((hspared.executions z hzkey).1 hz) hzkey

theorem run_within {job : ClaimedJob} {turns : Nat} (hrun : run worker actions a = some b)
    (ha : Sound worker a) (hkey : key < a.desk.started)
    (hwithin : Within worker key job turns a.desk) :
    Within worker key job (turns - turnsOf key actions) b.desk := by
  induction actions generalizing a turns with
  | nil =>
    cases hrun
    exact hwithin
  | cons action rest ih =>
    obtain ⟨next, hact, hrest⟩ := Option.bind_eq_some_iff.1 hrun
    obtain ⟨event, -, hmove⟩ := act_move hact ha.balanced.numbered
    have hnext := ih hrest (act_sound hact ha) (Nat.lt_of_lt_of_le hkey hmove.started_le)
      (act_within hact ha hkey hwithin)
    have hcount : turnsOf key (action :: rest) = turnsOf key [action] + turnsOf key rest := by
      rw [turnsOf, turnsOf, turnsOf, ← List.countP_append, List.singleton_append]
    rw [hcount, ← Nat.sub_sub]
    exact hnext

/-- The course of an execution that has started. -/
theorem course_of_starting {state : σ} {origin : Instant} {before : List (Action σ)}
    (hstart : World.start worker state origin = .ok w)
    (hbefore : run worker before { world := w } = some a) (hx : x ∈ a.world.engine.executions)
    (hphase : x.phase = .starting) (hrun : run worker actions a = some b) :
    Course worker (LeavesIn worker actions a x.key (· = .starting))
      (LeavesIn worker actions a x.key (·.write? = none)) x b.desk b.ledger := by
  have ha := run_sound hbefore (start_sound hstart)
  have hnone : a.ledger.handedBy x.key = [] :=
    Ledger.handedBy_eq_nil (ha.balanced.placed.unhanded x hx (hphase ▸ rfl))
  refine run_course hrun (fun v hv => hv) (fun v hv => hv) ha (ha.balanced.numbered.fresh x hx)
    (.underway hx rfl rfl ?_ hnone)
  rw [hphase]
  exact .starting

/-! ## 5. One write for each execution -/

theorem execution?_of_mem {e : Engine} {R : List WriteProgress} (hd : (e.desk R).Numbered)
    (hy : y ∈ e.executions) : e.execution? y.key = some y := by
  cases hfound : e.execution? y.key with
  | none =>
    have hno := List.find?_eq_none.1 hfound y hy
    exact absurd (decide_eq_true rfl) hno
  | some z =>
    obtain ⟨hz, hkey⟩ := World.mem_of_execution? hfound
    rw [List.inj_on_of_nodup_map hd.keys hz hy hkey]

/-- **When an execution ends in one write.** An execution that has started has a turn whenever it
does not wait, and has ended after as many turns as the effects of its run call for. Until it has
come to its end it hands over nothing, and then one write for its claim, which its verdict and the
clock at that moment determine; it ends without a write exactly if its factory panics or its job
runs out of calendar. -/
theorem execution_ends_once {state : σ} {origin : Instant} {before : List (Action σ)}
    (hstart : World.start worker state origin = .ok w)
    (hbefore : run worker before { world := w } = some a) (hx : x ∈ a.world.engine.executions)
    (hphase : x.phase = .starting) (hrun : run worker actions a = some b) :
    (∀ y ∈ b.world.engine.executions, y.key = x.key → ¬ y.Waits worker b.world →
      ∀ eager draw, (b.world.step worker (.execution x.key) eager draw).isSome) ∧
    (2 * worker.effectCount x.job + 5 ≤ turnsOf x.key actions →
      ∀ y ∈ b.world.engine.executions, y.key ≠ x.key) ∧
    ((∃ y ∈ b.world.engine.executions, y.key = x.key ∧ y.job = x.job ∧ y.phase.write? = none ∧
        b.ledger.handedBy x.key = []) ∨
      ∃ asking ending, LeavesIn worker actions a x.key (· = .starting) asking ∧
        LeavesIn worker actions a x.key (·.write? = none) ending ∧
        (worker.PanicsOn x.job (asking.engine.askedFor x.job.jobType) ∨
            x.job.RunsOut ending.clock →
          b.ledger.handedBy x.key = [] ∧ ∀ y ∈ b.world.engine.executions, y.key ≠ x.key) ∧
        (¬ (worker.PanicsOn x.job (asking.engine.askedFor x.job.jobType) ∨
            x.job.RunsOut ending.clock) →
          ∃ failure write,
            worker.verdict? x.job (asking.engine.askedFor x.job.jobType) = some failure ∧
            b.ledger.handedBy x.key = [write] ∧ write.job = x.job.processing ∧
            x.job.EndsIn (worker.registry.retryPolicy x.job.jobType) ending.clock failure
              write)) := by
  have ha := run_sound hbefore (start_sound hstart)
  have hb := run_sound hrun ha
  have hkey := ha.balanced.numbered.fresh x hx
  refine ⟨?_, ?_, ?_⟩
  · intro y hy hsame hwaits eager draw
    have hfound := execution?_of_mem hb.balanced.numbered hy
    rw [← hsame, World.step, hfound, Option.bind_some]
    exact World.stepExecution_isSome hwaits draw
  · -- it began with that many turns left, each turn left it fewer, and whoever is there has one
    intro hturns y hy hsame
    have hbegun : Within worker x.key x.job (2 * worker.effectCount x.job + 5) a.desk := by
      intro z hz hzkey
      obtain rfl : z = x := List.inj_on_of_nodup_map ha.balanced.numbered.keys hz hx hzkey
      rw [hphase]
      exact ⟨rfl, Nat.le_refl _⟩
    obtain ⟨-, hleft⟩ := run_within hrun ha hkey hbegun y hy hsame
    have hpos := y.phase.turnsLeft_pos worker x.job
    omega
  · cases course_of_starting hstart hbefore hx hphase hrun with
    | underway hy hsame hjob hon hempty => exact Or.inl ⟨_, hy, hsame, hjob, hon.write?, hempty⟩
    | @handed _ _ failure write hasking hending hverdict hcalendar hends hone _ =>
      refine Or.inr ⟨_, _, hasking, hending, ?_,
        fun _ => ⟨failure, write, hverdict, hone, hends.job_eq, hends⟩⟩
      rintro (hpanics | hlate)
      · rw [Worker.verdict?_eq_none_iff.2 hpanics] at hverdict
        cases hverdict
      · exact absurd hlate hcalendar
    | lost hasking hending hlost hgone hempty =>
      rw [Worker.verdict?_eq_none_iff] at hlost
      exact Or.inr ⟨_, _, hasking, hending, fun _ => ⟨hempty, hgone⟩, fun hnot => absurd hlost hnot⟩

/-! ## 6. A worker with one job -/

/-- A worker with one handler. -/
def handyman (factory : Nat → Made) (exit : Exit) : Worker (Backend Store) where
  id := ⟨.ofNat 1⟩
  backend := Store.backend
  config := tightConfig
  registry := ⟨[({ type := { name := "plain", parameter := .nothing }, factory,
                   run := fun _ _ => ⟨[.invoke], exit⟩ }, .standard)], .standard⟩
  pipeline := ⟨[], false⟩

/-- A job for it. -/
def chore (cron : Option String) : Job := { NewJob.plain 1 with cron }.toJob .epoch

/-- A turn of its execution. -/
def turn : Action Store := .step (.execution 0) false 0

/-- Whether the worker claims the job, and what comes of it by some actions has the given
property. -/
def comesTo (worker : Worker (Backend Store)) (job : Job) (origin : Instant)
    (actions : List (Action Store)) (p : Execution → Audit Store → Bool) : Bool :=
  match World.start worker { jobs := [job] } origin with
  | .error _ => false
  | .ok w =>
    (run worker (List.replicate 4 (.step .claims false 0)) { world := w }).any fun a =>
      a.world.engine.executions.any fun x =>
        (x.phase matches .starting) && (run worker actions a).any (p x)

theorem exists_of_comesTo {worker : Worker (Backend Store)} {job : Job} {origin : Instant}
    {actions : List (Action Store)} {p : Execution → Audit Store → Bool}
    (h : comesTo worker job origin actions p = true) :
    ∃ w a b x before, World.start worker { jobs := [job] } origin = .ok w ∧
      run worker before { world := w } = some a ∧ x ∈ a.world.engine.executions ∧
      x.phase = .starting ∧ run worker actions a = some b ∧ p x b = true := by
  unfold comesTo at h
  split at h
  · cases h
  · rename_i w hstart
    simp only [Option.any_eq_true, List.any_eq_true, Bool.and_eq_true] at h
    obtain ⟨a, hbefore, x, hx, hstarting, b, hrun, hp⟩ := h
    have hphase : x.phase = .starting := by
      split at hstarting
      · assumption
      · cases hstarting
    exact ⟨w, a, b, x, _, hstart, hbefore, hx, hphase, hrun, hp⟩

theorem verdict?_handyman (exit : Exit) {job : ClaimedJob} (htype : job.jobType = "plain")
    (hparameter : job.parameter = "null") (calls : Nat) :
    (handyman (fun _ => .made) exit).verdict? job calls = some exit.failure? := by
  have hread : ParameterType.nothing.decode "null" = .ok .nothing := rfl
  simp only [Worker.verdict?, handyman, Registry.resolve, Registry.entry?, htype, hparameter,
    List.find?_cons_of_pos, decide_true, hread]
  rfl

/-- A handler that panics has failed, and its job is tried again. -/
theorem execution_ends_once_panicked :
    ∃ w a b x before actions write ending,
      World.start (handyman (fun _ => .made) (.panic "no disk")) { jobs := [chore none] } .epoch =
        .ok w ∧
      run (handyman (fun _ => .made) (.panic "no disk")) before { world := w } = some a ∧
      x ∈ a.world.engine.executions ∧ x.phase = .starting ∧
      run (handyman (fun _ => .made) (.panic "no disk")) actions a = some b ∧
      b.ledger.handedBy x.key = [write] ∧ write.job = ⟨⟨.ofNat 1⟩, ⟨.ofNat 1⟩⟩ ∧
      x.job.EndsIn .standard ending (some ⟨"panic", "no disk"⟩) write := by
  have hcomes : comesTo (handyman (fun _ => .made) (.panic "no disk")) (chore none) .epoch
      [turn, turn, turn] (fun x b =>
        decide (x.job = ((chore none).start ⟨.ofNat 1⟩ .epoch).claimed ⟨.ofNat 1⟩) &&
          b.world.engine.executions.all (·.phase.write? ≠ none)) = true := by decide +kernel
  obtain ⟨w, a, b, x, before, hstart, hbefore, hx, hphase, hrun, hp⟩ := exists_of_comesTo hcomes
  simp only [Bool.and_eq_true, decide_eq_true_eq, List.all_eq_true] at hp
  obtain ⟨hjob, hwriting⟩ := hp
  obtain ⟨-, -, hunder | ⟨asking, ending, -, -, -, hends⟩⟩ :=
    execution_ends_once hstart hbefore hx hphase hrun
  · obtain ⟨y, hy, -, -, hno, -⟩ := hunder
    exact absurd hno (hwriting y hy)
  · have hcalendar : ¬ x.job.RunsOut ending.clock := by
      rintro ⟨cron, schedule, hcron, -⟩
      rw [hjob] at hcron
      cases hcron
    have hverdict : (handyman (fun _ => .made) (.panic "no disk")).verdict? x.job
        (asking.engine.askedFor x.job.jobType) = some (some ⟨"panic", "no disk"⟩) :=
      verdict?_handyman _ (hjob ▸ rfl) (hjob ▸ rfl) _
    have hmade : ¬ (handyman (fun _ => .made) (.panic "no disk")).PanicsOn x.job
        (asking.engine.askedFor x.job.jobType) := by
      rw [← Worker.verdict?_eq_none_iff, hverdict]
      exact nofun
    obtain ⟨failure, write, hfailure, hone, hsame, hwrite⟩ :=
      hends (not_or.2 ⟨hmade, hcalendar⟩)
    rw [hverdict] at hfailure
    cases hfailure
    rw [hjob] at hsame hwrite
    exact ⟨w, a, b, x, before, _, write, ending.clock, hstart, hbefore, hx, hphase, hrun,
      hone, hsame, hjob ▸ hwrite⟩

/-- The worker claims the job and starts an execution, which ends without a write: the job is
processing, and nothing is left that would end its claim. -/
def Abandons (worker : Worker (Backend Store)) (job : Job) (origin : Instant) : Prop :=
  ∃ w a b x before actions, World.start worker { jobs := [job] } origin = .ok w ∧
    run worker before { world := w } = some a ∧ x ∈ a.world.engine.executions ∧
    x.phase = .starting ∧ run worker actions a = some b ∧ b.world.engine.executions = [] ∧
    b.world.engine.queue.items = [] ∧ b.ledger.handedBy x.key = [] ∧
    (b.world.state.get? job.id).map (·.status) = some .processing

theorem abandons_of_comesTo {worker : Worker (Backend Store)} {job : Job} {origin : Instant}
    (actions : List (Action Store)) (h : comesTo worker job origin actions (fun x b =>
      b.world.engine.executions.isEmpty && decide (b.world.engine.queue.items = []) &&
        decide (b.ledger.handedBy x.key = []) &&
        decide ((b.world.state.get? job.id).map (·.status) = some .processing)) = true) :
    Abandons worker job origin := by
  obtain ⟨w, a, b, x, before, hstart, hbefore, hx, hphase, hrun, hp⟩ := exists_of_comesTo h
  simp only [Bool.and_eq_true, decide_eq_true_eq, List.isEmpty_iff] at hp
  obtain ⟨⟨⟨hended, hqueue⟩, hnone⟩, hprocessing⟩ := hp
  exact ⟨w, a, b, x, before, actions, hstart, hbefore, hx, hphase, hrun, hended, hqueue, hnone,
    hprocessing⟩

/-- An execution whose factory panics, and one of a recurrent job that succeeds at the end of the
calendar. -/
theorem abandons_without_verdict_or_calendar :
    Abandons (handyman (fun _ => .panic "no disk") .done) (chore none) .epoch ∧
      Abandons (handyman (fun _ => .made) .done) (chore (some "0 0 12 * * *")) .last :=
  ⟨abandons_of_comesTo [turn] (by decide +kernel),
    abandons_of_comesTo [turn, turn, turn] (by decide +kernel)⟩

end Audit

end JobQueue
