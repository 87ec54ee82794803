import JobQueue.Backend.Fault
import JobQueue.Proofs.Worker.Shutdown
import Mathlib.Data.List.Induction

/-!
# The last replay of the retry queue

When the last job has ended, nothing comes into the retry queue any more. What happens to the writes
that still wait there is told by the attempts to make them: a replay begins with the oldest one and
ends at the first that is refused. So the last replay of a shutdown reaches a write only if all that
wait before it are accepted, and the writes behind the first that is refused are not tried at all.
-/

namespace JobQueue

variable {σ : Type}

/-! ## 1. Attempts -/

/-- The write of a replay and the answer to it, if the answer comes in this step. -/
def World.attempt? (worker : Worker (Backend σ)) (writer : Writer) (w : World σ)
    (p : WriteProgress) : Option (OutcomeWrite × Except BackendError Unit) :=
  match World.stepWrite worker writer p w with
  | some (.ended result _) => some (p.write, result)
  | _ => none

theorem World.write_of_attempt? {worker : Worker (Backend σ)} {writer : Writer} {w : World σ}
    {p : WriteProgress} {write : OutcomeWrite} {result : Except BackendError Unit}
    (h : w.attempt? worker writer p = some (write, result)) : p.write = write := by
  unfold World.attempt? at h
  split at h
  · cases h
    rfl
  · cases h

/-- What the ledger records of an attempt. -/
def attemptEvent? : OutcomeWrite × Except BackendError Unit → Option WriteEvent
  | (write, .ok ()) => some (.replayed write)
  | (_, .error _) => none

/-- When nothing is executed and nothing is started, nothing is executed afterwards. -/
theorem Move.idle {worker : Worker (Backend σ)} {w : World σ} {d d' : Desk}
    {event : Option WriteEvent} (h : Move worker w d event d') (hidle : d.executions = [])
    (hstarted : d'.started = d.started) : d'.executions = [] := by
  cases h with
  | launched _ => exact absurd hstarted (Nat.succ_ne_self _)
  | applied _ => exact absurd hstarted (Nat.succ_ne_self _)
  | turned hx _ =>
    rw [hidle] at hx
    cases hx
  | _ => exact hidle

theorem World.replayEvent?_eq (worker : Worker (Backend σ)) (writer : Writer) (w : World σ)
    (p : WriteProgress) :
    w.replayEvent? worker writer p = (w.attempt? worker writer p).bind attemptEvent? := by
  unfold World.replayEvent? World.attempt?
  cases hstep : World.stepWrite worker writer p w with
  | none => rfl
  | some r =>
    cases r with
    | ended result v => cases result <;> rfl
    | _ => rfl

/-- Whether the retry queue has been replayed for the last time. -/
def Shutdown.isOver : Shutdown → Bool
  | .closing => true
  | .returned (.ok _) => true
  | _ => false

theorem Shutdown.isClosing_of_isOver {s : Shutdown} (h : s.isOver = true) : s.isClosing = true := by
  cases s with
  | closing => rfl
  | returned result =>
    cases result with
    | ok _ => rfl
    | error _ => cases h
  | _ => cases h

theorem Shutdown.progress?_of_isOver {s : Shutdown} (h : s.isOver = true) :
    s.progress? = none := by
  cases s with
  | drainReplaying _ => cases h
  | lastReplay _ => cases h
  | _ => rfl

namespace Audit

variable {worker : Worker (Backend σ)} {a b c d : Audit σ} {action : Action σ}
  {actions before after : List (Action σ)} {w : World σ} {e : Nat × OutcomeWrite}
  {result : Except BackendError Unit} {write : OutcomeWrite}

/-- The writes in the retry queue, oldest first, each with the number of the execution that put it
there. -/
def waiting (a : Audit σ) : List (Nat × OutcomeWrite) :=
  a.ledger.queued.drop a.ledger.replayed.length

/-- The write of a replay and the answer to it, if the answer comes in this action. -/
def answer? (worker : Worker (Backend σ)) (action : Action σ) (a : Audit σ) :
    Option (OutcomeWrite × Except BackendError Unit) :=
  match action with
  | .step .replays _ _ => a.world.engine.replays.progress?.bind (a.world.attempt? worker .replayLoop)
  | .step .shutdown _ _ => a.world.engine.shutdown.progress?.bind (a.world.attempt? worker .shutdown)
  | _ => none

/-- The answer together with the place of the write: it is the oldest one in the queue. -/
def attempt? (worker : Worker (Backend σ)) (action : Action σ) (a : Audit σ) :
    Option ((Nat × OutcomeWrite) × Except BackendError Unit) :=
  (answer? worker action a).bind fun (write, result) =>
    (a.waiting.head?.filter (·.2 = write)).map (·, result)

/-- All attempts of a run, in their order. -/
def attempts (worker : Worker (Backend σ)) :
    List (Action σ) → Audit σ → List ((Nat × OutcomeWrite) × Except BackendError Unit)
  | [], _ => []
  | action :: rest, a =>
    (attempt? worker action a).toList ++ ((a.act worker action).map (attempts worker rest)).getD []

theorem waiting_items (ha : Sound worker a) :
    a.waiting.map (·.2) = a.world.engine.queue.items := by
  have hitems := ha.balanced.inOrder.items
  rw [waiting, List.map_drop, hitems, List.drop_left]
  rfl

theorem waiting_nodup (ha : Sound worker a) : a.waiting.Nodup := by
  -- a write has one place, so it was queued at most once
  rw [List.nodup_iff_count_le_one]
  intro e
  have honce := List.nodup_iff_count_le_one.1 (List.Nodup.of_map _ ha.balanced.placed.once) e
  have hplace := ha.balanced.placed.place e
  have hdrop : a.waiting.count e ≤ a.ledger.queued.count e :=
    (List.drop_sublist _ _).count_le e
  omega

/-- A replay makes the oldest write of the queue. -/
theorem head?_of_replaying (ha : Sound worker a) {p : WriteProgress} (hp : p ∈ a.desk.replays) :
    ∃ e, a.waiting.head? = some e ∧ e.2 = p.write := by
  obtain ⟨left, right, hreplays⟩ := List.append_of_mem hp
  have hpeek := (ha.balanced.oneReplay.only hreplays).2.2.2
  change a.world.engine.queue.items.head? = some p.write at hpeek
  rw [← waiting_items ha, List.head?_map] at hpeek
  exact Option.map_eq_some_iff.1 hpeek

theorem head?_of_answer? (ha : Sound worker a)
    (h : answer? worker action a = some (write, result)) :
    ∃ e, a.waiting.head? = some e ∧ e.2 = write := by
  unfold answer? at h
  split at h
  · obtain ⟨p, hp, hattempt⟩ := Option.bind_eq_some_iff.1 h
    rw [← World.write_of_attempt? hattempt]
    exact head?_of_replaying ha (by simp [desk, Engine.desk, Engine.replaysWith, hp])
  · obtain ⟨p, hp, hattempt⟩ := Option.bind_eq_some_iff.1 h
    rw [← World.write_of_attempt? hattempt]
    exact head?_of_replaying ha (by simp [desk, Engine.desk, Engine.replaysWith, hp])
  · cases h

theorem attempt?_of_answer? (ha : Sound worker a)
    (h : answer? worker action a = some (write, result)) :
    ∃ e, attempt? worker action a = some (e, result) ∧ a.waiting.head? = some e := by
  obtain ⟨e, hfirst, rfl⟩ := head?_of_answer? ha h
  exact ⟨e, by simp [attempt?, h, hfirst], hfirst⟩

theorem head?_of_attempt? (h : attempt? worker action a = some (e, result)) :
    a.waiting.head? = some e := by
  obtain ⟨answer, -, hanswer⟩ := Option.bind_eq_some_iff.1 h
  obtain ⟨e', he', heq⟩ := Option.map_eq_some_iff.1 hanswer
  cases heq
  exact (Option.filter_eq_some_iff.1 he').1

/-! ## 2. What an action does to the waiting writes -/

/-- When nothing is executed, the queue changes by attempts only: a write that is accepted leaves it,
and one that is refused stays the oldest. -/
inductive Replays (worker : Worker (Backend σ)) (action : Action σ) (a b : Audit σ) : Prop
  | still (hnone : attempt? worker action a = none) (hsame : b.waiting = a.waiting)
  | refused {e : Nat × OutcomeWrite} {error : BackendError}
      (hattempt : attempt? worker action a = some (e, .error error)) (hsame : b.waiting = a.waiting)
  | accepted {e : Nat × OutcomeWrite} (hattempt : attempt? worker action a = some (e, .ok ()))
      (hwaiting : a.waiting = e :: b.waiting)

theorem replays_of_ledger (ha : Sound worker a)
    (hledger : b.ledger = a.ledger.record ((answer? worker action a).bind attemptEvent?)) :
    Replays worker action a b := by
  cases hanswer : answer? worker action a with
  | none =>
    rw [hanswer] at hledger
    exact .still (by rw [attempt?, hanswer]; rfl) (by rw [waiting, hledger]; rfl)
  | some answer =>
    obtain ⟨write, result⟩ := answer
    obtain ⟨e, hattempt, hfirst⟩ := attempt?_of_answer? ha hanswer
    rw [hanswer] at hledger
    cases result with
    | error error => exact .refused hattempt (by rw [waiting, hledger]; rfl)
    | ok _ =>
      -- one more write is replayed, so one write less waits
      refine .accepted hattempt ?_
      obtain ⟨rest, hrest⟩ := List.head?_eq_some_iff.1 hfirst
      have hafter : b.waiting = a.waiting.tail := by
        rw [waiting, waiting, List.tail_drop, hledger]
        simp [Ledger.record, attemptEvent?]
      rw [hafter, hrest, List.tail_cons]

theorem act_replays (h : a.act worker action = some b) (hown : action.isOwn = true)
    (ha : Sound worker a) (hidle : a.world.engine.executions = []) : Replays worker action a b := by
  cases action with
  | step t eager draw =>
    obtain ⟨v, hstep, rfl⟩ := Option.map_eq_some_iff.1 h
    cases t with
    | execution key =>
      -- there is none
      simp [World.step, Engine.execution?, hidle] at hstep
    | replays =>
      refine replays_of_ledger ha ?_
      simp only [World.writeEvent?, answer?, Option.bind_assoc]
      simp only [← World.replayEvent?_eq]
    | shutdown =>
      refine replays_of_ledger ha ?_
      simp only [World.writeEvent?, answer?, Option.bind_assoc]
      simp only [← World.replayEvent?_eq]
    | _ => exact .still rfl rfl
  | disturb change =>
    cases h
    exact .still rfl rfl
  | wait now =>
    cases h
    exact .still rfl rfl
  | shutDown =>
    cases act_shutDown h
    exact .still rfl rfl
  | _ => cases hown

/-- After the last replay nothing is tried any more. -/
theorem attempt?_of_isOver (ha : Admits worker a.world)
    (hover : a.world.engine.shutdown.isOver = true) (action : Action σ) :
    attempt? worker action a = none := by
  obtain ⟨-, hjoined⟩ := ha.slots.of_closing (Shutdown.isClosing_of_isOver hover)
  have hstopped := (Engine.joinLoops_eq_ok_iff.1 hjoined).2.2.2
  have hnone : answer? worker action a = none := by
    unfold answer?
    split
    · rw [hstopped]
      rfl
    · rw [Shutdown.progress?_of_isOver hover, Option.bind_none]
    · rfl
  rw [attempt?, hnone, Option.bind_none]

theorem replays_of_own (h : a.act worker action = some b) (hown : action.isOwn = true) :
    b.replays = a.replays := by
  cases action with
  | step t eager draw =>
    obtain ⟨v, -, rfl⟩ := Option.map_eq_some_iff.1 h
    rfl
  | disturb change =>
    cases h
    rfl
  | wait now =>
    cases h
    rfl
  | shutDown => rw [act_shutDown h]
  | _ => cases hown

theorem waiting_eq_nil (ha : Sound worker a) (h : a.world.engine.queue.peek? = none) :
    a.waiting = [] := by
  have hitems := waiting_items ha
  rw [List.head?_eq_none_iff.1 h] at hitems
  exact List.map_eq_nil_iff.1 hitems

/-- A replay ends when it has emptied the queue, or with a write that is refused. -/
theorem stepReplay_ended {writer : Writer} {p : WriteProgress} {v : World σ}
    (h : World.stepReplay worker writer p w = some (.ended v)) :
    v.engine.queue.peek? = none ∨
      ∃ error, w.attempt? worker writer p = some (p.write, .error error) := by
  unfold World.stepReplay at h
  obtain ⟨r, hstep, hr⟩ := Option.map_eq_some_iff.1 h
  cases r with
  | goesOn p' u => cases hr
  | crashed u => cases hr
  | ended result u =>
    cases result with
    | error error => exact Or.inr ⟨error, by simp only [World.attempt?, hstep]⟩
    | ok _ =>
      simp only at hr
      split at hr
      · cases hr
      · rename_i hnone
        cases hr
        exact Or.inl hnone

/-- The last replay is over when the queue is empty, or when its oldest write is refused. -/
theorem act_isOver (h : a.act worker action = some b) (hown : action.isOwn = true)
    (ha : Sound worker a) (hadmits : Admits worker a.world) (hothers : a.replays = [])
    (hb : Sound worker b) (hopen : a.world.engine.shutdown.isOver = false)
    (hover : b.world.engine.shutdown.isOver = true) :
    b.waiting = [] ∨ ∃ e error, attempt? worker action a = some (e, .error error) := by
  have hchanged : b.world.engine.shutdown ≠ a.world.engine.shutdown := by
    intro hsame
    rw [hsame, hopen] at hover
    cases hover
  cases action with
  | step t eager draw =>
    obtain ⟨v, hstep, rfl⟩ := Option.map_eq_some_iff.1 h
    by_cases ht : t = .shutdown
    · subst ht
      cases World.stepShutdown_cases hstep with
      | unqueued hpoint hnone =>
        -- no replay is under way that could keep the shutdown from beginning one
        obtain ⟨-, hjoined⟩ := hadmits.slots.of_closing (by rw [hpoint]; rfl)
        have hnoReplay : a.desk.replays = [] := by
          rw [desk, Engine.desk, Engine.replaysWith, hothers, hpoint,
            (Engine.joinLoops_eq_ok_iff.1 hjoined).2.2.2]
          rfl
        have hidle : a.world.engine.replaying = false := by
          rcases ha.balanced.oneReplay with ⟨hidle, -⟩ | ⟨p, -, hone, -⟩
          · exact hidle
          · rw [hnoReplay] at hone
            cases hone
        rw [World.beginReplay, hidle, if_neg Bool.false_ne_true, Option.map_eq_none_iff] at hnone
        exact Or.inl (waiting_eq_nil hb hnone)
      | @lastReplayed p r hpoint hreplay =>
        cases r with
        | goesOn p' u => cases hover
        | crashed u => cases hover
        | ended u =>
          rcases stepReplay_ended hreplay with hempty | ⟨error, hattempt⟩
          · exact Or.inl (waiting_eq_nil hb hempty)
          · have hanswer : answer? worker (.step .shutdown eager draw) a =
                some (p.write, .error error) := by
              simp only [answer?, hpoint]
              exact hattempt
            obtain ⟨e, hrefused, -⟩ := attempt?_of_answer? ha hanswer
            exact Or.inr ⟨e, error, hrefused⟩
      | @replayed p r _ _ => cases r <;> cases hover
      | finished hpoint _ =>
        rw [hpoint] at hopen
        cases hopen
      | _ => cases hover
    · exact absurd ((World.step_points hstep).shutdown ht) hchanged
  | disturb change =>
    cases h
    exact absurd rfl hchanged
  | wait now =>
    cases h
    exact absurd rfl hchanged
  | shutDown =>
    cases act_shutDown h
    cases hover
  | _ => cases hown

/-! ## 3. What a run does to them -/

theorem attempts_append (hrun : run worker actions a = some c) (action : Action σ) :
    attempts worker (actions ++ [action]) a =
      attempts worker actions a ++ (attempt? worker action c).toList := by
  induction actions generalizing a with
  | nil =>
    cases hrun
    cases hact : c.act worker action <;> simp [attempts, hact]
  | cons first rest ih =>
    obtain ⟨b, hact, hrest⟩ := Option.bind_eq_some_iff.1 hrun
    simp only [List.cons_append, attempts, hact, Option.map_some, Option.getD_some, ih hrest,
      List.append_assoc]

theorem mem_attempts_append (hrun : run worker actions a = some c) :
    (e, result) ∈ attempts worker (actions ++ [action]) a ↔
      (e, result) ∈ attempts worker actions a ∨ attempt? worker action c = some (e, result) := by
  rw [attempts_append hrun, List.mem_append, Option.mem_toList]

/-- The writes that were waiting: those that replays have made since, and those that still wait. Only
the oldest of these can have been tried, and it has been when the last replay is over. -/
structure Progress (worker : Worker (Backend σ)) (a : Audit σ) (actions : List (Action σ))
    (b : Audit σ) (made : List (Nat × OutcomeWrite)) : Prop where
  split : a.waiting = made ++ b.waiting
  accepted : ∀ e ∈ made, (e, .ok ()) ∈ attempts worker actions a
  tried : ∀ e result, (e, result) ∈ attempts worker actions a →
    e ∈ made ∨ b.waiting.head? = some e
  settled : b.world.engine.shutdown.isOver = true → b.waiting = [] ∨
    ∃ e error, b.waiting.head? = some e ∧ (e, .error error) ∈ attempts worker actions a

theorem progress_nil (hopen : a.world.engine.shutdown.isOver = false) :
    Progress worker a [] a [] := by
  refine ⟨rfl, List.forall_mem_nil _, fun e result hmem => absurd hmem List.not_mem_nil, ?_⟩
  intro hover
  rw [hopen] at hover
  cases hover

section Next

variable {made : List (Nat × OutcomeWrite)} (h : Progress worker a actions c made)
  (hrun : run worker actions a = some c)

include hrun

theorem mem_attempts_later (hmem : (e, result) ∈ attempts worker actions a) :
    (e, result) ∈ attempts worker (actions ++ [action]) a :=
  (mem_attempts_append hrun).2 (Or.inl hmem)

include h

/-- The action tries the oldest write that waits, if any. -/
theorem Progress.tried_next (hmem : (e, result) ∈ attempts worker (actions ++ [action]) a) :
    e ∈ made ∨ c.waiting.head? = some e := by
  rcases (mem_attempts_append hrun).1 hmem with hold | hnew
  · exact h.tried e result hold
  · exact Or.inr (head?_of_attempt? hnew)

theorem Progress.settled_next (hover : c.world.engine.shutdown.isOver = true) :
    c.waiting = [] ∨ ∃ e error, c.waiting.head? = some e ∧
      (e, .error error) ∈ attempts worker (actions ++ [action]) a := by
  rcases h.settled hover with hempty | ⟨e, error, hfirst, hmem⟩
  · exact Or.inl hempty
  · exact Or.inr ⟨e, error, hfirst, mem_attempts_later hrun hmem⟩

theorem Progress.keep (hsame : d.waiting = c.waiting)
    (hsettled : d.world.engine.shutdown.isOver = true → d.waiting = [] ∨
      ∃ e error, d.waiting.head? = some e ∧
        (e, .error error) ∈ attempts worker (actions ++ [action]) a) :
    Progress worker a (actions ++ [action]) d made := by
  refine ⟨hsame ▸ h.split, fun e he => mem_attempts_later hrun (h.accepted e he), ?_, hsettled⟩
  intro e result hmem
  rw [hsame]
  exact h.tried_next hrun hmem

theorem Progress.make {e : Nat × OutcomeWrite}
    (hattempt : attempt? worker action c = some (e, .ok ())) (hwaiting : c.waiting = e :: d.waiting)
    (hsettled : d.world.engine.shutdown.isOver = true → d.waiting = []) :
    Progress worker a (actions ++ [action]) d (made ++ [e]) := by
  refine ⟨?_, ?_, ?_, fun hover => Or.inl (hsettled hover)⟩
  · rw [h.split, hwaiting, List.append_assoc, List.singleton_append]
  · intro e' he'
    rcases List.mem_append.1 he' with hold | hnew
    · exact mem_attempts_later hrun (h.accepted e' hold)
    · rw [List.mem_singleton.1 hnew]
      exact (mem_attempts_append hrun).2 (Or.inr hattempt)
  · -- the oldest write was this one
    intro e' result hmem
    rcases h.tried_next hrun hmem with hold | hfirst
    · exact Or.inl (List.mem_append_left _ hold)
    · rw [hwaiting] at hfirst
      cases hfirst
      exact Or.inl (List.mem_append_right _ (List.mem_singleton.2 rfl))

theorem Progress.act (hact : c.act worker action = some d) (hown : action.isOwn = true)
    (hc : Sound worker c) (hadmits : Admits worker c.world) (hothers : c.replays = [])
    (hidle : c.world.engine.executions = []) :
    ∃ made, Progress worker a (actions ++ [action]) d made := by
  -- the last replay was over before, or it ends now
  have hends : d.world.engine.shutdown.isOver = true → c.world.engine.shutdown.isOver = true ∨
      d.waiting = [] ∨ ∃ e error, attempt? worker action c = some (e, .error error) := by
    intro hover
    by_cases hwas : c.world.engine.shutdown.isOver = true
    · exact Or.inl hwas
    · rw [Bool.not_eq_true] at hwas
      exact Or.inr (act_isOver hact hown hc hadmits hothers (act_sound hact hc) hwas hover)
  cases act_replays hact hown hc hidle with
  | still hnone hsame =>
    refine ⟨made, h.keep hrun hsame fun hover => ?_⟩
    rcases hends hover with hwas | hempty | ⟨e, error, hattempt⟩
    · rw [hsame]
      exact h.settled_next hrun hwas
    · exact Or.inl hempty
    · rw [hnone] at hattempt
      cases hattempt
  | @refused e error hattempt hsame =>
    refine ⟨made, h.keep hrun hsame fun _ => Or.inr ⟨e, error, ?_, ?_⟩⟩
    · rw [hsame]
      exact head?_of_attempt? hattempt
    · exact (mem_attempts_append hrun).2 (Or.inr hattempt)
  | accepted hattempt hwaiting =>
    refine ⟨_, h.make hrun hattempt hwaiting fun hover => ?_⟩
    rcases hends hover with hwas | hempty | ⟨e, error, herror⟩
    · rw [attempt?_of_isOver hadmits hwas] at hattempt
      cases hattempt
    · exact hempty
    · rw [hattempt] at herror
      cases herror

end Next

/-- What the run keeps besides, while nothing is executed. -/
structure Idle (worker : Worker (Backend σ)) (a : Audit σ) : Prop where
  sound : Sound worker a
  admits : Admits worker a.world
  others : a.replays = []
  idle : a.world.engine.executions = []

theorem Idle.act (h : Idle worker a) (hact : a.act worker action = some b)
    (hown : action.isOwn = true) (hstarted : b.world.engine.started = a.world.engine.started) :
    Idle worker b := by
  obtain ⟨event, -, hmove⟩ := act_move hact h.sound.balanced.numbered
  exact ⟨act_sound hact h.sound, act_admits hact hown h.sound h.admits,
    (replays_of_own hact hown).trans h.others, hmove.idle h.idle hstarted⟩

/-- The induction is on the last action, since what was tried is told by the run so far. -/
theorem run_progress (h : Idle worker a) (hopen : a.world.engine.shutdown.isOver = false)
    (hrun : run worker actions a = some b) (hown : ∀ action ∈ actions, action.isOwn)
    (hlast : b.world.engine.started = a.world.engine.started) :
    Idle worker b ∧ ∃ made, Progress worker a actions b made := by
  induction actions using List.reverseRecOn generalizing b with
  | nil =>
    cases hrun
    exact ⟨h, [], progress_nil hopen⟩
  | append_singleton actions action ih =>
    rw [run_append] at hrun
    obtain ⟨c, hc, hlastAction⟩ := Option.bind_eq_some_iff.1 hrun
    obtain ⟨d, hact, hd⟩ := Option.bind_eq_some_iff.1 hlastAction
    cases hd
    have hown' : ∀ action ∈ actions, action.isOwn := fun x hx => hown x (List.mem_append_left _ hx)
    have hownLast : action.isOwn = true :=
      hown action (List.mem_append_right _ (List.mem_singleton.2 rfl))
    -- nothing is started in the whole run, so neither before the last action nor in it
    have hle := run_started_le hc h.sound
    have hle' := act_started_le hact (run_sound hc h.sound)
    obtain ⟨hidle, made, hprogress⟩ := ih hc hown' (by omega)
    exact ⟨hidle.act hact hownLast (by omega), hprogress.act hc hact hownLast hidle.sound
      hidle.admits hidle.others hidle.idle⟩

/-! ## 4. What the last replay reaches -/

section Reached

variable {made : List (Nat × OutcomeWrite)} (h : Progress worker a actions b made)
  (hover : b.world.engine.shutdown.isOver = true)

include h

/-- The writes behind the oldest one that still waits have not been tried. -/
theorem Progress.untried (honce : a.waiting.Nodup) (he : e ∈ b.waiting.tail) :
    (e, result) ∉ attempts worker actions a := by
  intro hmem
  rw [h.split] at honce
  rcases h.tried e result hmem with hmade | hfirst
  · exact List.disjoint_of_nodup_append honce hmade (List.mem_of_mem_tail he)
  · obtain ⟨rest, hrest⟩ := List.head?_eq_some_iff.1 hfirst
    have hnot := (List.nodup_cons.1 (hrest ▸ (List.nodup_append.1 honce).2.1)).1
    rw [hrest] at he
    exact hnot he

include hover

theorem Progress.refused (hfirst : b.waiting.head? = some e) :
    ∃ error, (e, .error error) ∈ attempts worker actions a := by
  rcases h.settled hover with hempty | ⟨first, error, hhead, hmem⟩
  · rw [hempty] at hfirst
    cases hfirst
  · cases hhead.symm.trans hfirst
    exact ⟨error, hmem⟩

theorem Progress.all_tried_iff (honce : a.waiting.Nodup) :
    (∀ e ∈ a.waiting, ∃ result, (e, result) ∈ attempts worker actions a) ↔
      b.waiting.length ≤ 1 := by
  constructor
  · intro hall
    by_contra hlong
    -- the second one that waits has not been tried
    have hsecond : b.waiting.tail ≠ [] := by
      rw [← List.length_pos_iff, List.length_tail]
      omega
    have hmem := List.head_mem hsecond
    obtain ⟨result, hattempt⟩ := hall _ (by
      rw [h.split]
      exact List.mem_append_right _ (List.mem_of_mem_tail hmem))
    exact h.untried honce hmem hattempt
  · intro hshort e he
    rw [h.split] at he
    rcases List.mem_append.1 he with hmade | hwaits
    · exact ⟨_, h.accepted e hmade⟩
    · -- it is the only one that waits
      have hfirst : b.waiting.head? = some e := by
        cases hwaiting : b.waiting with
        | nil =>
          rw [hwaiting] at hwaits
          cases hwaits
        | cons first rest =>
          rw [hwaiting] at hwaits hshort
          have hrest : rest = [] := by simpa using hshort
          rw [hrest, List.mem_singleton] at hwaits
          rw [hwaits, List.head?_cons]
      obtain ⟨error, hmem⟩ := h.refused hover hfirst
      exact ⟨_, hmem⟩

/-- What the answers to the writes would be tells which of them wait in the end. -/
theorem Progress.waiting_eq {accepts : Nat × OutcomeWrite → Bool}
    (hanswers : ∀ e result, (e, result) ∈ attempts worker actions a →
      (accepts e = true ↔ result = .ok ())) :
    b.waiting = a.waiting.dropWhile accepts := by
  have hmade : ∀ e ∈ made, accepts e = true := fun e he =>
    (hanswers e _ (h.accepted e he)).2 rfl
  rw [h.split, List.dropWhile_append_of_pos hmade]
  cases hwaiting : b.waiting with
  | nil => rfl
  | cons first rest =>
    obtain ⟨error, hmem⟩ := h.refused hover (hwaiting ▸ rfl : b.waiting.head? = some first)
    have hrefused : ¬ accepts first = true := fun haccepts =>
      nomatch (hanswers first _ hmem).1 haccepts
    rw [List.dropWhile_cons_of_neg hrefused]

end Reached

/-- **How far the last replay gets.** From a moment on nothing is executed or started any more, and
the shutdown returns without an error. Replays have then made the oldest writes of the queue, up to
one that was refused, if any is left. The writes behind it have not been tried since that moment. So
all writes have been tried exactly if at most one is left, and if each write has one answer, those
from the first that is refused are left. -/
theorem last_replay_stops_at_refusal {state : σ} {origin : Instant}
    (hstart : World.start worker state origin = .ok w)
    (hown : ∀ action ∈ before ++ after, action.isOwn)
    (hbefore : run worker before { world := w } = some a) (hafter : run worker after a = some b)
    (hidle : a.world.engine.executions = [])
    (hopen : a.world.engine.shutdown.isClosing = false)
    (hstarted : b.world.engine.started = a.world.engine.started)
    (hreturned : b.world.engine.shutdown = .returned (.ok ())) :
    ∃ made, a.waiting = made ++ b.waiting ∧
      a.waiting.map (·.2) = a.world.engine.queue.items ∧
      b.waiting.map (·.2) = b.world.engine.queue.items ∧
      (∀ e ∈ made, (e, .ok ()) ∈ attempts worker after a) ∧
      (∀ e, b.waiting.head? = some e →
        ∃ error, (e, .error error) ∈ attempts worker after a) ∧
      (∀ e ∈ b.waiting.tail, ∀ result, (e, result) ∉ attempts worker after a) ∧
      ((∀ e ∈ a.waiting, ∃ result, (e, result) ∈ attempts worker after a) ↔
        b.waiting.length ≤ 1) ∧
      ∀ accepts : Nat × OutcomeWrite → Bool,
        (∀ e result, (e, result) ∈ attempts worker after a →
          (accepts e = true ↔ result = .ok ())) →
        b.waiting = a.waiting.dropWhile accepts := by
  have hownBefore : ∀ action ∈ before, action.isOwn := fun action hmem =>
    hown action (List.mem_append_left _ hmem)
  have hownAfter : ∀ action ∈ after, action.isOwn := fun action hmem =>
    hown action (List.mem_append_right _ hmem)
  have hothers : a.replays = [] := run_keeps (P := fun c => c.replays = []) hbefore
    (fun action hmem _ _ hact hnone => (replays_of_own hact (hownBefore action hmem)).trans hnone)
    rfl
  have ha : Idle worker a :=
    ⟨run_sound hbefore (start_sound hstart),
      run_admits hbefore hownBefore (start_sound hstart) (start_admits hstart), hothers, hidle⟩
  have hnotOver : a.world.engine.shutdown.isOver = false := by
    by_contra hover
    rw [Bool.not_eq_false] at hover
    rw [Shutdown.isClosing_of_isOver hover] at hopen
    cases hopen
  have hover : b.world.engine.shutdown.isOver = true := by rw [hreturned]; rfl
  obtain ⟨hb, made, hprogress⟩ := run_progress ha hnotOver hafter hownAfter hstarted
  have honce := waiting_nodup ha.sound
  exact ⟨made, hprogress.split, waiting_items ha.sound, waiting_items hb.sound, hprogress.accepted,
    fun _ => hprogress.refused hover, fun _ he _ => hprogress.untried honce he,
    hprogress.all_tried_iff hover honce, fun _ => hprogress.waiting_eq hover⟩

/-- A worker whose backend is out of order at times. Its queue has room for two writes. -/
def jammed : Worker (Backend (Faulty Store)) where
  id := ⟨.ofNat 1⟩
  backend := Store.backend.faulty 0
  config := { tightConfig with retryQueueCapacity := 2 }
  registry := (handyman (fun _ => .made) .done).registry
  pipeline := ⟨[], false⟩

/-- A completion fails until one time, and a retry until another. -/
def outage (complete retry : Option Nat) : List BackendFault :=
  [{ kind := .complete, stop := complete, result := .error .badState },
    { kind := .retry, stop := retry, result := .error .badState }]

/-- A job without a handler, which is due at five milliseconds. -/
def stray : Job :=
  { NewJob.plain 2 with
    jobType := "stray"
    scheduledAt := ⟨5000000, by decide, by decide⟩ }.toJob .epoch

/-- A job is completed, and then another one fails. -/
def twoJobs : List (Action (Faulty Store)) :=
  List.replicate 4 (.step .claims false 0) ++ List.replicate 5 (.step (.execution 0) false 0) ++
    .wait 5 :: List.replicate 4 (.step .claims false 0) ++
    List.replicate 3 (.step (.execution 1) false 0)

/-- At ten milliseconds the worker is told to stop, and the shutdown takes some steps. -/
def ceasing (steps : Nat) : List (Action (Faulty Store)) :=
  [.wait 10, .shutDown, .step .claims false 0, .step .heartbeats false 0,
    .step .reclaims false 0, .step .replays false 0] ++
    List.replicate steps (.step .shutdown false 0)

/-- Whether the worker executes both jobs and then shuts down without an error, and what is there
before and after the shutdown has the given property. -/
def ceases (faults : List BackendFault) (steps : Nat)
    (p : Audit (Faulty Store) → Audit (Faulty Store) → Bool) : Bool :=
  match World.start jammed ⟨{ jobs := [chore none, stray] }, .epoch, faults⟩ .epoch with
  | .error _ => false
  | .ok w =>
    (run jammed twoJobs { world := w }).any fun a =>
      (run jammed (ceasing steps) a).any fun b =>
        a.world.engine.executions.isEmpty && a.world.engine.shutdown.isClosing == false &&
          b.world.engine.started == a.world.engine.started &&
          b.world.engine.shutdown.succeeded && p a b

theorem exists_of_ceases {faults : List BackendFault} {steps : Nat}
    {p : Audit (Faulty Store) → Audit (Faulty Store) → Bool} (h : ceases faults steps p = true) :
    ∃ w a b,
      World.start jammed ⟨{ jobs := [chore none, stray] }, .epoch, faults⟩ .epoch = .ok w ∧
      (∀ action ∈ twoJobs ++ ceasing steps, action.isOwn) ∧
      run jammed twoJobs { world := w } = some a ∧ run jammed (ceasing steps) a = some b ∧
      a.world.engine.executions = [] ∧ a.world.engine.shutdown.isClosing = false ∧
      b.world.engine.started = a.world.engine.started ∧
      b.world.engine.shutdown = .returned (.ok ()) ∧ p a b = true := by
  unfold ceases at h
  split at h
  · cases h
  · rename_i w hstart
    simp only [Option.any_eq_true, Bool.and_eq_true, List.isEmpty_iff, beq_iff_eq] at h
    obtain ⟨a, hbefore, b, hafter, ⟨⟨⟨hidle, hopen⟩, hstarted⟩, hreturned⟩, hp⟩ := h
    refine ⟨w, a, b, hstart, ?_, hbefore, hafter, hidle, hopen, hstarted,
      Shutdown.eq_of_succeeded hreturned, hp⟩
    simp [twoJobs, ceasing, Action.isOwn, or_imp, forall_and]

/-- A backend that completes jobs again, but still does not retry them: the last replay tries both
writes. -/
theorem last_replay_tries_both :
    ∃ w a b made kept,
      World.start jammed ⟨{ jobs := [chore none, stray] }, .epoch, outage (some 10) none⟩ .epoch =
        .ok w ∧
      run jammed twoJobs { world := w } = some a ∧ run jammed (ceasing 5) a = some b ∧
      a.waiting = [made, kept] ∧ b.waiting = [kept] ∧
      ∀ e ∈ [made, kept], ∃ result, (e, result) ∈ attempts jammed (ceasing 5) a := by
  have hceases : ceases (outage (some 10) none) 5 (fun a b =>
      a.waiting.length == 2 && b.waiting.length == 1) = true := by decide +kernel
  obtain ⟨w, a, b, hstart, hown, hbefore, hafter, hidle, hopen, hstarted, hreturned, hp⟩ :=
    exists_of_ceases hceases
  simp only [Bool.and_eq_true, beq_iff_eq] at hp
  obtain ⟨htwo, hone⟩ := hp
  obtain ⟨replayed, hsplit, -, -, -, -, -, hall, -⟩ :=
    last_replay_stops_at_refusal hstart hown hbefore hafter hidle hopen hstarted hreturned
  obtain ⟨kept, hkept⟩ := List.length_eq_one_iff.1 hone
  obtain ⟨made, hmade⟩ : ∃ made, replayed = [made] := by
    rw [hsplit, List.length_append] at htwo
    exact List.length_eq_one_iff.1 (by omega)
  have hwaiting : a.waiting = [made, kept] := by rw [hsplit, hmade, hkept, List.singleton_append]
  exact ⟨w, a, b, made, kept, hstart, hbefore, hafter, hwaiting, hkept,
    hwaiting ▸ hall.2 (Nat.le_of_eq hone)⟩

/-- A backend that retries jobs again, but still does not complete them: the last replay stops at
the completion. The retry, which the backend would accept, is not tried and stays in the queue. -/
theorem last_replay_misses_retry :
    ∃ w a b e,
      World.start jammed ⟨{ jobs := [chore none, stray] }, .epoch, outage none (some 10)⟩ .epoch =
        .ok w ∧
      (∀ action ∈ twoJobs ++ ceasing 4, action.isOwn) ∧
      run jammed twoJobs { world := w } = some a ∧ run jammed (ceasing 4) a = some b ∧
      a.world.engine.executions = [] ∧ a.world.engine.shutdown.isClosing = false ∧
      b.world.engine.started = a.world.engine.started ∧
      b.world.engine.shutdown = .returned (.ok ()) ∧
      e ∈ a.waiting ∧ e ∈ b.waiting ∧
      (∀ result, (e, result) ∉ attempts jammed (ceasing 4) a) ∧
      (e.2.perform false (fun c w => w.ask jammed.backend c) b.world).1.isOk = true := by
  have hceases : ceases (outage none (some 10)) 4 (fun a b => b.waiting.any fun e =>
      decide (e ∈ a.waiting) && (attempts jammed (ceasing 4) a).all (·.1 ≠ e) &&
        (e.2.perform false (fun c w => w.ask jammed.backend c) b.world).1.isOk) = true := by
    decide +kernel
  obtain ⟨w, a, b, hstart, hown, hbefore, hafter, hidle, hopen, hstarted, hreturned, hp⟩ :=
    exists_of_ceases hceases
  simp only [Bool.and_eq_true, List.any_eq_true, List.all_eq_true, decide_eq_true_eq] at hp
  obtain ⟨e, hleft, ⟨hwaits, huntried⟩, haccepted⟩ := hp
  exact ⟨w, a, b, e, hstart, hown, hbefore, hafter, hidle, hopen, hstarted, hreturned, hwaits,
    hleft, fun result hmem => huntried _ hmem rfl, haccepted⟩

end Audit

end JobQueue
