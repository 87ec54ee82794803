import JobQueue.Proofs.Worker.Slots

/-!
# The timeline is a run

The timeline is one way for the tasks of a worker to take turns. It does nothing but let tasks take
their steps, let time go on, and tell the worker to stop. So it is a run, whatever others do to the
backend meanwhile, and what is said of all runs is said of it.
-/

namespace JobQueue

variable {σ : Type}

/-! ## 1. What a timeline keeps -/

namespace World

variable {worker : Worker (Backend σ)} {w : World σ}

section Keeps

variable {P : World σ → Prop}
  (hstep : ∀ {w w' : World σ} {t eager draw}, w.step worker t eager draw = some w' → P w → P w')

include hstep

theorem settle_keeps (fuel : Nat) (before : List Task) (h : P w) :
    P (w.settle worker fuel before) := by
  induction fuel generalizing w before with
  | zero => exact h
  | succ fuel ih =>
    unfold settle
    split
    · exact h
    · split
      · exact h
      · split
        · exact h
        -- whichever task has its turn, this is a step of it
        · rename_i hnext
          exact ih _ (hstep hnext h)

theorem advanceShutdown_keeps (fuel : Nat) (h : P w) : P (w.advanceShutdown worker fuel) := by
  induction fuel generalizing w with
  | zero => exact h
  | succ fuel ih =>
    unfold advanceShutdown
    split
    · exact h
    · rename_i hnext
      exact ih (hstep hnext h)

theorem runUntil_keeps (hwait : ∀ {w : World σ} (now : Nat), P w → P { w with now })
    (steps fuel target : Nat) (h : P w) : P (w.runUntil worker steps fuel target) := by
  induction fuel generalizing w with
  | zero => exact h
  | succ fuel ih =>
    have hsettled := settle_keeps hstep steps [] h
    unfold runUntil
    dsimp only
    split
    · exact h
    · split
      · exact hsettled
      · split
        · split
          -- time jumps to a timer, or to the target if none rings before it
          · exact ih (hwait _ hsettled)
          · exact hwait _ hsettled
        · exact hwait _ hsettled

/-- Lets the worker run up to some times, and others change the state of the backend at each. -/
def runWith (worker : Worker (Backend σ)) (steps fuel : Nat) (script : List (Nat × (σ → σ)))
    (w : World σ) : World σ :=
  script.foldl (fun w (target, change) =>
    let w := w.runUntil worker steps fuel target
    { w with state := change w.state }) w

theorem runWith_keeps (hwait : ∀ {w : World σ} (now : Nat), P w → P { w with now })
    (hchange : ∀ {w : World σ} (change : σ → σ), P w → P { w with state := change w.state })
    (steps fuel : Nat) (script : List (Nat × (σ → σ))) (h : P w) :
    P (w.runWith worker steps fuel script) := by
  induction script generalizing w with
  | nil => exact h
  | cons entry rest ih =>
    exact ih (hchange entry.2 (runUntil_keeps hstep hwait steps fuel entry.1 h))

end Keeps

/-- No step begins a shutdown. -/
theorem step_notRequested {w' : World σ} {t : Task} {eager : Bool} {draw : Int}
    (h : w.step worker t eager draw = some w') (hopen : w.engine.shutdown = .notRequested) :
    w'.engine.shutdown = .notRequested := by
  by_cases ht : t = .shutdown
  · subst ht
    have hnone : w.stepShutdown worker eager = none := by
      unfold stepShutdown
      rw [hopen]
    cases hnone.symm.trans h
  · rw [(step_points h).shutdown ht, hopen]

end World

/-! ## 2. Where actions lead -/

namespace Audit

variable {worker : Worker (Backend σ)} {a : Audit σ} {w w' : World σ}

/-- A worker that is left to itself can come to a world. -/
def Leads (worker : Worker (Backend σ)) (a : Audit σ) (w : World σ) : Prop :=
  ∃ actions b, (∀ action ∈ actions, action.isOwn) ∧ run worker actions a = some b ∧ b.world = w

namespace Leads

theorem refl (worker : Worker (Backend σ)) (a : Audit σ) : Leads worker a a.world :=
  ⟨[], a, List.forall_mem_nil _, rfl, rfl⟩

theorem act (action : Action σ) (hown : action.isOwn)
    (hact : ∀ b : Audit σ, b.world = w → ∃ c, b.act worker action = some c ∧ c.world = w')
    (h : Leads worker a w) : Leads worker a w' := by
  obtain ⟨actions, b, hactions, hrun, hb⟩ := h
  obtain ⟨c, hc, hworld⟩ := hact b hb
  refine ⟨actions ++ [action], c, ?_, ?_, hworld⟩
  · intro x hx
    rcases List.mem_append.1 hx with hx | hx
    · exact hactions x hx
    · exact List.mem_singleton.1 hx ▸ hown
  · rw [run_append, hrun, Option.bind_some, run, hc]
    rfl

theorem step {t : Task} {eager : Bool} {draw : Int} (hstep : w.step worker t eager draw = some w')
    (h : Leads worker a w) : Leads worker a w' := by
  refine h.act (.step t eager draw) rfl ?_
  rintro b rfl
  exact ⟨_, congrArg (Option.map _) hstep, rfl⟩

theorem wait (now : Nat) (h : Leads worker a w) : Leads worker a { w with now } := by
  refine h.act (.wait now) rfl ?_
  rintro b rfl
  exact ⟨_, rfl, rfl⟩

theorem disturb (change : σ → σ) (h : Leads worker a w) :
    Leads worker a { w with state := change w.state } := by
  refine h.act (.disturb change) rfl ?_
  rintro b rfl
  exact ⟨_, rfl, rfl⟩

theorem requestShutdown (hopen : w.engine.shutdown = .notRequested) (h : Leads worker a w) :
    Leads worker a w.requestShutdown := by
  refine h.act .shutDown rfl ?_
  rintro b rfl
  refine ⟨{ b with world := b.world.requestShutdown }, ?_, rfl⟩
  simp only [Audit.act, hopen]

theorem settle (fuel : Nat) (before : List Task) (h : Leads worker a w) :
    Leads worker a (w.settle worker fuel before) :=
  World.settle_keeps step fuel before h

theorem runUntil (steps fuel target : Nat) (h : Leads worker a w) :
    Leads worker a (w.runUntil worker steps fuel target) :=
  World.runUntil_keeps step wait steps fuel target h

theorem runWith (steps fuel : Nat) (script : List (Nat × (σ → σ))) (h : Leads worker a w) :
    Leads worker a (w.runWith worker steps fuel script) :=
  World.runWith_keeps step wait disturb steps fuel script h

theorem shutDown (hopen : w.engine.shutdown = .notRequested) (steps fuel limit : Nat)
    (h : Leads worker a w) : Leads worker a (w.shutDown worker steps fuel limit) :=
  World.advanceShutdown_keeps step steps ((h.requestShutdown hopen).runUntil steps fuel _)

end Leads

/-- **The timeline is a run.** A worker that is started, runs while others change the state of its
backend at some times, and is shut down, comes to where some actions of its own lead. -/
theorem leads_timeline {state : σ} {origin : Instant}
    (hstart : World.start worker state origin = .ok w) (script : List (Nat × (σ → σ)))
    (steps fuel limit : Nat) :
    ∃ actions a, (∀ action ∈ actions, action.isOwn) ∧
      run worker actions { world := w } = some a ∧
      a.world = (w.runWith worker steps fuel script).shutDown worker steps fuel limit := by
  have hopen : w.engine.shutdown = .notRequested := by
    rw [engine_of_start hstart]
    rfl
  -- it can be told to stop in the end, since it has not been told so before
  have hstill : (w.runWith worker steps fuel script).engine.shutdown = .notRequested :=
    World.runWith_keeps (P := fun w => w.engine.shutdown = .notRequested)
      World.step_notRequested (fun _ h => h) (fun _ h => h) steps fuel script hopen
  have hruns := (Leads.refl worker { world := w }).runWith steps fuel script
  exact hruns.shutDown hstill steps fuel limit

end Audit

end JobQueue
