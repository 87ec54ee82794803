import JobQueue.Proofs.Store.Life
import JobQueue.Proofs.Worker.Frame

/-!
# What the log says of the calls

The log only grows, and a step of a task adds calls of its own kind to it and no others. So the jobs
that a worker has claimed can be read off the log, and only one task adds to them.
-/

namespace JobQueue

/-- The jobs that the worker gets. -/
def Event.claimed : Event → List ClaimedJob
  | .asked c answer => c.handedOut answer
  | _ => []

theorem Event.claimed_eq_nil {c : Call} (a : Answer c.Result) (hc : c.isClaim = false) :
    (Event.asked c a).claimed = [] := by
  cases c with
  | claim owner limit now => cases hc
  | _ => rfl

variable {σ : Type}

namespace World

/-- The jobs that the worker has claimed, in the order in which it got them. -/
def claimed (w : World σ) : List ClaimedJob := w.log.reverse.flatMap (·.2.claimed)

/-- On the way from one world to the other such calls have been made and no others. -/
def Asked (asks : Call → Bool) (w w' : World σ) : Prop :=
  ∃ events, w'.log = events ++ w.log ∧
    ∀ t c a, (t, Event.asked c a) ∈ events → asks c = true

variable {worker : Worker (Backend σ)} {w w' : World σ} {asks : Call → Bool}

theorem ask_log {b : Backend σ} {c : Call} {a : Answer c.Result} (h : w.ask b c = (a, w')) :
    w'.log = (w.now, .asked c a) :: w.log := by
  have hafter : (w.ask b c).2.log = (w.now, .asked c (w.ask b c).1) :: w.log := rfl
  rwa [h] at hafter

theorem claimed_record (w : World σ) (e : Event) :
    (w.record e).claimed = w.claimed ++ e.claimed := by
  simp [claimed, record]

theorem claimed_ask {b : Backend σ} {c : Call} {a : Answer c.Result} (h : w.ask b c = (a, w')) :
    w'.claimed = w.claimed ++ (Event.asked c a).claimed := by
  have hafter : (w.ask b c).2.claimed = w.claimed ++ (Event.asked c (w.ask b c).1).claimed :=
    claimed_record _ _
  rwa [h] at hafter

theorem Asked.refl (asks : Call → Bool) (w : World σ) : Asked asks w w :=
  ⟨[], rfl, fun _ _ _ h => nomatch h⟩

theorem asked_frame (b : Backend σ) (t : Task) (w : World σ) :
    Frame b t.asks t.notes (Asked t.asks w) := by
  refine ⟨fun v f h _ _ => h, ?_, ?_⟩
  · rintro v e ⟨events, hlog, hcalls⟩ hnotes
    have he := Task.isCall_of_notes hnotes
    refine ⟨(v.now, e) :: events, congrArg _ hlog, ?_⟩
    intro t c a hmem
    rcases List.mem_cons.1 hmem with heq | hmem
    · cases heq
      cases he
    · exact hcalls t c a hmem
  · rintro v c ⟨events, hlog, hcalls⟩ hc
    refine ⟨(v.now, .asked c (b.answer v.clock c v.state).1) :: events, congrArg _ hlog, ?_⟩
    intro t c' a hmem
    rcases List.mem_cons.1 hmem with heq | hmem
    · cases heq
      exact hc
    · exact hcalls t c' a hmem

/-- A step of a task makes the calls of that task only. -/
theorem step_asked {t : Task} {eager : Bool} {draw : Int}
    (h : w.step worker t eager draw = some w') : Asked t.asks w w' := by
  by_cases ht : t = .heartbeats
  · subst ht
    obtain ⟨next, rfl | rfl⟩ := stepHeartbeats_asks h
    · exact Asked.refl _ w
    · exact (asked_frame worker.backend .heartbeats w).ask w _ (Asked.refl _ w) rfl
  · exact step_frame ht (asked_frame worker.backend t w) (Asked.refl _ w) h

theorem Task.not_isClaim_of_asks {t : Task} (ht : t ≠ .claims) {c : Call} (hc : t.asks c = true) :
    c.isClaim = false := by
  cases t with
  | claims => exact absurd rfl ht
  | _ => cases c <;> first | rfl | cases hc

theorem Asked.claimed_eq (h : Asked asks w w') (hasks : ∀ c, asks c = true → c.isClaim = false) :
    w'.claimed = w.claimed := by
  obtain ⟨events, hlog, hcalls⟩ := h
  have hnone : events.reverse.flatMap (·.2.claimed) = [] := by
    rw [List.flatMap_eq_nil_iff]
    rintro ⟨t, e⟩ he
    cases e with
    | asked c a =>
      exact Event.claimed_eq_nil a (hasks c (hcalls t c a (List.mem_reverse.1 he)))
    | _ => rfl
  rw [claimed, hlog, List.reverse_append, List.flatMap_append, hnone, List.append_nil, claimed]

/-- No task but the one for it adds to the jobs that are claimed. -/
theorem step_claimed_eq {t : Task} {eager : Bool} {draw : Int} (ht : t ≠ .claims)
    (h : w.step worker t eager draw = some w') : w'.claimed = w.claimed :=
  (step_asked h).claimed_eq fun _ => Task.not_isClaim_of_asks ht

end World

end JobQueue
