import JobQueue.Proofs.Worker.Frame

/-!
# Steps without a sign of life

Only one task of a worker sends signs of life, and only that task and the request to shut down
show whether and when the next one is due. `Quiet` is what every step of every other task keeps,
whatever the backend is.
-/

namespace JobQueue

variable {σ : Type}

/-- The state of a backend after some calls at one time of the clock. -/
def Backend.answerAll (b : Backend σ) (clock : Instant) (calls : List Call) (s : σ) : σ :=
  calls.foldl (fun s c => (b.answer clock c s).2) s

namespace World

/-- The time stands still, the signs of life are planned as before, and the state has changed by
calls that are none. -/
structure Quiet (b : Backend σ) (w w' : World σ) : Prop where
  origin : w'.origin = w.origin
  now : w'.now = w.now
  cancelled : w'.engine.cancelled = w.engine.cancelled
  heartbeats : w'.engine.heartbeats = w.engine.heartbeats
  calls : ∃ calls : List Call, (∀ c ∈ calls, c.isBeat = false) ∧
    w'.state = b.answerAll w.clock calls w.state

variable {b : Backend σ} {worker : Worker (Backend σ)} {w w' : World σ}

theorem Quiet.refl (b : Backend σ) (w : World σ) : Quiet b w w :=
  ⟨rfl, rfl, rfl, rfl, [], List.forall_mem_nil _, rfl⟩

theorem Quiet.clock_eq (h : Quiet b w w') : w'.clock = w.clock := by
  rw [clock, clock, h.origin, h.now]

/-- A call that is no sign of life comes after those that have been made. -/
theorem Quiet.ask (h : Quiet b w w') {c : Call} (hc : c.isBeat = false) :
    Quiet b w (w'.ask b c).2 := by
  obtain ⟨calls, hcalls, hstate⟩ := h.calls
  refine ⟨h.origin, h.now, h.cancelled, h.heartbeats, calls ++ [c], ?_, ?_⟩
  · intro d hd
    rcases List.mem_append.1 hd with hd | hd
    · exact hcalls d hd
    · exact List.mem_singleton.1 hd ▸ hc
  · show (b.answer w'.clock c w'.state).2 = _
    rw [hstate, h.clock_eq, Backend.answerAll, Backend.answerAll, List.foldl_append]
    rfl

theorem quiet_frame (b : Backend σ) {asks : Call → Bool} {notes : Event → Bool}
    (hasks : ∀ c, asks c = true → c.isBeat = false) (w : World σ) :
    Frame b asks notes (Quiet b w) := by
  refine ⟨?_, ?_, ?_⟩
  · intro v f h hcancelled hheartbeats
    exact ⟨h.origin, h.now, hcancelled.trans h.cancelled, hheartbeats.trans h.heartbeats, h.calls⟩
  · intro v e h _
    exact ⟨h.origin, h.now, h.cancelled, h.heartbeats, h.calls⟩
  · intro v c h hc
    exact h.ask (hasks c hc)

/-- No task but the one for it sends a sign of life or changes when the next one is due. -/
theorem step_quiet {t : Task} {eager : Bool} {draw : Int} (ht : t ≠ .heartbeats)
    (h : w.step worker t eager draw = some w') : Quiet worker.backend w w' :=
  step_frame ht (quiet_frame worker.backend (fun _ => Task.isBeat_of_asks ht) w)
    (Quiet.refl worker.backend w) h

end World

end JobQueue
