import JobQueue.Proofs.Worker.Execution

/-!
# Recurrent jobs and their expressions

A worker computes the next occurrence of a recurrent job from the expression that the job had when
it was claimed. Enqueuing the job anew replaces the stored expression, and leaves the schedule of a
job that is processing to its worker. The job so follows the expression that it has got only if that
one has the same next occurrence as the old one.
-/

namespace JobQueue

/-! ## 1. Following an expression -/

/-- What asking an expression for its next occurrence comes to. An invalid one has none. -/
def Cron.nextOf (expression : String) (now : Instant) : Cron.Next :=
  match Cron.Schedule.ofText? expression with
  | none => .never
  | some schedule => schedule.next now

/-- The job stands as a recurrent job should whose next occurrence is this one: it is scheduled for
it, with its attempts counted anew, or has failed because there is none. -/
def Job.ReturnsAt (j : Job) : Cron.Next → Prop
  | .at t => j.status = .scheduled ∧ j.attempt = 0 ∧ j.scheduledAt = t ∧ j.owner = none
  | .never => j.status = .failed ∧ j.owner = none
  | .overflow => False

instance (j : Job) : (n : Cron.Next) → Decidable (j.ReturnsAt n)
  | .at _ => inferInstanceAs (Decidable (_ ∧ _ ∧ _ ∧ _))
  | .never => inferInstanceAs (Decidable (_ ∧ _))
  | .overflow => inferInstanceAs (Decidable False)

/-- A job stands right for one occurrence at most. -/
theorem Job.ReturnsAt.unique {j : Job} {n n' : Cron.Next} (h : j.ReturnsAt n)
    (h' : j.ReturnsAt n') : n = n' := by
  unfold ReturnsAt at h h'
  split at h
  · obtain ⟨hscheduled, -, ht, -⟩ := h
    split at h'
    · rw [← ht, h'.2.2.1]
    · rw [hscheduled] at h'
      cases h'.1
    · exact h'.elim
  · split at h'
    · rw [h.1] at h'
      cases h'.1
    · rfl
    · exact h'.elim
  · exact h.elim

/-! ## 2. The write of a recurrent job -/

section Write

variable {job : ClaimedJob} {policy : RetryPolicy} {clock : Instant}
  {failure : Option Failure} {write : OutcomeWrite} {cron : String} {s : Store} {j : Job}

/-- The write of a recurrent job puts it back to the schedule or fails it, as the expression says
that it was claimed with. -/
theorem ClaimedJob.EndsIn.of_recurrent (h : job.EndsIn policy clock failure write)
    (hcron : job.cron = some cron) :
    (∃ t text, write = .reschedule job.processing t text ∧ Cron.nextOf cron clock = .at t) ∨
      ∃ text, write = .fail job.processing text ∧ Cron.nextOf cron clock = .never := by
  cases h with
  | completed honce =>
    rw [hcron] at honce
    cases honce
  | retried honce _ _ =>
    rw [hcron] at honce
    cases honce
  | failed honce _ =>
    rw [hcron] at honce
    cases honce
  | @rescheduled _ cron' schedule t hcron' hvalid hnext =>
    rw [hcron] at hcron'
    cases hcron'
    refine Or.inl ⟨t, _, rfl, ?_⟩
    simp only [Cron.nextOf, hvalid, hnext]
  | refused hcron' hinvalid =>
    rw [hcron] at hcron'
    cases hcron'
    obtain ⟨text, htext⟩ := job.endRecurrence_eq failure (.invalid cron)
    refine Or.inr ⟨text, htext, ?_⟩
    simp only [Cron.nextOf, hinvalid]
  | exhausted hcron' hvalid hnever =>
    rw [hcron] at hcron'
    cases hcron'
    obtain ⟨text, htext⟩ := job.endRecurrence_eq failure (.exhausted cron)
    refine Or.inr ⟨text, htext, ?_⟩
    simp only [Cron.nextOf, hvalid, hnever]

/-- Once it is made, the job stands where that expression says. -/
theorem ClaimedJob.EndsIn.returnsAt (h : job.EndsIn policy clock failure write)
    (hcron : job.cron = some cron) (hstored : s.get? job.id = some j)
    (howned : j.isOwnedBy job.processing) (delete : Bool) (now : Instant) :
    ∃ s' j', write.perform delete (Store.answer now) s = (.ok (), s') ∧
      s'.get? job.id = some j' ∧ j'.cron = j.cron ∧ j'.ReturnsAt (Cron.nextOf cron clock) := by
  rcases h.of_recurrent hcron with ⟨t, text, rfl, hat⟩ | ⟨text, rfl, hnever⟩
  · refine ⟨_, { j.putBack t now with attempt := 0, lastError := text }, rfl, ?_, rfl, ?_⟩
    · exact Store.get?_updateIf_owned (fun _ => rfl) hstored howned
    · rw [hat]
      exact ⟨rfl, rfl, rfl, rfl⟩
  · refine ⟨_, { j.finish .failed now with lastError := some text }, rfl, ?_, rfl, ?_⟩
    · exact Store.get?_updateIf_owned (fun _ => rfl) hstored howned
    · rw [hnever]
      exact ⟨rfl, rfl⟩

end Write

/-! ## 3. The turn that makes the write -/

section Turn

variable {σ : Type} {worker : Worker (Backend σ)} {w w' : World σ} {x : Execution} {draw : Int}
  {write : OutcomeWrite} {state : σ}

/-- A write of a worker is the same write of its backend. -/
theorem OutcomeWrite.perform_ask (write : OutcomeWrite) (b : Backend σ) (delete : Bool)
    (w : World σ) :
    (write.perform delete (fun c w => w.ask b c) w).1 =
        (write.perform delete (b.answer w.clock) w.state).1 ∧
      (write.perform delete (fun c w => w.ask b c) w).2.state =
        (write.perform delete (b.answer w.clock) w.state).2 := by
  cases write <;> exact ⟨rfl, rfl⟩

/-- A write in a call of its own that succeeds ends the execution. -/
theorem World.stepExecution_performs (hphase : x.phase = .writing (.pending write))
    (halone : batchedJob? worker write = none)
    (hperform : write.perform worker.config.deleteCompleted (worker.backend.answer w.clock)
      w.state = (.ok (), state))
    (h : w.stepExecution worker draw x = some w') :
    w'.state = state ∧ w'.engine = w.engine.finish x.key := by
  obtain ⟨hresult, hstate⟩ := write.perform_ask worker.backend worker.config.deleteCompleted w
  have hengine := perform_engine worker.backend write worker.config.deleteCompleted w
  rw [hperform] at hresult hstate
  simp only [stepExecution, hphase, stepWrite, halone, writeDirectly, Option.map_some,
    Option.some.injEq] at h
  generalize write.perform worker.config.deleteCompleted (fun c w => w.ask worker.backend c) w =
    outcome at h hresult hstate hengine
  obtain ⟨answer, v⟩ := outcome
  obtain rfl : answer = .ok () := hresult
  simp only at h
  subst h
  exact ⟨hstate, congrArg (·.finish x.key) hengine⟩

end Turn

namespace Audit

variable {worker : Worker (Backend Store)} {w : World Store} {a b c : Audit Store}
  {actions before : List (Action Store)} {x y : Execution} {cron : String} {j : Job}

/-- **When a recurrent job follows its expression.** The execution of a recurrent job ends in one
turn once it has come to its write. If the job is still under the claim, it then stands where the
expression says that it was claimed with, at the clock of the moment when its execution came to its
end. The expression that is stored stays as it is, and the job stands where that one says exactly if
it says the same. -/
theorem recurrent_follows_iff {state : Store} {origin : Instant} {write : OutcomeWrite}
    {eager : Bool} {draw : Int} (hbackend : worker.backend = Store.backend)
    (hstart : World.start worker state origin = .ok w)
    (hbefore : run worker before { world := w } = some a) (hx : x ∈ a.world.engine.executions)
    (hphase : x.phase = .starting) (hcron : x.job.cron = some cron)
    (hrun : run worker actions a = some b) (hy : y ∈ b.world.engine.executions)
    (hkey : y.key = x.key) (hwriting : y.phase = .writing (.pending write))
    (hstep : b.act worker (.step (.execution x.key) eager draw) = some c)
    (hstored : b.world.state.get? x.job.id = some j) (howned : j.isOwnedBy x.job.processing) :
    (∀ z ∈ c.world.engine.executions, z.key ≠ x.key) ∧
    ∃ ending j', LeavesIn worker actions a x.key (·.write? = none) ending ∧
      c.world.state.get? x.job.id = some j' ∧
      j'.cron = j.cron ∧ j'.ReturnsAt (Cron.nextOf cron ending.clock) ∧
      ∀ current, j'.cron = some current →
        (j'.ReturnsAt (Cron.nextOf current ending.clock) ↔
          Cron.nextOf current ending.clock = Cron.nextOf cron ending.clock) := by
  have hnumbered := (run_sound hrun (run_sound hbefore (start_sound hstart))).balanced.numbered
  have hheld : y.phase.write? = some write := hwriting ▸ rfl
  cases course_of_starting hstart hbefore hx hphase hrun with
  | @underway z hz hsame _ hon _ =>
    obtain rfl : z = y :=
      List.inj_on_of_nodup_map hnumbered.keys hz hy (hsame.trans hkey.symm)
    rw [hon.write?] at hheld
    cases hheld
  | lost _ _ _ hgone _ => exact absurd hkey (hgone y hy)
  | @handed _ ending _ write' _ hending _ _ hends _ hholds =>
    -- the write that it is about to make is the one that it came to at its end
    obtain rfl : write' = write := Option.some.inj ((hholds y hy hkey).symm.trans hheld)
    obtain ⟨state', j', hperform, hafter, hsame, hreturns⟩ := hends.returnsAt hcron hstored howned
      worker.config.deleteCompleted b.world.clock
    -- only completions are batched, so the write is made in a call of its own
    have halone : World.batchedJob? worker write' = none := by
      rcases hends.of_recurrent hcron with ⟨t, text, rfl, -⟩ | ⟨text, rfl, -⟩
      · rfl
      · rfl
    obtain ⟨v, hturn, rfl⟩ := Option.map_eq_some_iff.1 hstep
    rw [World.step, ← hkey, execution?_of_mem hnumbered hy, Option.bind_some] at hturn
    rw [← show worker.backend.answer = Store.answer from hbackend ▸ rfl] at hperform
    obtain ⟨hstate, hengine⟩ := World.stepExecution_performs hwriting halone hperform hturn
    refine ⟨?_, ending, j', hending, ?_, hsame, hreturns, ?_⟩
    · intro z hz hzkey
      simp only [hengine] at hz
      exact (Desk.mem_finish (d := b.desk).1 hz).2 (hzkey.trans hkey.symm)
    · simp only [hstate]
      exact hafter
    · intro current _
      constructor
      · intro hcurrent
        exact hcurrent.unique hreturns
      · intro hagree
        rw [hagree]
        exact hreturns

/-! ## 4. An expression that is replaced -/

/-- Five past ten in the morning. -/
def fivePastTen : Instant := ⟨1704103500000000000, by decide, by decide⟩

/-- A job is enqueued anew for every day at noon while it is processing, and the execution comes to
its write. -/
def enqueuedForNoon : List (Action Store) :=
  [.disturb fun s =>
      (s.upsertRecurrent { NewJob.plain 2 with cron := some "0 0 12 * * *" } fivePastTen).2,
    turn, turn, turn]

/-- The write that an execution is about to make. -/
def pending? (y : Execution) : Option OutcomeWrite :=
  match y.phase with
  | .writing (.pending write) => some write
  | _ => none

theorem phase_of_pending? {write : OutcomeWrite} (h : pending? y = some write) :
    y.phase = .writing (.pending write) := by
  unfold pending? at h
  split at h
  · rename_i write' hphase
    cases h
    exact hphase
  · cases h

/-- Whether the execution makes its write while the expression of its job is the one for noon, and
what comes of the job has the given property. -/
def recordsAtNoon (p : Job → Bool) : Bool :=
  comesTo (handyman (fun _ => .made) .done) (chore (some "0 0 11 * * *")) fivePastTen
    enqueuedForNoon fun x b =>
      decide (x.job.cron = some "0 0 11 * * *") && b.world.engine.executions.any fun y =>
        decide (y.key = x.key) && (pending? y).isSome &&
        (b.act (handyman (fun _ => .made) .done) (.step (.execution x.key) false 0)).any fun c =>
          (b.world.state.get? x.job.id).any fun j =>
            j.isOwnedBy x.job.processing && decide (j.cron = some "0 0 12 * * *") &&
            decide (b.world.clock = fivePastTen) && (c.world.state.get? x.job.id).any p

theorem exists_of_recordsAtNoon {p : Job → Bool} (h : recordsAtNoon p = true) :
    ∃ w a b c x y before write j j',
      World.start (handyman (fun _ => .made) .done) { jobs := [chore (some "0 0 11 * * *")] }
        fivePastTen = .ok w ∧
      run (handyman (fun _ => .made) .done) before { world := w } = some a ∧
      x ∈ a.world.engine.executions ∧ x.phase = .starting ∧ x.job.cron = some "0 0 11 * * *" ∧
      run (handyman (fun _ => .made) .done) enqueuedForNoon a = some b ∧
      y ∈ b.world.engine.executions ∧ y.key = x.key ∧ y.phase = .writing (.pending write) ∧
      b.act (handyman (fun _ => .made) .done) (.step (.execution x.key) false 0) = some c ∧
      b.world.state.get? x.job.id = some j ∧ j.isOwnedBy x.job.processing ∧
      j.cron = some "0 0 12 * * *" ∧ b.world.clock = fivePastTen ∧
      c.world.state.get? x.job.id = some j' ∧ p j' := by
  obtain ⟨w, a, b, x, before, hstart, hbefore, hx, hphase, hrun, hp⟩ := exists_of_comesTo h
  simp only [Option.any_eq_true, List.any_eq_true, Bool.and_eq_true, decide_eq_true_eq,
    Option.isSome_iff_exists] at hp
  obtain ⟨hcron, y, hy, ⟨hkey, write, hwrite⟩, c, hact, j, hstored, ⟨⟨howned, hnoon⟩, hclock⟩, j',
    hafter, hp⟩ := hp
  exact ⟨w, a, b, c, x, y, before, write, j, j', hstart, hbefore, hx, hphase, hcron, hrun, hy, hkey,
    phase_of_pending? hwrite, hact, hstored, howned, hnoon, hclock, hafter, hp⟩

/-- The job stands where the old expression says, and where the new one does exactly if both say
the same. -/
theorem recurrent_follows_iff_noon :
    ∃ (b c : Audit Store) (x : Execution) (ending : World Store) (j' : Job),
      b.act (handyman (fun _ => .made) .done) (.step (.execution x.key) false 0) = some c ∧
      x.job.cron = some "0 0 11 * * *" ∧ c.world.state.get? x.job.id = some j' ∧
      j'.cron = some "0 0 12 * * *" ∧
      j'.ReturnsAt (Cron.nextOf "0 0 11 * * *" ending.clock) ∧
      (j'.ReturnsAt (Cron.nextOf "0 0 12 * * *" ending.clock) ↔
        Cron.nextOf "0 0 12 * * *" ending.clock =
          Cron.nextOf "0 0 11 * * *" ending.clock) := by
  obtain ⟨w, a, b, c, x, y, before, write, j, -, hstart, hbefore, hx, hphase, hcron, hrun, hy, hkey,
    hwriting, hact, hstored, howned, hnoon, -⟩ :=
    exists_of_recordsAtNoon (p := fun _ => true) (by decide +kernel)
  obtain ⟨-, ending, j', -, hafter, hsame, hreturns, hiff⟩ := recurrent_follows_iff rfl hstart
    hbefore hx hphase hcron hrun hy hkey hwriting hact hstored howned
  exact ⟨b, c, x, ending, j', hact, hcron, hafter, hsame.trans hnoon, hreturns,
    hiff _ (hsame.trans hnoon)⟩

/-- The job whose expression is for noon is scheduled for eleven. -/
theorem recurrent_misses_noon :
    ∃ w a b c x y before write j j',
      World.start (handyman (fun _ => .made) .done) { jobs := [chore (some "0 0 11 * * *")] }
        fivePastTen = .ok w ∧
      run (handyman (fun _ => .made) .done) before { world := w } = some a ∧
      x ∈ a.world.engine.executions ∧ x.phase = .starting ∧
      run (handyman (fun _ => .made) .done) enqueuedForNoon a = some b ∧
      y ∈ b.world.engine.executions ∧ y.key = x.key ∧ y.phase = .writing (.pending write) ∧
      b.act (handyman (fun _ => .made) .done) (.step (.execution x.key) false 0) = some c ∧
      b.world.clock = fivePastTen ∧ b.world.state.get? x.job.id = some j ∧
      j.cron = some "0 0 12 * * *" ∧ c.world.state.get? x.job.id = some j' ∧
      j'.scheduledAt.nanos = 1704106800000000000 ∧
      ¬ j'.ReturnsAt (Cron.nextOf "0 0 12 * * *" fivePastTen) := by
  obtain ⟨w, a, b, c, x, y, before, write, j, j', hstart, hbefore, hx, hphase, -, hrun, hy, hkey,
    hwriting, hact, hstored, -, hnoon, hclock, hafter, hp⟩ :=
    exists_of_recordsAtNoon (p := fun j' => decide (j'.scheduledAt.nanos = 1704106800000000000) &&
      !decide (j'.ReturnsAt (Cron.nextOf "0 0 12 * * *" fivePastTen))) (by decide +kernel)
  simp only [Bool.and_eq_true, decide_eq_true_eq, Bool.not_eq_true', decide_eq_false_iff_not] at hp
  exact ⟨w, a, b, c, x, y, before, write, j, j', hstart, hbefore, hx, hphase, hrun, hy, hkey,
    hwriting, hact, hclock, hstored, hnoon, hafter, hp⟩

end Audit

end JobQueue
