import JobQueue.Proofs.Sequence.Linked
import JobQueue.Proofs.Store.Replay
import JobQueue.Proofs.Worker.Verdict

/-!
# The stores that clients and workers bring about

Clients enqueue what the builders have built; workers make the writes that the outcomes of their
claims call for, each at any time after the claim and any number of times. `Reached` says which
stores come of this, together with the claims that have been handed out on the way: a write belongs
to one of them, whatever has become of the job meanwhile.
-/

namespace JobQueue

/-- Whether the write records an outcome of one of the claims: that of a success or a failure, under
any policy and at any time of the clock. -/
def OutcomeWrite.Records (w : OutcomeWrite) (claims : List ClaimedJob) : Prop :=
  ∃ job ∈ claims, ∃ policy failure clock draw, job.outcome? policy failure clock draw = some w

/-- Whether the call is one that a client or a worker makes who has got these claims. -/
def Call.Arises (claims : List ClaimedJob) : Call → Prop
  | .insert new => new.cron = none ∧ ∃ (d : Draft) (clock : Instant), d.build clock = .ok new
  | .upsertRecurrent new =>
    new.cron.isSome ∧ ∃ (d : Draft) (clock : Instant), d.build clock = .ok new
  | .insertMany jobs =>
    ∃ (kind : SequenceKind) (drafts : List Draft) (clock : Instant),
      kind.build drafts clock = .ok jobs
  | .complete jobs _ => ∀ f ∈ jobs, (OutcomeWrite.complete f).Records claims
  | .retry p t e => (OutcomeWrite.retry p t e).Records claims
  | .reschedule p t e => (OutcomeWrite.reschedule p t e).Records claims
  | .fail p e => (OutcomeWrite.fail p e).Records claims
  | _ => True

namespace Store

/-- The stores that come of an empty one, with the claims that have been handed out. -/
inductive Reached : Store → List ClaimedJob → Prop
  | empty : Reached {} []
  | answered {s : Store} {claims : List ClaimedJob} {clock : Instant} {c : Call}
      (h : Reached s claims) (hc : c.Arises claims) :
      Reached (Store.answer clock c s).2 (claims ++ c.handedOut (Store.answer clock c s).1)

variable {s : Store} {claims : List ClaimedJob} {clock : Instant} {c : Call}

/-! ## 1. Operations of clients and workers -/

theorem Reached.quiet (h : Reached s claims) (hc : c.Arises claims)
    (hnone : c.handedOut (Store.answer clock c s).1 = []) :
    Reached (Store.answer clock c s).2 claims := by
  have hnext : Reached (Store.answer clock c s).2
      (claims ++ c.handedOut (Store.answer clock c s).1) := h.answered hc
  rwa [hnone, List.append_nil] at hnext

theorem Reached.enqueue (h : Reached s claims) (d : Draft) (clock : Instant) :
    Reached (d.enqueue Store.backend clock s).2 claims := by
  unfold Draft.enqueue
  split
  · exact h
  · rename_i new hbuild
    unfold NewJob.enqueue
    split
    · rename_i hcron
      exact h.quiet (c := .upsertRecurrent new) ⟨hcron, d, clock, hbuild⟩ rfl
    · rename_i hcron
      have honce : new.cron = none := Option.not_isSome_iff_eq_none.1 hcron
      exact h.quiet (c := .insert new) ⟨honce, d, clock, hbuild⟩ rfl

theorem Reached.enqueueSequence (h : Reached s claims) (kind : SequenceKind) (drafts : List Draft)
    (clock : Instant) : Reached (kind.enqueue drafts Store.backend clock s).2 claims := by
  unfold SequenceKind.enqueue
  split
  · exact h
  · exact h
  · rename_i jobs _ hbuild
    exact h.quiet (c := .insertMany jobs) ⟨kind, drafts, clock, hbuild⟩ rfl

theorem Reached.claim (h : Reached s claims) (owner : WorkerId) (limit : Nat) (now : Instant)
    {taken : List ClaimedJob} (hok : (s.claim owner limit now).1 = .ok taken) :
    Reached (s.claim owner limit now).2 (claims ++ taken) := by
  have hanswer : (Store.answer now (.claim owner limit now) s).1 = .ok taken := by
    simp only [Store.answer, hok]
  have hnext : Reached (s.claim owner limit now).2
      (claims ++ Call.handedOut (.claim owner limit now)
        (Store.answer now (.claim owner limit now) s).1) :=
    h.answered (c := .claim owner limit now) trivial
  rwa [hanswer] at hnext

theorem Reached.record (h : Reached s claims) {w : OutcomeWrite} (hw : w.Records claims)
    (delete : Bool) (clock : Instant) :
    Reached (w.perform delete (Store.answer clock) s).2 claims := by
  rw [OutcomeWrite.perform_snd]
  cases w with
  | complete f =>
    exact h.quiet (c := .complete [f] delete) (fun g hg => List.mem_singleton.1 hg ▸ hw) rfl
  | retry p t e => exact h.quiet (c := .retry p t e) hw rfl
  | reschedule p t e => exact h.quiet (c := .reschedule p t e) hw rfl
  | fail p e => exact h.quiet (c := .fail p e) hw rfl

theorem Reached.distinct (h : Reached s claims) : s.Distinct := by
  induction h with
  | empty => exact distinct_empty
  | answered _ _ ih => exact answer_distinct ih _ _

/-! ## 2. What is enqueued -/

/-- A recurrent job that is enqueued can be claimed as soon as it is due, and its expression can be
read. -/
theorem recurrent_of_newJobs (hc : c.Arises claims) {new : NewJob} (hnew : new ∈ c.newJobs)
    {cron : String} (hcron : new.cron = some cron) :
    new.waits = false ∧ (Cron.Schedule.ofText? cron).isSome := by
  cases c with
  | insert job =>
    cases List.mem_singleton.1 hnew
    rw [hc.1] at hcron
    cases hcron
  | insertMany jobs =>
    obtain ⟨kind, drafts, clock, hbuild⟩ := hc
    rw [(SequenceKind.build_linked hbuild).once new hnew] at hcron
    cases hcron
  | upsertRecurrent job =>
    cases List.mem_singleton.1 hnew
    obtain ⟨-, d, clock, hbuild⟩ := hc
    exact ⟨(Draft.unlinked_of_build hbuild).1, Draft.readable_of_build hbuild hcron⟩
  | _ => cases hnew

/-! ## 3. How recurrent jobs end -/

end Store

def JobStatus.HasEnded (s : JobStatus) : Prop := s = .completed ∨ s = .failed

/-- The job of the claim can end for good: it is to run once, or its expression had no occurrence
left at some time of the clock. -/
def ClaimedJob.CanEnd (c : ClaimedJob) : Prop :=
  c.cron = none ∨ ∃ cron schedule now, c.cron = some cron ∧
    Cron.Schedule.ofText? cron = some schedule ∧ schedule.next now = .never

/-- How a job stands that may be recurrent: its expression can be read, it never waits for another
job, and it has ended only by a claim that can end it. -/
structure Job.Recurs (j : Job) (claims : List ClaimedJob) : Prop where
  valid : ∀ cron, j.cron = some cron → (Cron.Schedule.ofText? cron).isSome
  unheld : j.isRecurrent → j.status ≠ .waitingPrev
  ended : j.isRecurrent → j.status.HasEnded → ∃ c ∈ claims, c.id = j.id ∧ c.CanEnd

/-- The expressions of claims can be read. -/
def ClaimedJob.Valid (c : ClaimedJob) : Prop :=
  ∀ cron, c.cron = some cron → (Cron.Schedule.ofText? cron).isSome

/-- A write that does not put the job back to its schedule is for a claim that can end it. -/
theorem ClaimedJob.EndsIn.canEnd_or_rescheduled {c : ClaimedJob} {policy : RetryPolicy}
    {failure : Option Failure} {clock : Instant} {w : OutcomeWrite} (hvalid : c.Valid)
    (h : c.EndsIn policy clock failure w) :
    c.CanEnd ∨ ∃ t e, w = .reschedule c.processing t e := by
  cases h with
  | completed honce => exact Or.inl (Or.inl honce)
  | retried honce _ _ => exact Or.inl (Or.inl honce)
  | failed honce _ => exact Or.inl (Or.inl honce)
  | rescheduled _ _ _ => exact Or.inr ⟨_, _, rfl⟩
  | refused hcron hinvalid =>
    have hread := hvalid _ hcron
    rw [hinvalid] at hread
    cases hread
  | exhausted hcron hread hnever => exact Or.inl (Or.inr ⟨_, _, _, hcron, hread, hnever⟩)

theorem OutcomeWrite.Records.canEnd {w : OutcomeWrite} {claims : List ClaimedJob}
    (hvalid : ∀ c ∈ claims, c.Valid) (h : w.Records claims)
    (hends : ∀ p t e, w ≠ .reschedule p t e) : ∃ c ∈ claims, c.id = w.job.id ∧ c.CanEnd := by
  obtain ⟨c, hc, policy, failure, clock, draw, hw⟩ := h
  have hwrite := ClaimedJob.outcome?_endsIn hw
  refine ⟨c, hc, by rw [hwrite.job_eq]; rfl, ?_⟩
  rcases hwrite.canEnd_or_rescheduled (hvalid c hc) with hcan | ⟨t, e, hback⟩
  · exact hcan
  · exact absurd hback (hends _ t e)

theorem Job.Recurs.mono {j : Job} {claims more : List ClaimedJob} (h : j.Recurs claims) :
    j.Recurs (claims ++ more) := by
  refine ⟨h.valid, h.unheld, fun hrec hended => ?_⟩
  obtain ⟨k, hk, hcan⟩ := h.ended hrec hended
  exact ⟨k, List.mem_append_left _ hk, hcan⟩

namespace Store

variable {s : Store} {claims : List ClaimedJob} {clock : Instant} {c : Call}

theorem recurs_of_not_ended {j : Job} (hvalid : ∀ cron, j.cron = some cron →
      (Cron.Schedule.ofText? cron).isSome)
    (hgoes : j.status = .scheduled ∨ j.status = .processing) : j.Recurs claims := by
  refine ⟨hvalid, fun _ hwaits => ?_, fun _ hended => ?_⟩
  · rw [hwaits] at hgoes
    simp at hgoes
  · rcases hgoes with hstatus | hstatus <;> simp [JobStatus.HasEnded, hstatus] at hended

theorem Change.recurs {o o' : Option Job} (h : Change s clock c o o') (hc : c.Arises claims)
    (hclaims : ∀ c ∈ claims, c.Valid) (hbefore : ∀ j, o = some j → j.Recurs claims) :
    ∀ j, o' = some j → j.Recurs claims := by
  intro j' hj'
  cases h with
  | kept => exact hbefore j' hj'
  | @inserted _ new hnew =>
    cases hj'
    refine ⟨fun cron hcron => (recurrent_of_newJobs hc hnew hcron).2, fun hrec => ?_, ?_⟩
    · obtain ⟨cron, hcron⟩ := Option.isSome_iff_exists.1 hrec
      simp [NewJob.toJob, NewJob.initialStatus, (recurrent_of_newJobs hc hnew hcron).1]
    · intro _ hended
      cases hwaits : new.waits <;>
        simp [NewJob.toJob, NewJob.initialStatus, hwaits, JobStatus.HasEnded] at hended
  | @revised new j _ hrec =>
    cases hj'
    have hj := hbefore j rfl
    exact ⟨fun cron hcron => (recurrent_of_newJobs hc (List.mem_singleton.2 rfl) hcron).2,
      fun _ => hj.unheld hrec, fun _ => hj.ended hrec⟩
  | @started _ _ _ j _ _ =>
    cases hj'
    exact recurs_of_not_ended (hbefore j rfl).valid (Or.inr rfl)
  | @completed jobs f j hf howned =>
    cases hj'
    have hj := hbefore j rfl
    obtain ⟨k, hk, hid, hcan⟩ := (hc f hf).canEnd hclaims (by simp)
    refine ⟨hj.valid, fun _ => by simp [Job.finish], fun _ _ => ⟨k, hk, ?_, hcan⟩⟩
    exact hid.trans (Job.isOwnedBy_iff.1 howned).1.symm
  | @unlocked _ _ _ _ j _ _ _ _ _ =>
    cases hj'
    exact recurs_of_not_ended (hbefore j rfl).valid (Or.inl rfl)
  | @retried _ _ _ j _ =>
    cases hj'
    exact recurs_of_not_ended (hbefore j rfl).valid (Or.inl rfl)
  | @rescheduled _ _ _ j _ =>
    cases hj'
    exact recurs_of_not_ended (hbefore j rfl).valid (Or.inl rfl)
  | @failed p e j howned =>
    cases hj'
    have hj := hbefore j rfl
    obtain ⟨k, hk, hid, hcan⟩ := OutcomeWrite.Records.canEnd hclaims hc (by simp)
    refine ⟨hj.valid, fun _ => by simp [Job.finish], fun _ _ => ⟨k, hk, ?_, hcan⟩⟩
    exact hid.trans (Job.isOwnedBy_iff.1 howned).1.symm
  | @recovered _ _ _ j _ _ _ _ hrestart =>
    cases hj'
    rw [recover, if_pos hrestart]
    exact recurs_of_not_ended (hbefore j rfl).valid (Or.inl rfl)
  | cancelled _ _ => cases hj'
  | dropped _ _ _ => cases hj'
  | removed _ _ => cases hj'

theorem Reached.valid_handedOut (hs : s.Distinct) (hjobs : ∀ j ∈ s.jobs, j.Recurs claims)
    {k : ClaimedJob} (hk : k ∈ c.handedOut (Store.answer clock c s).1) : k.Valid := by
  cases c with
  | claim owner limit now =>
    simp only [Store.answer] at hk
    rcases claim_spec hs owner limit now with hcrash | ⟨taken, hok, htaken, -⟩
    · rw [hcrash] at hk
      cases hk
    · rw [hok] at hk
      obtain ⟨j, hj, -, -, rfl⟩ := htaken k hk
      exact (hjobs j (mem_of_get? hj)).valid
  | _ => cases hk

/-- In all of these stores recurrent jobs end only by claims that can end them. -/
theorem Reached.recurs (h : Reached s claims) :
    (∀ j ∈ s.jobs, j.Recurs claims) ∧ ∀ k ∈ claims, k.Valid := by
  induction h with
  | empty => exact ⟨List.forall_mem_nil _, List.forall_mem_nil _⟩
  | @answered s claims clock c h hc ih =>
    obtain ⟨hjobs, hvalid⟩ := ih
    refine ⟨?_, ?_⟩
    · intro j hj
      have hafter := get?_of_mem (answer_distinct h.distinct clock c) hj
      refine ((answer_change h.distinct clock c j.id).recurs hc hvalid ?_ j hafter).mono
      exact fun k hk => hjobs k (mem_of_get? hk)
    · intro k hk
      rcases List.mem_append.1 hk with hk | hk
      · exact hvalid k hk
      · exact valid_handedOut h.distinct hjobs hk

end Store

end JobQueue
