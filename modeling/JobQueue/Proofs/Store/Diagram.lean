import JobQueue.Proofs.Store.Guard
import JobQueue.Proofs.Store.Reached
import Mathlib.Logic.Relation

/-!
# The diagram of the statuses

A stored job waits, is scheduled, is processed, and ends as completed or failed or goes back to the
schedule. `Moves` lists the calls that move a job from one status to another and the reason why each
of them does, and a whole run moves a job along the arrows of the diagram.
-/

namespace JobQueue

/-- The diagram of the statuses. -/
inductive JobStatus.Arrow : JobStatus → JobStatus → Prop
  | letGo : Arrow .waitingPrev .scheduled
  | claimed : Arrow .scheduled .processing
  | putBack : Arrow .processing .scheduled
  | completed : Arrow .processing .completed
  | failed : Arrow .processing .failed

namespace Store

variable {s : Store} {clock : Instant} {c : Call} {j j' : Job} {id : JobId} {status : JobStatus}

/-- Which calls give a job of the store another status. -/
inductive Moves (s : Store) : Call → Job → JobStatus → Prop
  | letGo {jobs : List FinishedJob} {delete : Bool} {f : FinishedJob} {k j : Job} (hf : f ∈ jobs)
      (hk : s.get? f.job.id = some k) (howned : k.isOwnedBy f.job)
      (hnamed : k.successor.Names j) (hwaits : j.status = .waitingPrev) :
      Moves s (.complete jobs delete) j .scheduled
  | claimed {owner : WorkerId} {limit : Nat} {now : Instant} {j : Job} (hdue : isDue now j) :
      Moves s (.claim owner limit now) j .processing
  | retried {p : ProcessingJob} {t : Instant} {e : String} {j : Job} (howned : j.isOwnedBy p) :
      Moves s (.retry p t e) j .scheduled
  | rescheduled {p : ProcessingJob} {t : Instant} {e : Option String} {j : Job}
      (howned : j.isOwnedBy p) : Moves s (.reschedule p t e) j .scheduled
  | recovered {staleBefore : Instant} {j : Job} (hstatus : j.status = .processing)
      (hrestart : j.restartOnCrash) : Moves s (.reclaim staleBefore) j .scheduled
  | completed {jobs : List FinishedJob} {f : FinishedJob} {j : Job} (hf : f ∈ jobs)
      (howned : j.isOwnedBy f.job) : Moves s (.complete jobs false) j .completed
  | failed {p : ProcessingJob} {e : String} {j : Job} (howned : j.isOwnedBy p) :
      Moves s (.fail p e) j .failed

/-! ## 1. One call -/

theorem Change.moves (h : Change s clock c (some j) (some j')) :
    j'.status = j.status ∨ s.Moves c j j'.status := by
  cases h with
  | kept => exact .inl rfl
  | revised _ _ => exact .inl rfl
  | started hdue _ => exact .inr (.claimed hdue)
  | completed hf howned => exact .inr (.completed hf howned)
  | unlocked hf hk howned hnamed hwaits => exact .inr (.letGo hf hk howned hnamed hwaits)
  | retried howned => exact .inr (.retried howned)
  | rescheduled howned => exact .inr (.rescheduled howned)
  | failed howned => exact .inr (.failed howned)
  | recovered hstatus _ _ _ hrestart =>
    rw [recover, if_pos hrestart]
    exact .inr (.recovered hstatus hrestart)

theorem Moves.arrow (h : s.Moves c j status) : j.status.Arrow status := by
  cases h with
  | letGo _ _ _ _ hwaits => rw [hwaits]; exact .letGo
  | claimed hdue =>
    rw [isDue, Bool.and_eq_true, decide_eq_true_eq] at hdue
    rw [hdue.1]
    exact .claimed
  | retried howned => rw [(Job.isOwnedBy_iff.1 howned).2.1]; exact .putBack
  | rescheduled howned => rw [(Job.isOwnedBy_iff.1 howned).2.1]; exact .putBack
  | recovered hstatus _ => rw [hstatus]; exact .putBack
  | completed _ howned => rw [(Job.isOwnedBy_iff.1 howned).2.1]; exact .completed
  | failed howned => rw [(Job.isOwnedBy_iff.1 howned).2.1]; exact .failed

/-- Only the completion of a job whose successor names it moves a job that waits. -/
theorem Moves.completion (h : s.Moves c j status) (hwaits : j.status = .waitingPrev) :
    ∃ jobs delete f k, c = .complete jobs delete ∧ f ∈ jobs ∧ s.get? f.job.id = some k ∧
      k.isOwnedBy f.job ∧ k.successor.Names j := by
  cases h with
  | letGo hf hk howned hnamed _ => exact ⟨_, _, _, _, rfl, hf, hk, howned, hnamed⟩
  | claimed hdue => simp [isDue, hwaits] at hdue
  | retried howned => simp [Job.isOwnedBy_iff, hwaits] at howned
  | rescheduled howned => simp [Job.isOwnedBy_iff, hwaits] at howned
  | recovered hstatus _ => simp [hwaits] at hstatus
  | completed _ howned => simp [Job.isOwnedBy_iff, hwaits] at howned
  | failed howned => simp [Job.isOwnedBy_iff, hwaits] at howned

/-! ## 2. Runs -/

/-- While a job is stored, its status moves along the arrows. -/
theorem run_path (hs : s.Distinct) (calls : List (Instant × Call))
    (hstored : ∀ l, l <+: calls → ((s.run l).get? id).isSome) (hj : s.get? id = some j)
    (hj' : (s.run calls).get? id = some j') :
    Relation.ReflTransGen JobStatus.Arrow j.status j'.status := by
  induction calls generalizing s j with
  | nil =>
    rw [show s.run [] = s from rfl, hj] at hj'
    cases hj'
    exact .refl
  | cons e rest ih =>
    obtain ⟨i, hi⟩ := Option.isSome_iff_exists.1
      (hstored [e] ((List.cons_prefix_cons.2 ⟨rfl, List.nil_prefix⟩)))
    have hstep := answer_change hs e.1 e.2 id
    change (Store.answer e.1 e.2 s).2.get? id = some i at hi
    rw [hj, hi] at hstep
    have hpath := ih (answer_distinct hs e.1 e.2)
      (fun l hl => hstored (e :: l) (List.cons_prefix_cons.2 ⟨rfl, hl⟩)) hi hj'
    -- the first call leaves the status alone, or is the first arrow of the path
    rcases hstep.moves with hsame | hmoves
    · rwa [← hsame]
    · exact .head hmoves.arrow hpath

/-- No arrow leaves the statuses in which jobs end. -/
theorem eq_of_path (hpath : Relation.ReflTransGen JobStatus.Arrow j.status status)
    (hended : j.status.HasEnded) : status = j.status := by
  rcases hpath.cases_head with hsame | ⟨next, harrow, -⟩
  · exact hsame.symm
  · rcases hended with hcompleted | hfailed
    · rw [hcompleted] at harrow
      nomatch harrow
    · rw [hfailed] at harrow
      nomatch harrow

/-- **Writes are guarded by the claim, and statuses move along the diagram.** A write changes
nothing without its claim and no more than it must with it, alone or as one of several completions.
Over a run a job changes its status for a reason that `Moves` lists, and stays as it has ended. -/
theorem writes_guarded (hs : s.Distinct) :
    (∀ (w : OutcomeWrite) delete clock,
      (w.perform delete (Store.answer clock) s).1 = .ok () ∧
      (¬ s.Holds w.job → (w.perform delete (Store.answer clock) s).2 = s) ∧
      (s.Holds w.job →
        ∃ freed, s.EndsBy (w.perform delete (Store.answer clock) s).2 w delete freed)) ∧
    (∀ before f after delete clock,
      let t := s.complete before delete clock
      Store.answer clock (.complete (before ++ f :: after) delete) s =
        (.ok (), ((OutcomeWrite.complete f).perform delete (Store.answer clock) t).2.complete after
          delete clock) ∧
      t.Distinct ∧ (t.Holds f.job ↔ s.Holds f.job ∧ f.job ∉ before.map (·.job)) ∧
      (¬ s.Holds f.job → s.complete (before ++ f :: after) delete clock =
        s.complete (before ++ after) delete clock)) ∧
    (∀ calls clock c id j j', (s.run calls).get? id = some j →
      (Store.answer clock c (s.run calls)).2.get? id = some j' →
      (j'.status = j.status ∨ (s.run calls).Moves c j j'.status) ∧
      (j.status = .waitingPrev → j'.status ≠ .waitingPrev →
        ∃ jobs delete f k, c = .complete jobs delete ∧ f ∈ jobs ∧
          (s.run calls).get? f.job.id = some k ∧ k.isOwnedBy f.job ∧ k.successor.Names j)) ∧
    ∀ calls id j j', s.get? id = some j → (s.run calls).get? id = some j' →
      (∀ l, l <+: calls → ((s.run l).get? id).isSome) →
      Relation.ReflTransGen JobStatus.Arrow j.status j'.status ∧
        (j.status.HasEnded → j'.status = j.status) := by
  refine ⟨?_, ?_, ?_, ?_⟩
  · intro w delete clock
    exact ⟨perform_ok w delete clock s, perform_eq_self hs delete, endsBy_perform hs w delete clock⟩
  · intro before f after delete clock t
    refine ⟨?_, complete_distinct hs before delete clock, holds_complete_iff hs before,
      fun hfree => complete_eq_of_not_holds hs hfree before after⟩
    show (Except.ok (), s.complete (before ++ f :: after) delete clock) = _
    rw [complete_append]
    rfl
  · intro calls clock c id j j' hj hj'
    have hchange := answer_change (run_distinct hs calls) clock c id
    rw [hj, hj'] at hchange
    refine ⟨hchange.moves, fun hwaits hleft => ?_⟩
    rcases hchange.moves with hsame | hmoves
    · exact absurd (hsame.trans hwaits) hleft
    · exact hmoves.completion hwaits
  · intro calls id j j' hj hj' hstored
    have hpath := run_path hs calls hstored hj hj'
    exact ⟨hpath, eq_of_path hpath⟩

/-- A job with a next one is completed by another worker, which changes nothing, and by its own,
which lets the next one go. -/
theorem writes_guarded_next :
    let p : ProcessingJob := ⟨⟨.ofNat 1⟩, ⟨.ofNat 1⟩⟩
    let q : ProcessingJob := ⟨⟨.ofNat 1⟩, ⟨.ofNat 2⟩⟩
    let s := run {} [(.epoch, .insertMany [{ NewJob.plain 1 with successor := .next ⟨.ofNat 2⟩ },
      { NewJob.plain 2 with waits := true }]), (.epoch, .claim p.owner 1 .epoch)]
    let write (p : ProcessingJob) := (OutcomeWrite.complete ⟨p, .none⟩).perform false
      (Store.answer .epoch) s
    (write q).2 = s ∧ (∃ freed, s.EndsBy (write p).2 (.complete ⟨p, .none⟩) false freed) ∧
      ((write p).2.get? ⟨.ofNat 2⟩).map (·.status) = some .scheduled := by
  intro p q s write
  obtain ⟨hwrites, -⟩ := writes_guarded (s := s) (run_distinct distinct_empty _)
  have hfree : ¬ s.Holds q := by decide +kernel
  have hheld : s.Holds p := by decide +kernel
  refine ⟨(hwrites (.complete ⟨q, .none⟩) false .epoch).2.1 hfree,
    (hwrites (.complete ⟨p, .none⟩) false .epoch).2.2 hheld, ?_⟩
  decide +kernel

end Store

end JobQueue
