import JobQueue.Proofs.Store.Replay
import JobQueue.Proofs.Worker.Verdict
import JobQueue.Worker.Step

/-!
# The retry budget

A job that fails whenever its outcome is recorded has as many attempts as its policy says. Claims
that end because the worker is gone do not count: the attempt that a claim adds is taken back when
the job is reclaimed. So the stored attempt is the number of recorded failures, and one more while an
attempt is under way.
-/

namespace JobQueue

namespace Store

variable {policy : RetryPolicy} {id : JobId} {s s' : Store} {current : Option ClaimedJob} {n : Nat}
  {j : Job} {k : ClaimedJob} {clock : Instant}

/-! ## 1. Runs in which a job fails -/

/-- What can become of a store while workers with one policy have a job that fails whenever its
outcome is recorded: the claim that the job is under, and the number of its failures so far. -/
inductive Failing (policy : RetryPolicy) (id : JobId) : Store → Option ClaimedJob → Nat → Prop
  | inserted {s s' : Store} {new : NewJob} {clock : Instant} (hs : s.Distinct)
      (hinsert : s.insert new clock = .ok s') (hid : new.id = id) (honce : new.cron = none)
      (hrestart : new.restartOnCrash = true) : Failing policy id s' none 0
  | claimed {s : Store} {current : Option ClaimedJob} {n : Nat} {k : ClaimedJob}
      {claims : List ClaimedJob} (h : Failing policy id s current n) (owner : WorkerId)
      (limit : Nat) (now : Instant) (hok : (s.claim owner limit now).1 = .ok claims)
      (hk : k ∈ claims) (hid : k.id = id) :
      Failing policy id (s.claim owner limit now).2 (some k) n
  /-- The execution failed at one time, and this is recorded at another. -/
  | failed {s : Store} {n : Nat} {k : ClaimedJob} {failure : Failure} {now : Instant} {draw : Int}
      {w : OutcomeWrite} (h : Failing policy id s (some k) n)
      (hw : k.outcome? policy (some failure) now draw = some w) (delete : Bool) (clock : Instant) :
      Failing policy id (w.perform delete (Store.answer clock) s).2 none (n + 1)
  /-- The worker is gone, and the job is taken back. -/
  | crashed {s : Store} {n : Nat} {k : ClaimedJob} (h : Failing policy id s (some k) n)
      (staleBefore : Instant) (hgone : ¬ (s.reclaim staleBefore).2.Holds k.processing) :
      Failing policy id (s.reclaim staleBefore).2 none n
  /-- Any call that neither ends nor begins a claim of the job, nor cancels it. -/
  | aside {s : Store} {current : Option ClaimedJob} {n : Nat} (h : Failing policy id s current n)
      (clock : Instant) (c : Call)
      (hclaims : ∀ p, p.id = id → ((Store.answer clock c s).2.Holds p ↔ s.Holds p))
      (hcancel : ∀ ids, c = .cancel ids → id ∉ ids) :
      Failing policy id (Store.answer clock c s).2 current n

/-- How a job stands that has failed a number of times. -/
inductive Stage (policy : RetryPolicy) : Option ClaimedJob → Nat → Job → Prop
  | ready {n : Nat} {j : Job} (hstatus : j.status = .scheduled ∨ j.status = .waitingPrev)
      (hcount : j.attempt.toNat = n) (hleft : n < policy.maxAttempts.toNat) :
      Stage policy none n j
  | running {n : Nat} {j : Job} {k : ClaimedJob} (howned : j.isOwnedBy k.processing)
      (honce : k.cron = none) (hattempt : k.attempt = j.attempt)
      (hcount : j.attempt.toNat = n + 1) (hleft : n < policy.maxAttempts.toNat) :
      Stage policy (some k) n j
  | spent {n : Nat} {j : Job} (hstatus : j.status = .failed)
      (hcount : j.attempt = policy.maxAttempts) (hspent : n = policy.maxAttempts.toNat) :
      Stage policy none n j

theorem Stage.counted (h : Stage policy current n j) :
    j.attempt.toNat = n + if j.status = .processing then 1 else 0 := by
  cases h with
  | ready hstatus hcount _ => rcases hstatus with hstatus | hstatus <;> simp [hstatus, hcount]
  | running howned _ _ hcount _ => rw [if_pos (Job.isOwnedBy_iff.1 howned).2.1, hcount]
  | spent hstatus hcount hspent => simp [hstatus, hcount, hspent]

theorem Stage.bounded (h : Stage policy current n j) : n ≤ policy.maxAttempts.toNat := by
  cases h <;> omega

theorem Stage.current_iff (h : Stage policy current n j) :
    current.isSome ↔ j.status = .processing := by
  cases h with
  | ready hstatus _ _ => rcases hstatus with hstatus | hstatus <;> simp [hstatus]
  | running howned _ _ _ _ => simp [(Job.isOwnedBy_iff.1 howned).2.1]
  | spent hstatus _ _ => simp [hstatus]

theorem Stage.of_spent (h : Stage policy current n j) (hspent : n = policy.maxAttempts.toNat) :
    j.status = .failed ∧ j.attempt = policy.maxAttempts := by
  cases h with
  | ready _ _ hleft => omega
  | running _ _ _ _ hleft => omega
  | spent hstatus hcount _ => exact ⟨hstatus, hcount⟩

/-- The job is in the store, is not recurrent and may be restarted, and stands at the stage that the
claim and the failures say. -/
structure Standing (policy : RetryPolicy) (id : JobId) (s : Store) (current : Option ClaimedJob)
    (n : Nat) (j : Job) : Prop where
  stored : s.get? id = some j
  once : j.cron = none
  restart : j.restartOnCrash = true
  stage : Stage policy current n j

/-! ## 2. What a call does to the job -/

/-- A job that is due and has not used its budget up starts its next attempt. -/
theorem Standing.claimed (hs : s.Distinct) (h : Standing policy id s current n j) {owner : WorkerId}
    {limit : Nat} {now : Instant} {claims : List ClaimedJob}
    (hok : (s.claim owner limit now).1 = .ok claims) (hk : k ∈ claims) (hid : k.id = id) :
    Standing policy id (s.claim owner limit now).2 (some k) n (j.start owner now) := by
  rcases claim_spec hs owner limit now with hcrash | ⟨claims', hok', htaken, hget⟩
  · rw [hcrash] at hok
    cases hok
  · rw [hok'] at hok
    cases hok
    obtain ⟨j', hj', hdue, -, hkj⟩ := htaken k hk
    rw [hid, h.stored] at hj'
    cases hj'
    have hscheduled : j.status = .scheduled := by
      simp only [isDue, Bool.and_eq_true, decide_eq_true_eq] at hdue
      exact hdue.1
    have hafter := hget id
    rw [if_pos (hid ▸ List.mem_map_of_mem hk), h.stored] at hafter
    refine ⟨hafter, h.once, h.restart, ?_⟩
    cases h.stage with
    | ready _ hcount hleft =>
      have hlimit := policy.maxAttempts.toNat_lt
      rw [hkj]
      refine .running ?_ h.once rfl ?_ hleft
      · exact Job.isOwnedBy_iff.2 ⟨rfl, rfl, rfl⟩
      · rw [attempt_start owner now (by omega), hcount]
    | running howned _ _ _ _ =>
      rw [(Job.isOwnedBy_iff.1 howned).2.1] at hscheduled
      cases hscheduled
    | spent hstatus _ _ =>
      rw [hstatus] at hscheduled
      cases hscheduled

/-- What recording a failure makes of the job. -/
theorem Standing.recorded (hjitter : policy.jitter = none) (h : Standing policy id s (some k) n j)
    (failure : Failure) (now : Instant) (draw : Int) (delete : Bool) (clock : Instant) :
    ∃ w, k.outcome? policy (some failure) now draw = some w ∧
      (w.perform delete (Store.answer clock) s).2.get? id =
        some (if n + 1 < policy.maxAttempts.toNat then
          { j.putBack (ClaimedJob.retryTime now (policy.intervalAfter (n + 1))) clock with
            lastError := some failure.text }
        else { j.finish .failed clock with lastError := some failure.text }) := by
  cases h.stage with
  | running howned honce hattempt hcount hleft =>
    rw [← hattempt] at hcount
    refine ⟨k.onceOutcome policy (some failure) now draw, by rw [ClaimedJob.outcome?, honce], ?_⟩
    by_cases hmore : n + 1 < policy.maxAttempts.toNat
    · have hinterval : policy.nextInterval k.attempt draw =
          some (policy.intervalAfter k.attempt.toNat) :=
        RetryPolicy.nextInterval_eq hjitter (by omega) (by omega) draw
      rw [if_pos hmore, ClaimedJob.onceOutcome, hinterval, hcount]
      exact get?_updateIf_owned (fun _ => rfl) h.stored howned
    · have hnone : policy.nextInterval k.attempt draw = none := by
        rw [RetryPolicy.nextInterval, if_pos (RetryPolicy.isLastAttempt_iff.2 (by omega))]
      rw [if_neg hmore, ClaimedJob.onceOutcome, hnone]
      exact get?_updateIf_owned (fun _ => rfl) h.stored howned

theorem Standing.failed (hjitter : policy.jitter = none) (h : Standing policy id s (some k) n j)
    {failure : Failure} {now : Instant} {draw : Int} {w : OutcomeWrite}
    (hw : k.outcome? policy (some failure) now draw = some w) (delete : Bool) (clock : Instant) :
    ∃ j', Standing policy id (w.perform delete (Store.answer clock) s).2 none (n + 1) j' := by
  obtain ⟨w', hw', hget⟩ := h.recorded hjitter failure now draw delete clock
  rw [hw] at hw'
  cases hw'
  cases h.stage with
  | running howned honce hattempt hcount hleft =>
    by_cases hmore : n + 1 < policy.maxAttempts.toNat
    · rw [if_pos hmore] at hget
      exact ⟨_, hget, h.once, h.restart, .ready (Or.inl rfl) hcount hmore⟩
    · rw [if_neg hmore] at hget
      refine ⟨_, hget, h.once, h.restart, .spent rfl ?_ (by omega)⟩
      apply UInt16.toNat_inj.1
      show j.attempt.toNat = _
      omega

theorem Standing.crashed (h : Standing policy id s (some k) n j) {staleBefore : Instant}
    (hid : k.id = id) (hgone : ¬ (s.reclaim staleBefore).2.Holds k.processing) :
    Standing policy id (s.reclaim staleBefore).2 none n (recover j) := by
  cases h.stage with
  | running howned honce hattempt hcount hleft =>
    have hget := get?_reclaim s staleBefore id
    rw [h.stored, Option.map_some] at hget
    have hstuck : isStuck (s.silent staleBefore) j = true := by
      by_contra hsafe
      -- otherwise the job would still be under the claim
      rw [if_neg hsafe] at hget
      exact hgone (holds_iff.2 ⟨j, by rw [← hget]; exact congrArg _ hid, howned⟩)
    rw [if_pos hstuck] at hget
    have hcount' := attempt_recover h.restart hcount
    have hback : recover j = { j with
        status := .scheduled
        owner := none
        attempt := if j.attempt = 0 then 0 else j.attempt - 1 } := if_pos h.restart
    refine ⟨hget, ?_, ?_, .ready (Or.inl ?_) hcount' hleft⟩
    · rw [hback]
      exact h.once
    · rw [hback]
      exact h.restart
    · rw [hback]

/-- A call that neither ends nor begins a claim of the job can only let it go. -/
theorem Standing.aside (hs : s.Distinct) (h : Standing policy id s current n j) {c : Call}
    (hclaims : ∀ p, p.id = id → ((Store.answer clock c s).2.Holds p ↔ s.Holds p))
    (hcancel : ∀ ids, c = .cancel ids → id ∉ ids) :
    ∃ j', Standing policy id (Store.answer clock c s).2 current n j' := by
  have hid := id_of_get? h.stored
  have hchange := answer_change hs clock c id
  rw [h.stored] at hchange
  generalize hget : (Store.answer clock c s).2.get? id = o at hchange
  -- the job is owned afterwards exactly as it was before
  have hstill : ∀ p, j.isOwnedBy p → ∃ j', o = some j' ∧ j'.isOwnedBy p := by
    intro p howned
    have hp : p.id = id := (Job.isOwnedBy_iff.1 howned).1.symm.trans hid
    obtain ⟨j', hj', howned'⟩ := holds_iff.1 ((hclaims p hp).2 (holds_iff.2 ⟨j, hp ▸ h.stored, howned⟩))
    exact ⟨j', by rw [← hget, ← hp, hj'], howned'⟩
  have hbefore : ∀ p j', o = some j' → j'.isOwnedBy p → j.isOwnedBy p := by
    intro p j' ho howned
    have hp : p.id = id := by
      rw [← (Job.isOwnedBy_iff.1 howned).1, id_of_get? (hget.trans ho)]
    obtain ⟨i, hi, howned'⟩ := holds_iff.1 ((hclaims p hp).1
      (holds_iff.2 ⟨j', by rw [hp, hget, ho], howned⟩))
    rw [hp, h.stored] at hi
    cases hi
    exact howned'
  have hends : ∀ p, j.isOwnedBy p → (∀ j', o = some j' → j'.status ≠ .processing) → False := by
    intro p howned hidle
    obtain ⟨j', ho, howned'⟩ := hstill p howned
    exact hidle j' ho (Job.isOwnedBy_iff.1 howned').2.1
  have honce : ¬ j.isRecurrent := by simp [Job.isRecurrent, h.once]
  cases hchange with
  | kept => exact ⟨j, hget, h.once, h.restart, h.stage⟩
  | revised _ hrec => exact absurd hrec honce
  | cancelled hin _ => exact absurd (hid ▸ hin) (hcancel _ rfl)
  | dropped _ hrec _ => exact absurd hrec honce
  | @started owner limit now _ hdue _ =>
    have howned : (j.start owner now).isOwnedBy ⟨j.id, owner⟩ :=
      Job.isOwnedBy_iff.2 ⟨rfl, rfl, rfl⟩
    have hprocessing := (Job.isOwnedBy_iff.1 (hbefore _ _ rfl howned)).2.1
    simp [isDue, hprocessing] at hdue
  | completed _ howned => exact (hends _ howned (by rintro _ ⟨⟩ ⟨⟩)).elim
  | removed _ howned => exact (hends _ howned (by rintro _ ⟨⟩)).elim
  | @unlocked _ _ _ _ _ _ _ _ _ hwaits =>
    refine ⟨j.released, hget, h.once, h.restart, ?_⟩
    cases h.stage with
    | ready _ hcount hleft => exact .ready (Or.inl rfl) hcount hleft
    | running howned _ _ _ _ =>
      rw [(Job.isOwnedBy_iff.1 howned).2.1] at hwaits
      cases hwaits
    | spent hstatus _ _ =>
      rw [hstatus] at hwaits
      cases hwaits
  | retried howned => exact (hends _ howned (by rintro _ ⟨⟩ ⟨⟩)).elim
  | rescheduled howned => exact (hends _ howned (by rintro _ ⟨⟩ ⟨⟩)).elim
  | failed howned => exact (hends _ howned (by rintro _ ⟨⟩ ⟨⟩)).elim
  | @recovered _ owner _ _ hstatus howner _ _ hrestart =>
    refine (hends ⟨j.id, owner⟩ (Job.isOwnedBy_iff.2 ⟨rfl, hstatus, howner⟩) ?_).elim
    rintro _ ⟨⟩
    rw [recover, if_pos hrestart]
    intro hstill
    cases hstill

/-! ## 3. What a run comes to -/

/-- The claim that the job is under is one of that job. -/
theorem Standing.current_id (h : Standing policy id s (some k) n j) : k.id = id := by
  cases h.stage with
  | running howned _ _ _ _ => exact (Job.isOwnedBy_iff.1 howned).1.symm.trans (id_of_get? h.stored)

theorem Failing.standing (hm : 1 ≤ policy.maxAttempts) (hjitter : policy.jitter = none)
    (h : Failing policy id s current n) :
    s.Distinct ∧ ∃ j, Standing policy id s current n j := by
  induction h with
  | @inserted s s' new clock hs hinsert hid honce hrestart =>
    refine ⟨insert_distinct hs hinsert, new.toJob clock, ?_, honce, hrestart, .ready ?_ rfl ?_⟩
    · rw [get?_insert hinsert, if_pos hid.symm]
    · cases hwaits : new.waits <;> simp [NewJob.toJob, NewJob.initialStatus, hwaits]
    · rw [UInt16.le_iff_toNat_le] at hm
      exact hm
  | claimed _ owner limit now hok hk hid ih =>
    obtain ⟨hs, j, hj⟩ := ih
    exact ⟨answer_distinct hs now (.claim owner limit now), _, hj.claimed hs hok hk hid⟩
  | failed _ hw delete clock ih =>
    obtain ⟨hs, j, hj⟩ := ih
    refine ⟨?_, hj.failed hjitter hw delete clock⟩
    rw [OutcomeWrite.perform_snd]
    exact answer_distinct hs clock _
  | crashed _ staleBefore hgone ih =>
    obtain ⟨hs, j, hj⟩ := ih
    exact ⟨reclaim_distinct hs staleBefore, _, hj.crashed hj.current_id hgone⟩
  | aside _ clock c hclaims hcancel ih =>
    obtain ⟨hs, j, hj⟩ := ih
    exact ⟨answer_distinct hs clock c, hj.aside hs hclaims hcancel⟩

/-- What a policy with a number of attempts promises a job with `n` recorded failures. -/
structure Budget (policy : RetryPolicy) (id : JobId) (s : Store) (current : Option ClaimedJob)
    (n : Nat) (j : Job) : Prop where
  stored : s.get? id = some j
  /-- The attempts are the failures, and the one that is under way. -/
  counted : j.attempt.toNat = n + if j.status = .processing then 1 else 0
  bounded : n ≤ policy.maxAttempts.toNat
  current_iff : current.isSome ↔ j.status = .processing
  current_attempt : ∀ k, current = some k → k.attempt = j.attempt
  /-- The next failure puts the job back to its schedule after the interval that is its turn, or ends
  it if it is the last. -/
  recorded : ∀ k, current = some k → ∀ failure now draw delete clock, ∃ w j',
    k.outcome? policy (some failure) now draw = some w ∧
      (w.perform delete (Store.answer clock) s).2.get? id = some j' ∧
      if n + 1 < policy.maxAttempts.toNat then
        j'.status = .scheduled ∧ j'.scheduledAt.nanos =
          min (now.nanos + (policy.intervalAfter (n + 1)).nanos) Instant.maxNanos
      else j'.status = .failed ∧ j'.attempt = policy.maxAttempts
  /-- A job without attempts left has failed and is never claimed. -/
  spent : n = policy.maxAttempts.toNat → j.status = .failed ∧ j.attempt = policy.maxAttempts ∧
    ∀ owner limit now claims, (s.claim owner limit now).1 = .ok claims → ∀ k ∈ claims, k.id ≠ id
  /-- The handler is told that the attempt is the last one exactly if all others are used up. -/
  told : ∀ k, current = some k → ∀ {σ : Type} (worker : Worker (Backend σ)) (x : Execution)
    (rest : List Effect) (exit : Exit) (w w' : World σ), x.job = k →
    worker.registry.retryPolicy k.jobType = policy →
    w.carryOut worker x .invoke rest exit = some w' →
    ∃ cancelled, (w.now, .invoked k (decide (k.attempt = policy.maxAttempts)) cancelled) ∈ w'.log
  /-- A claim that crashes because a counter is full meets another job. -/
  roomy : ∀ owner limit now, (s.claim owner limit now).1 = .error .crash →
    ∃ i ∈ s.dueJobs limit now, i.id ≠ id ∧ i.attempt = attemptLimit

theorem Standing.unclaimable (hs : s.Distinct) (h : Standing policy id s current n j)
    (hspent : n = policy.maxAttempts.toNat) {owner : WorkerId} {limit : Nat} {now : Instant}
    {claims : List ClaimedJob} (hok : (s.claim owner limit now).1 = .ok claims) :
    ∀ k ∈ claims, k.id ≠ id := by
  intro k hk hid
  cases (h.claimed hs hok hk hid).stage with
  | running _ _ _ _ hleft => omega

theorem Standing.attempt_ne_limit (h : Standing policy id s current n j) {now : Instant}
    (hdue : isDue now j) : j.attempt ≠ attemptLimit := by
  have hlimit := policy.maxAttempts.toNat_lt
  simp only [isDue, Bool.and_eq_true, decide_eq_true_eq] at hdue
  intro hfull
  cases h.stage with
  | ready _ hcount hleft =>
    rw [hfull, show attemptLimit.toNat = 65535 from rfl] at hcount
    omega
  | running howned _ _ _ _ =>
    have hstatus := (Job.isOwnedBy_iff.1 howned).2.1
    rw [hdue.1] at hstatus
    cases hstatus
  | spent hstatus _ _ =>
    rw [hdue.1] at hstatus
    cases hstatus

theorem exists_full_of_crash {owner : WorkerId} {limit : Nat} {now : Instant}
    (h : (s.claim owner limit now).1 = .error .crash) :
    ∃ i ∈ s.dueJobs limit now, i.attempt = attemptLimit := by
  by_cases hfull : (s.dueJobs limit now).any (·.attempt = attemptLimit) = true
  · obtain ⟨i, hi, hattempt⟩ := List.any_eq_true.1 hfull
    exact ⟨i, hi, of_decide_eq_true hattempt⟩
  · rw [claim, if_neg hfull] at h
    cases h

theorem Standing.isLastAttempt_eq (h : Standing policy id s (some k) n j) :
    policy.isLastAttempt k.attempt = decide (k.attempt = policy.maxAttempts) := by
  cases h.stage with
  | running _ _ hattempt hcount hleft =>
    rw [Bool.eq_iff_iff, RetryPolicy.isLastAttempt_iff, decide_eq_true_eq, ← UInt16.toNat_inj]
    rw [← hattempt] at hcount
    omega

/-- **The retry budget is spent exactly.** In every run in which a job fails whenever its outcome is
recorded, and claims may end as often in the loss of the worker, the job is retried after each failure
but the last of its policy, and no attempt is counted or lost besides. -/
theorem Failing.budget (hm : 1 ≤ policy.maxAttempts) (hjitter : policy.jitter = none)
    (hpos : ∀ d ∈ policy.intervals, 0 ≤ d.nanos) (h : Failing policy id s current n) :
    ∃ j, Budget policy id s current n j := by
  obtain ⟨hs, j, hj⟩ := h.standing hm hjitter
  refine ⟨j, hj.stored, ?counted, ?bounded, ?current_iff, ?current_attempt, ?recorded, ?spent,
    ?told, ?roomy⟩
  case counted => exact hj.stage.counted
  case bounded => exact hj.stage.bounded
  case current_iff => exact hj.stage.current_iff
  case current_attempt =>
    rintro k rfl
    cases hj.stage with
    | running _ _ hattempt _ _ => exact hattempt
  case recorded =>
    rintro k rfl failure now draw delete clock
    obtain ⟨w, hw, hget⟩ := hj.recorded hjitter failure now draw delete clock
    refine ⟨w, _, hw, hget, ?_⟩
    by_cases hmore : n + 1 < policy.maxAttempts.toNat
    · rw [if_pos hmore, if_pos hmore]
      exact ⟨rfl, ClaimedJob.retryTime_nanos (RetryPolicy.intervalAfter_nonneg hpos _)⟩
    · rw [if_neg hmore, if_neg hmore]
      cases hj.stage with
      | running _ _ _ hcount hleft =>
        refine ⟨rfl, UInt16.toNat_inj.1 ?_⟩
        show j.attempt.toNat = _
        omega
  case spent =>
    intro hspent
    obtain ⟨hstatus, hcount⟩ := hj.stage.of_spent hspent
    exact ⟨hstatus, hcount, fun owner limit now claims hok => hj.unclaimable hs hspent hok⟩
  case told =>
    rintro k rfl σ worker x rest exit w w' hx hpolicy hstep
    subst hx
    simp only [World.carryOut, hpolicy, hj.isLastAttempt_eq, Option.some.injEq] at hstep
    subst hstep
    exact ⟨w.engine.cancelled, by simp [World.update, World.record]⟩
  case roomy =>
    intro owner limit now hcrash
    obtain ⟨i, hi, hfull⟩ := exists_full_of_crash hcrash
    refine ⟨i, hi, ?_, hfull⟩
    rintro rfl
    obtain ⟨hmem, hdue⟩ := mem_dueJobs hi
    have hsame := hj.stored.symm.trans (get?_of_mem hs hmem)
    cases hsame
    exact hj.attempt_ne_limit hdue hfull

/-- Two attempts, and a worker that is lost in the first: the job is claimed three times, fails
twice, and has failed for good at the second attempt. -/
theorem Failing.budget_of_crash_and_failures :
    let policy : RetryPolicy := ⟨2, [Delta.ofSeconds 60], none⟩
    let worker : WorkerId := ⟨.ofNat 9⟩
    let attempt (n : UInt16) (due : Instant) : ClaimedJob :=
      ⟨⟨.ofNat 1⟩, worker, "plain", "null", none, n, due, .none⟩
    let failure : Failure := ⟨"error", "boom"⟩
    let minute : Instant := ⟨60000000000, by decide, by decide⟩
    let s := run {} [(.epoch, .insert (.plain 1)), (.epoch, .heartbeat worker .epoch),
      (.epoch, .claim worker 1 .epoch), (.epoch, .reclaim .last), (.epoch, .claim worker 1 .epoch),
      (.epoch, .retry (attempt 1 .epoch).processing minute failure.text),
      (.last, .claim worker 1 .last), (.last, .fail (attempt 2 minute).processing failure.text)]
    Failing policy ⟨.ofNat 1⟩ s none 2 ∧ ∃ j, Budget policy ⟨.ofNat 1⟩ s none 2 j := by
  intro policy worker attempt failure minute s
  have h₀ : Failing policy ⟨.ofNat 1⟩ (run {} [(.epoch, .insert (.plain 1))]) none 0 :=
    .inserted distinct_empty (show Store.insert {} (.plain 1) .epoch = .ok _ from rfl) rfl rfl rfl
  have h₁ := h₀.aside .epoch (.heartbeat worker .epoch) (fun _ _ => Iff.rfl) nofun
  have h₂ := h₁.claimed worker 1 .epoch
    (show (Store.claim _ worker 1 .epoch).1 = .ok [attempt 1 .epoch] by decide +kernel)
    List.mem_cons_self rfl
  have h₃ := h₂.crashed .last (by decide +kernel)
  have h₄ := h₃.claimed worker 1 .epoch
    (show (Store.claim _ worker 1 .epoch).1 = .ok [attempt 1 .epoch] by decide +kernel)
    List.mem_cons_self rfl
  have h₅ := h₄.failed
    (show (attempt 1 .epoch).outcome? policy (some failure) .epoch 0 = some _ from rfl) false .epoch
  have h₆ := h₅.claimed worker 1 .last
    (show (Store.claim _ worker 1 .last).1 = .ok [attempt 2 minute] by decide +kernel)
    List.mem_cons_self rfl
  have h₇ := h₆.failed
    (show (attempt 2 minute).outcome? policy (some failure) .last 0 = some _ from rfl) false .last
  refine ⟨h₇, ?_⟩
  exact Failing.budget (by decide) rfl (by decide) h₇

end Store

end JobQueue
