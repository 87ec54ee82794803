import JobQueue.Proofs.Store.Recovery

/-!
# Reclaiming undoes lost claims

A claim is lost when its worker has not been heard of for too long. Reclaiming forgets such workers,
reports their jobs, and puts those that may be restarted back to where they were before the claim:
under a claim a job changes only by an upsert, which leaves its schedule and its attempts alone.
-/

namespace JobQueue

theorem Job.revised_of_processing {j : Job} (h : j.status = .processing) (new : NewJob) :
    j.revised new = { j with cron := new.cron, parameter := new.parameter } := by
  rw [Job.revised, if_pos h]

namespace Store

variable {s : Store} {clock staleBefore : Instant} {c : Call} {p : ProcessingJob} {id : JobId}
  {j : Job}

/-- The job is under a claim of a worker without a sign of life since the instant. -/
def Lost (s : Store) (staleBefore : Instant) (j : Job) : Prop :=
  j.status = .processing ∧
    ∃ owner beat, j.owner = some owner ∧ (owner, beat) ∈ s.workers ∧ beat < staleBefore

theorem lost_iff : s.Lost staleBefore j ↔ isStuck (s.silent staleBefore) j := by
  simp only [Lost, isStuck_iff, mem_silent]
  constructor
  · rintro ⟨hstatus, owner, beat, howner, hbeat⟩
    exact ⟨hstatus, owner, ⟨beat, hbeat⟩, howner⟩
  · rintro ⟨hstatus, owner, ⟨beat, hbeat⟩, howner⟩
    exact ⟨hstatus, owner, beat, howner, hbeat⟩

/-- The call is an upsert, and the recurrent job that it finds and revises is this one. -/
def Revises (s : Store) (e : Instant × Call) (id : JobId) : Prop :=
  ∃ new, e.2 = .upsertRecurrent new ∧ (s.upsertRecurrent new e.1).1 = .ok id ∧
    (s.get? id).isSome

/-! ## 1. Under a claim -/

/-- An upsert that revises another job, or none, leaves a stored job alone. -/
theorem get?_upsertRecurrent (hj : s.get? id = some j) {new : NewJob}
    (h : (s.upsertRecurrent new clock).1 ≠ .ok id) :
    (s.upsertRecurrent new clock).2.get? id = some j := by
  rcases upsertRecurrent_cases s new clock with
    ⟨stored, -, -, -, heq⟩ | ⟨-, ⟨e, heq⟩ | ⟨s', hinsert, heq⟩⟩ <;> rw [heq] at h ⊢
  · have hother : ¬ j.id = stored.id := fun hsame => h (by rw [← hsame, id_of_get? hj])
    show (s.updateIf _ _).get? id = _
    rw [get?_updateIf s _ (Job.revised_id · new), hj, Option.map_some]
    simp only [hother, decide_false, Bool.false_eq_true, if_false]
  · exact hj
  · rw [get?_insert hinsert, if_neg, hj]
    rintro rfl
    exact h rfl

/-- While a job stays under a claim, a call leaves it alone or is an upsert that revises it. -/
theorem get?_of_holds (hs : s.Distinct) (hj : s.get? p.id = some j) (howned : j.isOwnedBy p)
    (hlasts : (Store.answer clock c s).2.Holds p) :
    (Store.answer clock c s).2.get? p.id = some j ∨
      s.Revises (clock, c) p.id ∧ ∃ new : NewJob,
        (Store.answer clock c s).2.get? p.id =
          some { j with cron := new.cron, parameter := new.parameter } := by
  obtain ⟨-, hstatus, -⟩ := Job.isOwnedBy_iff.1 howned
  obtain ⟨k, hk, hkp⟩ := holds_iff.1 hlasts
  have hheld := (Job.isOwnedBy_iff.1 hkp).2.1
  have hchange := answer_change hs clock c p.id
  rw [hj, hk] at hchange
  rw [hk]
  -- of all that can happen to a job, only an upsert changes it and leaves it processing
  cases hchange with
  | kept => exact Or.inl rfl
  | @revised new _ _ _ =>
    by_cases hrevises : (s.upsertRecurrent new clock).1 = .ok p.id
    · exact Or.inr ⟨⟨new, rfl, hrevises, by rw [hj]; rfl⟩, new,
        by rw [Job.revised_of_processing hstatus]⟩
    · have hsame := get?_upsertRecurrent hj hrevises
      change (s.upsertRecurrent new clock).2.get? p.id = _ at hk
      exact Or.inl (hk.symm.trans hsame)
  | started hdue _ =>
    rw [isDue, hstatus] at hdue
    cases hdue
  | completed _ _ => cases hheld
  | unlocked _ _ _ _ _ => cases hheld
  | retried _ => cases hheld
  | rescheduled _ => cases hheld
  | failed _ => cases hheld
  | recovered _ _ _ _ hrestart =>
    rw [recover, if_pos hrestart] at hheld
    cases hheld

/-- What becomes of a job under a claim that lasts. -/
theorem get?_run_of_holds (hs : s.Distinct) (hj : s.get? p.id = some j) (howned : j.isOwnedBy p)
    {calls : List (Instant × Call)} (hlasts : ∀ m, m <+: calls → (s.run m).Holds p) :
    ∃ k, (s.run calls).get? p.id = some k ∧
      k = { j with cron := k.cron, parameter := k.parameter } ∧
      ((∀ m e r, calls = m ++ e :: r → ¬ (s.run m).Revises e p.id) → k = j) := by
  induction calls generalizing s j with
  | nil => exact ⟨j, hj, rfl, fun _ => rfl⟩
  | cons e rest ih =>
    have hnext : ∀ m, m <+: rest → ((Store.answer e.1 e.2 s).2.run m).Holds p := fun m hm =>
      hlasts (e :: m) ((List.prefix_cons_inj e).2 hm)
    have hdistinct := answer_distinct hs e.1 e.2
    rcases get?_of_holds hs hj howned (hnext [] List.nil_prefix) with hkept | ⟨hrevises, new, hget⟩
    · obtain ⟨k, hk, hfields, hsame⟩ := ih hdistinct hkept howned hnext
      exact ⟨k, hk, hfields, fun hfree => hsame fun m d r hr => hfree (e :: m) d r (hr ▸ rfl)⟩
    · obtain ⟨k, hk, hfields, -⟩ := ih hdistinct hget howned hnext
      exact ⟨k, hk, hfields, fun hfree => absurd hrevises (hfree [] e rest rfl)⟩

/-- The call that makes a claim starts the job, which was due and could count another attempt. -/
theorem Grants.exists_start (hs : s.Distinct) (h : s.Grants c p) (clock : Instant) :
    ∃ k now, s.get? p.id = some k ∧ k.status = .scheduled ∧ k.attempt ≠ attemptLimit ∧
      (Store.answer clock c s).2.get? p.id = some (k.start p.owner now) := by
  obtain ⟨limit, now, claims, rfl, hok, hmem⟩ := h
  rcases claim_spec hs p.owner limit now with hcrash | ⟨claims', hok', hclaims, hget⟩
  · rw [hcrash] at hok
    cases hok
  · rw [hok] at hok'
    cases hok'
    obtain ⟨c, hc, hid⟩ := List.mem_map.1 hmem
    obtain ⟨k, hk, hdue, hroom, -⟩ := hclaims c hc
    rw [hid] at hk
    rw [isDue, Bool.and_eq_true, decide_eq_true_eq] at hdue
    refine ⟨k, now, hk, hdue.1, hroom, ?_⟩
    show (s.claim p.owner limit now).2.get? p.id = _
    rw [hget, if_pos hmem, hk]
    rfl

/-- The job is as the claim found it but for the time of the last start, and for the expression and
parameter if it was revised under the claim. -/
theorem recover_start {k : Job} {owner : WorkerId} {now : Instant} (hfree : k.owner = none)
    (hstatus : k.status = .scheduled) (hroom : k.attempt ≠ attemptLimit)
    (hrestart : j.restartOnCrash = true)
    {cron : Option String} {parameter : String}
    (hj : j = { k.start owner now with cron := cron, parameter := parameter }) :
    j.attempt.toNat = k.attempt.toNat + 1 ∧
    recover j =
      { k with lastStartedAt := j.lastStartedAt, cron := cron, parameter := parameter } := by
  have hlt : k.attempt.toNat < 65535 := by
    have hne : k.attempt.toNat ≠ 65535 := fun h => hroom (UInt16.toNat_inj.1 h)
    have hbound := k.attempt.toNat_lt
    omega
  have hcount : j.attempt.toNat = k.attempt.toNat + 1 := by
    rw [hj]
    exact attempt_start owner now hlt
  refine ⟨hcount, ?_⟩
  have hback : (recover j).attempt = k.attempt :=
    UInt16.toNat_inj.1 (attempt_recover hrestart hcount)
  rw [recover, if_pos hrestart] at hback ⊢
  rw [show (if j.attempt = 0 then 0 else j.attempt - 1) = k.attempt from hback, hj, ← hfree,
    ← hstatus]
  rfl

/-! ## 2. Workers and reports -/

theorem mem_workers_reclaim {e : WorkerId × Instant} :
    e ∈ (s.reclaim staleBefore).2.workers ↔ e ∈ s.workers ∧ ¬ e.2 < staleBefore := by
  simp [reclaim]

/-- The workers that are forgotten are those whose sign of life is too old. -/
theorem forgets_iff (hone : s.OneBeat) {worker : WorkerId} :
    s.Knows worker ∧ ¬ (s.reclaim staleBefore).2.Knows worker ↔
      ∃ beat, (worker, beat) ∈ s.workers ∧ beat < staleBefore := by
  constructor
  · rintro ⟨⟨beat, hbeat⟩, hgone⟩
    refine ⟨beat, hbeat, ?_⟩
    by_contra hfresh
    exact hgone ⟨beat, mem_workers_reclaim.2 ⟨hbeat, hfresh⟩⟩
  · rintro ⟨beat, hbeat, hstale⟩
    refine ⟨⟨beat, hbeat⟩, ?_⟩
    rintro ⟨beat', hbeat'⟩
    obtain ⟨hmem, hfresh⟩ := mem_workers_reclaim.1 hbeat'
    -- there is no second sign of life that could save the worker
    cases List.inj_on_of_nodup_map hone hmem hbeat rfl
    exact hfresh hstale

theorem nodup_reclaim (hs : s.Distinct) (staleBefore : Instant) :
    ((s.reclaim staleBefore).1.map (·.id)).Nodup := by
  have hids : (s.reclaim staleBefore).1.map (·.id) =
      (s.jobs.filter (isStuck (s.silent staleBefore))).map (·.id) := by
    simp only [reclaim, List.map_map]
    rfl
  rw [hids]
  exact filter_distinct hs _

theorem mem_reports_iff (hs : s.Distinct) {r : ReclaimedJob} :
    r ∈ (s.reclaim staleBefore).1 ↔ ∃ j, s.get? r.id = some j ∧ s.Lost staleBefore j ∧
      r = ⟨j.id, j.jobType, j.restartOnCrash⟩ := by
  have hreports : (s.reclaim staleBefore).1 =
      (s.jobs.filter (isStuck (s.silent staleBefore))).map fun j =>
        ⟨j.id, j.jobType, j.restartOnCrash⟩ := rfl
  rw [hreports, List.mem_map]
  constructor
  · rintro ⟨j, hj, rfl⟩
    rw [List.mem_filter] at hj
    exact ⟨j, get?_of_mem hs hj.1, lost_iff.2 hj.2, rfl⟩
  · rintro ⟨j, hget, hlost, rfl⟩
    exact ⟨j, List.mem_filter.2 ⟨mem_of_get? hget, lost_iff.1 hlost⟩, rfl⟩

theorem reclaim_of_fresh (h : ∀ e ∈ s.workers, ¬ e.2 < staleBefore) :
    s.reclaim staleBefore = ([], s) := by
  have hsilent : s.silent staleBefore = [] := by
    rw [List.eq_nil_iff_forall_not_mem]
    intro worker hworker
    obtain ⟨beat, hbeat, hstale⟩ := mem_silent.1 hworker
    exact h _ hbeat hstale
  have hnone : ∀ j ∈ s.jobs, isStuck (s.silent staleBefore) j = false := by
    intro j _
    rw [hsilent, Bool.eq_false_iff, ne_eq, isStuck_iff]
    simp
  have hreports : (s.reclaim staleBefore).1 = [] := by
    show (s.jobs.filter (isStuck (s.silent staleBefore))).map _ = []
    rw [List.filter_eq_nil_iff.2 fun j hj => by simp [hnone j hj], List.map_nil]
  have hworkers : (s.workers.filter fun e => ¬ e.2 < staleBefore) = s.workers :=
    List.filter_eq_self.2 fun e he => decide_eq_true (h e he)
  have hstate : (s.reclaim staleBefore).2 = s := by
    show ({ s.updateIf (isStuck (s.silent staleBefore)) recover with
      workers := s.workers.filter fun e => ¬ e.2 < staleBefore } : Store) = s
    rw [updateIf_eq_self _ _ hnone, hworkers]
  exact Prod.ext hreports hstate

/-! ## 3. Lost claims -/

/-- Reclaiming changes no job but those under lost claims that may be restarted. -/
theorem get?_reclaim_of_not_restarted
    (h : ∀ j, s.get? id = some j → s.Lost staleBefore j → j.restartOnCrash = false) :
    (s.reclaim staleBefore).2.get? id = s.get? id := by
  rw [get?_reclaim]
  cases hj : s.get? id with
  | none => rfl
  | some j =>
    rw [Option.map_some]
    split
    · rename_i hstuck
      rw [recover, h j hj (lost_iff.2 hstuck), if_neg Bool.false_ne_true]
    · rfl

theorem get?_reclaim_of_lost (hj : s.get? id = some j) (hlost : s.Lost staleBefore j) :
    (s.reclaim staleBefore).2.get? id = some (recover j) := by
  rw [get?_reclaim, hj, Option.map_some, if_pos (lost_iff.1 hlost)]

/-- A job that is processing after some calls was started by one of them, and has been under that
claim since. Putting it back takes the attempt back and leaves it as it was before. -/
theorem exists_lost_claim (calls : List (Instant × Call)) (hj : (run {} calls).get? id = some j)
    (hprocessing : j.status = .processing) (hrestart : j.restartOnCrash = true) :
    (recover j).attempt.toNat + 1 = j.attempt.toNat ∧
    ∃ owner l e r k, calls = l ++ e :: r ∧ j.owner = some owner ∧
      (run {} l).Grants e.2 ⟨id, owner⟩ ∧
      (∀ m, m <+: r → (run {} (l ++ e :: m)).Holds ⟨id, owner⟩) ∧
      (run {} l).get? id = some k ∧
      recover j =
        { k with lastStartedAt := j.lastStartedAt, cron := j.cron, parameter := j.parameter } ∧
      ((∀ m d m', r = m ++ d :: m' → ¬ (run {} (l ++ e :: m)).Revises d id) →
        recover j = { k with lastStartedAt := j.lastStartedAt }) := by
  obtain ⟨owner, howner⟩ := Option.isSome_iff_exists.1 ((leased_run calls id j hj).2 hprocessing)
  have howned : j.isOwnedBy ⟨id, owner⟩ := Job.isOwnedBy_iff.2 ⟨id_of_get? hj, hprocessing, howner⟩
  obtain ⟨l, e, r, rfl, hgrant, hlasts⟩ := (holds_run_iff distinct_empty
    (by rw [holds_iff]; simp [get?]) calls).1 (holds_iff.2 ⟨j, hj, howned⟩)
  have hdistinct := run_distinct distinct_empty l
  obtain ⟨k, now, hk, hscheduled, hroom, hstarted⟩ := hgrant.exists_start hdistinct e.1
  have hfree : k.owner = none := by
    have hleased := leased_run l id k hk
    rw [hscheduled] at hleased
    simpa using hleased
  have hsplit : ∀ m, run {} (l ++ e :: m) = (Store.answer e.1 e.2 (run {} l)).2.run m := by
    intro m
    rw [run_append]
    rfl
  rw [hsplit] at hj
  simp only [hsplit] at hlasts
  obtain ⟨i, hi, hfields, hsame⟩ := get?_run_of_holds (answer_distinct hdistinct e.1 e.2) hstarted
    (Job.isOwnedBy_iff.2 ⟨(id_of_get? hk : k.id = id), rfl, rfl⟩) hlasts
  cases hj.symm.trans hi
  obtain ⟨hcount, hback⟩ := recover_start hfree hscheduled hroom hrestart hfields
  refine ⟨by rw [attempt_recover hrestart hcount, hcount], owner, l, e, r, k, rfl, howner, hgrant,
    ?_, hk, hback, ?_⟩
  · simp only [hsplit]
    exact hlasts
  · intro hfresh
    simp only [hsplit] at hfresh
    rw [hback, hsame hfresh]
    rfl

/-- **Reclaiming undoes exactly the lost claims.** After any calls, a reclaim forgets the workers
whose last sign of life is too old and no others. It reports each job of theirs once and no other
job. Of these, the jobs that may be restarted are scheduled and free again, with the attempt taken
back: they are as the lost claim found them, but for the time of the last start, and for the
expression and parameter if an upsert revised them under the claim. All other jobs are left as they
are, and a second reclaim finds nothing. -/
theorem reclaim_undoes_lost_claims (calls : List (Instant × Call)) (staleBefore : Instant) :
    let s := run {} calls
    let s' := (s.reclaim staleBefore).2
    (∀ worker, s.Knows worker ∧ ¬ s'.Knows worker ↔
      ∃ beat, (worker, beat) ∈ s.workers ∧ beat < staleBefore) ∧
    (∀ e, e ∈ s'.workers ↔ e ∈ s.workers ∧ s'.Knows e.1) ∧
    ((s.reclaim staleBefore).1.map (·.id)).Nodup ∧
    (∀ r, r ∈ (s.reclaim staleBefore).1 ↔ ∃ j, s.get? r.id = some j ∧ s.Lost staleBefore j ∧
      r = ⟨j.id, j.jobType, j.restartOnCrash⟩) ∧
    (∀ id, (∀ j, s.get? id = some j → s.Lost staleBefore j → j.restartOnCrash = false) →
      s'.get? id = s.get? id) ∧
    (∀ id j, s.get? id = some j → s.Lost staleBefore j → j.restartOnCrash = true →
      ∃ back, s'.get? id = some back ∧ back.attempt.toNat + 1 = j.attempt.toNat ∧
        back = { j with status := .scheduled, owner := none, attempt := back.attempt } ∧
        ∃ owner l e r k, calls = l ++ e :: r ∧ j.owner = some owner ∧
          (run {} l).Grants e.2 ⟨id, owner⟩ ∧
          (∀ m, m <+: r → (run {} (l ++ e :: m)).Holds ⟨id, owner⟩) ∧
          (run {} l).get? id = some k ∧
          back =
            { k with lastStartedAt := j.lastStartedAt, cron := j.cron, parameter := j.parameter } ∧
          ((∀ m d m', r = m ++ d :: m' → ¬ (run {} (l ++ e :: m)).Revises d id) →
            back = { k with lastStartedAt := j.lastStartedAt })) ∧
    s'.reclaim staleBefore = ([], s') := by
  intro s s'
  have hs : s.Distinct := run_distinct distinct_empty calls
  have hone : s.OneBeat := oneBeat_run calls
  refine ⟨fun worker => forgets_iff hone, ?_, nodup_reclaim hs staleBefore,
    fun r => mem_reports_iff hs, fun id => get?_reclaim_of_not_restarted, ?_,
    reclaim_of_fresh fun e he => (mem_workers_reclaim.1 he).2⟩
  · rintro ⟨worker, last⟩
    constructor
    · intro he
      exact ⟨(mem_workers_reclaim.1 he).1, last, he⟩
    · rintro ⟨he, beat, hbeat⟩
      cases List.inj_on_of_nodup_map hone he (mem_workers_reclaim.1 hbeat).1 rfl
      exact hbeat
  · intro id j hj hlost hrestart
    obtain ⟨hattempt, hclaim⟩ := exists_lost_claim calls hj hlost.1 hrestart
    refine ⟨recover j, get?_reclaim_of_lost hj hlost, hattempt, ?_, hclaim⟩
    rw [recover, if_pos hrestart]

end Store

end JobQueue
