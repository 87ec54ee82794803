import JobQueue.Proofs.Store.Reached

/-!
# Enqueuing a recurrent job again

There is one recurrent job of a type. Enqueuing another gives it the new expression, parameter and
time, and leaves its status as it is. A job that is scheduled is due at the new time then, and one
that is processing returns to the schedule later; but one that has ended stays where it is, with a
time at which nothing happens.
-/

namespace JobQueue.Store

variable {s : Store} {clock now : Instant} {id : JobId} {j : Job} {new : NewJob}

/-! ## 1. What a claim returns -/

theorem mem_dueJobs_of_room {limit : Nat} (hj : j ∈ s.jobs) (hdue : isDue now j)
    (hlimit : s.jobs.countP (isDue now) ≤ limit) : j ∈ s.dueJobs limit now := by
  have hall : s.dueJobs limit now = (s.jobs.filter (isDue now)).mergeSort Job.isBefore := by
    apply List.take_of_length_le
    rwa [List.length_mergeSort, ← List.countP_eq_length_filter]
  rw [hall, List.mem_mergeSort, List.mem_filter]
  exact ⟨hj, hdue⟩

/-- A claim with room for all due jobs returns each of them, unless one of them has no attempt
left that could be counted. -/
theorem claim_returns {limit : Nat} (owner : WorkerId) (hj : j ∈ s.jobs) (hdue : isDue now j)
    (hlimit : s.jobs.countP (isDue now) ≤ limit)
    (hroom : ∀ k ∈ s.jobs, isDue now k → k.attempt ≠ attemptLimit) :
    ∃ taken, (s.claim owner limit now).1 = .ok taken ∧
      (j.start owner now).claimed owner ∈ taken := by
  have hcounted : ∀ k ∈ s.dueJobs limit now, k.attempt ≠ attemptLimit := fun k hk =>
    hroom k (mem_dueJobs hk).1 (mem_dueJobs hk).2
  refine ⟨_, congrArg Prod.fst (claim_eq hcounted owner), ?_⟩
  exact List.mem_map_of_mem (mem_dueJobs_of_room hj hdue hlimit)

/-- A claim returns no job that is not scheduled. -/
theorem not_mem_claim {limit : Nat} {owner : WorkerId} {taken : List ClaimedJob} (hs : s.Distinct)
    (hj : s.get? id = some j) (hstatus : j.status ≠ .scheduled)
    (hok : (s.claim owner limit now).1 = .ok taken) : id ∉ taken.map (·.id) := by
  intro hmem
  rcases claim_spec hs owner limit now with hcrash | ⟨taken', hok', htaken, -⟩
  · rw [hcrash] at hok
    cases hok
  · rw [hok] at hok'
    cases hok'
    obtain ⟨c, hc, rfl⟩ := List.mem_map.1 hmem
    obtain ⟨k, hk, hdue, -, -⟩ := htaken c hc
    rw [hj] at hk
    cases hk
    rw [isDue, Bool.and_eq_true, decide_eq_true_eq] at hdue
    exact hstatus hdue.1

/-! ## 2. What enqueuing again comes to -/

theorem revised_scheduledAt (h : j.status ≠ .processing) :
    (j.revised new).scheduledAt = new.scheduledAt := if_neg h

theorem not_hasEnded_iff {status : JobStatus} (h : status ≠ .waitingPrev) :
    ¬ status.HasEnded ↔ status = .processing ∨ status = .scheduled := by
  cases status <;> simp_all [JobStatus.HasEnded]

/-- A recurrent job is enqueued by revising the one of its type, or else by inserting it. -/
theorem upsertRecurrent_spec (hs : s.Distinct)
    (hok : (s.upsertRecurrent new clock).1 = .ok id) :
    (∃ j, s.get? id = some j ∧ j.isRecurrent ∧
        (s.upsertRecurrent new clock).2.get? id = some (j.revised new)) ∨
      s.get? id = none ∧ (s.upsertRecurrent new clock).2.get? id = some (new.toJob clock) := by
  rcases upsertRecurrent_cases s new clock with
    ⟨stored, hstored, -, hrec, heq⟩ | ⟨-, ⟨e, heq⟩ | ⟨s', hinsert, heq⟩⟩ <;> rw [heq] at hok ⊢
  · cases hok
    have hget := get?_of_mem hs hstored
    refine Or.inl ⟨stored, hget, hrec, ?_⟩
    rw [update, get?_updateIf s _ (Job.revised_id · new), hget, Option.map_some,
      if_pos (decide_eq_true rfl)]
  · cases hok
  · cases hok
    refine Or.inr ⟨(insert_eq_ok_iff.1 hinsert).1, ?_⟩
    rw [get?_insert hinsert, if_pos rfl]

/-- **When enqueuing a recurrent job makes it due.** In every store that clients and workers bring
about, a recurrent job that is enqueued has the new expression and parameter. It is processing, or
scheduled at exactly the new time, unless the job that was there has ended; if it is scheduled, a
claim from that time on with room for all due jobs returns it, unless one of them has no attempt
left. If the job has ended it stays so, and no claim returns it. That comes of a claim of the job
that could end it: its expression had no occurrence left, or the id was that of a job to run
once. -/
theorem upsert_due_iff {claims : List ClaimedJob} {d : Draft} {built : Instant}
    (hs : s.Reached claims) (hbuild : d.build built = .ok new)
    (hok : (s.upsertRecurrent new clock).1 = .ok id) :
    let s' := (s.upsertRecurrent new clock).2
    ∃ j', s'.get? id = some j' ∧ j'.cron = new.cron ∧ j'.parameter = new.parameter ∧
      ((j'.status = .processing ∨ j'.status = .scheduled ∧ j'.scheduledAt = new.scheduledAt) ↔
        ∀ j, s.get? id = some j → ¬ j.status.HasEnded) ∧
      (j'.status = .scheduled → ∀ owner limit now, new.scheduledAt ≤ now →
        s'.jobs.countP (isDue now) ≤ limit →
        (∀ k ∈ s'.jobs, isDue now k → k.attempt ≠ attemptLimit) →
        ∃ taken, (s'.claim owner limit now).1 = .ok taken ∧
          (j'.start owner now).claimed owner ∈ taken) ∧
      ∀ j, s.get? id = some j → j.status.HasEnded →
        j'.status = j.status ∧ j'.scheduledAt = new.scheduledAt ∧
        (∀ owner limit now taken, (s'.claim owner limit now).1 = .ok taken →
          id ∉ taken.map (·.id)) ∧
        ∃ c ∈ claims, c.id = id ∧ c.CanEnd := by
  intro s'
  have hs' : s'.Distinct := answer_distinct hs.distinct clock (.upsertRecurrent new)
  have hreturns : ∀ j', s'.get? id = some j' → j'.scheduledAt = new.scheduledAt →
      j'.status = .scheduled → ∀ owner limit now, new.scheduledAt ≤ now →
      s'.jobs.countP (isDue now) ≤ limit →
      (∀ k ∈ s'.jobs, isDue now k → k.attempt ≠ attemptLimit) →
      ∃ taken, (s'.claim owner limit now).1 = .ok taken ∧
        (j'.start owner now).claimed owner ∈ taken := by
    intro j' hj' htime hscheduled owner limit now hnow
    refine claim_returns owner (mem_of_get? hj') ?_
    rw [isDue, hscheduled, htime, decide_eq_true rfl, Bool.true_and]
    exact decide_eq_true hnow
  rcases upsertRecurrent_spec hs.distinct hok with ⟨j, hj, hrec, hj'⟩ | ⟨hfresh, hj'⟩
  · have hrecurs := hs.recurs.1 j (mem_of_get? hj)
    -- the status stays as it is, and with it whether the job is due
    have hstatus : (j.revised new).status = j.status := rfl
    have hlives : (∀ k, s.get? id = some k → ¬ k.status.HasEnded) ↔ ¬ j.status.HasEnded := by
      simp only [hj, Option.some.injEq, forall_eq']
    refine ⟨j.revised new, hj', rfl, rfl, ?_, ?_, ?_⟩
    · rw [hlives, not_hasEnded_iff (hrecurs.unheld hrec), hstatus]
      apply or_congr_right
      apply and_iff_left_of_imp
      intro hscheduled
      exact revised_scheduledAt (by rw [hscheduled]; decide)
    · intro hscheduled
      refine hreturns _ hj' (revised_scheduledAt ?_) hscheduled
      rw [hstatus.symm.trans hscheduled]
      decide
    · intro k hk hended
      rw [hj] at hk
      cases hk
      have hidle : j.status ≠ .processing ∧ j.status ≠ .scheduled := by
        rcases hended with hended | hended <;> rw [hended] <;> decide
      obtain ⟨c, hc, hcid, hcan⟩ := hrecurs.ended hrec hended
      refine ⟨rfl, revised_scheduledAt hidle.1, ?_, c, hc, hcid.trans (id_of_get? hj), hcan⟩
      intro owner limit now taken htaken
      exact not_mem_claim hs' hj' hidle.2 htaken
  · -- a job that is new waits for nothing
    have hstatus : (new.toJob clock).status = .scheduled := by
      simp [NewJob.toJob, NewJob.initialStatus, (Draft.unlinked_of_build hbuild).1]
    refine ⟨new.toJob clock, hj', rfl, rfl, ?_, hreturns _ hj' rfl, ?_⟩
    · simp only [hfresh, reduceCtorEq, false_implies, implies_true, iff_true]
      exact Or.inr ⟨hstatus, rfl⟩
    · intro j hj
      rw [hfresh] at hj
      cases hj

/-! ## 3. An expression that runs out -/

/-- A full hour of the first day of 2024. -/
def newYear (hour : Fin 24) : Instant where
  nanos := 1704067200000000000 + hour * 3600000000000
  min_le := by
    unfold Instant.minNanos
    omega
  le_max := by
    unfold Instant.maxNanos
    omega

/-- A draft of a recurrent job without a parameter. -/
def recurring (n : Nat) (cron : String) : Draft :=
  { Draft.new { name := "plain", parameter := .nothing } ⟨.ofNat n⟩ with cron := some cron }

/-- What is built of a draft for every day at noon. -/
def noonJob : NewJob :=
  { NewJob.plain 2 with cron := some "0 0 12 * * *", scheduledAt := newYear 12 }

theorem build_noonJob (hour : Fin 24) (h : hour < 12) :
    (recurring 2 "0 0 12 * * *").build (newYear hour) = .ok noonJob := by
  revert hour
  decide +kernel

/-- A job for every day at eleven is enqueued anew for noon: at noon it is claimed. -/
theorem upsert_due_iff_noon :
    let s := ((recurring 1 "0 0 11 * * *").enqueue Store.backend (newYear 9) {}).2
    let s' := (s.upsertRecurrent noonJob (newYear 9)).2
    let j := { noonJob with id := ⟨.ofNat 1⟩ }.toJob (newYear 9)
    s'.get? ⟨.ofNat 1⟩ = some j ∧
      ∃ taken, (s'.claim ⟨.ofNat 1⟩ 1 (newYear 12)).1 = .ok taken ∧
        (j.start ⟨.ofNat 1⟩ (newYear 12)).claimed ⟨.ofNat 1⟩ ∈ taken := by
  intro s s' j
  have hs : s.Reached [] := Reached.empty.enqueue _ _
  have hok : (s.upsertRecurrent noonJob (newYear 9)).1 = .ok ⟨.ofNat 1⟩ := by decide +kernel
  have hj : s'.get? ⟨.ofNat 1⟩ = some j := by decide +kernel
  obtain ⟨j', hj', -, -, -, hclaim, -⟩ := upsert_due_iff hs (build_noonJob 9 (by decide)) hok
  obtain rfl : j = j' := Option.some.inj (hj.symm.trans hj')
  refine ⟨hj, hclaim rfl ⟨.ofNat 1⟩ 1 (newYear 12) (by decide) ?_ ?_⟩
  · decide +kernel
  · decide +kernel

/-- The claim at ten of a job whose expression has its only occurrence then. -/
def lastClaim : ClaimedJob :=
  let new : NewJob :=
    { NewJob.plain 1 with cron := some "0 0 10 1 1 * 2024", scheduledAt := newYear 10 }
  ((new.toJob (newYear 9)).start ⟨.ofNat 1⟩ (newYear 10)).claimed ⟨.ofNat 1⟩

/-- The store in which that job has failed, though its execution has not: it cannot return to the
schedule. -/
def spent : Store :=
  let s := ((recurring 1 "0 0 10 1 1 * 2024").enqueue Store.backend (newYear 9) {}).2
  let w := lastClaim.endRecurrence none (.exhausted "0 0 10 1 1 * 2024")
  (w.perform false (Store.answer (newYear 10)) (s.claim ⟨.ofNat 1⟩ 1 (newYear 10)).2).2

theorem spent_reached : spent.Reached [lastClaim] := by
  let s := ((recurring 1 "0 0 10 1 1 * 2024").enqueue Store.backend (newYear 9) {}).2
  have hs : s.Reached [] := Reached.empty.enqueue _ _
  have hok : (s.claim ⟨.ofNat 1⟩ 1 (newYear 10)).1 = .ok [lastClaim] := by decide +kernel
  refine (hs.claim ⟨.ofNat 1⟩ 1 (newYear 10) hok).record ?_ false (newYear 10)
  exact ⟨lastClaim, List.mem_singleton.2 rfl, .standard, none, newYear 10, 0, by decide +kernel⟩

/-- Enqueued anew for noon, that job is failed with the new expression, and no claim returns it. -/
theorem upsert_leaves_failed :
    spent.Reached [lastClaim] ∧ (recurring 2 "0 0 12 * * *").build (newYear 10) = .ok noonJob ∧
    (spent.upsertRecurrent noonJob (newYear 10)).1 = .ok lastClaim.id ∧
    let s' := (spent.upsertRecurrent noonJob (newYear 10)).2
    ∃ j', s'.get? lastClaim.id = some j' ∧ j'.cron = some "0 0 12 * * *" ∧
      j'.scheduledAt = newYear 12 ∧ j'.status = .failed ∧
      ∀ owner limit now taken, (s'.claim owner limit now).1 = .ok taken →
        lastClaim.id ∉ taken.map (·.id) := by
  have hok : (spent.upsertRecurrent noonJob (newYear 10)).1 = .ok lastClaim.id := by decide +kernel
  obtain ⟨j', hj', hcron, htime, hfailed⟩ :
      ∃ j', (spent.upsertRecurrent noonJob (newYear 10)).2.get? lastClaim.id = some j' ∧
        j'.cron = some "0 0 12 * * *" ∧ j'.scheduledAt = newYear 12 ∧ j'.status = .failed := by
    have hstored : ((spent.upsertRecurrent noonJob (newYear 10)).2.get? lastClaim.id).any (fun j' =>
        decide (j'.cron = some "0 0 12 * * *" ∧ j'.scheduledAt = newYear 12 ∧
          j'.status = .failed)) := by decide +kernel
    obtain ⟨j', hj', hall⟩ := (Option.any_eq_true _ _).1 hstored
    exact ⟨j', hj', of_decide_eq_true hall⟩
  refine ⟨spent_reached, build_noonJob 10 (by decide), hok, j', hj', hcron, htime, hfailed, ?_⟩
  intro owner limit now taken htaken
  have hdistinct : Distinct (spent.upsertRecurrent noonJob (newYear 10)).2 :=
    answer_distinct spent_reached.distinct (newYear 10) (.upsertRecurrent noonJob)
  exact not_mem_claim hdistinct hj' (by rw [hfailed]; decide) htaken

end JobQueue.Store
