import JobQueue.Proofs.Store.Replay

/-!
# Which jobs crash recovery can reach

Reclaiming works from the signs of life on record: it takes back the jobs of the workers whose last
one is too old, and forgets these workers. A claim neither asks for such a record nor makes one. So
a job can be under the claim of a worker that the store does not know, and then no reclaim returns
it: only the worker itself can, by the write that ends its claim or by another sign of life.
-/

namespace JobQueue

/-- Every worker sends a sign of life before its first claim, but for those in the list, who have
done so already. -/
def BeatsFirst : List WorkerId → List (Instant × Call) → Prop
  | _, [] => True
  | known, (_, .heartbeat worker _) :: rest => BeatsFirst (worker :: known) rest
  | known, (_, .claim owner _ _) :: rest => owner ∈ known ∧ BeatsFirst known rest
  | known, _ :: rest => BeatsFirst known rest

namespace Store

variable {s : Store} {clock : Instant} {c : Call} {p : ProcessingJob} {worker : WorkerId} {j : Job}

/-- A sign of life of the worker is on record. -/
def Knows (s : Store) (worker : WorkerId) : Prop := ∃ beat, (worker, beat) ∈ s.workers

/-- The job of a claim is under that claim, and may be restarted if its worker is gone. -/
def HoldsRestartable (s : Store) (p : ProcessingJob) : Prop :=
  ∃ j, s.get? p.id = some j ∧ j.isOwnedBy p ∧ j.restartOnCrash

/-! ## 1. Workers on record -/

theorem knows_heartbeat (clock : Instant) (s : Store) (worker : WorkerId) (now : Instant) :
    (Store.answer clock (.heartbeat worker now) s).2.Knows worker := by
  refine ⟨now, ?_⟩
  rw [answer_workers]
  exact List.mem_append_right _ (List.mem_singleton.2 rfl)

/-- A worker gets on record by its own signs of life only. -/
theorem knows_of_answer (h : (Store.answer clock c s).2.Knows worker) :
    s.Knows worker ∨ ∃ now, c = .heartbeat worker now := by
  obtain ⟨beat, hbeat⟩ := h
  rw [answer_workers] at hbeat
  cases c with
  | heartbeat other now =>
    rcases List.mem_append.1 hbeat with hold | hnew
    · exact Or.inl ⟨beat, List.mem_of_mem_filter hold⟩
    · cases List.mem_singleton.1 hnew
      exact Or.inr ⟨beat, rfl⟩
  | reclaim staleBefore => exact Or.inl ⟨beat, List.mem_of_mem_filter hbeat⟩
  | _ => exact Or.inl ⟨beat, hbeat⟩

/-- A worker on record stays there, but for a reclaim that finds it silent. -/
theorem knows_answer_or_stale (clock : Instant) (c : Call) (h : s.Knows worker) :
    (Store.answer clock c s).2.Knows worker ∨
      ∃ staleBefore beat, c = .reclaim staleBefore ∧ (worker, beat) ∈ s.workers ∧
        beat < staleBefore := by
  obtain ⟨beat, hbeat⟩ := h
  unfold Knows
  rw [answer_workers]
  cases c with
  | heartbeat other now =>
    by_cases hother : worker = other
    · exact Or.inl ⟨now, List.mem_append_right _ (List.mem_singleton.2 (hother ▸ rfl))⟩
    · refine Or.inl ⟨beat, List.mem_append_left _ (List.mem_filter.2 ⟨hbeat, ?_⟩)⟩
      exact decide_eq_true hother
  | reclaim staleBefore =>
    by_cases hstale : beat < staleBefore
    · exact Or.inr ⟨staleBefore, beat, rfl, hbeat, hstale⟩
    · exact Or.inl ⟨beat, List.mem_filter.2 ⟨hbeat, decide_eq_true hstale⟩⟩
  | _ => exact Or.inl ⟨beat, hbeat⟩

/-! ## 2. Jobs under a claim -/

theorem Change.restartOnCrash_eq {j' : Job} (h : Change s clock c (some j) (some j')) :
    j'.restartOnCrash = j.restartOnCrash := by
  cases h with
  | recovered _ _ _ _ hrestart => rw [recover, if_pos hrestart]
  | _ => rfl

/-- A job that stays under a claim keeps whether it may be restarted. -/
theorem HoldsRestartable.of_answer (hs : s.Distinct) (hheld : s.Holds p)
    (h : (Store.answer clock c s).2.HoldsRestartable p) : s.HoldsRestartable p := by
  obtain ⟨j, hj, howned⟩ := holds_iff.1 hheld
  obtain ⟨k, hk, -, hrestart⟩ := h
  have hchange := answer_change hs clock c p.id
  rw [hj, hk] at hchange
  exact ⟨j, hj, howned, hchange.restartOnCrash_eq ▸ hrestart⟩

theorem HoldsRestartable.of_run (hs : s.Distinct) {calls : List (Instant × Call)}
    (hlasts : ∀ m, m <+: calls → (s.run m).Holds p) (h : (s.run calls).HoldsRestartable p) :
    s.HoldsRestartable p := by
  induction calls generalizing s with
  | nil => exact h
  | cons d rest ih =>
    have hnext : (Store.answer d.1 d.2 s).2.HoldsRestartable p :=
      ih (answer_distinct hs d.1 d.2)
        (fun m hm => hlasts (d :: m) ((List.prefix_cons_inj d).2 hm)) h
    exact hnext.of_answer hs (hlasts [] List.nil_prefix)

/-- What reclaiming does to a job that is processing and may be restarted. -/
theorem HoldsRestartable.get?_reclaim (h : s.HoldsRestartable p) (staleBefore : Instant) :
    ((∃ k, (s.reclaim staleBefore).2.get? p.id = some k ∧ k.status = .scheduled) ↔
        ∃ beat, (p.owner, beat) ∈ s.workers ∧ beat < staleBefore) ∧
      ((∀ beat, (p.owner, beat) ∈ s.workers → ¬ beat < staleBefore) →
        (s.reclaim staleBefore).2.get? p.id = s.get? p.id) := by
  obtain ⟨j, hj, howned, hrestart⟩ := h
  obtain ⟨-, hstatus, howner⟩ := Job.isOwnedBy_iff.1 howned
  have hstuck : isStuck (s.silent staleBefore) j ↔
      ∃ beat, (p.owner, beat) ∈ s.workers ∧ beat < staleBefore := by
    rw [isStuck_iff, ← mem_silent]
    constructor
    · rintro ⟨-, owner, hsilent, hsame⟩
      rw [howner] at hsame
      cases hsame
      exact hsilent
    · intro hsilent
      exact ⟨hstatus, p.owner, hsilent, howner⟩
  rw [Store.get?_reclaim, hj, Option.map_some]
  refine ⟨?_, ?_⟩
  · rw [← hstuck]
    constructor
    · rintro ⟨k, hk, hscheduled⟩
      by_contra hsafe
      rw [if_neg hsafe] at hk
      cases hk
      rw [hstatus] at hscheduled
      cases hscheduled
    · intro hfound
      rw [if_pos hfound]
      exact ⟨recover j, rfl, by rw [recover, if_pos hrestart]⟩
  · intro hfresh
    rw [if_neg]
    intro hfound
    obtain ⟨beat, hbeat, hstale⟩ := hstuck.1 hfound
    exact hfresh beat hbeat hstale

/-- As long as a job that may be restarted stays under a claim, its worker is not forgotten: the
reclaim that forgets the worker takes the job back. -/
theorem HoldsRestartable.knows_answer (h : s.HoldsRestartable p)
    (hheld : (Store.answer clock c s).2.Holds p) (hknown : s.Knows p.owner) :
    (Store.answer clock c s).2.Knows p.owner := by
  rcases knows_answer_or_stale clock c hknown with hkept | ⟨staleBefore, beat, rfl, hbeat, hstale⟩
  · exact hkept
  · obtain ⟨k, hk, hscheduled⟩ := (h.get?_reclaim staleBefore).1.2 ⟨beat, hbeat, hstale⟩
    obtain ⟨k', hk', howned⟩ := holds_iff.1 hheld
    change (s.reclaim staleBefore).2.get? p.id = some k' at hk'
    rw [hk] at hk'
    cases hk'
    rw [(Job.isOwnedBy_iff.1 howned).2.1] at hscheduled
    cases hscheduled

/-! ## 3. Runs -/

/-- While a job that may be restarted is under one claim, its worker is on record if it was when the
claim was made, or has sent a sign of life since. -/
theorem HoldsRestartable.knows_run_iff (hs : s.Distinct) {calls : List (Instant × Call)}
    (h : (s.run calls).HoldsRestartable p) (hlasts : ∀ m, m <+: calls → (s.run m).Holds p) :
    (s.run calls).Knows p.owner ↔
      s.Knows p.owner ∨ ∃ d ∈ calls, ∃ now, d.2 = .heartbeat p.owner now := by
  induction calls generalizing s with
  | nil => simp [run]
  | cons d rest ih =>
    have hrest : ∀ m, m <+: rest → ((Store.answer d.1 d.2 s).2.run m).Holds p := fun m hm =>
      hlasts (d :: m) ((List.prefix_cons_inj d).2 hm)
    have hfirst : (Store.answer d.1 d.2 s).2.Knows p.owner ↔
        s.Knows p.owner ∨ ∃ now, d.2 = .heartbeat p.owner now := by
      refine ⟨knows_of_answer, ?_⟩
      rintro (hknown | ⟨now, hbeat⟩)
      · exact (h.of_run hs hlasts).knows_answer (hrest [] List.nil_prefix) hknown
      · rw [hbeat]
        exact knows_heartbeat d.1 s p.owner now
    show ((Store.answer d.1 d.2 s).2.run rest).Knows p.owner ↔ _
    rw [ih (answer_distinct hs d.1 d.2) h hrest, hfirst, List.exists_mem_cons_iff, or_assoc]

/-- A job of a worker that is not on record stays under its claim until that worker is heard of
again. -/
theorem holds_run_of_not_knows (hs : s.Distinct) (hone : s.OneBeat) (hheld : s.Holds p)
    (hgone : ¬ s.Knows p.owner) (calls : List (Instant × Call))
    (hsilent : ∀ d ∈ calls, ¬ d.2.Ends p ∧ ∀ now, d.2 ≠ .heartbeat p.owner now) :
    (s.run calls).Holds p := by
  induction calls generalizing s with
  | nil => exact hheld
  | cons d rest ih =>
    obtain ⟨⟨hkeeps, hquiet⟩, hrest⟩ := List.forall_mem_cons.1 hsilent
    refine ih (answer_distinct hs d.1 d.2) (answer_oneBeat hone d.1 d.2) ?_ ?_ hrest
    · by_contra hend
      rcases ends_of_not_holds hs hone hheld hend with hends | ⟨staleBefore, beat, -, hbeat, -⟩
      · exact hkeeps hends
      · exact hgone ⟨beat, hbeat⟩
    · intro hknown
      rcases knows_of_answer hknown with hbefore | ⟨now, hbeat⟩
      · exact hgone hbefore
      · exact hquiet now hbeat

/-! ## 4. The reach of crash recovery -/

theorem knows_claim_iff (clock : Instant) (s : Store) (owner : WorkerId) (limit : Nat)
    (now : Instant) :
    (Store.answer clock (.claim owner limit now) s).2.Knows worker ↔ s.Knows worker := by
  unfold Knows
  rw [answer_workers]

/-- **Which jobs crash recovery can reach.** After any calls, a job that is processing and may be
restarted is under a claim that has lasted since it was made. A reclaim from after all signs of life
returns the job to the schedule exactly if its owner is on record, which is so exactly if the owner
was on record when it made this claim or has sent a sign of life since. If it is not, the job stays
under the claim, whatever is called, until the owner ends the claim or is heard of again. -/
theorem recoverable_iff (calls : List (Instant × Call)) {id : JobId}
    (hj : (run {} calls).get? id = some j) (hprocessing : j.status = .processing)
    (hrestart : j.restartOnCrash) :
    ∃ owner, j.owner = some owner ∧
      (∃ l e r, calls = l ++ e :: r ∧ (run {} l).Grants e.2 ⟨id, owner⟩ ∧
        (∀ m, m <+: r → (run {} (l ++ e :: m)).Holds ⟨id, owner⟩) ∧
        ((run {} calls).Knows owner ↔
          (run {} l).Knows owner ∨ ∃ d ∈ r, ∃ now, d.2 = .heartbeat owner now)) ∧
      (∀ staleBefore, (∀ e ∈ (run {} calls).workers, e.2 < staleBefore) →
        ((∃ k, ((run {} calls).reclaim staleBefore).2.get? id = some k ∧ k.status = .scheduled) ↔
          (run {} calls).Knows owner)) ∧
      (¬ (run {} calls).Knows owner → ∀ later,
        (∀ d ∈ later, ¬ d.2.Ends ⟨id, owner⟩ ∧ ∀ now, d.2 ≠ .heartbeat owner now) →
        (run {} (calls ++ later)).Holds ⟨id, owner⟩) := by
  obtain ⟨owner, howner⟩ := Option.isSome_iff_exists.1 ((leased_run calls id j hj).2 hprocessing)
  have howned : j.isOwnedBy ⟨id, owner⟩ := Job.isOwnedBy_iff.2 ⟨id_of_get? hj, hprocessing, howner⟩
  have hheld : (run {} calls).Holds ⟨id, owner⟩ := holds_iff.2 ⟨j, hj, howned⟩
  have hend : (run {} calls).HoldsRestartable ⟨id, owner⟩ := ⟨j, hj, howned, hrestart⟩
  refine ⟨owner, howner, ?_, ?_, ?_⟩
  · obtain ⟨l, e, r, rfl, hgrant, hlasts⟩ :=
      (holds_run_iff distinct_empty (by rw [holds_iff]; simp [get?]) calls).1 hheld
    have hclaimed : (run {} (l ++ [e])).Knows owner ↔ (run {} l).Knows owner := by
      obtain ⟨limit, now, claims, he, -⟩ := hgrant
      rw [run_append, ← knows_claim_iff e.1 (run {} l) owner limit now, ← he]
      rfl
    -- from the claim on the job stays under it, so its owner can only come to be known
    have hsplit : ∀ m, run {} (l ++ e :: m) = (run {} (l ++ [e])).run m := by
      intro m
      rw [List.append_cons, run_append]
    refine ⟨l, e, r, rfl, hgrant, hlasts, ?_⟩
    rw [hsplit] at hend
    rw [hsplit, ← hclaimed]
    exact hend.knows_run_iff (run_distinct distinct_empty _) fun m hm => hsplit m ▸ hlasts m hm
  · intro staleBefore hstale
    rw [(hend.get?_reclaim staleBefore).1]
    constructor
    · rintro ⟨beat, hbeat, -⟩
      exact ⟨beat, hbeat⟩
    · rintro ⟨beat, hbeat⟩
      exact ⟨beat, hbeat, hstale _ hbeat⟩
  · intro hgone later hsilent
    rw [run_append]
    exact holds_run_of_not_knows (run_distinct distinct_empty calls) (oneBeat_run calls) hheld hgone
      later hsilent

/-- A minute and a second after the epoch. -/
def minuteLater : Instant := ⟨61000000000, by decide, by decide⟩

/-- A job whose worker stopped after the claim is back on the schedule once it is reclaimed. -/
theorem recoverable_iff_crashed :
    let owner : WorkerId := ⟨.ofNat 1⟩
    let s := run {} [(.epoch, .insert (.plain 1)), (.epoch, .heartbeat owner .epoch),
      (.epoch, .claim owner 1 .epoch)]
    s.Knows owner ∧ ∃ k, (s.reclaim minuteLater).2.get? ⟨.ofNat 1⟩ = some k ∧
      k.status = .scheduled := by
  intro owner s
  have hj : s.get? ⟨.ofNat 1⟩ = some (((NewJob.plain 1).toJob .epoch).start owner .epoch) := by
    decide +kernel
  obtain ⟨owner', howner, -, hreach, -⟩ := recoverable_iff _ hj rfl rfl
  cases Option.some.inj howner
  have hknown : s.Knows owner := ⟨.epoch, by decide +kernel⟩
  exact ⟨hknown, (hreach minuteLater (by decide +kernel)).2 hknown⟩

/-- A worker sends a sign of life and then pauses for a minute. Another one forgets it meanwhile.
The job that it claims when it goes on is out of reach of any reclaim. -/
theorem recovery_misses_forgotten_owner :
    let paused : WorkerId := ⟨.ofNat 1⟩
    let other : WorkerId := ⟨.ofNat 2⟩
    let calls : List (Instant × Call) := [(.epoch, .insert (.plain 1)),
      (.epoch, .heartbeat paused .epoch), (minuteLater, .heartbeat other minuteLater),
      (minuteLater, .reclaim minuteLater), (minuteLater, .claim paused 1 minuteLater)]
    let s := run {} calls
    BeatsFirst [] calls ∧
    ∃ j, s.get? ⟨.ofNat 1⟩ = some j ∧ j.status = .processing ∧ j.restartOnCrash ∧
      j.owner = some paused ∧ ¬ s.Knows paused ∧
      ∀ staleBefore, (s.reclaim staleBefore).2.get? ⟨.ofNat 1⟩ = some j := by
  intro paused other calls s
  have hj : s.get? ⟨.ofNat 1⟩ =
      some (((NewJob.plain 1).toJob .epoch).start paused minuteLater) := by
    decide +kernel
  have hworkers : s.workers = [(other, minuteLater)] := by decide +kernel
  have hdiffer : paused ≠ other := by decide
  have hgone : ∀ beat, (paused, beat) ∉ s.workers := by
    intro beat hbeat
    rw [hworkers, List.mem_singleton] at hbeat
    exact hdiffer (congrArg Prod.fst hbeat)
  have hheld : s.HoldsRestartable ⟨⟨.ofNat 1⟩, paused⟩ := ⟨_, hj, by decide, rfl⟩
  refine ⟨by simp [calls, BeatsFirst], _, hj, rfl, rfl, rfl, ?_, ?_⟩
  · rintro ⟨beat, hbeat⟩
    exact hgone beat hbeat
  · intro staleBefore
    rw [← hj]
    exact (hheld.get?_reclaim staleBefore).2 fun beat hbeat => absurd hbeat (hgone beat)

end Store

end JobQueue
