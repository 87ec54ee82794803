import JobQueue.Proofs.Store.Life

/-!
# A claim is a lease

A claim hands a job to one worker until a write of that worker ends it, or until the worker is found
to be silent. The invariant that carries this is `Leased`: a job has an owner exactly while it is
processing.
-/

namespace JobQueue

/-- Whether the call is a write that ends claims, and names this one. -/
def Call.Ends (c : Call) (p : ProcessingJob) : Prop :=
  match c with
  | .complete jobs _ => ∃ f ∈ jobs, f.job = p
  | .retry q _ _ => q = p
  | .reschedule q _ _ => q = p
  | .fail q _ => q = p
  | _ => False

theorem Job.eq_of_isOwnedBy {j : Job} {p q : ProcessingJob} (hp : j.isOwnedBy p)
    (hq : j.isOwnedBy q) : p = q := by
  obtain ⟨hid, -, howner⟩ := Job.isOwnedBy_iff.1 hp
  obtain ⟨hid', -, howner'⟩ := Job.isOwnedBy_iff.1 hq
  cases p
  cases q
  simp_all

namespace Store

variable {s : Store} {clock : Instant} {c : Call} {p q : ProcessingJob}

/-- Whether the job of a claim is under that claim. -/
def Holds (s : Store) (p : ProcessingJob) : Prop := (s.get? p.id).any (·.isOwnedBy p) = true

instance (s : Store) (p : ProcessingJob) : Decidable (s.Holds p) :=
  inferInstanceAs (Decidable (_ = true))

theorem holds_iff : s.Holds p ↔ ∃ j, s.get? p.id = some j ∧ j.isOwnedBy p := by
  unfold Holds
  cases s.get? p.id <;> simp

/-- Whether a call is a claim by the worker of the pair that returns the job of the pair. -/
def Grants (s : Store) (c : Call) (p : ProcessingJob) : Prop :=
  ∃ limit now claims, c = .claim p.owner limit now ∧
    (s.claim p.owner limit now).1 = .ok claims ∧ p.id ∈ claims.map (·.id)

def Leased (s : Store) : Prop :=
  ∀ id j, s.get? id = some j → (j.owner.isSome ↔ j.status = .processing)

/-- Each worker has one sign of life on record. -/
def OneBeat (s : Store) : Prop := (s.workers.map (·.1)).Nodup

/-- Whether a call ends a claim because its worker is silent, and forgets the worker. -/
def Expires (s : Store) (clock : Instant) (c : Call) (p : ProcessingJob) : Prop :=
  ∃ staleBefore beat, c = .reclaim staleBefore ∧ (p.owner, beat) ∈ s.workers ∧
    beat < staleBefore ∧ p.owner ∉ (Store.answer clock c s).2.workers.map (·.1)

/-! ## 1. Invariants -/

theorem Change.leased {o o' : Option Job} (h : Change s clock c o o')
    (hl : ∀ j, o = some j → (j.owner.isSome ↔ j.status = .processing)) :
    ∀ j, o' = some j → (j.owner.isSome ↔ j.status = .processing) := by
  intro j' hj'
  cases h with
  | kept => exact hl j' hj'
  | @inserted _ new _ =>
    cases hj'
    cases hwaits : new.waits <;> simp [NewJob.toJob, NewJob.initialStatus, hwaits]
  | @revised new j _ _ =>
    cases hj'
    exact hl j rfl
  | started _ _ =>
    cases hj'
    simp [Job.start]
  | completed _ _ =>
    cases hj'
    simp [Job.finish]
  | @unlocked _ _ _ _ j _ _ _ _ hwaits =>
    cases hj'
    have hfree := hl j rfl
    -- a job that waits has no owner, and gets none when it is let go
    rw [hwaits] at hfree
    simpa [Job.released] using hfree
  | retried _ =>
    cases hj'
    simp [Job.putBack]
  | rescheduled _ =>
    cases hj'
    simp [Job.putBack]
  | failed _ =>
    cases hj'
    simp [Job.finish]
  | recovered _ _ _ _ hrestart =>
    cases hj'
    simp [recover, hrestart]
  | cancelled _ _ => cases hj'
  | dropped _ _ _ => cases hj'
  | removed _ _ => cases hj'

theorem leased_run (calls : List (Instant × Call)) : (run {} calls).Leased := by
  refine run_invariant ?_ ?_ calls
  · intro id j h
    cases h
  · intro s hs hl clock c id
    exact (answer_change hs clock c id).leased (hl id)

theorem answer_oneBeat (hone : s.OneBeat) (clock : Instant) (c : Call) :
    (Store.answer clock c s).2.OneBeat := by
  unfold OneBeat at hone ⊢
  rw [answer_workers]
  cases c with
  | heartbeat worker now =>
    rw [List.map_append]
    apply (hone.sublist (List.filter_sublist.map _)).append (List.nodup_singleton _)
    simp
  | reclaim staleBefore => exact hone.sublist (List.filter_sublist.map _)
  | _ => exact hone

theorem oneBeat_run (calls : List (Instant × Call)) : (run {} calls).OneBeat :=
  run_invariant List.nodup_nil (fun _ _ hone => answer_oneBeat hone) calls

/-! ## 2. How a lease ends -/

/-- Reclaiming reports the job of a claim exactly if its worker is silent. -/
theorem mem_reclaim_of_holds (hs : s.Distinct) (hp : s.Holds p) (staleBefore : Instant) :
    p.id ∈ (s.reclaim staleBefore).1.map (·.id) ↔
      ∃ beat, (p.owner, beat) ∈ s.workers ∧ beat < staleBefore := by
  obtain ⟨j, hj, howned⟩ := holds_iff.1 hp
  obtain ⟨-, hstatus, howner⟩ := Job.isOwnedBy_iff.1 howned
  rw [mem_reclaim hs, hj]
  constructor
  · rintro ⟨k, hk, hstuck⟩
    cases hk
    obtain ⟨-, owner, hsilent, hown⟩ := isStuck_iff.1 hstuck
    rw [howner] at hown
    cases hown
    exact mem_silent.1 hsilent
  · intro hbeat
    exact ⟨j, rfl, isStuck_iff.2 ⟨hstatus, p.owner, mem_silent.2 hbeat, howner⟩⟩

theorem get?_reclaim_of_not_mem (hs : s.Distinct) {id : JobId} {staleBefore : Instant}
    (hid : id ∉ (s.reclaim staleBefore).1.map (·.id)) :
    (s.reclaim staleBefore).2.get? id = s.get? id := by
  rw [get?_reclaim]
  cases hget : s.get? id with
  | none => rfl
  | some j =>
    rw [Option.map_some, if_neg]
    intro hstuck
    exact hid ((mem_reclaim hs staleBefore).2 ⟨j, hget, hstuck⟩)

/-- A lease ends by a write that names it, or because its worker is silent. -/
theorem ends_of_not_holds (hs : s.Distinct) (hone : s.OneBeat) (hp : s.Holds p)
    (hend : ¬ (Store.answer clock c s).2.Holds p) : c.Ends p ∨ s.Expires clock c p := by
  obtain ⟨j, hj, howned⟩ := holds_iff.1 hp
  obtain ⟨hid, hstatus, howner⟩ := Job.isOwnedBy_iff.1 howned
  have hchange := answer_change hs clock c p.id
  have hkeeps : ∀ k, (Store.answer clock c s).2.get? p.id = some k → ¬ k.isOwnedBy p := by
    intro k hk hkp
    exact hend (holds_iff.2 ⟨k, hk, hkp⟩)
  rw [hj] at hchange
  generalize ho : (Store.answer clock c s).2.get? p.id = o at hchange hkeeps
  -- what keeps status and owner keeps the lease; what ends it shows in the call
  cases hchange with
  | kept => exact absurd howned (hkeeps j rfl)
  | @revised new _ _ _ =>
    have hrevised : (j.revised new).isOwnedBy p := Job.isOwnedBy_iff.2 ⟨hid, hstatus, howner⟩
    exact absurd hrevised (hkeeps _ rfl)
  | cancelled _ hidle =>
    rw [hstatus] at hidle
    cases hidle
  | dropped _ _ hidle => exact absurd hstatus hidle
  | started hdue _ =>
    rw [isDue, hstatus] at hdue
    cases hdue
  | completed hf hfj => exact Or.inl ⟨_, hf, Job.eq_of_isOwnedBy hfj howned⟩
  | removed hf hfj => exact Or.inl ⟨_, hf, Job.eq_of_isOwnedBy hfj howned⟩
  | unlocked _ _ _ _ hwaits =>
    rw [hstatus] at hwaits
    cases hwaits
  | retried hq => exact Or.inl (Job.eq_of_isOwnedBy hq howned)
  | rescheduled hq => exact Or.inl (Job.eq_of_isOwnedBy hq howned)
  | failed hq => exact Or.inl (Job.eq_of_isOwnedBy hq howned)
  | @recovered staleBefore owner beat _ _ hown hbeat hstale _ =>
    rw [howner] at hown
    cases hown
    -- the worker has this one sign of life on record, so with it all trace of the worker is gone
    refine Or.inr ⟨staleBefore, beat, rfl, hbeat, hstale, ?_⟩
    intro hmem
    rw [answer_workers] at hmem
    obtain ⟨⟨worker, beat'⟩, hbeat', hworker⟩ := List.mem_map.1 hmem
    obtain ⟨hin, hfresh⟩ := List.mem_filter.1 hbeat'
    have hsame := List.inj_on_of_nodup_map hone hin hbeat hworker
    cases hsame
    simp [hstale] at hfresh

theorem exists_end_of_not_holds (mid : List (Instant × Call)) (hp : s.Holds p)
    (hend : ¬ (s.run mid).Holds p) :
    ∃ l e r, mid = l ++ e :: r ∧ (s.run l).Holds p ∧ ¬ (s.run (l ++ [e])).Holds p := by
  induction mid generalizing s with
  | nil => exact absurd hp hend
  | cons e rest ih =>
    by_cases hnext : (Store.answer e.1 e.2 s).2.Holds p
    · obtain ⟨l, d, r, rfl, hl, hd⟩ := ih hnext hend
      exact ⟨e :: l, d, r, rfl, hl, hd⟩
    · exact ⟨[], e, rest, rfl, hp, hnext⟩

/-! ## 3. Claims -/

theorem Grants.spec (hs : s.Distinct) (h : s.Grants c p) (clock : Instant) :
    (∃ j, s.get? p.id = some j ∧ j.status = .scheduled) ∧ (Store.answer clock c s).2.Holds p := by
  obtain ⟨limit, now, claims, rfl, hok, hmem⟩ := h
  rcases claim_spec hs p.owner limit now with hcrash | ⟨claims', hok', hclaims, hget⟩
  · rw [hcrash] at hok
    cases hok
  · rw [hok] at hok'
    cases hok'
    obtain ⟨c, hc, hid⟩ := List.mem_map.1 hmem
    obtain ⟨j, hj, hdue, -, -⟩ := hclaims c hc
    rw [hid] at hj
    rw [isDue, Bool.and_eq_true, decide_eq_true_eq] at hdue
    refine ⟨⟨j, hj, hdue.1⟩, holds_iff.2 ⟨j.start p.owner now, ?_, ?_⟩⟩
    · show (s.claim p.owner limit now).2.get? p.id = _
      rw [hget, if_pos hmem, hj]
      rfl
    · have hsame : j.id = p.id := id_of_get? hj
      exact Job.isOwnedBy_iff.2 ⟨hsame, rfl, rfl⟩

/-- **A claim is an exclusive lease.** Whatever calls are made of an empty store, a job has an owner
exactly while it is processing; a lease ends only by a write that names it or because its worker is
silent; and between two claims of one job the first lease has ended so. -/
theorem claim_exclusive (calls : List (Instant × Call)) :
    (run {} calls).Leased ∧
    (∀ e p, (run {} calls).Holds p → ¬ (run {} (calls ++ [e])).Holds p →
      e.2.Ends p ∨ (run {} calls).Expires e.1 e.2 p) ∧
    ∀ before e mid e' after p q, calls = before ++ e :: mid ++ e' :: after → p.id = q.id →
      (run {} before).Grants e.2 p → (run {} (before ++ e :: mid)).Grants e'.2 q →
      ∃ l d r, mid = l ++ d :: r ∧ (run {} (before ++ e :: l)).Holds p ∧
        ¬ (run {} (before ++ e :: l ++ [d])).Holds p ∧
        (d.2.Ends p ∨ (run {} (before ++ e :: l)).Expires d.1 d.2 p) := by
  have hstep : ∀ calls e p, (run {} calls).Holds p → ¬ (run {} (calls ++ [e])).Holds p →
      e.2.Ends p ∨ (run {} calls).Expires e.1 e.2 p := by
    intro calls e p hp hend
    rw [run_append] at hend
    exact ends_of_not_holds (run_distinct distinct_empty calls) (oneBeat_run calls) hp hend
  refine ⟨leased_run calls, hstep calls, ?_⟩
  rintro before e mid e' after p q - hid hfirst hsecond
  have hheld : (run {} (before ++ [e])).Holds p := by
    rw [run_append]
    exact (hfirst.spec (run_distinct distinct_empty before) e.1).2
  -- the second claim finds the job free, so the lease of the first has ended in between
  have hfree : ¬ (run {} (before ++ e :: mid)).Holds p := by
    obtain ⟨⟨j, hj, hscheduled⟩, -⟩ := hsecond.spec (run_distinct distinct_empty _) e'.1
    intro hp
    obtain ⟨k, hk, hkp⟩ := holds_iff.1 hp
    rw [hid, hj] at hk
    cases hk
    rw [(Job.isOwnedBy_iff.1 hkp).2.1] at hscheduled
    cases hscheduled
  rw [List.append_cons, run_append] at hfree
  obtain ⟨l, d, r, rfl, hl, hd⟩ := exists_end_of_not_holds mid hheld hfree
  rw [← run_append, ← List.append_cons] at hl
  rw [← run_append, ← List.append_assoc, ← List.append_cons] at hd
  exact ⟨l, d, r, rfl, hl, hd, hstep _ d p hl hd⟩

/-- Two workers claim a job in turn: the first lease ends by the retry between the claims. -/
theorem claim_exclusive_retried :
    let p : ProcessingJob := ⟨⟨.ofNat 1⟩, ⟨.ofNat 1⟩⟩
    let q : ProcessingJob := ⟨⟨.ofNat 1⟩, ⟨.ofNat 2⟩⟩
    let before : List (Instant × Call) := [(.epoch, .insert (.plain 1))]
    let e : Instant × Call := (.epoch, .claim p.owner 1 .epoch)
    let mid : List (Instant × Call) := [(.epoch, .retry p .epoch "late")]
    let e' : Instant × Call := (.epoch, .claim q.owner 1 .epoch)
    (run {} before).Grants e.2 p ∧ (run {} (before ++ e :: mid)).Grants e'.2 q ∧
    ∃ l d r, mid = l ++ d :: r ∧ (run {} (before ++ e :: l)).Holds p ∧
      ¬ (run {} (before ++ e :: l ++ [d])).Holds p ∧
      (d.2.Ends p ∨ (run {} (before ++ e :: l)).Expires d.1 d.2 p) := by
  intro p q before e mid e'
  have hfirst : (run {} before).Grants e.2 p :=
    ⟨1, .epoch, [(((NewJob.plain 1).toJob .epoch).start p.owner .epoch).claimed p.owner],
      rfl, by decide +kernel, by decide⟩
  have hsecond : (run {} (before ++ e :: mid)).Grants e'.2 q := by
    refine ⟨1, .epoch, [⟨⟨.ofNat 1⟩, q.owner, "plain", "null", none, 2, .epoch, .none⟩], rfl,
      ?_, ?_⟩
    · decide +kernel
    · decide
  exact ⟨hfirst, hsecond,
    (claim_exclusive _).2.2 before e mid e' [] p q rfl rfl hfirst hsecond⟩

end Store

end JobQueue
