import JobQueue.Proofs.Store.Upsert

/-!
# One recurrent job of a type

The store keeps no index of recurrent jobs by their type. That there is one of a type at most comes
of how jobs are enqueued: a recurrent one is looked for before it is inserted, and no other call
inserts a recurrent job or makes a job recurrent.
-/

namespace JobQueue

/-- Whether the call inserts jobs the way they are enqueued: a recurrent one is looked for first. -/
def Call.Routed : Call → Prop
  | .upsertRecurrent new => new.cron.isSome
  | c => ∀ new ∈ c.newJobs, new.cron = none

/-- What is done with a store: jobs are enqueued, or a call is made that inserts none. -/
inductive Operation
  | enqueue (d : Draft)
  | enqueueSequence (kind : SequenceKind) (drafts : List Draft)
  | ask (c : Call) (hnew : c.newJobs = [])

/-- The store after an operation. -/
def Operation.perform (clock : Instant) : Operation → Store → Store
  | .enqueue d, s => (d.enqueue Store.backend clock s).2
  | .enqueueSequence kind drafts, s => (kind.enqueue drafts Store.backend clock s).2
  | .ask c _, s => (Store.answer clock c s).2

namespace Store

variable {s s' : Store} {clock : Instant} {id : JobId} {c : Call} {d : Draft}

/-- The store after some operations, each made at a time of the clock. -/
def after (s : Store) (ops : List (Instant × Operation)) : Store :=
  ops.foldl (fun s e => e.2.perform e.1 s) s

/-- Whether there is a job of the id before, between and after the operations. -/
def stays (id : JobId) : List (Instant × Operation) → Store → Bool
  | [], s => s.contains id
  | (clock, o) :: rest, s => s.contains id && stays id rest (o.perform clock s)

/-- Jobs of a type that are recurrent are one job. -/
def OneRecurrent (s : Store) : Prop :=
  ∀ j ∈ s.jobs, ∀ k ∈ s.jobs, j.isRecurrent → k.isRecurrent → j.jobType = k.jobType → j.id = k.id

theorem OneRecurrent.countP_le_one (h : s.OneRecurrent) (hs : s.Distinct) (jobType : String) :
    s.jobs.countP (fun j => j.jobType = jobType && j.isRecurrent) ≤ 1 := by
  rw [List.countP_eq_length_filter]
  -- two entries of the list have one id each, and share it
  have hnodup : ((s.jobs.filter fun j => j.jobType = jobType && j.isRecurrent).map (·.id)).Nodup :=
    filter_distinct hs _
  have hmem : ∀ j ∈ s.jobs.filter (fun j => j.jobType = jobType && j.isRecurrent),
      j ∈ s.jobs ∧ j.jobType = jobType ∧ j.isRecurrent := by
    intro j hj
    simpa only [List.mem_filter, Bool.and_eq_true, decide_eq_true_eq] using hj
  generalize (s.jobs.filter fun j => j.jobType = jobType && j.isRecurrent) = found at hnodup hmem ⊢
  match found, hnodup, hmem with
  | [], _, _ => exact Nat.zero_le _
  | [_], _, _ => exact Nat.le_refl _
  | j :: k :: rest, hnodup, hmem =>
    obtain ⟨hj, hjtype, hjrec⟩ := hmem j List.mem_cons_self
    obtain ⟨hk, hktype, hkrec⟩ := hmem k (List.mem_cons_of_mem _ List.mem_cons_self)
    have hid := h j hj k hk hjrec hkrec (hjtype.trans hktype.symm)
    rw [List.map_cons, List.map_cons, List.nodup_cons, hid] at hnodup
    exact absurd List.mem_cons_self hnodup.1

/-! ## 1. What one call keeps -/

/-- No call changes the type of a job, or whether it is recurrent. -/
theorem Change.kind_eq {j j' : Job} (h : Change s clock c (some j) (some j')) (hc : c.Routed) :
    j'.jobType = j.jobType ∧ j'.isRecurrent = j.isRecurrent := by
  cases h with
  | revised _ hrec => exact ⟨rfl, (show _ = true from hc).trans hrec.symm⟩
  | recovered _ _ _ _ hrestart =>
    rw [recover, if_pos hrestart]
    exact ⟨rfl, rfl⟩
  | _ => exact ⟨rfl, rfl⟩

theorem answer_kind (hs : s.Distinct) (hc : c.Routed) {j j' : Job} (hj : s.get? id = some j)
    (hj' : (Store.answer clock c s).2.get? id = some j') :
    j'.jobType = j.jobType ∧ j'.isRecurrent = j.isRecurrent := by
  have hchange := answer_change hs clock c id
  rw [hj, hj'] at hchange
  exact hchange.kind_eq hc

/-- A job that a call brings in is recurrent only if no other of its type was. -/
theorem fresh_of_answer (hs : s.Distinct) (hc : c.Routed) {j : Job} (hnone : s.get? id = none)
    (hj : (Store.answer clock c s).2.get? id = some j) (hrec : j.isRecurrent) :
    ∃ new, c = .upsertRecurrent new ∧ j.id = new.id ∧
      ∀ k ∈ s.jobs, k.isRecurrent → k.jobType ≠ j.jobType := by
  have hchange := answer_change hs clock c id
  rw [hnone, hj] at hchange
  cases hchange with
  | @inserted _ new hnew =>
    cases c with
    | upsertRecurrent job =>
      cases List.mem_singleton.1 hnew
      refine ⟨new, rfl, rfl, ?_⟩
      rcases upsertRecurrent_cases s new clock with ⟨stored, hstored, -, -, heq⟩ | ⟨hfree, -⟩
      · -- a revision adds no job
        have hget : (s.update stored.id (·.revised new)).get? id = some (new.toJob clock) := by
          simpa only [answer, heq] using hj
        rw [update, get?_updateIf s _ (Job.revised_id · new), hnone] at hget
        cases hget
      · exact hfree
    | _ =>
      have honce := hc new hnew
      rw [Job.isRecurrent, NewJob.toJob, honce] at hrec
      cases hrec

theorem answer_oneRecurrent (hs : s.Distinct) (hc : c.Routed) (h : s.OneRecurrent) :
    (Store.answer clock c s).2.OneRecurrent := by
  intro j hj k hk hjrec hkrec htype
  have hs' := answer_distinct hs clock c
  have hgetj := get?_of_mem hs' hj
  have hgetk := get?_of_mem hs' hk
  cases hoj : s.get? j.id with
  | none =>
    obtain ⟨new, rfl, hid, hfree⟩ := fresh_of_answer hs hc hoj hgetj hjrec
    cases hok : s.get? k.id with
    | none =>
      obtain ⟨_, hsame, hid', -⟩ := fresh_of_answer hs hc hok hgetk hkrec
      cases hsame
      exact hid.trans hid'.symm
    | some k' =>
      obtain ⟨hktype, hkrec'⟩ := answer_kind hs hc hok hgetk
      exact absurd (hktype.symm.trans htype.symm) (hfree k' (mem_of_get? hok) (hkrec' ▸ hkrec))
  | some j' =>
    obtain ⟨hjtype, hjrec'⟩ := answer_kind hs hc hoj hgetj
    cases hok : s.get? k.id with
    | none =>
      obtain ⟨_, -, -, hfree⟩ := fresh_of_answer hs hc hok hgetk hkrec
      exact absurd (hjtype.symm.trans htype) (hfree j' (mem_of_get? hoj) (hjrec' ▸ hjrec))
    | some k' =>
      obtain ⟨hktype, hkrec'⟩ := answer_kind hs hc hok hgetk
      have hid := h j' (mem_of_get? hoj) k' (mem_of_get? hok) (hjrec' ▸ hjrec) (hkrec' ▸ hkrec)
        (hjtype.symm.trans (htype.trans hktype))
      rwa [id_of_get? hoj, id_of_get? hok] at hid

/-! ## 2. Operations -/

/-- An operation comes to one call at most, and that call looks for recurrent jobs. -/
theorem perform_cases (o : Operation) (clock : Instant) (s : Store) :
    o.perform clock s = s ∨ ∃ c, c.Routed ∧ o.perform clock s = (Store.answer clock c s).2 := by
  cases o with
  | enqueue d =>
    simp only [Operation.perform, Draft.enqueue]
    split
    · exact Or.inl rfl
    · rename_i new hbuild
      unfold NewJob.enqueue
      split
      · rename_i hcron
        exact Or.inr ⟨.upsertRecurrent new, hcron, rfl⟩
      · rename_i hcron
        have honce : new.cron = none := Option.not_isSome_iff_eq_none.1 hcron
        exact Or.inr ⟨.insert new, fun job hjob => List.mem_singleton.1 hjob ▸ honce, rfl⟩
  | enqueueSequence kind drafts =>
    simp only [Operation.perform, SequenceKind.enqueue]
    split
    · exact Or.inl rfl
    · exact Or.inl rfl
    · rename_i jobs _ hbuild
      exact Or.inr ⟨.insertMany jobs, (SequenceKind.build_linked hbuild).once, rfl⟩
  | ask c hnew =>
    refine Or.inr ⟨c, ?_, rfl⟩
    cases c with
    | upsertRecurrent new => cases hnew
    | _ => exact fun new hmem => absurd (hnew ▸ hmem) List.not_mem_nil

theorem perform_distinct (hs : s.Distinct) (o : Operation) (clock : Instant) :
    (o.perform clock s).Distinct := by
  rcases perform_cases o clock s with h | ⟨c, -, h⟩ <;> rw [h]
  · exact hs
  · exact answer_distinct hs clock c

theorem perform_oneRecurrent (hs : s.Distinct) (h : s.OneRecurrent) (o : Operation)
    (clock : Instant) : (o.perform clock s).OneRecurrent := by
  rcases perform_cases o clock s with heq | ⟨c, hc, heq⟩ <;> rw [heq]
  · exact h
  · exact answer_oneRecurrent hs hc h

theorem perform_kind (hs : s.Distinct) (o : Operation) {j j' : Job} (hj : s.get? id = some j)
    (hj' : (o.perform clock s).get? id = some j') :
    j'.jobType = j.jobType ∧ j'.isRecurrent = j.isRecurrent := by
  rcases perform_cases o clock s with heq | ⟨c, hc, heq⟩ <;> rw [heq] at hj'
  · rw [hj] at hj'
    cases hj'
    exact ⟨rfl, rfl⟩
  · exact answer_kind hs hc hj hj'

/-- A recurrent job that an operation brings in is the first of its type. -/
theorem fresh_of_perform (hs : s.Distinct) (o : Operation) {j : Job} (hnone : s.get? id = none)
    (hj : (o.perform clock s).get? id = some j) (hrec : j.isRecurrent) :
    ∀ k ∈ s.jobs, k.isRecurrent → k.jobType ≠ j.jobType := by
  rcases perform_cases o clock s with heq | ⟨c, hc, heq⟩ <;> rw [heq] at hj
  · rw [hnone] at hj
    cases hj
  · obtain ⟨_, -, -, hfree⟩ := fresh_of_answer hs hc hnone hj hrec
    exact hfree

/-! ## 3. Runs of operations -/

theorem after_distinct (hs : s.Distinct) (ops : List (Instant × Operation)) :
    (s.after ops).Distinct := by
  induction ops generalizing s with
  | nil => exact hs
  | cons e rest ih => exact ih (perform_distinct hs e.2 e.1)

theorem after_oneRecurrent (hs : s.Distinct) (h : s.OneRecurrent)
    (ops : List (Instant × Operation)) : (s.after ops).OneRecurrent := by
  induction ops generalizing s with
  | nil => exact h
  | cons e rest ih => exact ih (perform_distinct hs e.2 e.1) (perform_oneRecurrent hs h e.2 e.1)

/-- A job that is there all the time keeps its type, and stays recurrent or not. -/
theorem after_kind (hs : s.Distinct) {ops : List (Instant × Operation)} {j : Job}
    (hstays : stays id ops s) (hj : s.get? id = some j) :
    ∃ j', (s.after ops).get? id = some j' ∧ j'.jobType = j.jobType ∧
      j'.isRecurrent = j.isRecurrent := by
  induction ops generalizing s j with
  | nil => exact ⟨j, hj, rfl, rfl⟩
  | cons e rest ih =>
    rw [stays, Bool.and_eq_true] at hstays
    have hthere : ((e.2.perform e.1 s).get? id).isSome := by
      rw [← contains_eq_isSome]
      cases rest with
      | nil => exact hstays.2
      | cons e' rest => exact (Bool.and_eq_true_iff.1 hstays.2).1
    obtain ⟨k, hk⟩ := Option.isSome_iff_exists.1 hthere
    obtain ⟨hktype, hkrec⟩ := perform_kind hs e.2 hj hk
    obtain ⟨j', hj', htype, hrec⟩ := ih (perform_distinct hs e.2 e.1) hstays.2 hk
    exact ⟨j', hj', htype.trans hktype, hrec.trans hkrec⟩

/-! ## 4. Enqueuing -/

theorem enqueue_built_kind {new : NewJob} (hs : s.Distinct)
    (h : (new.enqueue Store.backend clock s).1 = .ok id) :
    ∃ j, (new.enqueue Store.backend clock s).2.get? id = some j ∧ j.jobType = new.jobType ∧
      j.isRecurrent = new.cron.isSome := by
  unfold NewJob.enqueue at h ⊢
  by_cases hcron : new.cron.isSome = true
  · rw [if_pos hcron] at h ⊢
    simp only [backend, answer] at h ⊢
    rcases upsertRecurrent_cases s new clock with
      ⟨stored, hstored, htype, -, heq⟩ | ⟨-, ⟨e, heq⟩ | ⟨s', hinsert, heq⟩⟩ <;>
      simp only [heq] at h ⊢
    · cases h
      refine ⟨stored.revised new, ?_, htype, rfl⟩
      rw [update, get?_updateIf s _ (Job.revised_id · new), get?_of_mem hs hstored, Option.map_some,
        if_pos (decide_eq_true rfl)]
    · cases h
    · cases h
      exact ⟨_, (get?_insert hinsert _).trans (if_pos rfl), rfl, rfl⟩
  · rw [if_neg hcron] at h ⊢
    simp only [backend, answer] at h ⊢
    cases hinsert : s.insert new clock with
    | error e =>
      simp only [hinsert] at h
      cases h
    | ok s' =>
      simp only [hinsert] at h ⊢
      cases h
      exact ⟨_, (get?_insert hinsert _).trans (if_pos rfl), rfl, rfl⟩

/-- The id that enqueuing returns is that of a job of the draft's type, recurrent if the draft
is. -/
theorem enqueue_kind (hs : s.Distinct) (h : (d.enqueue Store.backend clock s).1 = .ok id) :
    ∃ j, (d.enqueue Store.backend clock s).2.get? id = some j ∧ j.jobType = d.type.name ∧
      j.isRecurrent = d.cron.isSome := by
  unfold Draft.enqueue at h ⊢
  cases hbuild : d.build clock with
  | error e =>
    rw [hbuild] at h
    cases h
  | ok new =>
    simp only [hbuild] at h ⊢
    obtain ⟨j, hj, htype, hrec⟩ := enqueue_built_kind hs h
    obtain ⟨t, text, -, -, rfl⟩ := Draft.build_eq_ok_iff.1 hbuild
    exact ⟨j, hj, htype, hrec⟩

/-- **One recurrent job of a type.** Whatever is enqueued in an empty store, and whatever other
calls are made, no two of the jobs in it are recurrent and of one type. A job that stays in the
store stays recurrent, or not recurrent, as it was enqueued. As long as a recurrent job is in the
store, everyone who enqueues a recurrent job of its type gets its id. -/
theorem one_recurrent_job (ops : List (Instant × Operation)) :
    let s := Store.after {} ops
    (∀ jobType, s.jobs.countP (fun j => j.jobType = jobType && j.isRecurrent) ≤ 1) ∧
    (∀ (d : Draft) (clock : Instant) (id : JobId), (d.enqueue Store.backend clock s).1 = .ok id →
      ∃ j, (d.enqueue Store.backend clock s).2.get? id = some j ∧ j.jobType = d.type.name ∧
        j.isRecurrent = d.cron.isSome) ∧
    (∀ id more j, s.get? id = some j → stays id more s →
      ∃ j', (s.after more).get? id = some j' ∧ j'.jobType = j.jobType ∧
        j'.isRecurrent = j.isRecurrent) ∧
    ∀ (d d' : Draft) (clock clock' : Instant) (more : List (Instant × Operation)) (id id' : JobId),
      d.cron.isSome → d'.cron.isSome → d'.type.name = d.type.name →
      (d.enqueue Store.backend clock s).1 = .ok id →
      stays id more (d.enqueue Store.backend clock s).2 →
      (d'.enqueue Store.backend clock' ((d.enqueue Store.backend clock s).2.after more)).1 =
        .ok id' →
      id' = id := by
  intro s
  have hs : s.Distinct := after_distinct distinct_empty ops
  have hone : s.OneRecurrent := after_oneRecurrent distinct_empty (List.forall_mem_nil _) ops
  refine ⟨hone.countP_le_one hs, fun d clock id => enqueue_kind hs,
    fun id more j hj hstays => after_kind hs hstays hj, ?_⟩
  intro d d' clock clock' more id id' hcron hcron' htype hok hstays hok'
  have hs' : (d.enqueue Store.backend clock s).2.Distinct := perform_distinct hs (.enqueue d) clock
  have hone' : (d.enqueue Store.backend clock s).2.OneRecurrent :=
    perform_oneRecurrent hs hone (.enqueue d) clock
  obtain ⟨j, hj, hjtype, hjrec⟩ := enqueue_kind hs hok
  obtain ⟨k, hk, hktype, hkrec⟩ := after_kind hs' hstays hj
  rw [hjtype] at hktype
  rw [hjrec, hcron] at hkrec
  have hlast := after_distinct hs' more
  obtain ⟨j', hj', hjtype', hjrec'⟩ := enqueue_kind hlast hok'
  rw [hcron'] at hjrec'
  -- the job of the first enqueuing is there before the second, so the second brings in no other
  cases hid' : ((d.enqueue Store.backend clock s).2.after more).get? id' with
  | none =>
    have hfree := fresh_of_perform hlast (.enqueue d') hid' hj' hjrec'
    exact absurd (hktype.trans (hjtype'.trans htype).symm) (hfree k (mem_of_get? hk) hkrec)
  | some k' =>
    obtain ⟨htype', hrec'⟩ := perform_kind hlast (.enqueue d') hid' hj'
    have hsame := after_oneRecurrent hs' hone' more k' (mem_of_get? hid') k (mem_of_get? hk)
      (hrec'.symm.trans hjrec') hkrec (htype'.symm.trans (hjtype'.trans (htype.trans hktype.symm)))
    rwa [id_of_get? hid', id_of_get? hk] at hsame

/-- A job for every day at eleven is enqueued and claimed then; while it is processed, one for
every day at noon is enqueued, and is the same job. -/
theorem one_recurrent_job_noon :
    let first := recurring 1 "0 0 11 * * *"
    let second := recurring 2 "0 0 12 * * *"
    let more := [(newYear 11, Operation.ask (.claim ⟨.ofNat 1⟩ 1 (newYear 11)) rfl)]
    let s := (first.enqueue Store.backend (newYear 9) {}).2
    stays ⟨.ofNat 1⟩ more s ∧
      ∃ id', (second.enqueue Store.backend (newYear 11) (s.after more)).1 = .ok id' ∧
        id' = ⟨.ofNat 1⟩ := by
  intro first second more s
  have hok : (first.enqueue Store.backend (newYear 9) {}).1 = .ok ⟨.ofNat 1⟩ := by decide +kernel
  have hstays : stays ⟨.ofNat 1⟩ more s := by decide +kernel
  obtain ⟨id', hok'⟩ :
      ∃ id', (second.enqueue Store.backend (newYear 11) (s.after more)).1 = .ok id' :=
    ⟨⟨.ofNat 1⟩, by decide +kernel⟩
  refine ⟨hstays, id', hok', ?_⟩
  exact (one_recurrent_job []).2.2.2 first second _ _ more _ id' rfl rfl rfl hok hstays hok'

end Store

end JobQueue
