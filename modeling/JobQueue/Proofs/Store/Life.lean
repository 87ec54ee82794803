import JobQueue.Proofs.Store.Completion

/-!
# The life of a job in the store

`Change` lists everything that a call can do to the job of one id, with the conditions under which
it does it. `answer_change` says that nothing else happens; what holds of all jobs in all runs is
read off the constructors.
-/

namespace JobQueue

def Call.newJobs : Call → List NewJob
  | .insert job => [job]
  | .insertMany jobs => jobs
  | .upsertRecurrent job => [job]
  | _ => []

/-- The claims that an answer hands out. -/
def Call.handedOut : (c : Call) → Answer c.Result → List ClaimedJob
  | .claim .., .ok claims => claims
  | _, _ => []

/-- The job with the expression and the parameter of a newer one of its type. -/
def Job.revised (j : Job) (new : NewJob) : Job :=
  { j with
    cron := new.cron
    parameter := new.parameter
    scheduledAt := if j.status = .processing then j.scheduledAt else new.scheduledAt }

@[simp] theorem Job.start_id (j : Job) (owner : WorkerId) (now : Instant) :
    (j.start owner now).id = j.id := rfl

@[simp] theorem Job.putBack_id (j : Job) (t clock : Instant) : (j.putBack t clock).id = j.id := rfl

@[simp] theorem Job.revised_id (j : Job) (new : NewJob) : (j.revised new).id = j.id := rfl

namespace Store

variable {s s' : Store} {clock : Instant} {id : JobId} {j : Job}

/-- What a call can do to the job of an id. -/
inductive Change (s : Store) (clock : Instant) : Call → Option Job → Option Job → Prop
  | kept {c : Call} {o : Option Job} : Change s clock c o o
  | inserted {c : Call} {new : NewJob} (hnew : new ∈ c.newJobs) :
      Change s clock c none (some (new.toJob clock))
  | revised {new : NewJob} {j : Job} (htype : j.jobType = new.jobType) (hrec : j.isRecurrent) :
      Change s clock (.upsertRecurrent new) (some j) (some (j.revised new))
  | cancelled {ids : List JobId} {j : Job} (hid : j.id ∈ ids) (hidle : j.status.isNotStarted) :
      Change s clock (.cancel ids) (some j) none
  | dropped {jobType : String} {j : Job} (htype : j.jobType = jobType) (hrec : j.isRecurrent)
      (hidle : j.status ≠ .processing) :
      Change s clock (.deleteRecurrent jobType) (some j) none
  | started {owner : WorkerId} {limit : Nat} {now : Instant} {j : Job} (hdue : isDue now j)
      (hroom : j.attempt ≠ attemptLimit) :
      Change s clock (.claim owner limit now) (some j) (some (j.start owner now))
  | completed {jobs : List FinishedJob} {f : FinishedJob} {j : Job} (hf : f ∈ jobs)
      (howned : j.isOwnedBy f.job) :
      Change s clock (.complete jobs false) (some j) (some (j.finish .completed clock))
  | removed {jobs : List FinishedJob} {f : FinishedJob} {j : Job} (hf : f ∈ jobs)
      (howned : j.isOwnedBy f.job) :
      Change s clock (.complete jobs true) (some j) none
  | unlocked {jobs : List FinishedJob} {delete : Bool} {f : FinishedJob} {k j : Job}
      (hf : f ∈ jobs) (hk : s.get? f.job.id = some k) (howned : k.isOwnedBy f.job)
      (hnamed : k.successor.Names j) (hwaits : j.status = .waitingPrev) :
      Change s clock (.complete jobs delete) (some j) (some j.released)
  | retried {p : ProcessingJob} {t : Instant} {e : String} {j : Job} (howned : j.isOwnedBy p) :
      Change s clock (.retry p t e) (some j) (some { j.putBack t clock with lastError := some e })
  | rescheduled {p : ProcessingJob} {t : Instant} {e : Option String} {j : Job}
      (howned : j.isOwnedBy p) :
      Change s clock (.reschedule p t e) (some j)
        (some { j.putBack t clock with attempt := 0, lastError := e })
  | failed {p : ProcessingJob} {e : String} {j : Job} (howned : j.isOwnedBy p) :
      Change s clock (.fail p e) (some j)
        (some { j.finish .failed clock with lastError := some e })
  | recovered {staleBefore : Instant} {owner : WorkerId} {beat : Instant} {j : Job}
      (hstatus : j.status = .processing) (howner : j.owner = some owner)
      (hbeat : (owner, beat) ∈ s.workers) (hstale : beat < staleBefore)
      (hrestart : j.restartOnCrash) :
      Change s clock (.reclaim staleBefore) (some j) (some (recover j))

/-! ## 1. Inserting -/

theorem insertEach_distinct (hs : s.Distinct) (clock : Instant) (jobs : List NewJob) :
    (s.insertEach clock jobs).2.Distinct := by
  induction jobs generalizing s with
  | nil => exact hs
  | cons new rest ih =>
    rw [insertEach]
    cases h : s.insert new clock with
    | error e => exact hs
    | ok s' => exact ih (insert_distinct hs h)

theorem get?_insertEach (s : Store) (clock : Instant) (jobs : List NewJob) (id : JobId) :
    (s.insertEach clock jobs).2.get? id = s.get? id ∨
      s.get? id = none ∧ ∃ new ∈ jobs, (s.insertEach clock jobs).2.get? id =
        some (new.toJob clock) := by
  induction jobs generalizing s with
  | nil => exact Or.inl rfl
  | cons new rest ih =>
    rw [insertEach]
    cases h : s.insert new clock with
    | error e => exact Or.inl rfl
    | ok s' =>
      have hget := get?_insert h id
      obtain ⟨hfresh, -⟩ := insert_eq_ok_iff.1 h
      by_cases hid : id = new.id
      · rw [if_pos hid] at hget
        refine Or.inr ⟨hid ▸ hfresh, new, List.mem_cons_self, ?_⟩
        -- it is in the store by now, so no later one can take its id
        rcases ih s' with hsame | ⟨hnone, -⟩
        · exact hsame.trans hget
        · rw [hget] at hnone
          cases hnone
      · rw [if_neg hid] at hget
        rcases ih s' with hsame | ⟨hnone, k, hk, hins⟩
        · exact Or.inl (hsame.trans hget)
        · exact Or.inr ⟨hget ▸ hnone, k, List.mem_cons_of_mem _ hk, hins⟩

/-! ## 2. Claiming -/

theorem mem_dueJobs {limit : Nat} {now : Instant} (h : j ∈ s.dueJobs limit now) :
    j ∈ s.jobs ∧ isDue now j := by
  have hready := List.mem_of_mem_take h
  rw [List.mem_mergeSort, List.mem_filter] at hready
  exact hready

theorem attempt_start (owner : WorkerId) (now : Instant) (h : j.attempt.toNat < 65535) :
    (j.start owner now).attempt.toNat = j.attempt.toNat + 1 := by
  show (j.attempt + 1).toNat = _
  rw [UInt16.toNat_add, show (1 : UInt16).toNat = 1 from rfl]
  omega

/-- A claim starts the oldest due jobs if another attempt of each can be counted. -/
theorem claim_eq {limit : Nat} {now : Instant}
    (h : ∀ j ∈ s.dueJobs limit now, j.attempt ≠ attemptLimit) (owner : WorkerId) :
    s.claim owner limit now =
      (.ok ((s.dueJobs limit now).map fun j => (j.start owner now).claimed owner),
        s.updateIf (fun j => ((s.dueJobs limit now).map (·.id)).contains j.id)
          (·.start owner now)) := by
  apply if_neg
  intro hfull
  obtain ⟨j, hj, hattempt⟩ := List.any_eq_true.1 hfull
  exact h j hj (of_decide_eq_true hattempt)

/-- A claim crashes and changes nothing, or it starts the jobs that it returns, all of which were
due. -/
theorem claim_spec (hs : s.Distinct) (owner : WorkerId) (limit : Nat) (now : Instant) :
    (s.claim owner limit now = (.error .crash, s)) ∨
      ∃ claims, (s.claim owner limit now).1 = .ok claims ∧
        (∀ c ∈ claims, ∃ j, s.get? c.id = some j ∧ isDue now j ∧ j.attempt ≠ attemptLimit ∧
          c = (j.start owner now).claimed owner) ∧
        ∀ id, (s.claim owner limit now).2.get? id =
          if id ∈ claims.map (·.id) then (s.get? id).map (·.start owner now) else s.get? id := by
  by_cases hroom : ∀ j ∈ s.dueJobs limit now, j.attempt ≠ attemptLimit
  · rw [claim_eq hroom]
    refine Or.inr ⟨_, rfl, ?_, ?_⟩
    · intro c hc
      obtain ⟨j, hj, rfl⟩ := List.mem_map.1 hc
      obtain ⟨hmem, hdue⟩ := mem_dueJobs hj
      exact ⟨j, get?_of_mem hs hmem, hdue, hroom j hj, rfl⟩
    · intro id
      -- the claims are made of the jobs that are started, and name the same ids
      have hids : ((s.dueJobs limit now).map fun j =>
          (j.start owner now).claimed owner).map (·.id) = (s.dueJobs limit now).map (·.id) := by
        rw [List.map_map]
        rfl
      rw [hids]
      show (s.updateIf _ _).get? id = _
      rw [get?_updateIf s _ (Job.start_id · owner now)]
      cases hget : s.get? id with
      | none => simp
      | some j =>
        rw [← id_of_get? hget]
        by_cases hmem : j.id ∈ (s.dueJobs limit now).map (·.id)
        · simp only [List.contains_eq_mem, hmem, decide_true, Option.map_some, if_true]
        · simp only [List.contains_eq_mem, hmem, decide_false, Option.map_some, if_false,
            Bool.false_eq_true]
  · refine Or.inl (if_pos (List.any_eq_true.2 ?_))
    simpa using hroom

/-! ## 3. Completing -/

/-- A completion leaves a job alone that neither is processed nor waits. -/
theorem Change.eq_of_settled {jobs : List FinishedJob} {delete : Bool} {o : Option Job}
    (h : Change s clock (.complete jobs delete) (some j) o) (hidle : j.status ≠ .processing)
    (hgo : j.status ≠ .waitingPrev) : o = some j := by
  cases h with
  | kept => rfl
  | completed _ howned => exact absurd (Job.isOwnedBy_iff.1 howned).2.1 hidle
  | removed _ howned => exact absurd (Job.isOwnedBy_iff.1 howned).2.1 hidle
  | unlocked _ _ _ _ hwaits => exact absurd hwaits hgo

theorem Change.eq_none {jobs : List FinishedJob} {delete : Bool} {o : Option Job}
    (h : Change s clock (.complete jobs delete) none o) : o = none := by
  cases h with
  | kept => rfl
  | inserted hnew => cases hnew

theorem completeOne_change (hs : s.Distinct) (f : FinishedJob) (delete : Bool) (clock : Instant)
    (id : JobId) :
    Change s clock (.complete [f] delete) (s.get? id)
      ((s.completeOne f.job delete clock).get? id) := by
  by_cases h : ∃ k, s.get? f.job.id = some k ∧ k.isOwnedBy f.job
  · obtain ⟨k, hk, howned⟩ := h
    rw [get?_completeOne hs hk howned]
    by_cases hid : id = f.job.id
    · subst hid
      rw [if_pos rfl, hk]
      cases delete with
      | true => exact .removed List.mem_cons_self howned
      | false => exact .completed List.mem_cons_self howned
    · rw [if_neg hid]
      cases hget : s.get? id with
      | none => exact .kept
      | some j =>
        rw [Option.map_some]
        split
        · rename_i hunlocked
          obtain ⟨i, hi, hwaits, hnamed⟩ :=
            unlocked?_spec (ended_distinct hs f.job delete clock) hunlocked
          -- what is let go is looked up after the end of the other job, which is not the same
          rw [get?_ended hs, id_of_get? hget, if_neg hid, hget] at hi
          cases hi
          exact .unlocked List.mem_cons_self hk howned hnamed hwaits
        · exact .kept
  · rw [completeOne_eq_self hs delete clock fun j hj hp => h ⟨j, hj, hp⟩]
    exact .kept

theorem processing_of_completeOne (hs : s.Distinct) {f : FinishedJob} {delete : Bool}
    (h : (s.completeOne f.job delete clock).get? id = some j) (hj : j.status = .processing) :
    s.get? id = some j := by
  have hchange := completeOne_change hs f delete clock id
  rw [h] at hchange
  generalize s.get? id = o at hchange
  cases hchange with
  | kept => rfl
  | inserted hnew => cases hnew
  | completed _ _ => cases hj
  | unlocked _ _ _ _ _ => cases hj

theorem complete_change (hs : s.Distinct) (jobs : List FinishedJob) (delete : Bool)
    (clock : Instant) (id : JobId) :
    Change s clock (.complete jobs delete) (s.get? id)
      ((s.complete jobs delete clock).get? id) := by
  induction jobs generalizing s with
  | nil => exact .kept
  | cons f rest ih =>
    have hfirst := completeOne_change hs f delete clock id
    have hrest := ih (completeOne_distinct hs f.job delete clock)
    show Change s clock _ _
      (((s.completeOne f.job delete clock).complete rest delete clock).get? id)
    generalize ((s.completeOne f.job delete clock).complete rest delete clock).get? id = last
      at hrest ⊢
    generalize ho : s.get? id = o at hfirst ⊢
    generalize (s.completeOne f.job delete clock).get? id = mid at hfirst hrest
    cases hfirst with
    | kept =>
      cases hrest with
      | kept => exact .kept
      | inserted hnew => cases hnew
      | completed hf howned => exact .completed (List.mem_cons_of_mem _ hf) howned
      | removed hf howned => exact .removed (List.mem_cons_of_mem _ hf) howned
      | unlocked hf hk howned hnamed hwaits =>
        exact .unlocked (List.mem_cons_of_mem _ hf)
          (processing_of_completeOne hs hk (Job.isOwnedBy_iff.1 howned).2.1) howned hnamed hwaits
    | inserted hnew => cases hnew
    -- what has ended or was let go stays as it is
    | completed hf howned =>
      cases hrest.eq_of_settled nofun nofun
      exact .completed (List.mem_cons.2 (Or.inl (List.mem_singleton.1 hf))) howned
    | removed hf howned =>
      cases hrest.eq_none
      exact .removed (List.mem_cons.2 (Or.inl (List.mem_singleton.1 hf))) howned
    | unlocked hf hk howned hnamed hwaits =>
      cases hrest.eq_of_settled nofun nofun
      exact .unlocked (List.mem_cons.2 (Or.inl (List.mem_singleton.1 hf))) hk howned hnamed hwaits

theorem complete_distinct (hs : s.Distinct) (jobs : List FinishedJob) (delete : Bool)
    (clock : Instant) : (s.complete jobs delete clock).Distinct := by
  induction jobs generalizing s with
  | nil => exact hs
  | cons f rest ih => exact ih (completeOne_distinct hs f.job delete clock)

/-! ## 4. Reclaiming -/

/-- The workers without a sign of life since an instant. -/
def silent (s : Store) (staleBefore : Instant) : List WorkerId :=
  (s.workers.filter (·.2 < staleBefore)).map (·.1)

theorem mem_silent {staleBefore : Instant} {owner : WorkerId} :
    owner ∈ s.silent staleBefore ↔ ∃ beat, (owner, beat) ∈ s.workers ∧ beat < staleBefore := by
  simp [silent]

theorem isStuck_iff {dead : List WorkerId} :
    isStuck dead j ↔ j.status = .processing ∧ ∃ owner ∈ dead, j.owner = some owner := by
  cases howner : j.owner <;> simp [isStuck, howner]

@[simp] theorem recover_id (j : Job) : (recover j).id = j.id := by
  unfold recover
  split <;> rfl

theorem attempt_recover {n : Nat} (hrestart : j.restartOnCrash = true) (h : j.attempt.toNat = n + 1) :
    (recover j).attempt.toNat = n := by
  have hpos : j.attempt ≠ 0 := by
    intro hzero
    rw [hzero] at h
    simp at h
  have hone : (1 : UInt16) ≤ j.attempt := by
    rw [UInt16.le_iff_toNat_le, show (1 : UInt16).toNat = 1 from rfl]
    omega
  rw [recover, if_pos hrestart]
  show (if j.attempt = 0 then 0 else j.attempt - 1).toNat = n
  rw [if_neg hpos, UInt16.toNat_sub_of_le _ _ hone, show (1 : UInt16).toNat = 1 from rfl]
  omega

theorem get?_reclaim (s : Store) (staleBefore : Instant) (id : JobId) :
    (s.reclaim staleBefore).2.get? id =
      (s.get? id).map fun j => if isStuck (s.silent staleBefore) j then recover j else j :=
  get?_updateIf s _ recover_id id

theorem mem_reclaim (hs : s.Distinct) (staleBefore : Instant) :
    id ∈ (s.reclaim staleBefore).1.map (·.id) ↔
      ∃ j, s.get? id = some j ∧ isStuck (s.silent staleBefore) j := by
  have hreports : (s.reclaim staleBefore).1.map (·.id) =
      (s.jobs.filter (isStuck (s.silent staleBefore))).map (·.id) := by
    simp only [reclaim, List.map_map]
    rfl
  rw [hreports, List.mem_map]
  constructor
  · rintro ⟨j, hj, rfl⟩
    rw [List.mem_filter] at hj
    exact ⟨j, get?_of_mem hs hj.1, hj.2⟩
  · rintro ⟨j, hget, hstuck⟩
    exact ⟨j, List.mem_filter.2 ⟨mem_of_get? hget, hstuck⟩, id_of_get? hget⟩

theorem reclaim_distinct (hs : s.Distinct) (staleBefore : Instant) :
    (s.reclaim staleBefore).2.Distinct :=
  updateIf_distinct (s := s) hs _ recover_id

/-! ## 5. Every call -/

theorem change_updateIf {c : Call} (p : Job → Bool) {f : Job → Job} (hf : ∀ j, (f j).id = j.id)
    (h : ∀ j, s.get? id = some j → p j → Change s clock c (some j) (some (f j))) :
    Change s clock c (s.get? id) ((s.updateIf p f).get? id) := by
  rw [get?_updateIf s p hf]
  cases hget : s.get? id with
  | none => exact .kept
  | some j =>
    rw [Option.map_some]
    split
    · rename_i hp
      exact h j hget hp
    · exact .kept

theorem change_deleteIf {c : Call} (hs : s.Distinct) (p : Job → Bool)
    (h : ∀ j, s.get? id = some j → p j → Change s clock c (some j) none) :
    Change s clock c (s.get? id) ((s.deleteIf p).2.get? id) := by
  show Change s clock c _ (get? { s with jobs := s.jobs.filter (!p ·) } id)
  rw [get?_filter hs]
  cases hget : s.get? id with
  | none => exact .kept
  | some j =>
    by_cases hp : p j = true
    · rw [Option.filter_some, hp]
      exact h j hget hp
    · rw [Option.filter_some, (Bool.not_eq_true _).mp hp]
      exact .kept

theorem insert_change {new : NewJob} {c : Call} (hc : new ∈ c.newJobs)
    (h : s.insert new clock = .ok s') : Change s clock c (s.get? id) (s'.get? id) := by
  rw [get?_insert h]
  split
  · rename_i hid
    rw [hid, (insert_eq_ok_iff.1 h).1]
    exact .inserted hc
  · exact .kept

theorem insertMany_snd (s : Store) (jobs : List NewJob) (clock : Instant) :
    (s.insertMany jobs clock).2 = s ∨
      (s.insertMany jobs clock).2 = (s.insertEach clock jobs).2 := by
  unfold insertMany
  split
  · exact Or.inl rfl
  · exact Or.inr rfl

/-- A recurrent job is looked for by its type. It is revised if it is there, and inserted else. -/
theorem upsertRecurrent_cases (s : Store) (new : NewJob) (clock : Instant) :
    (∃ stored ∈ s.jobs, stored.jobType = new.jobType ∧ stored.isRecurrent ∧
      s.upsertRecurrent new clock = (.ok stored.id, s.update stored.id (·.revised new))) ∨
    (∀ stored ∈ s.jobs, stored.isRecurrent → stored.jobType ≠ new.jobType) ∧
      ((∃ e, s.upsertRecurrent new clock = (.error e, s)) ∨
        ∃ s', s.insert new clock = .ok s' ∧ s.upsertRecurrent new clock = (.ok new.id, s')) := by
  unfold upsertRecurrent
  split
  · rename_i stored hstored
    have hmatch := List.find?_some hstored
    simp only [Bool.and_eq_true, decide_eq_true_eq] at hmatch
    exact Or.inl ⟨stored, List.mem_of_find?_eq_some hstored, hmatch.1, hmatch.2, rfl⟩
  · rename_i hnone
    refine Or.inr ⟨fun stored hstored hrec htype => ?_, ?_⟩
    · exact List.find?_eq_none.1 hnone stored hstored (by simp only [htype, hrec, decide_true,
        Bool.and_self])
    · cases hinsert : s.insert new clock with
      | error e => exact Or.inl ⟨e, rfl⟩
      | ok s' => exact Or.inr ⟨s', rfl, rfl⟩

theorem upsertRecurrent_change (hs : s.Distinct) (new : NewJob) (clock : Instant) (id : JobId) :
    Change s clock (.upsertRecurrent new) (s.get? id)
      ((s.upsertRecurrent new clock).2.get? id) := by
  rcases upsertRecurrent_cases s new clock with
    ⟨stored, hstored, htype, hrec, heq⟩ | ⟨-, ⟨e, heq⟩ | ⟨s', hinsert, heq⟩⟩ <;> rw [heq]
  · apply change_updateIf (fun j => j.id = stored.id) (Job.revised_id · new)
    intro j hget hid
    -- the stored job is the only one with its id
    have hget' := get?_of_mem hs hstored
    rw [id_of_get? hget, decide_eq_true_eq] at hid
    rw [← hid, hget] at hget'
    cases hget'
    exact .revised htype hrec
  · exact .kept
  · exact insert_change List.mem_cons_self hinsert

/-- Nothing happens to a job but what `Change` lists. -/
theorem answer_change (hs : s.Distinct) (clock : Instant) (c : Call) (id : JobId) :
    Change s clock c (s.get? id) ((Store.answer clock c s).2.get? id) := by
  cases c with
  | insert new =>
    simp only [answer]
    cases h : s.insert new clock with
    | error e => exact .kept
    | ok s' => exact insert_change List.mem_cons_self h
  | insertMany jobs =>
    show Change s clock _ _ ((s.insertMany jobs clock).2.get? id)
    rcases insertMany_snd s jobs clock with h | h
    · rw [h]
      exact .kept
    · rw [h]
      rcases get?_insertEach s clock jobs id with hsame | ⟨hnone, new, hnew, hins⟩
      · rw [hsame]
        exact .kept
      · rw [hins, hnone]
        exact .inserted hnew
  | upsertRecurrent new => exact upsertRecurrent_change hs new clock id
  | cancel ids =>
    apply change_deleteIf hs _
    intro j _ hp
    rw [Bool.and_eq_true, List.contains_iff_mem] at hp
    exact .cancelled hp.1 hp.2
  | deleteRecurrent jobType =>
    apply change_deleteIf hs _
    intro j _ hp
    simp only [Bool.and_eq_true, decide_eq_true_eq] at hp
    exact .dropped hp.1.1 hp.1.2 hp.2
  | get _ => exact .kept
  | claim owner limit now =>
    show Change s clock _ _ ((s.claim owner limit now).2.get? id)
    rcases claim_spec hs owner limit now with hcrash | ⟨claims, -, hclaims, hget⟩
    · rw [hcrash]
      exact .kept
    · rw [hget]
      split
      · rename_i hmem
        obtain ⟨c, hc, rfl⟩ := List.mem_map.1 hmem
        obtain ⟨j, hj, hdue, hroom, -⟩ := hclaims c hc
        rw [hj]
        exact .started hdue hroom
      · exact .kept
  | complete jobs delete => exact complete_change hs jobs delete clock id
  | retry p t e =>
    exact change_updateIf _ (Job.putBack_id · t clock) fun j _ hp => .retried hp
  | reschedule p t e =>
    exact change_updateIf _ (Job.putBack_id · t clock) fun j _ hp => .rescheduled hp
  | fail p e =>
    exact change_updateIf _ (Job.finish_id · .failed clock) fun j _ hp => .failed hp
  | heartbeat worker now => exact .kept
  | reclaim staleBefore =>
    show Change s clock _ _ ((s.reclaim staleBefore).2.get? id)
    rw [get?_reclaim]
    cases hget : s.get? id with
    | none => exact .kept
    | some j =>
      rw [Option.map_some]
      split
      · rename_i hstuck
        obtain ⟨hstatus, owner, hdead, howner⟩ := isStuck_iff.1 hstuck
        obtain ⟨beat, hbeat, hstale⟩ := mem_silent.1 hdead
        -- a job that must not be restarted is reported, and stays with its silent worker
        by_cases hrestart : j.restartOnCrash = true
        · exact .recovered hstatus howner hbeat hstale hrestart
        · rw [recover, if_neg hrestart]
          exact .kept
      · exact .kept

theorem answer_distinct (hs : s.Distinct) (clock : Instant) (c : Call) :
    (Store.answer clock c s).2.Distinct := by
  cases c with
  | insert new =>
    simp only [answer]
    cases h : s.insert new clock with
    | error e => exact hs
    | ok s' => exact insert_distinct hs h
  | insertMany jobs =>
    show (s.insertMany jobs clock).2.Distinct
    rcases insertMany_snd s jobs clock with h | h
    · rwa [h]
    · rw [h]
      exact insertEach_distinct hs clock jobs
  | upsertRecurrent new =>
    show (s.upsertRecurrent new clock).2.Distinct
    unfold upsertRecurrent
    split
    · exact updateIf_distinct hs _ (Job.revised_id · new)
    · cases h : s.insert new clock with
      | error e => exact hs
      | ok s' => exact insert_distinct hs h
  | cancel ids => exact filter_distinct hs _
  | deleteRecurrent jobType => exact filter_distinct hs _
  | get _ => exact hs
  | claim owner limit now =>
    show (s.claim owner limit now).2.Distinct
    unfold claim
    by_cases hfull : (s.dueJobs limit now).any (·.attempt = attemptLimit) = true
    · simp only [hfull, if_true]
      exact hs
    · simp only [hfull]
      exact updateIf_distinct hs _ (Job.start_id · owner now)
  | complete jobs delete => exact complete_distinct hs jobs delete clock
  | retry p t e => exact updateIf_distinct hs _ (Job.putBack_id · t clock)
  | reschedule p t e => exact updateIf_distinct hs _ (Job.putBack_id · t clock)
  | fail p e => exact updateIf_distinct hs _ (Job.finish_id · .failed clock)
  | heartbeat worker now => exact hs
  | reclaim staleBefore => exact reclaim_distinct hs staleBefore

/-! ## 6. Signs of life -/

theorem unlock_workers (s : Store) (l : Successor) : (s.unlock l).workers = s.workers := by
  cases l with
  | none => rfl
  | next next => rfl
  | sequence sequence =>
    cases hfirst : s.firstWaiting? sequence with
    | none => simp only [unlock, hfirst]
    | some first =>
      rw [unlock_sequence hfirst]
      rfl

theorem complete_workers (s : Store) (jobs : List FinishedJob) (delete : Bool) (clock : Instant) :
    (s.complete jobs delete clock).workers = s.workers := by
  induction jobs generalizing s with
  | nil => rfl
  | cons f rest ih =>
    apply (ih (s.completeOne f.job delete clock)).trans
    cases howned : s.owned? f.job with
    | none => rw [completeOne_of_free howned]
    | some j =>
      rw [completeOne_of_owned howned, unlock_workers]
      cases delete <;> rfl

theorem insert_workers {new : NewJob} (h : s.insert new clock = .ok s') :
    s'.workers = s.workers := by
  rw [(insert_eq_ok_iff.1 h).2]

theorem insertEach_workers (s : Store) (clock : Instant) (jobs : List NewJob) :
    (s.insertEach clock jobs).2.workers = s.workers := by
  induction jobs generalizing s with
  | nil => rfl
  | cons new rest ih =>
    rw [insertEach]
    cases h : s.insert new clock with
    | error e => rfl
    | ok s' => exact (ih s').trans (insert_workers h)

/-- Only a sign of life adds a worker, and only reclaiming takes workers away. -/
theorem answer_workers (clock : Instant) (c : Call) (s : Store) :
    (Store.answer clock c s).2.workers = match c with
      | .heartbeat worker now => s.workers.filter (·.1 ≠ worker) ++ [(worker, now)]
      | .reclaim staleBefore => s.workers.filter (¬ ·.2 < staleBefore)
      | _ => s.workers := by
  cases c with
  | insert new =>
    simp only [answer]
    cases h : s.insert new clock with
    | error e => rfl
    | ok s' => exact insert_workers h
  | insertMany jobs =>
    show (s.insertMany jobs clock).2.workers = _
    rcases insertMany_snd s jobs clock with h | h
    · rw [h]
    · rw [h, insertEach_workers]
  | upsertRecurrent new =>
    show (s.upsertRecurrent new clock).2.workers = _
    unfold upsertRecurrent
    split
    · rfl
    · cases h : s.insert new clock with
      | error e => rfl
      | ok s' => exact insert_workers h
  | claim owner limit now =>
    show (s.claim owner limit now).2.workers = _
    unfold claim
    by_cases hfull : (s.dueJobs limit now).any (·.attempt = attemptLimit) = true
    · simp only [hfull, if_true]
    · simp only [hfull]
      rfl
  | complete jobs delete => exact complete_workers s jobs delete clock
  | _ => rfl

/-! ## 7. Runs -/

/-- The store after some calls, each made at a time of the clock. -/
def run (s : Store) (calls : List (Instant × Call)) : Store :=
  calls.foldl (fun s e => (Store.answer e.1 e.2 s).2) s

theorem run_append (s : Store) (l l' : List (Instant × Call)) :
    s.run (l ++ l') = (s.run l).run l' := List.foldl_append

theorem run_distinct (hs : s.Distinct) (calls : List (Instant × Call)) :
    (s.run calls).Distinct := by
  induction calls generalizing s with
  | nil => exact hs
  | cons e rest ih => exact ih (answer_distinct hs e.1 e.2)

/-- What holds of the empty store and is kept by every call holds after every run. -/
theorem run_invariant {P : Store → Prop} (hempty : P {})
    (hstep : ∀ s, s.Distinct → P s → ∀ clock c, P (Store.answer clock c s).2)
    (calls : List (Instant × Call)) : P (run {} calls) := by
  have hrun : ∀ s : Store, s.Distinct → P s → P (s.run calls) := by
    induction calls with
    | nil => exact fun s _ hP => hP
    | cons e rest ih =>
      intro s hs hP
      exact ih _ (answer_distinct hs e.1 e.2) (hstep s hs hP e.1 e.2)
  exact hrun {} distinct_empty hempty

end Store

/-- A job that runs once and is due at any time after the epoch. -/
def NewJob.plain (n : Nat) : NewJob where
  id := ⟨.ofNat n⟩
  jobType := "plain"
  parameter := "null"
  cron := none
  scheduledAt := .epoch
  waits := false
  successor := .none
  restartOnCrash := true

end JobQueue
