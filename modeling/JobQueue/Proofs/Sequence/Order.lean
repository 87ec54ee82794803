import JobQueue.Proofs.Sequence.Linked
import JobQueue.Proofs.Store.Lease

/-!
# The order of a sequence

The members of a sequence run one at a time and in the order in which they were added. `InOrder`
carries this through the calls: the members before a position have been completed, those after it
are stored as they were inserted, and no job outside of the sequence names one of its members.
-/

namespace JobQueue

/-- Whether the end of a job with the given successor can let a member of the sequence go. -/
def SequenceKind.Reaches (kind : SequenceKind) (ids : List JobId) : Successor → Prop
  | .none => False
  | .next id => id ∈ ids
  | .sequence g => kind = .group g

def Call.cancelled : Call → List JobId
  | .cancel ids => ids
  | _ => []

/-- Whether a call leaves the ids and the links of a sequence to it: it cancels no member, and the
jobs that it inserts neither have the id of one nor name one. -/
structure Call.Spares (c : Call) (kind : SequenceKind) (ids : List JobId) : Prop where
  inserted : ∀ new ∈ c.newJobs, new.id ∉ ids ∧ ¬ kind.Reaches ids new.successor
  cancelled : ∀ id ∈ c.cancelled, id ∉ ids

theorem Call.Spares.fresh {c : Call} {kind : SequenceKind} {ids : List JobId}
    (h : c.Spares kind ids) {id : JobId} (hid : id ∈ ids) : ∀ new ∈ c.newJobs, new.id ≠ id := by
  rintro new hnew rfl
  exact (h.inserted new hnew).1 hid

namespace Store

variable {s s' : Store} {kind : SequenceKind} {jobs : List NewJob} {created clock : Instant}
  {c : Call} {k : Nat}

/-- How far a sequence has come: the members before the position have been completed, the one there
has been let go, and those after it wait and were never started. -/
structure At (s : Store) (ids : List JobId) (k : Nat) : Prop where
  le : k ≤ ids.length
  done : ∀ i id, i < k → ids[i]? = some id → ∀ j, s.get? id = some j → j.status = .completed
  current : ∀ id, ids[k]? = some id → ∃ j, s.get? id = some j ∧
    (j.status = .scheduled ∨ j.status = .processing ∨ j.status = .failed)
  waiting : ∀ i id, k < i → ids[i]? = some id → ∃ j, s.get? id = some j ∧
    j.status = .waitingPrev ∧ j.lastStartedAt = none

/-- Whether a call completes the member at a position, under a claim of it. -/
def Completes (s : Store) (c : Call) (ids : List JobId) (k : Nat) : Prop :=
  ∃ fs delete f, c = .complete fs delete ∧ f ∈ fs ∧ ids[k]? = some f.job.id ∧ s.Holds f.job

structure InOrder (kind : SequenceKind) (jobs : List NewJob) (created : Instant) (s : Store)
    (k : Nat) : Prop where
  le : k ≤ jobs.length
  done : ∀ i job, i < k → jobs[i]? = some job → ∀ j, s.get? job.id = some j → j.status = .completed
  current : ∀ job, jobs[k]? = some job → ∃ j, s.get? job.id = some j ∧
    (j.status = .scheduled ∨ j.status = .processing ∨ j.status = .failed)
  waiting : ∀ i job, k < i → jobs[i]? = some job → s.get? job.id = some (job.toJob created)
  members : ∀ job ∈ jobs, ∀ j, s.get? job.id = some j →
    j.successor = job.successor ∧ j.cron = none
  others : ∀ id j, id ∉ jobs.map (·.id) → s.get? id = some j →
    ¬ kind.Reaches (jobs.map (·.id)) j.successor

/-! ## 1. Positions -/

theorem getElem?_ids {i : Nat} {id : JobId} :
    (jobs.map (·.id))[i]? = some id ↔ ∃ job : NewJob, jobs[i]? = some job ∧ job.id = id := by
  rw [List.getElem?_map, Option.map_eq_some_iff]

theorem exists_position {id : JobId} (h : id ∈ jobs.map (·.id)) :
    ∃ (i : Nat) (job : NewJob), jobs[i]? = some job ∧ job.id = id := by
  obtain ⟨job, hjob, hid⟩ := List.mem_map.1 h
  obtain ⟨i, hi⟩ := List.mem_iff_getElem?.1 hjob
  exact ⟨i, job, hi, hid⟩

theorem At.unique {ids : List JobId} {i k : Nat} (hi : s.At ids i) (hk : s.At ids k) : i = k := by
  have hle : ∀ {a b : Nat}, s.At ids a → s.At ids b → a ≤ b := by
    intro a b ha hb
    -- the member at the lower position would have been completed, and yet be let go only
    by_contra hlt
    have hb' : b < ids.length := by
      have hale := ha.le
      omega
    have hid := List.getElem?_eq_getElem hb'
    obtain ⟨j, hj, hstatus⟩ := hb.current _ hid
    rw [ha.done b _ (by omega) hid j hj] at hstatus
    simp at hstatus
  exact Nat.le_antisymm (hle hi hk) (hle hk hi)

theorem id_ne_of_ne (hids : (jobs.map (·.id)).Nodup) {a b : Nat} {x y : NewJob}
    (hx : jobs[a]? = some x) (hy : jobs[b]? = some y) (hab : a ≠ b) : x.id ≠ y.id := by
  intro heq
  have hx' := getElem?_ids.2 ⟨x, hx, heq⟩
  have hy' := getElem?_ids.2 ⟨y, hy, rfl⟩
  have hlt := (List.getElem?_eq_some_iff.1 hx').1
  exact hab ((List.getElem?_inj hlt hids).1 (hx'.trans hy'.symm))

theorem waiting_of_linked (hlinked : kind.Linked jobs) {i : Nat} {job : NewJob} (hi : 0 < i)
    (hjob : jobs[i]? = some job) : (job.toJob created).status = .waitingPrev := by
  obtain ⟨hlt, rfl⟩ := List.getElem?_eq_some_iff.1 hjob
  obtain ⟨i, rfl⟩ := Nat.exists_eq_succ_of_ne_zero (Nat.ne_of_gt hi)
  rw [NewJob.toJob, NewJob.initialStatus, hlinked.waits i hlt]
  rfl

theorem InOrder.at (hlinked : kind.Linked jobs) (h : InOrder kind jobs created s k) :
    s.At (jobs.map (·.id)) k := by
  refine ⟨by simpa using h.le, ?_, ?_, ?_⟩
  · intro i id hi hid j hj
    obtain ⟨job, hjob, rfl⟩ := getElem?_ids.1 hid
    exact h.done i job hi hjob j hj
  · intro id hid
    obtain ⟨job, hjob, rfl⟩ := getElem?_ids.1 hid
    exact h.current job hjob
  · intro i id hi hid
    obtain ⟨job, hjob, rfl⟩ := getElem?_ids.1 hid
    exact ⟨_, h.waiting i job hi hjob,
      waiting_of_linked hlinked (Nat.zero_lt_of_lt hi) hjob, rfl⟩

theorem inOrder_zero (hlinked : kind.Linked jobs)
    (hmembers : ∀ job ∈ jobs, s.get? job.id = some (job.toJob created))
    (hothers : ∀ id j, id ∉ jobs.map (·.id) → s.get? id = some j →
      ¬ kind.Reaches (jobs.map (·.id)) j.successor) :
    InOrder kind jobs created s 0 := by
  refine ⟨Nat.zero_le _, fun i _ hi => absurd hi (Nat.not_lt_zero i), ?_, ?_, ?_, hothers⟩
  · intro job hjob
    obtain ⟨hlt, rfl⟩ := List.getElem?_eq_some_iff.1 hjob
    refine ⟨_, hmembers _ (List.getElem_mem hlt), Or.inl ?_⟩
    rw [NewJob.toJob, NewJob.initialStatus, hlinked.first hlt]
    rfl
  · intro i job _ hjob
    exact hmembers job (List.mem_of_getElem? hjob)
  · intro job hjob j hj
    rw [hmembers job hjob] at hj
    cases hj
    exact ⟨rfl, hlinked.once job hjob⟩

/-! ## 2. What no call changes -/

theorem Change.successor_eq {j j' : Job} (h : Change s clock c (some j) (some j')) :
    j'.successor = j.successor := by
  cases h with
  | recovered _ _ _ _ hrestart => rw [recover, if_pos hrestart]
  | _ => rfl

theorem Change.cron_eq_none {j j' : Job} (h : Change s clock c (some j) (some j'))
    (hcron : j.cron = none) : j'.cron = none := by
  cases h with
  | revised _ hrec =>
    rw [Job.isRecurrent, hcron] at hrec
    cases hrec
  | recovered _ _ _ _ hrestart => rwa [recover, if_pos hrestart]
  | _ => exact hcron

theorem Change.completed_of_completed {j j' : Job} (h : Change s clock c (some j) (some j'))
    (hdone : j.status = .completed) : j'.status = .completed := by
  cases h with
  | kept => exact hdone
  | revised _ _ => exact hdone
  | completed _ _ => rfl
  | started hdue _ => simp [isDue, hdone] at hdue
  | unlocked _ _ _ _ hwaits => simp [hdone] at hwaits
  | retried howned => simp [Job.isOwnedBy, hdone] at howned
  | rescheduled howned => simp [Job.isOwnedBy, hdone] at howned
  | failed howned => simp [Job.isOwnedBy, hdone] at howned
  | recovered hstatus => simp [hdone] at hstatus

/-- A job whose id no new job has was there before. -/
theorem exists_change_of_fresh {id : JobId} (hchange : Change s clock c (s.get? id) (s'.get? id))
    (hfresh : ∀ new ∈ c.newJobs, new.id ≠ id) {j' : Job} (hj' : s'.get? id = some j') :
    ∃ j, s.get? id = some j ∧ Change s clock c (some j) (some j') := by
  rw [hj'] at hchange
  cases hget : s.get? id with
  | some j =>
    rw [hget] at hchange
    exact ⟨j, rfl, hchange⟩
  | none =>
    rw [hget] at hchange
    cases hchange with
    | @inserted _ new hnew =>
      have hsame : new.id = id := id_of_get? hj'
      exact absurd hsame (hfresh new hnew)

/-- No job changes what it names. -/
theorem successor_of_change {id : JobId} (hchange : Change s clock c (s.get? id) (s'.get? id))
    {j' : Job} (hj' : s'.get? id = some j') :
    (∃ j, s.get? id = some j ∧ j'.successor = j.successor) ∨
      ∃ new ∈ c.newJobs, j'.successor = new.successor := by
  rw [hj'] at hchange
  cases hget : s.get? id with
  | some j =>
    rw [hget] at hchange
    exact Or.inl ⟨j, rfl, hchange.successor_eq⟩
  | none =>
    rw [hget] at hchange
    cases hchange with
    | @inserted _ new hnew => exact Or.inr ⟨new, hnew, rfl⟩

/-- What holds of completed members, of all members and of the jobs outside stays, whatever is asked
of the store. -/
theorem InOrder.frame (h : InOrder kind jobs created s k)
    (hchange : ∀ id, Change s clock c (s.get? id) (s'.get? id))
    (hc : c.Spares kind (jobs.map (·.id))) {m : Nat} (hm : m ≤ jobs.length)
    (hdone : ∀ i job, k ≤ i → i < m → jobs[i]? = some job → ∀ j, s'.get? job.id = some j →
      j.status = .completed)
    (hcurrent : ∀ job, jobs[m]? = some job → ∃ j, s'.get? job.id = some j ∧
      (j.status = .scheduled ∨ j.status = .processing ∨ j.status = .failed))
    (hwaiting : ∀ i job, m < i → jobs[i]? = some job → s'.get? job.id = some (job.toJob created)) :
    InOrder kind jobs created s' m := by
  refine ⟨hm, ?_, hcurrent, hwaiting, ?_, ?_⟩
  · intro i job hi hjob j' hj'
    -- below the old position the members were completed before, and stay so
    by_cases hnew : k ≤ i
    · exact hdone i job hnew hi hjob j' hj'
    have hid := List.mem_map_of_mem (f := (·.id)) (List.mem_of_getElem? hjob)
    obtain ⟨j, hj, hstep⟩ := exists_change_of_fresh (hchange job.id) (hc.fresh hid) hj'
    exact hstep.completed_of_completed (h.done i job (Nat.lt_of_not_le hnew) hjob j hj)
  · intro job hjob j' hj'
    have hid := List.mem_map_of_mem (f := (·.id)) hjob
    obtain ⟨j, hj, hstep⟩ := exists_change_of_fresh (hchange job.id) (hc.fresh hid) hj'
    obtain ⟨hsuccessor, hcron⟩ := h.members job hjob j hj
    exact ⟨hstep.successor_eq.trans hsuccessor, hstep.cron_eq_none hcron⟩
  · intro id j' hid hj'
    rcases successor_of_change (hchange id) hj' with ⟨j, hj, hsame⟩ | ⟨new, hnew, hsame⟩
    · rw [hsame]
      exact h.others id j hid hj
    · rw [hsame]
      exact (hc.inserted new hnew).2

/-! ## 3. Calls that keep the position -/

/-- A member that neither waits nor has been completed is the one at the position. -/
theorem InOrder.eq_position (hlinked : kind.Linked jobs) (h : InOrder kind jobs created s k)
    {i : Nat} {job : NewJob} (hjob : jobs[i]? = some job) {j : Job} (hj : s.get? job.id = some j)
    (hwaits : j.status ≠ .waitingPrev) (hends : j.status ≠ .completed) : i = k := by
  rcases Nat.lt_trichotomy i k with hlt | heq | hgt
  · exact absurd (h.done i job hlt hjob j hj) hends
  · exact heq
  · rw [h.waiting i job hgt hjob] at hj
    cases hj
    exact absurd (waiting_of_linked hlinked (Nat.zero_lt_of_lt hgt) hjob) hwaits

theorem InOrder.eq_of_holds (hlinked : kind.Linked jobs) (h : InOrder kind jobs created s k)
    {p : ProcessingJob} (hp : s.Holds p) {i : Nat} {job : NewJob} (hjob : jobs[i]? = some job)
    (hid : job.id = p.id) : i = k := by
  obtain ⟨j, hj, howned⟩ := holds_iff.1 hp
  have hstatus := (Job.isOwnedBy_iff.1 howned).2.1
  rw [← hid] at hj
  apply h.eq_position hlinked hjob hj
  · rw [hstatus]
    decide
  · rw [hstatus]
    decide

/-- Who names a job that is linked as a member reaches the sequence. -/
theorem reaches_of_names {ids : List JobId} {j : Job} {next : Option JobId} (hid : j.id ∈ ids)
    (hlinked : j.successor = kind.successorOf next) {l : Successor} (hl : l.Names j) :
    kind.Reaches ids l := by
  cases l with
  | none => exact hl
  | next id =>
    have hsame : j.id = id := hl
    exact hsame ▸ hid
  | sequence g =>
    have hsuccessor : j.successor = .sequence g := hl
    rw [hlinked] at hsuccessor
    cases kind with
    | chain => cases next <;> cases hsuccessor
    | group g' =>
      cases hsuccessor
      rfl

theorem InOrder.eq_of_unlocks (hlinked : kind.Linked jobs) (h : InOrder kind jobs created s k)
    {job : NewJob} (hjob : job ∈ jobs) {j : Job} (hj : s.get? job.id = some j)
    {p : ProcessingJob} {x : Job} (hx : s.get? p.id = some x) (howned : x.isOwnedBy p)
    (hnames : x.successor.Names j) : (jobs.map (·.id))[k]? = some p.id := by
  have hmember : p.id ∈ jobs.map (·.id) := by
    by_contra hout
    obtain ⟨i, hi, rfl⟩ := List.getElem_of_mem hjob
    have hsuccessor := (h.members _ hjob j hj).1.trans (hlinked.successor i hi)
    have hid : j.id ∈ jobs.map (·.id) := id_of_get? hj ▸ List.mem_map_of_mem hjob
    exact h.others p.id x hout hx (reaches_of_names hid hsuccessor hnames)
  obtain ⟨i, m, hm, hid⟩ := exists_position hmember
  have hik := h.eq_of_holds hlinked (holds_iff.2 ⟨x, hx, howned⟩) hm hid
  rw [← hik]
  exact getElem?_ids.2 ⟨m, hm, hid⟩

theorem not_owned_of_not_completes {ids : List JobId} (hnot : ¬ s.Completes c ids k) {id : JobId}
    (hid : ids[k]? = some id) {j : Job} (hj : s.get? id = some j) {fs : List FinishedJob}
    {delete : Bool} (hcall : c = .complete fs delete) {f : FinishedJob} (hf : f ∈ fs) :
    ¬ j.isOwnedBy f.job := by
  intro howned
  have hsame : id = f.job.id := (id_of_get? hj).symm.trans (Job.isOwnedBy_iff.1 howned).1
  rw [hsame] at hid hj
  exact hnot ⟨fs, delete, f, hcall, hf, hid, holds_iff.2 ⟨j, hj, howned⟩⟩

/-- A call that does not complete the member at the position may start, retry, fail or recover it,
and leaves it let go. -/
theorem InOrder.current_stays (h : InOrder kind jobs created s k)
    (hchange : ∀ id, Change s clock c (s.get? id) (s'.get? id))
    (hc : c.Spares kind (jobs.map (·.id))) (hnot : ¬ s.Completes c (jobs.map (·.id)) k)
    {job : NewJob} (hjob : jobs[k]? = some job) :
    ∃ j, s'.get? job.id = some j ∧
      (j.status = .scheduled ∨ j.status = .processing ∨ j.status = .failed) := by
  obtain ⟨j, hj, hstatus⟩ := h.current job hjob
  have hmem := List.mem_of_getElem? hjob
  obtain ⟨-, hcron⟩ := h.members job hmem j hj
  have hid := getElem?_ids.2 ⟨job, hjob, rfl⟩
  have hstep := hchange job.id
  rw [hj] at hstep
  generalize s'.get? job.id = o at hstep ⊢
  cases hstep with
  | kept => exact ⟨j, rfl, hstatus⟩
  | revised _ hrec => simp [Job.isRecurrent, hcron] at hrec
  | cancelled hcancelled _ =>
    rw [id_of_get? hj] at hcancelled
    exact absurd (List.mem_map_of_mem hmem) (hc.cancelled job.id hcancelled)
  | dropped _ hrec _ => simp [Job.isRecurrent, hcron] at hrec
  | started _ _ => exact ⟨_, rfl, Or.inr (Or.inl rfl)⟩
  | completed hf howned => exact absurd howned (not_owned_of_not_completes hnot hid hj rfl hf)
  | removed hf howned => exact absurd howned (not_owned_of_not_completes hnot hid hj rfl hf)
  | unlocked _ _ _ _ hwaits => simp [hwaits] at hstatus
  | retried _ => exact ⟨_, rfl, Or.inl rfl⟩
  | rescheduled _ => exact ⟨_, rfl, Or.inl rfl⟩
  | failed _ => exact ⟨_, rfl, Or.inr (Or.inr rfl)⟩
  | recovered _ _ _ _ hrestart => exact ⟨_, rfl, Or.inl (by rw [recover, if_pos hrestart])⟩

theorem InOrder.waiting_stays (hlinked : kind.Linked jobs) (h : InOrder kind jobs created s k)
    (hchange : ∀ id, Change s clock c (s.get? id) (s'.get? id))
    (hc : c.Spares kind (jobs.map (·.id))) (hnot : ¬ s.Completes c (jobs.map (·.id)) k)
    {i : Nat} {job : NewJob} (hi : k < i) (hjob : jobs[i]? = some job) :
    s'.get? job.id = some (job.toJob created) := by
  have hj := h.waiting i job hi hjob
  have hmem := List.mem_of_getElem? hjob
  have hwaits : (job.toJob created).status = .waitingPrev :=
    waiting_of_linked hlinked (Nat.zero_lt_of_lt hi) hjob
  obtain ⟨-, hcron⟩ := h.members job hmem _ hj
  have hstep := hchange job.id
  rw [hj] at hstep
  generalize s'.get? job.id = o at hstep ⊢
  cases hstep with
  | kept => rfl
  | revised _ hrec => simp [Job.isRecurrent, hcron] at hrec
  | cancelled hid _ => exact absurd (List.mem_map_of_mem hmem) (hc.cancelled job.id hid)
  | dropped _ hrec _ => simp [Job.isRecurrent, hcron] at hrec
  | started hdue _ => simp [isDue, hwaits] at hdue
  | completed _ howned => simp [Job.isOwnedBy, hwaits] at howned
  | removed _ howned => simp [Job.isOwnedBy, hwaits] at howned
  | unlocked hf hx howned hnames _ =>
    -- only the end of the member at the position lets another one go
    have hposition := h.eq_of_unlocks hlinked hmem hj hx howned hnames
    exact absurd ⟨_, _, _, rfl, hf, hposition, holds_iff.2 ⟨_, hx, howned⟩⟩ hnot
  | retried howned => simp [Job.isOwnedBy, hwaits] at howned
  | rescheduled howned => simp [Job.isOwnedBy, hwaits] at howned
  | failed howned => simp [Job.isOwnedBy, hwaits] at howned
  | recovered hstatus => simp [hwaits] at hstatus

/-- A call that does not complete the member at the position leaves the sequence where it is. -/
theorem InOrder.stays (hs : s.Distinct) (hlinked : kind.Linked jobs)
    (h : InOrder kind jobs created s k) (hc : c.Spares kind (jobs.map (·.id)))
    (hnot : ¬ s.Completes c (jobs.map (·.id)) k) (clock : Instant) :
    InOrder kind jobs created (Store.answer clock c s).2 k := by
  have hchange := answer_change hs clock c
  apply h.frame hchange hc h.le
  · intro i _ hle hlt
    exact absurd hlt (Nat.not_lt_of_le hle)
  · intro job hjob
    exact h.current_stays hchange hc hnot hjob
  · intro i job hi hjob
    exact h.waiting_stays hlinked hchange hc hnot hi hjob

/-! ## 4. Completions -/

theorem complete_spares (kind : SequenceKind) (ids : List JobId) (fs : List FinishedJob)
    (delete : Bool) : (Call.complete fs delete).Spares kind ids :=
  ⟨List.forall_mem_nil _, List.forall_mem_nil _⟩

theorem InOrder.get?_completeOne_other (hs : s.Distinct) (h : InOrder kind jobs created s k)
    {f : FinishedJob} {delete : Bool}
    (hnot : ¬ s.Completes (.complete [f] delete) (jobs.map (·.id)) k) (clock : Instant) {id : JobId}
    (hid : (jobs.map (·.id))[k]? = some id) :
    (s.completeOne f.job delete clock).get? id = s.get? id := by
  obtain ⟨job, hjob, rfl⟩ := getElem?_ids.1 hid
  obtain ⟨j, hj, hstatus⟩ := h.current job hjob
  have hstep := completeOne_change hs f delete clock job.id
  rw [hj] at hstep ⊢
  generalize (s.completeOne f.job delete clock).get? job.id = o at hstep ⊢
  cases hstep with
  | kept => rfl
  | completed hf howned => exact absurd howned (not_owned_of_not_completes hnot hid hj rfl hf)
  | removed hf howned => exact absurd howned (not_owned_of_not_completes hnot hid hj rfl hf)
  | unlocked _ _ _ _ hwaits => simp [hwaits] at hstatus

/-- Once a member of a group has ended, what waits in the group is a later member. -/
theorem InOrder.later_of_waits {g : SequenceId} (hs : s.Distinct)
    (h : InOrder (.group g) jobs created s k) {job : NewJob} (hjob : jobs[k]? = some job)
    {p : ProcessingJob} (hid : p.id = job.id) {delete : Bool} {j : Job}
    (hj : j ∈ (s.ended p delete clock).jobs) (hwaits : j.status = .waitingPrev)
    (hsuccessor : j.successor = .sequence g) :
    ∃ i new, k < i ∧ jobs[i]? = some new ∧ j = new.toJob created := by
  obtain ⟨hp, hget⟩ := waits_of_ended hs hj hwaits
  have hmember : j.id ∈ jobs.map (·.id) := by
    by_contra hout
    apply h.others j.id j hout hget
    rw [hsuccessor]
    rfl
  obtain ⟨i, new, hi, hnewid⟩ := exists_position hmember
  rw [← hnewid] at hget
  -- the earlier members are done and this one has ended: what waits is later
  rcases Nat.lt_trichotomy i k with hlt | rfl | hgt
  · rw [h.done i new hlt hi j hget] at hwaits
    cases hwaits
  · rw [hjob] at hi
    cases hi
    exact absurd (hnewid.symm.trans hid.symm) hp
  · rw [h.waiting i new hgt hi] at hget
    exact ⟨i, new, hgt, hi, (Option.some.inj hget).symm⟩

theorem InOrder.get?_ended_later (hs : s.Distinct) (hids : (jobs.map (·.id)).Nodup)
    (h : InOrder kind jobs created s k) {job : NewJob} (hjob : jobs[k]? = some job)
    {p : ProcessingJob} (hid : p.id = job.id) {i : Nat} {new : NewJob} (hi : k < i)
    (hnew : jobs[i]? = some new) (delete : Bool) (clock : Instant) :
    (s.ended p delete clock).get? new.id = some (new.toJob created) := by
  have hother : new.id ≠ p.id := by
    rw [hid]
    exact id_ne_of_ne hids hnew hjob (Nat.ne_of_gt hi)
  rw [get?_ended hs, if_neg hother]
  exact h.waiting i new hi hnew

/-- The end of a member of a group makes the next one the first that waits: the builder has spread
the schedules in the order of the members. -/
theorem InOrder.firstWaiting?_ended {g : SequenceId} (hs : s.Distinct)
    (hlinked : (SequenceKind.group g).Linked jobs) (hids : (jobs.map (·.id)).Nodup)
    (h : InOrder (.group g) jobs created s k) {job : NewJob} (hjob : jobs[k]? = some job)
    {p : ProcessingJob} (hid : p.id = job.id) (delete : Bool) (clock : Instant) :
    (s.ended p delete clock).firstWaiting? g = jobs[k + 1]?.map (·.toJob created) := by
  cases hafter : jobs[k + 1]? with
  | none =>
    cases hfirst : (s.ended p delete clock).firstWaiting? g with
    | none => rfl
    | some j =>
      obtain ⟨hj, hjwaits, hjnames, -⟩ := firstWaiting?_spec hfirst
      obtain ⟨i, new, hi, hnew, -⟩ := h.later_of_waits hs hjob hid hj hjwaits hjnames
      have hlt := (List.getElem?_eq_some_iff.1 hnew).1
      rw [List.getElem?_eq_none_iff] at hafter
      omega
  | some next =>
    have hget := h.get?_ended_later hs hids hjob hid (Nat.lt_succ_self k) hafter delete clock
    have hwaits : (next.toJob created).status = .waitingPrev :=
      waiting_of_linked hlinked (Nat.zero_lt_succ k) hafter
    obtain ⟨hlt, rfl⟩ := List.getElem?_eq_some_iff.1 hafter
    have hsuccessor : (jobs[k + 1].toJob created).successor = .sequence g :=
      hlinked.successor (k + 1) hlt
    apply firstWaiting?_eq_some (mem_of_get? hget) hwaits hsuccessor
    intro j hj hjwaits hjnames
    obtain ⟨i, new, hi, hnew, rfl⟩ := h.later_of_waits hs hjob hid hj hjwaits hjnames
    obtain ⟨hlt', rfl⟩ := List.getElem?_eq_some_iff.1 hnew
    rcases Nat.lt_or_eq_of_le (Nat.succ_le_of_lt hi) with hlater | rfl
    · right
      exact List.pairwise_iff_getElem.1 (hlinked.increasing g rfl) _ _ hlt hlt' hlater
    · exact Or.inl rfl

/-- The end of the member at the position lets go the member after it, and no other job. -/
theorem InOrder.unlocked?_eq (hs : s.Distinct) (hlinked : kind.Linked jobs)
    (hids : (jobs.map (·.id)).Nodup) (h : InOrder kind jobs created s k) {job : NewJob}
    (hjob : jobs[k]? = some job) {p : ProcessingJob} (hid : p.id = job.id) (delete : Bool)
    (clock : Instant) :
    (s.ended p delete clock).unlocked? job.successor = jobs[k + 1]?.map (·.id) := by
  have hsuccessor : job.successor = kind.successorOf (jobs[k + 1]?.map (·.id)) := by
    obtain ⟨hk, rfl⟩ := List.getElem?_eq_some_iff.1 hjob
    exact hlinked.successor k hk
  rw [hsuccessor]
  cases kind with
  | chain =>
    cases hafter : jobs[k + 1]? with
    | none => rfl
    | some next =>
      have hget := h.get?_ended_later hs hids hjob hid (Nat.lt_succ_self k) hafter delete clock
      have hwaits : (next.toJob created).status = .waitingPrev :=
        waiting_of_linked hlinked (Nat.zero_lt_succ k) hafter
      simp only [SequenceKind.successorOf, Option.map_some, unlocked?, hget, Option.any_some,
        hwaits, decide_true, if_true]
  | group g =>
    show ((s.ended p delete clock).firstWaiting? g).map (·.id) = _
    rw [h.firstWaiting?_ended hs hlinked hids hjob hid delete clock, Option.map_map]
    rfl

/-- A completion of the member at the position moves the sequence on by one, to a member that no
worker has yet. -/
theorem InOrder.completeOne_current (hs : s.Distinct) (hlinked : kind.Linked jobs)
    (hids : (jobs.map (·.id)).Nodup) (h : InOrder kind jobs created s k) {job : NewJob}
    (hjob : jobs[k]? = some job) {f : FinishedJob} (hid : f.job.id = job.id)
    (hheld : s.Holds f.job) (delete : Bool) (clock : Instant) :
    InOrder kind jobs created (s.completeOne f.job delete clock) (k + 1) ∧
      ∀ q next, jobs[k + 1]? = some next → q.id = next.id →
        ¬ (s.completeOne f.job delete clock).Holds q := by
  obtain ⟨x, hx, howned⟩ := holds_iff.1 hheld
  have hsuccessor : x.successor = job.successor := by
    rw [hid] at hx
    exact (h.members job (List.mem_of_getElem? hjob) x hx).1
  -- the only job that is let go is the next member
  have hget : ∀ id, (s.completeOne f.job delete clock).get? id =
      if id = f.job.id then (if delete then none else some (x.finish .completed clock))
      else (s.get? id).map fun j =>
        if jobs[k + 1]?.map (·.id) = some j.id then j.released else j := by
    intro id
    rw [get?_completeOne hs hx howned, hsuccessor,
      h.unlocked?_eq hs hlinked hids hjob hid delete clock]
  have hother : ∀ i new, k < i → jobs[i]? = some new → new.id ≠ f.job.id := by
    intro i new hi hnew
    rw [hid]
    exact id_ne_of_ne hids hnew hjob (Nat.ne_of_gt hi)
  have hnext : ∀ next, jobs[k + 1]? = some next →
      (s.completeOne f.job delete clock).get? next.id = some (next.toJob created).released := by
    intro next hnext
    rw [hget, if_neg (hother (k + 1) next (Nat.lt_succ_self k) hnext),
      h.waiting (k + 1) next (Nat.lt_succ_self k) hnext, hnext, Option.map_some, Option.map_some]
    exact congrArg some (if_pos rfl)
  refine ⟨h.frame (completeOne_change hs f delete clock) (complete_spares _ _ _ _)
    (List.getElem?_eq_some_iff.1 hjob).1 ?_ ?_ ?_, ?_⟩
  · intro i new hle hlt hnew j hj
    have hik : i = k := by omega
    rw [hik, hjob] at hnew
    cases hnew
    rw [hget, if_pos hid.symm] at hj
    cases delete with
    | true => cases hj
    | false =>
      cases hj
      rfl
  · intro next hafter
    exact ⟨_, hnext next hafter, Or.inl rfl⟩
  · intro i new hi hnew
    have hne : jobs[k + 1]?.map (·.id) ≠ some (new.toJob created).id := by
      intro heq
      obtain ⟨next, hafter, hsame⟩ := Option.map_eq_some_iff.1 heq
      exact id_ne_of_ne hids hafter hnew (Nat.ne_of_lt hi) hsame
    rw [hget, if_neg (hother i new (by omega) hnew), h.waiting i new (by omega) hnew,
      Option.map_some, if_neg hne]
  · intro q next hafter hq hqheld
    obtain ⟨j, hj, hjq⟩ := holds_iff.1 hqheld
    rw [hq, hnext next hafter] at hj
    cases hj
    have hstatus := (Job.isOwnedBy_iff.1 hjq).2.1
    cases hstatus

/-- A call that completes the member at the position moves the sequence on by one, however many jobs
it names. -/
theorem InOrder.moves (hs : s.Distinct) (hlinked : kind.Linked jobs)
    (hids : (jobs.map (·.id)).Nodup) (h : InOrder kind jobs created s k) (fs : List FinishedJob)
    (delete : Bool) (clock : Instant)
    (hcompletes : s.Completes (.complete fs delete) (jobs.map (·.id)) k) :
    InOrder kind jobs created (s.complete fs delete clock) (k + 1) := by
  induction fs generalizing s with
  | nil =>
    obtain ⟨_, _, f, hcall, hf, -⟩ := hcompletes
    cases hcall
    cases hf
  | cons f rest ih =>
    show InOrder kind jobs created ((s.completeOne f.job delete clock).complete rest delete clock) _
    have hs' := completeOne_distinct hs f.job delete clock
    by_cases hfirst : s.Completes (.complete [f] delete) (jobs.map (·.id)) k
    · obtain ⟨_, _, g, hcall, hg, hposition, hheld⟩ := hfirst
      cases hcall
      rw [List.mem_singleton.1 hg] at hposition hheld
      obtain ⟨job, hjob, hid⟩ := getElem?_ids.1 hposition
      obtain ⟨hmoved, hfree⟩ :=
        h.completeOne_current hs hlinked hids hjob hid.symm hheld delete clock
      -- the member that has just been let go is under no claim, so the rest cannot complete it
      have hnot : ¬ (s.completeOne f.job delete clock).Completes (.complete rest delete)
          (jobs.map (·.id)) (k + 1) := by
        rintro ⟨_, _, g', -, -, hnext, hnextheld⟩
        obtain ⟨next, hafter, hnextid⟩ := getElem?_ids.1 hnext
        exact hfree g'.job next hafter hnextid.symm hnextheld
      exact hmoved.stays hs' hlinked (complete_spares _ _ _ _) hnot clock
    · have hstays : InOrder kind jobs created (s.completeOne f.job delete clock) k :=
        h.stays hs hlinked (complete_spares _ _ [f] delete) hfirst clock
      -- the claim that the call ends is one of the rest, and it lasts until then
      apply ih hs' hstays
      obtain ⟨_, _, g, hcall, hg, hposition, hheld⟩ := hcompletes
      cases hcall
      rcases List.mem_cons.1 hg with rfl | hg
      · exact absurd ⟨_, _, g, rfl, List.mem_cons_self, hposition, hheld⟩ hfirst
      · refine ⟨_, _, g, rfl, hg, hposition, ?_⟩
        unfold Holds
        rw [h.get?_completeOne_other hs hfirst clock hposition]
        exact hheld

/-! ## 5. Runs -/

theorem InOrder.answer (hs : s.Distinct) (hlinked : kind.Linked jobs)
    (hids : (jobs.map (·.id)).Nodup) (h : InOrder kind jobs created s k)
    (hc : c.Spares kind (jobs.map (·.id))) (clock : Instant) :
    (s.Completes c (jobs.map (·.id)) k →
      InOrder kind jobs created (Store.answer clock c s).2 (k + 1)) ∧
    (¬ s.Completes c (jobs.map (·.id)) k →
      InOrder kind jobs created (Store.answer clock c s).2 k) := by
  constructor
  · intro hcompletes
    obtain ⟨fs, delete, _, rfl, -⟩ := id hcompletes
    exact h.moves hs hlinked hids fs delete clock hcompletes
  · intro hnot
    exact h.stays hs hlinked hc hnot clock

theorem InOrder.eq_of_grants (hs : s.Distinct) (hlinked : kind.Linked jobs)
    (h : InOrder kind jobs created s k) {p : ProcessingJob} (hp : s.Grants c p)
    (hmember : p.id ∈ jobs.map (·.id)) : (jobs.map (·.id))[k]? = some p.id := by
  obtain ⟨⟨j, hj, hstatus⟩, -⟩ := hp.spec hs default
  obtain ⟨i, job, hi, hid⟩ := exists_position hmember
  rw [← hid] at hj
  have hik : i = k := by
    apply h.eq_position hlinked hi hj
    · rw [hstatus]
      decide
    · rw [hstatus]
      decide
  rw [← hik]
  exact getElem?_ids.2 ⟨job, hi, hid⟩

theorem InOrder.run (hs : s.Distinct) (hlinked : kind.Linked jobs)
    (hids : (jobs.map (·.id)).Nodup) (h : InOrder kind jobs created s k)
    (calls : List (Instant × Call)) (hcalls : ∀ e ∈ calls, e.2.Spares kind (jobs.map (·.id))) :
    ∃ k', InOrder kind jobs created (s.run calls) k' := by
  induction calls generalizing s k with
  | nil => exact ⟨k, h⟩
  | cons e rest ih =>
    obtain ⟨hfirst, hrest⟩ := List.forall_mem_cons.1 hcalls
    obtain ⟨hmoves, hstays⟩ := h.answer hs hlinked hids hfirst e.1
    have hs' := answer_distinct hs e.1 e.2
    by_cases hcompletes : s.Completes e.2 (jobs.map (·.id)) k
    · exact ih hs' (hmoves hcompletes) hrest
    · exact ih hs' (hstays hcompletes) hrest

/-- **A sequence runs one member at a time, in the order added.** After any calls that leave its ids
and links to it, the sequence is at exactly one position: the members before it have been completed,
the one there has been let go, and those after it wait and were never started. The position starts
at the first member; a call moves it on by one if it completes the member there and leaves it
otherwise; and of the members only the one there can be claimed. -/
theorem sequence_in_order {kind : SequenceKind} {drafts : List Draft} {clock : Instant}
    {before s : Store} {ids : List JobId}
    (henqueue : kind.enqueue drafts Store.backend clock before = (.ok ids, s))
    (hbefore : before.Distinct) (hfree : ∀ j ∈ before.jobs, ¬ kind.Reaches ids j.successor) :
    s.At ids 0 ∧
    ∀ calls : List (Instant × Call), (∀ e ∈ calls, e.2.Spares kind ids) →
      ∃ k, (s.run calls).At ids k ∧ (∀ k', (s.run calls).At ids k' → k' = k) ∧
        ∀ e : Instant × Call, e.2.Spares kind ids →
          ((s.run calls).Completes e.2 ids k → (s.run (calls ++ [e])).At ids (k + 1)) ∧
          (¬ (s.run calls).Completes e.2 ids k → (s.run (calls ++ [e])).At ids k) ∧
          ∀ p, (s.run calls).Grants e.2 p → p.id ∈ ids → ids[k]? = some p.id := by
  obtain ⟨hs, hids, hothers, jobs, hlinked, rfl, hmembers⟩ :=
    SequenceKind.enqueue_spec hbefore henqueue
  have hzero : InOrder kind jobs clock s 0 := by
    apply inOrder_zero hlinked hmembers
    intro id j hid hj
    rw [hothers id hid] at hj
    exact hfree j (mem_of_get? hj)
  refine ⟨hzero.at hlinked, ?_⟩
  intro calls hcalls
  obtain ⟨k, hk⟩ := hzero.run hs hlinked hids calls hcalls
  have hrun := run_distinct hs calls
  refine ⟨k, hk.at hlinked, fun k' hk' => hk'.unique (hk.at hlinked), ?_⟩
  intro e he
  obtain ⟨hmoves, hstays⟩ := hk.answer hrun hlinked hids he e.1
  rw [run_append]
  exact ⟨fun hc => (hmoves hc).at hlinked, fun hc => (hstays hc).at hlinked,
    fun p hp hmember => hk.eq_of_grants hrun hlinked hp hmember⟩

/-- A group of two: the first member is claimed and completed, and then it is the turn of the
second. -/
theorem sequence_in_order_pair :
    let draft (n : Nat) : Draft := {
      type := { name := "plain", parameter := .text }
      id := ⟨.ofNat n⟩
      parameter := some (.text "")
      restartOnCrash := true }
    let ids : List JobId := [⟨.ofNat 1⟩, ⟨.ofNat 2⟩]
    let p : ProcessingJob := ⟨⟨.ofNat 1⟩, ⟨.ofNat 1⟩⟩
    let claim : Instant × Call := (.epoch, .claim p.owner 2 .epoch)
    let done : Instant × Call := (.epoch, .complete [⟨p, .none⟩] true)
    let s := ((SequenceKind.group ⟨.ofNat 1⟩).enqueue [draft 1, draft 2] Store.backend .epoch {}).2
    s.At ids 0 ∧ (s.run [claim]).At ids 0 ∧ (s.run [claim, done]).At ids 1 := by
  intro draft ids p claim done s
  have henqueue : (SequenceKind.group ⟨.ofNat 1⟩).enqueue [draft 1, draft 2] Store.backend .epoch
      {} = (.ok ids, s) := rfl
  obtain ⟨hzero, hrun⟩ :=
    sequence_in_order henqueue distinct_empty (List.forall_mem_nil _)
  have hspares : claim.2.Spares (.group ⟨.ofNat 1⟩) ids :=
    ⟨List.forall_mem_nil _, List.forall_mem_nil _⟩
  have hclaimed : (s.run [claim]).At ids 0 := by
    obtain ⟨k, -, hunique, hstep⟩ := hrun [] (List.forall_mem_nil _)
    obtain rfl : 0 = k := hunique 0 hzero
    apply (hstep claim hspares).2.1
    rintro ⟨_, _, _, hcall, -⟩
    cases hcall
  obtain ⟨k, -, hunique, hstep⟩ := hrun [claim] (List.forall_mem_singleton.2 hspares)
  obtain rfl : 0 = k := hunique 0 hclaimed
  refine ⟨hzero, hclaimed, (hstep done (complete_spares _ _ _ _)).1 ?_⟩
  exact ⟨_, _, ⟨p, .none⟩, rfl, List.mem_cons_self, rfl, by decide +kernel⟩

end Store

end JobQueue
