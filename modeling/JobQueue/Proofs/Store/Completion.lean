import JobQueue.Proofs.Store.View

/-!
# Completing a job

A job that is completed under its claim ends, or is deleted, and lets one job go: the one that its
successor names if that waits. A completion without a claim changes nothing.
-/

namespace JobQueue

/-- Whether a job is among those that the end of a predecessor can let go. -/
def Successor.Names (l : Successor) (j : Job) : Prop :=
  match l with
  | .none => False
  | .next id => j.id = id
  | .sequence _ => j.successor = l

@[simp] theorem Job.finish_id (j : Job) (status : JobStatus) (clock : Instant) :
    (j.finish status clock).id = j.id := rfl

def Job.released (j : Job) : Job := { j with status := .scheduled }

@[simp] theorem Job.released_id (j : Job) : j.released.id = j.id := rfl

namespace Job

theorem isOwnedBy_iff {j : Job} {p : ProcessingJob} :
    j.isOwnedBy p ↔ j.id = p.id ∧ j.status = .processing ∧ j.owner = some p.owner := by
  simp [isOwnedBy, and_assoc]

theorem isBefore_iff {a b : Job} :
    a.isBefore b ↔ a.scheduledAt.nanos < b.scheduledAt.nanos ∨
      a.scheduledAt.nanos = b.scheduledAt.nanos ∧ a.createdAt.nanos ≤ b.createdAt.nanos :=
  Instant.lexicographic_iff

theorem isBefore_refl (a : Job) : a.isBefore a := by
  rw [isBefore_iff]
  omega

theorem isBefore_trans {a b c : Job} (hab : a.isBefore b) (hbc : b.isBefore c) :
    a.isBefore c := by
  rw [isBefore_iff] at hab hbc ⊢
  omega

theorem isBefore_of_not {a b : Job} (h : ¬ a.isBefore b) : b.isBefore a := by
  rw [isBefore_iff] at h ⊢
  omega

end Job

namespace Store

variable {s : Store} {clock : Instant} {id : JobId} {j : Job}

/-! ## 1. The first that waits -/

/-- One step of the search for the job that comes first. -/
def earlier (best : Option Job) (j : Job) : Option Job :=
  match best with
  | none => some j
  | some b => if b.isBefore j then some b else some j

theorem exists_foldl_earlier (l : List Job) (b : Job) :
    ∃ c, l.foldl earlier (some b) = some c ∧ c ∈ b :: l ∧ ∀ i ∈ b :: l, c.isBefore i := by
  induction l generalizing b with
  | nil => exact ⟨b, rfl, List.mem_cons_self, List.forall_mem_singleton.2 b.isBefore_refl⟩
  | cons k rest ih =>
    rw [List.foldl_cons]
    -- the search goes on with the earlier of the two, which is before whatever the other is before
    by_cases hbk : b.isBefore k = true
    · obtain ⟨c, hc, hmem, hfirst⟩ := ih b
      obtain ⟨hcb, hrest⟩ := List.forall_mem_cons.1 hfirst
      refine ⟨c, ?_, ?_, ?_⟩
      · rw [earlier, if_pos hbk, hc]
      · rcases List.mem_cons.1 hmem with rfl | hmem
        · exact List.mem_cons_self
        · exact List.mem_cons_of_mem _ (List.mem_cons_of_mem _ hmem)
      · exact List.forall_mem_cons.2
          ⟨hcb, List.forall_mem_cons.2 ⟨Job.isBefore_trans hcb hbk, hrest⟩⟩
    · obtain ⟨c, hc, hmem, hfirst⟩ := ih k
      have hkb := Job.isBefore_of_not hbk
      have hck := hfirst k List.mem_cons_self
      refine ⟨c, ?_, List.mem_cons_of_mem _ hmem, ?_⟩
      · rw [earlier, if_neg hbk, hc]
      · exact List.forall_mem_cons.2 ⟨Job.isBefore_trans hck hkb, hfirst⟩

theorem firstWaiting?_eq (s : Store) (sequence : SequenceId) :
    s.firstWaiting? sequence = (s.jobs.filter fun j =>
      j.status = .waitingPrev && j.successor = .sequence sequence).foldl earlier none := rfl

/-- The job that is found waits in the group, and no other that does comes before it. -/
theorem firstWaiting?_spec {sequence : SequenceId} (h : s.firstWaiting? sequence = some j) :
    j ∈ s.jobs ∧ j.status = .waitingPrev ∧ j.successor = .sequence sequence ∧
      ∀ i ∈ s.jobs, i.status = .waitingPrev → i.successor = .sequence sequence →
        j.isBefore i := by
  rw [firstWaiting?_eq] at h
  generalize hl : s.jobs.filter (fun j =>
    j.status = .waitingPrev && j.successor = .sequence sequence) = l at h
  have hwaiting : ∀ i, i ∈ l ↔
      i ∈ s.jobs ∧ i.status = .waitingPrev ∧ i.successor = .sequence sequence := by
    intro i
    rw [← hl, List.mem_filter, Bool.and_eq_true, decide_eq_true_eq, decide_eq_true_eq]
  -- the first that waits is where the search begins
  cases l with
  | nil => cases h
  | cons b rest =>
    obtain ⟨c, hc, hmem, hfirst⟩ := exists_foldl_earlier rest b
    have hsame : c = j := Option.some.inj (hc.symm.trans h)
    subst hsame
    obtain ⟨hjob, hwaits, hsuccessor⟩ := (hwaiting c).1 hmem
    refine ⟨hjob, hwaits, hsuccessor, ?_⟩
    intro i hi hiwaits hisuccessor
    exact hfirst i ((hwaiting i).2 ⟨hi, hiwaits, hisuccessor⟩)

theorem exists_firstWaiting? {sequence : SequenceId} (hj : j ∈ s.jobs)
    (hwaits : j.status = .waitingPrev) (hsuccessor : j.successor = .sequence sequence) :
    ∃ first, s.firstWaiting? sequence = some first := by
  rw [firstWaiting?_eq]
  generalize hl : s.jobs.filter (fun j =>
    j.status = .waitingPrev && j.successor = .sequence sequence) = l
  have hmem : j ∈ l := by
    rw [← hl, List.mem_filter, hwaits, hsuccessor]
    simp [hj]
  cases l with
  | nil => cases hmem
  | cons b rest =>
    obtain ⟨c, hc, -, -⟩ := exists_foldl_earlier rest b
    exact ⟨c, hc⟩

theorem firstWaiting?_eq_some {sequence : SequenceId} (hj : j ∈ s.jobs)
    (hwaits : j.status = .waitingPrev) (hsuccessor : j.successor = .sequence sequence)
    (hlater : ∀ i ∈ s.jobs, i.status = .waitingPrev → i.successor = .sequence sequence →
      i = j ∨ j.scheduledAt < i.scheduledAt) : s.firstWaiting? sequence = some j := by
  obtain ⟨first, hfound⟩ := exists_firstWaiting? hj hwaits hsuccessor
  obtain ⟨hfirst, hfirstWaits, hfirstSuccessor, hbefore⟩ := firstWaiting?_spec hfound
  -- another one would be later than this one and yet before it
  rcases hlater first hfirst hfirstWaits hfirstSuccessor with rfl | hlt
  · exact hfound
  · have hlt : j.scheduledAt.nanos < first.scheduledAt.nanos := hlt
    have hle := Job.isBefore_iff.1 (hbefore j hj hwaits hsuccessor)
    omega

/-! ## 2. Letting a job go -/

/-- The job that the end of a job with the given successor lets go. -/
def unlocked? (s : Store) : Successor → Option JobId
  | .none => none
  | .next id => if (s.get? id).any (·.status = .waitingPrev) then some id else none
  | .sequence sequence => (s.firstWaiting? sequence).map (·.id)

theorem unlocked?_spec (hs : s.Distinct) {l : Successor} (h : s.unlocked? l = some id) :
    ∃ j, s.get? id = some j ∧ j.status = .waitingPrev ∧ l.Names j := by
  cases l with
  | none => cases h
  | next next =>
    cases hget : s.get? next with
    | none => simp [unlocked?, hget] at h
    | some j =>
      by_cases hwaits : j.status = .waitingPrev
      · simp only [unlocked?, hget, Option.any_some, hwaits, decide_true, if_true,
          Option.some.injEq] at h
        subst h
        exact ⟨j, hget, hwaits, id_of_get? hget⟩
      · simp [unlocked?, hget, hwaits] at h
  | sequence sequence =>
    obtain ⟨j, hj, rfl⟩ := Option.map_eq_some_iff.1 h
    obtain ⟨hmem, hwaits, hsucc, -⟩ := firstWaiting?_spec hj
    exact ⟨j, get?_of_mem hs hmem, hwaits, hsucc⟩

theorem unlock_sequence {sequence : SequenceId} {first : Job}
    (h : s.firstWaiting? sequence = some first) :
    s.unlock (.sequence sequence) = s.updateIf (·.id = first.id) Job.released := by
  simp only [unlock, h]
  rfl

theorem get?_unlock (s : Store) (l : Successor) (id : JobId) :
    (s.unlock l).get? id =
      (s.get? id).map fun j => if s.unlocked? l = some j.id then j.released else j := by
  cases l with
  | none => simp [unlock, unlocked?]
  | next next =>
    show (s.updateIf (fun j => j.id = next && j.status = .waitingPrev) Job.released).get? id = _
    rw [get?_updateIf s _ Job.released_id]
    cases hget : s.get? id with
    | none => rfl
    | some j =>
      have hid := id_of_get? hget
      subst hid
      by_cases hnext : j.id = next
      · subst hnext
        simp [unlocked?, hget]
      · simp [unlocked?, hnext, Ne.symm hnext]
  | sequence sequence =>
    cases hfirst : s.firstWaiting? sequence with
    | none => simp [unlock, unlocked?, hfirst]
    | some first =>
      rw [unlock_sequence hfirst, get?_updateIf s _ Job.released_id]
      simp [unlocked?, hfirst, eq_comm]

theorem unlock_distinct (hs : s.Distinct) (l : Successor) : (s.unlock l).Distinct := by
  cases l with
  | none => exact hs
  | next next => exact updateIf_distinct hs _ Job.released_id
  | sequence sequence =>
    cases hfirst : s.firstWaiting? sequence with
    | none =>
      simp only [unlock, hfirst]
      exact hs
    | some first =>
      rw [unlock_sequence hfirst]
      exact updateIf_distinct hs _ Job.released_id

/-! ## 3. Ending a claim -/

theorem owned?_eq_some_iff (hs : s.Distinct) {p : ProcessingJob} :
    s.owned? p = some j ↔ s.get? p.id = some j ∧ j.isOwnedBy p := by
  constructor
  · intro h
    have howned : j.isOwnedBy p := by simpa using List.find?_some h
    exact ⟨(get?_eq_some_iff hs).2 ⟨List.mem_of_find?_eq_some h, (Job.isOwnedBy_iff.1 howned).1⟩,
      howned⟩
  · rintro ⟨hget, howned⟩
    have hex : (s.owned? p).isSome := List.find?_isSome.mpr ⟨j, mem_of_get? hget, howned⟩
    obtain ⟨k, hk⟩ := Option.isSome_iff_exists.mp hex
    -- a job under the claim is found, and there is only one with its id
    have hkp : k.isOwnedBy p := by simpa using List.find?_some hk
    have hkget : s.get? p.id = some k := (get?_eq_some_iff hs).2
      ⟨List.mem_of_find?_eq_some hk, (Job.isOwnedBy_iff.1 hkp).1⟩
    rw [hk, ← hkget, hget]

theorem get?_updateIf_owned {p : ProcessingJob} {f : Job → Job} (hf : ∀ j, (f j).id = j.id)
    (hj : s.get? id = some j) (howned : j.isOwnedBy p) :
    (s.updateIf (·.isOwnedBy p) f).get? id = some (f j) := by
  rw [get?_updateIf s _ hf, hj, Option.map_some, if_pos howned]

/-- The store with the job of a claim ended, before its successor is let go. -/
def ended (s : Store) (p : ProcessingJob) (delete : Bool) (clock : Instant) : Store :=
  if delete then { s with jobs := s.jobs.filter (·.id ≠ p.id) }
  else s.update p.id (·.finish .completed clock)

theorem completeOne_of_free {p : ProcessingJob} {delete : Bool} (h : s.owned? p = none) :
    s.completeOne p delete clock = s := by
  simp only [completeOne, h]

theorem completeOne_of_owned {p : ProcessingJob} {delete : Bool} (h : s.owned? p = some j) :
    s.completeOne p delete clock = (s.ended p delete clock).unlock j.successor := by
  simp only [completeOne, h]
  rfl

theorem ended_distinct (hs : s.Distinct) (p : ProcessingJob) (delete : Bool) (clock : Instant) :
    (s.ended p delete clock).Distinct := by
  cases delete with
  | true => exact filter_distinct hs _
  | false => exact updateIf_distinct hs _ (Job.finish_id · _ _)

theorem get?_ended (hs : s.Distinct) (p : ProcessingJob) (delete : Bool) (clock : Instant)
    (id : JobId) :
    (s.ended p delete clock).get? id =
      if id = p.id then (if delete then none else (s.get? id).map (·.finish .completed clock))
      else s.get? id := by
  cases delete with
  | true =>
    show get? { s with jobs := s.jobs.filter (·.id ≠ p.id) } id = _
    rw [get?_filter hs]
    cases hget : s.get? id with
    | none => simp
    | some j =>
      have hid := id_of_get? hget
      subst hid
      by_cases hp : j.id = p.id <;> simp [hp]
  | false =>
    show (s.updateIf (·.id = p.id) (·.finish .completed clock)).get? id = _
    rw [get?_updateIf s _ (Job.finish_id · _ _)]
    cases hget : s.get? id with
    | none => simp
    | some j =>
      have hid := id_of_get? hget
      subst hid
      by_cases hp : j.id = p.id <;> simp [hp]

/-- A job that waits when the job of a claim has ended is another one, and waited before. -/
theorem waits_of_ended (hs : s.Distinct) {p : ProcessingJob} {delete : Bool}
    (hj : j ∈ (s.ended p delete clock).jobs) (hwaits : j.status = .waitingPrev) :
    j.id ≠ p.id ∧ s.get? j.id = some j := by
  have hget := get?_of_mem (ended_distinct hs p delete clock) hj
  rw [get?_ended hs] at hget
  split at hget
  · split at hget
    · cases hget
    · obtain ⟨k, -, rfl⟩ := Option.map_eq_some_iff.1 hget
      cases hwaits
  · rename_i hne
    exact ⟨hne, hget⟩

theorem completeOne_distinct (hs : s.Distinct) (p : ProcessingJob) (delete : Bool)
    (clock : Instant) : (s.completeOne p delete clock).Distinct := by
  cases h : s.owned? p with
  | none =>
    rw [completeOne_of_free h]
    exact hs
  | some j =>
    rw [completeOne_of_owned h]
    exact unlock_distinct (ended_distinct hs p delete clock) _

theorem completeOne_eq_self (hs : s.Distinct) {p : ProcessingJob} (delete : Bool) (clock : Instant)
    (h : ∀ j, s.get? p.id = some j → ¬ j.isOwnedBy p) : s.completeOne p delete clock = s := by
  cases howned : s.owned? p with
  | none => exact completeOne_of_free howned
  | some j =>
    obtain ⟨hget, hj⟩ := (owned?_eq_some_iff hs).1 howned
    exact absurd hj (h j hget)

/-- The job of the claim ends, the job that its successor lets go can be claimed, and all others are
as before. -/
theorem get?_completeOne (hs : s.Distinct) {p : ProcessingJob} {k : Job}
    (hk : s.get? p.id = some k) (howned : k.isOwnedBy p) (delete : Bool) (clock : Instant)
    (id : JobId) :
    (s.completeOne p delete clock).get? id =
      if id = p.id then (if delete then none else some (k.finish .completed clock))
      else (s.get? id).map fun j =>
        if (s.ended p delete clock).unlocked? k.successor = some j.id then j.released else j := by
  rw [completeOne_of_owned ((owned?_eq_some_iff hs).2 ⟨hk, howned⟩), get?_unlock, get?_ended hs]
  by_cases hid : id = p.id
  · subst hid
    rw [if_pos rfl, if_pos rfl, hk]
    cases delete with
    | true => rfl
    | false =>
      -- the job that has just ended does not wait, so it is not the one let go
      have hother : (s.ended p false clock).unlocked? k.successor ≠ some k.id := by
        intro hself
        obtain ⟨j, hj, hwaits, -⟩ := unlocked?_spec (ended_distinct hs p false clock) hself
        rw [get?_ended hs, (Job.isOwnedBy_iff.1 howned).1, if_pos rfl, hk] at hj
        cases hj
        cases hwaits
      simp only [Bool.false_eq_true, if_false, Option.map_some, Job.finish_id, hother]
  · rw [if_neg hid, if_neg hid]

end Store

end JobQueue
