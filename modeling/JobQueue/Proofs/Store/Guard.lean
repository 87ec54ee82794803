import JobQueue.Proofs.Store.Unlocks

/-!
# Writes under a claim

A write that ends a claim is guarded: unless its pair names the claim that the job is under, the
store stays as it is. Under the claim it ends that job and touches no other, but for a completion,
which also lets at most one waiting job go. A completion of several is such a write for each of
them.
-/

namespace JobQueue

/-- The status that a write gives to the job of its claim, unless it deletes the job. -/
def OutcomeWrite.status? (w : OutcomeWrite) (delete : Bool) : Option JobStatus :=
  match w with
  | .complete _ => if delete then none else some .completed
  | .retry .. => some .scheduled
  | .reschedule .. => some .scheduled
  | .fail .. => some .failed

/-- The job that a link names, or a waiting member of the group that it names and that no other
waiting member comes before. -/
def Successor.Selects (l : Successor) (s : Store) (j : Job) : Prop :=
  match l with
  | .none => False
  | .next id => j.id = id
  | .sequence _ => j.successor = l ∧
    ∀ i ∈ s.jobs, i.status = .waitingPrev → i.successor = l → j.isBefore i

namespace Store

variable {s : Store} {clock : Instant} {delete : Bool} {p q : ProcessingJob} {id : JobId} {k : Job}
  {l : Successor} {w : OutcomeWrite}

/-- What a write under its claim makes of a store. -/
structure EndsBy (s s' : Store) (w : OutcomeWrite) (delete : Bool) (freed : Option JobId) :
    Prop where
  workers : s'.workers = s.workers
  claimed : (s'.get? w.job.id).map (fun j => (j.status, j.owner)) =
    (w.status? delete).map fun status => (status, none)
  completes : freed.isSome → ∃ f, w = .complete f
  lets_go : ∀ id, freed = some id → id ≠ w.job.id ∧ ∃ k j, s.get? w.job.id = some k ∧
    s.get? id = some j ∧ j.status = .waitingPrev ∧ k.successor.Selects s j ∧
    s'.get? id = some { j with status := .scheduled }
  others : ∀ id, id ≠ w.job.id → freed ≠ some id → s'.get? id = s.get? id

/-! ## 1. One write -/

theorem unlocked?_selects (hs : s.Distinct) (h : s.unlocked? l = some id) :
    ∃ j, s.get? id = some j ∧ j.status = .waitingPrev ∧ l.Selects s j := by
  cases l with
  | none => nomatch h
  | next next => exact unlocked?_spec hs h
  | sequence sequence =>
    obtain ⟨j, hj, rfl⟩ := Option.map_eq_some_iff.1 h
    obtain ⟨hmem, hwaits, hsuccessor, hfirst⟩ := firstWaiting?_spec hj
    exact ⟨j, get?_of_mem hs hmem, hwaits, hsuccessor, hfirst⟩

theorem endsBy_completeOne (hs : s.Distinct) {f : FinishedJob} (hk : s.get? f.job.id = some k)
    (howned : k.isOwnedBy f.job) :
    s.EndsBy (s.completeOne f.job delete clock) (.complete f) delete
      (s.unlocked? k.successor) := by
  have hprocessing := (Job.isOwnedBy_iff.1 howned).2.1
  have hafter := get?_completeOne hs hk howned delete clock
  rw [unlocked?_ended hs hk hprocessing] at hafter
  refine ⟨complete_workers s [f] delete clock, ?_, fun _ => ⟨f, rfl⟩, ?_, ?_⟩
  · show ((s.completeOne f.job delete clock).get? f.job.id).map _ = _
    rw [hafter, if_pos rfl]
    cases delete <;> rfl
  · intro id hfreed
    obtain ⟨j, hj, hwaits, hselects⟩ := unlocked?_selects hs hfreed
    -- the job that ends is processing, so it is not the one let go
    have hother : id ≠ f.job.id := by
      rintro rfl
      rw [hk] at hj
      cases hj
      rw [hprocessing] at hwaits
      nomatch hwaits
    refine ⟨hother, k, j, hk, hj, hwaits, hselects, ?_⟩
    have hid := id_of_get? hj
    subst hid
    rw [hafter, if_neg hother, hj, Option.map_some, if_pos hfreed]
    rfl
  · intro id (hother : id ≠ f.job.id) hkept
    rw [hafter, if_neg hother]
    cases hget : s.get? id with
    | none => rfl
    | some j => rw [Option.map_some, id_of_get? hget, if_neg hkept]

/-- The other writes change only the job of the claim. -/
theorem endsBy_updateIf {f : Job → Job} {status : JobStatus} (hf : ∀ j, (f j).id = j.id)
    (hends : ∀ j, (f j).status = status ∧ (f j).owner = none)
    (hstatus : w.status? delete = some status) (hheld : s.Holds w.job) :
    s.EndsBy (s.updateIf (·.isOwnedBy w.job) f) w delete none := by
  obtain ⟨j, hj, howned⟩ := holds_iff.1 hheld
  refine ⟨rfl, ?_, nofun, nofun, ?_⟩
  · rw [get?_updateIf_owned hf hj howned, hstatus, Option.map_some, (hends j).1, (hends j).2]
    rfl
  · intro id hother _
    rw [get?_updateIf s _ hf]
    cases hget : s.get? id with
    | none => rfl
    | some i =>
      rw [Option.map_some, if_neg]
      intro hi
      exact hother ((id_of_get? hget).symm.trans (Job.isOwnedBy_iff.1 hi).1)

theorem endsBy_perform (hs : s.Distinct) (w : OutcomeWrite) (delete : Bool) (clock : Instant)
    (hheld : s.Holds w.job) :
    ∃ freed, s.EndsBy (w.perform delete (Store.answer clock) s).2 w delete freed := by
  cases w with
  | complete f =>
    obtain ⟨k, hk, howned⟩ := holds_iff.1 hheld
    exact ⟨_, endsBy_completeOne hs hk howned⟩
  | retry p t e =>
    exact ⟨none, endsBy_updateIf (w := .retry p t e)
      (f := fun j => { j.putBack t clock with lastError := some e })
      (fun _ => rfl) (fun _ => ⟨rfl, rfl⟩) rfl hheld⟩
  | reschedule p t e =>
    exact ⟨none, endsBy_updateIf (w := .reschedule p t e)
      (f := fun j => { j.putBack t clock with attempt := 0, lastError := e })
      (fun _ => rfl) (fun _ => ⟨rfl, rfl⟩) rfl hheld⟩
  | fail p e =>
    exact ⟨none, endsBy_updateIf (w := .fail p e)
      (f := fun j => { j.finish .failed clock with lastError := some e })
      (fun _ => rfl) (fun _ => ⟨rfl, rfl⟩) rfl hheld⟩

theorem perform_ok (w : OutcomeWrite) (delete : Bool) (clock : Instant) (s : Store) :
    (w.perform delete (Store.answer clock) s).1 = .ok () := by
  cases w <;> rfl

/-! ## 2. Several completions -/

theorem holds_iff_mem (hs : s.Distinct) : s.Holds p ↔ ∃ j ∈ s.jobs, j.isOwnedBy p := by
  rw [holds_iff]
  constructor
  · rintro ⟨j, hj, howned⟩
    exact ⟨j, mem_of_get? hj, howned⟩
  · rintro ⟨j, hj, howned⟩
    refine ⟨j, ?_, howned⟩
    rw [← (Job.isOwnedBy_iff.1 howned).1]
    exact get?_of_mem hs hj

/-- A completion ends its own claim and no other. -/
theorem holds_completeOne_iff (hs : s.Distinct) :
    (s.completeOne q delete clock).Holds p ↔ s.Holds p ∧ p ≠ q := by
  rw [holds_iff_mem hs, holds_iff_mem (completeOne_distinct hs q delete clock)]
  cases hq : s.owned? q with
  | none =>
    rw [completeOne_of_free hq, iff_self_and]
    rintro ⟨j, hj, howned⟩ rfl
    rw [isOwnedBy_of_owned?_eq_none hq hj] at howned
    exact absurd howned Bool.false_ne_true
  | some k =>
    have hk := (owned?_mem hq).2
    constructor
    · rintro ⟨j, hj, howned⟩
      obtain ⟨⟨hmem, -⟩, hne⟩ := (owned_completeOne_iff hs hq).1 ⟨hj, howned⟩
      refine ⟨⟨j, hmem, howned⟩, ?_⟩
      rintro rfl
      exact hne ((isOwnedBy_iff_eq hs hq hmem).1 howned)
    · rintro ⟨⟨j, hj, howned⟩, hne⟩
      -- one job has one owner, so another claim is of another job
      have hother : j ≠ k := by
        rintro rfl
        exact hne (Job.eq_of_isOwnedBy howned hk)
      exact ⟨j, (owned_completeOne_iff hs hq).2 ⟨⟨hj, howned⟩, hother⟩⟩

theorem holds_complete_iff (hs : s.Distinct) (jobs : List FinishedJob) :
    (s.complete jobs delete clock).Holds p ↔ s.Holds p ∧ p ∉ jobs.map (·.job) := by
  induction jobs generalizing s with
  | nil => simp [complete]
  | cons f rest ih =>
    show ((s.completeOne f.job delete clock).complete rest delete clock).Holds p ↔ _
    rw [ih (completeOne_distinct hs f.job delete clock), holds_completeOne_iff hs, List.map_cons,
      List.mem_cons, not_or, and_assoc]

/-- A pair that names no claim can be left out. -/
theorem complete_eq_of_not_holds (hs : s.Distinct) {f : FinishedJob} (hfree : ¬ s.Holds f.job)
    (before after : List FinishedJob) :
    s.complete (before ++ f :: after) delete clock = s.complete (before ++ after) delete clock := by
  have hstill : ¬ (s.complete before delete clock).Holds f.job := fun hheld =>
    hfree ((holds_complete_iff hs before).1 hheld).1
  rw [complete_append, complete_append]
  show ((s.complete before delete clock).completeOne f.job delete clock).complete after delete
    clock = _
  rw [completeOne_eq_self (complete_distinct hs before delete clock) delete clock]
  intro j hj howned
  exact hstill (holds_iff.2 ⟨j, hj, howned⟩)

end Store

end JobQueue
