import JobQueue.Job.Sequence
import JobQueue.Proofs.Store.Life
import Mathlib.Data.List.Induction

/-!
# Inserting several jobs

Jobs that are inserted together are checked against the store before the first of them is stored,
and each of them once more when its turn comes. The second check is the only one that sees a
duplicate among them, and it comes too late: what stands before the duplicate is stored by then.
-/

namespace JobQueue.Store

variable {s : Store} {clock : Instant} {jobs : List NewJob}

/-- The store with jobs added to it. -/
def added (s : Store) (clock : Instant) (jobs : List NewJob) : Store :=
  { s with jobs := s.jobs ++ jobs.map (·.toJob clock) }

/-- Whether all jobs were stored and their ids returned in order, or a duplicate was reported and
the store is as it was. The errors are those of the caller. -/
def AllOrNothing {ε : Type} (duplicate : JobId → ε) (s : Store) (clock : Instant)
    (jobs : List NewJob) (r : Except ε (List JobId) × Store) : Prop :=
  r = (.ok (jobs.map (·.id)), s.added clock jobs) ∨ ∃ id, r = (.error (duplicate id), s)

/-! ## 1. The store with jobs added -/

theorem contains_added (s : Store) (clock : Instant) (jobs : List NewJob) (id : JobId) :
    (s.added clock jobs).contains id = true ↔ s.contains id = true ∨ id ∈ jobs.map (·.id) := by
  simp [contains, added, NewJob.toJob]

theorem added_added (s : Store) (clock : Instant) (jobs more : List NewJob) :
    (s.added clock jobs).added clock more = s.added clock (jobs ++ more) := by
  simp only [added, List.map_append, List.append_assoc]

theorem added_ne {job : NewJob} (s : Store) (clock : Instant) (h : job ∈ jobs) :
    s.added clock jobs ≠ s := by
  intro hsame
  have hlength := congrArg (·.jobs.length) hsame
  simp only [added, List.length_append, List.length_map] at hlength
  have hpositive := List.length_pos_of_mem h
  omega

/-! ## 2. One after the other -/

theorem insert_of_fresh {job : NewJob} (h : s.contains job.id = false) :
    s.insert job clock = .ok (s.added clock [job]) := by
  rw [insert, h, if_neg Bool.false_ne_true, added, List.map_singleton]

theorem insert_of_contains {job : NewJob} (h : s.contains job.id = true) :
    s.insert job clock = .error (.duplicateJob job.id) := by
  rw [insert, h, if_pos rfl]

theorem insertEach_append {ids : List JobId} {s' : Store}
    (h : s.insertEach clock jobs = (.ok ids, s')) (more : List NewJob) :
    s.insertEach clock (jobs ++ more) =
      ((s'.insertEach clock more).1.map (ids ++ ·), (s'.insertEach clock more).2) := by
  induction jobs generalizing s ids with
  | nil =>
    cases h
    rw [List.nil_append]
    obtain ⟨result, last⟩ := s'.insertEach clock more
    cases result <;> rfl
  | cons job rest ih =>
    rw [insertEach] at h
    rw [List.cons_append, insertEach]
    cases hfirst : s.insert job clock with
    | error e =>
      rw [hfirst] at h
      cases h
    | ok s₁ =>
      simp only [hfirst] at h ⊢
      obtain ⟨members, hrest, rfl⟩ : ∃ members, s₁.insertEach clock rest = (.ok members, s') ∧
          ids = job.id :: members := by
        cases hrest : s₁.insertEach clock rest with
        | mk result last =>
          rw [hrest] at h
          cases result with
          | error e => cases h
          | ok members =>
            cases h
            exact ⟨members, rfl, rfl⟩
      rw [ih hrest]
      obtain ⟨result, last⟩ := s'.insertEach clock more
      cases result <;> rfl

/-- Jobs with ids of their own that the store does not have are all stored. -/
theorem insertEach_of_nodup (hfresh : ∀ job ∈ jobs, s.contains job.id = false)
    (hnodup : (jobs.map (·.id)).Nodup) :
    s.insertEach clock jobs = (.ok (jobs.map (·.id)), s.added clock jobs) := by
  induction jobs using List.reverseRecOn with
  | nil => simp [insertEach, added]
  | append_singleton jobs job ih =>
    rw [List.map_append, List.map_singleton, List.nodup_append_comm, List.singleton_append,
      List.nodup_cons] at hnodup
    have hbefore := ih (fun other h => hfresh other (List.mem_append_left _ h)) hnodup.2
    have hnew : (s.added clock jobs).contains job.id = false := by
      rw [← Bool.not_eq_true, contains_added, not_or, Bool.not_eq_true]
      exact ⟨hfresh job (List.mem_append_right _ List.mem_cons_self), hnodup.1⟩
    rw [insertEach_append hbefore, insertEach, insert_of_fresh hnew, added_added, List.map_append]
    rfl

/-- A job with an id that one of those before it has is refused, and those before it stay. -/
theorem insertEach_of_repeated {job : NewJob} (hfresh : ∀ job ∈ jobs, s.contains job.id = false)
    (hnodup : (jobs.map (·.id)).Nodup) (hjob : job.id ∈ jobs.map (·.id)) (rest : List NewJob) :
    s.insertEach clock (jobs ++ job :: rest) =
      (.error (.duplicateJob job.id), s.added clock jobs) := by
  have hthere : (s.added clock jobs).contains job.id = true :=
    (contains_added s clock jobs job.id).2 (Or.inr hjob)
  rw [insertEach_append (insertEach_of_nodup hfresh hnodup), insertEach, insert_of_contains hthere]
  rfl

theorem exists_first_repeated (h : ¬ (jobs.map (·.id)).Nodup) :
    ∃ first job rest, jobs = first ++ job :: rest ∧ (first.map (·.id)).Nodup ∧
      job.id ∈ first.map (·.id) := by
  induction jobs using List.reverseRecOn with
  | nil => exact absurd List.nodup_nil h
  | append_singleton jobs last ih =>
    by_cases hbefore : (jobs.map (·.id)).Nodup
    · refine ⟨jobs, last, [], rfl, hbefore, ?_⟩
      by_contra hlast
      rw [List.map_append, List.map_singleton, List.nodup_append_comm, List.singleton_append,
        List.nodup_cons] at h
      exact h ⟨hlast, hbefore⟩
    · obtain ⟨first, job, rest, rfl, hnodup, hjob⟩ := ih hbefore
      exact ⟨first, job, rest ++ [last], by simp, hnodup, hjob⟩

/-! ## 3. All of them -/

/-- What becomes of jobs that are inserted together: nothing is stored if one of the ids is in the
store, all if all ids differ, and otherwise those before the first duplicate. -/
theorem insertMany_cases (s : Store) (clock : Instant) (jobs : List NewJob) :
    (∃ job ∈ jobs, s.contains job.id = true ∧
      s.insertMany jobs clock = (.error (.duplicateJob job.id), s)) ∨
    ((∀ job ∈ jobs, s.contains job.id = false) ∧ (jobs.map (·.id)).Nodup ∧
      s.insertMany jobs clock = (.ok (jobs.map (·.id)), s.added clock jobs)) ∨
    ((∀ job ∈ jobs, s.contains job.id = false) ∧ ¬ (jobs.map (·.id)).Nodup ∧
      ∃ first job rest, jobs = first ++ job :: rest ∧ (first.map (·.id)).Nodup ∧
        job.id ∈ first.map (·.id) ∧
        s.insertMany jobs clock = (.error (.duplicateJob job.id), s.added clock first)) := by
  cases hfind : jobs.find? fun job => s.contains job.id with
  | some job =>
    have hthere : s.contains job.id = true := by simpa using List.find?_some hfind
    refine Or.inl ⟨job, List.mem_of_find?_eq_some hfind, hthere, ?_⟩
    rw [insertMany, hfind]
  | none =>
    have hfresh : ∀ job ∈ jobs, s.contains job.id = false := by
      simpa using List.find?_eq_none.1 hfind
    have heach : s.insertMany jobs clock = s.insertEach clock jobs := by rw [insertMany, hfind]
    rw [heach]
    by_cases hnodup : (jobs.map (·.id)).Nodup
    · exact Or.inr (Or.inl ⟨hfresh, hnodup, insertEach_of_nodup hfresh hnodup⟩)
    · obtain ⟨first, job, rest, rfl, hfirst, hjob⟩ := exists_first_repeated hnodup
      have hbefore : ∀ job ∈ first, s.contains job.id = false := fun other h =>
        hfresh other (List.mem_append_left _ h)
      exact Or.inr (Or.inr ⟨hfresh, hnodup, first, job, rest, rfl, hfirst, hjob,
        insertEach_of_repeated hbefore hfirst hjob rest⟩)

theorem insertMany_allOrNothing (s : Store) (clock : Instant) (jobs : List NewJob) :
    AllOrNothing .duplicateJob s clock jobs (s.insertMany jobs clock) ↔
      (∃ job ∈ jobs, s.contains job.id = true) ∨ (jobs.map (·.id)).Nodup := by
  rcases insertMany_cases s clock jobs with
    ⟨job, hjob, hthere, hresult⟩ | ⟨-, hnodup, hresult⟩ |
      ⟨hfresh, hnodup, first, job, rest, rfl, -, hjob, hresult⟩
  · exact iff_of_true (Or.inr ⟨job.id, hresult⟩) (Or.inl ⟨job, hjob, hthere⟩)
  · exact iff_of_true (Or.inl hresult) (Or.inr hnodup)
  · -- a duplicate is reported, but the jobs before it have been stored
    obtain ⟨other, hother, -⟩ := List.mem_map.1 hjob
    refine iff_of_false ?_ ?_
    · rw [hresult]
      rintro (hall | ⟨id, hnothing⟩)
      · cases hall
      · exact added_ne s clock hother (congrArg Prod.snd hnothing)
    · rintro (⟨new, hnew, hthere⟩ | hall)
      · rw [hfresh new hnew] at hthere
        cases hthere
      · exact hnodup hall

end JobQueue.Store

namespace JobQueue.SequenceKind

variable {s : Store} {clock : Instant} {jobs : List NewJob} {kind : SequenceKind}
  {drafts : List Draft}

/-! ## 4. Sequences -/

/-- The error of an insertion as one of the library. -/
def duplicate (id : JobId) : Stop QueueError := .error (.backend (.duplicateJob id))

theorem enqueue_of_build (h : kind.build drafts clock = .ok jobs) :
    kind.enqueue drafts Store.backend clock s =
      ((Answer.ofExcept (s.insertMany jobs clock).1).mapError Stop.ofBackend,
        (s.insertMany jobs clock).2) := by
  cases jobs with
  | nil => simp only [enqueue, h, Store.insertMany, List.find?_nil, Store.insertEach]; rfl
  | cons job rest => simp only [enqueue, h]; rfl

theorem enqueue_allOrNothing_iff (h : kind.build drafts clock = .ok jobs) :
    Store.AllOrNothing duplicate s clock jobs (kind.enqueue drafts Store.backend clock s) ↔
      Store.AllOrNothing .duplicateJob s clock jobs (s.insertMany jobs clock) := by
  rw [enqueue_of_build h]
  obtain ⟨result, s'⟩ := s.insertMany jobs clock
  unfold Store.AllOrNothing
  cases result with
  | ok ids => simp [Answer.ofExcept, Except.mapError]
  | error e =>
    -- an error is handed on with its cause, so it tells a duplicate from all else
    simp [Answer.ofExcept, Except.mapError, Stop.ofBackend, duplicate]

end JobQueue.SequenceKind

namespace JobQueue.Store

/-! ## 5. When it is all or nothing -/

/-- **When several jobs are inserted as a whole.** An insertion, alone or of a sequence, stores all
jobs or none exactly if one of the ids is in the store already or no two of them are the same.
Otherwise the jobs before the first duplicate are stored, and the duplicate is reported. -/
theorem bulk_allOrNothing_iff (s : Store) (clock : Instant) (jobs : List NewJob) :
    (AllOrNothing .duplicateJob s clock jobs (s.insertMany jobs clock) ↔
      (∃ job ∈ jobs, s.contains job.id = true) ∨ (jobs.map (·.id)).Nodup) ∧
    (∀ kind drafts, kind.build drafts clock = .ok jobs →
      (AllOrNothing SequenceKind.duplicate s clock jobs
          (SequenceKind.enqueue kind drafts Store.backend clock s) ↔
        (∃ job ∈ jobs, s.contains job.id = true) ∨ (jobs.map (·.id)).Nodup)) ∧
    ((∀ job ∈ jobs, s.contains job.id = false) → ¬ (jobs.map (·.id)).Nodup →
      ∃ first job rest, jobs = first ++ job :: rest ∧ (first.map (·.id)).Nodup ∧
        job.id ∈ first.map (·.id) ∧
        s.insertMany jobs clock = (.error (.duplicateJob job.id), s.added clock first)) := by
  refine ⟨insertMany_allOrNothing s clock jobs, ?_, ?_⟩
  · intro kind drafts hbuild
    exact (SequenceKind.enqueue_allOrNothing_iff hbuild).trans
      (insertMany_allOrNothing s clock jobs)
  · intro hfresh hrepeated
    rcases insertMany_cases s clock jobs with
      ⟨job, hjob, hthere, -⟩ | ⟨-, hnodup, -⟩ | ⟨-, -, hfirst⟩
    · rw [hfresh job hjob] at hthere
      cases hthere
    · exact absurd hnodup hrepeated
    · exact hfirst

/-- A draft of a job that takes a text. -/
def noteDraft (n : Nat) : Draft where
  type := { name := "plain", parameter := .text }
  id := ⟨.ofNat n⟩
  parameter := some (.text "")
  restartOnCrash := true

/-- Two jobs of a chain, with ids of their own: both are stored. -/
theorem allOrNothing_chain_of_two :
    let drafts := [noteDraft 1, noteDraft 2]
    ∃ jobs, SequenceKind.chain.build drafts .epoch = .ok jobs ∧ (jobs.map (·.id)).Nodup ∧
      AllOrNothing SequenceKind.duplicate {} .epoch jobs
        (SequenceKind.chain.enqueue drafts Store.backend .epoch {}) := by
  intro drafts
  obtain ⟨jobs, hbuild, hids⟩ : ∃ jobs, SequenceKind.chain.build drafts .epoch = .ok jobs ∧
      jobs.map (·.id) = [⟨.ofNat 1⟩, ⟨.ofNat 2⟩] := ⟨_, rfl, rfl⟩
  have hnodup : (jobs.map (·.id)).Nodup := by
    rw [hids]
    decide
  exact ⟨jobs, hbuild, hnodup,
    ((bulk_allOrNothing_iff {} .epoch jobs).2.1 .chain drafts hbuild).2 (Or.inr hnodup)⟩

/-- Two jobs with one id, inserted together into an empty store: a duplicate is reported, and the
first of them is stored. -/
theorem insertMany_keeps_first_of_two :
    let jobs : List NewJob := [.plain 1, .plain 1]
    (insertMany {} jobs .epoch).1 = .error (.duplicateJob ⟨.ofNat 1⟩) ∧
      (insertMany {} jobs .epoch).2.get? ⟨.ofNat 1⟩ = some ((NewJob.plain 1).toJob .epoch) ∧
      ¬ AllOrNothing .duplicateJob {} .epoch jobs (insertMany {} jobs .epoch) := by
  intro jobs
  have hreport : (insertMany {} jobs .epoch).1 = .error (.duplicateJob ⟨.ofNat 1⟩) := by
    decide +kernel
  have hstored : (insertMany {} jobs .epoch).2.get? ⟨.ofNat 1⟩ =
      some ((NewJob.plain 1).toJob .epoch) := by decide +kernel
  refine ⟨hreport, hstored, ?_⟩
  rintro (hall | ⟨id, hnothing⟩)
  · rw [hall] at hreport
    cases hreport
  · rw [hnothing] at hstored
    cases hstored

end JobQueue.Store
