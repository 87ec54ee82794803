import JobQueue.Proofs.Store.Commute

/-!
# What a completion unlocks

A store completes jobs one by one and unlocks the successor of each before it turns to the next one.
Unlocking touches no job that is processing, so this comes to the same as ending all of the jobs at
once and unlocking their successors afterwards.
-/

namespace JobQueue.Store

variable {s : Store} {clock : Instant} {delete : Bool} {p q : ProcessingJob} {j k : Job}
  {l : Successor}

/-- The jobs that a completion finds under the claims, in turn. -/
def found (s : Store) (delete : Bool) (clock : Instant) : List FinishedJob → List Job
  | [] => []
  | f :: rest =>
    (s.owned? f.job).toList ++ (s.completeOne f.job delete clock).found delete clock rest

/-- The successors that a completion unlocks, in turn. -/
def unlocks (s : Store) (delete : Bool) (clock : Instant) (jobs : List FinishedJob) :
    List Successor :=
  (s.found delete clock jobs).map (·.successor)

/-- Whether a job is under one of the claims. -/
def isListed (jobs : List FinishedJob) (j : Job) : Bool := jobs.any (j.isOwnedBy ·.job)

/-- The jobs that are under the claims to begin with. -/
def listed (s : Store) (jobs : List FinishedJob) : List Job := s.jobs.filter (isListed jobs)

/-- The store with all of these jobs ended at once. -/
def endAll (s : Store) (jobs : List FinishedJob) (delete : Bool) (clock : Instant) : Store :=
  if delete then { s with jobs := s.jobs.filter (!isListed jobs ·) }
  else s.updateIf (isListed jobs) (·.finish .completed clock)

/-! ## 1. Which jobs are found -/

theorem isListed_iff {jobs : List FinishedJob} :
    isListed jobs j ↔ ∃ f ∈ jobs, j.isOwnedBy f.job := List.any_eq_true

theorem owned?_mem (h : s.owned? p = some j) : j ∈ s.jobs ∧ j.isOwnedBy p :=
  ⟨List.mem_of_find?_eq_some h, by simpa using List.find?_some h⟩

/-- A job of the store is the one that is found under its id. -/
theorem eq_of_get? (hs : s.Distinct) (hj : j ∈ s.jobs) (hk : s.get? j.id = some k) : j = k := by
  rw [get?_of_mem hs hj] at hk
  exact Option.some.inj hk

/-- A completion takes its own job from those that are processing, and no other. -/
theorem owned_completeOne_iff (hs : s.Distinct) (hk : s.owned? p = some k) :
    j ∈ (s.completeOne p delete clock).jobs ∧ j.isOwnedBy q ↔
      (j ∈ s.jobs ∧ j.isOwnedBy q) ∧ j ≠ k := by
  obtain ⟨hget, howned⟩ := (owned?_eq_some_iff hs).1 hk
  have hs' := completeOne_distinct hs p delete clock
  have hafter := get?_completeOne hs hget howned delete clock
  constructor
  · rintro ⟨hmem, hj⟩
    have hget' := get?_of_mem hs' hmem
    have hbefore := processing_of_completeOne (f := ⟨p, .none⟩) hs hget' (Job.isOwnedBy_iff.1 hj).2.1
    refine ⟨⟨mem_of_get? hbefore, hj⟩, ?_⟩
    -- the job of the completion is gone, or under no claim any more
    rintro rfl
    rw [hafter, id_of_get? hget, if_pos rfl] at hget'
    cases delete with
    | true => nomatch hget'
    | false =>
      have hended := congrArg Job.status (Option.some.inj hget')
      rw [(Job.isOwnedBy_iff.1 hj).2.1] at hended
      nomatch hended
  · rintro ⟨⟨hmem, hj⟩, hne⟩
    have hbefore := get?_of_mem hs hmem
    have hid : j.id ≠ p.id := fun hid => hne (eq_of_get? hs hmem (hid ▸ hget))
    have hstill : (s.completeOne p delete clock).get? j.id = some j := by
      rw [hafter, if_neg hid, hbefore, Option.map_some, if_neg]
      -- the job that is let go waits, and this one is processing
      intro hlet
      obtain ⟨i, hi, hwaits, -⟩ := unlocked?_spec (ended_distinct hs p delete clock) hlet
      rw [get?_ended hs, if_neg hid, hbefore] at hi
      cases hi
      rw [(Job.isOwnedBy_iff.1 hj).2.1] at hwaits
      nomatch hwaits
    exact ⟨mem_of_get? hstill, hj⟩

theorem listed_completeOne_iff (hs : s.Distinct) (hk : s.owned? p = some k)
    {jobs : List FinishedJob} :
    j ∈ (s.completeOne p delete clock).jobs ∧ isListed jobs j ↔
      (j ∈ s.jobs ∧ isListed jobs j) ∧ j ≠ k := by
  constructor
  · rintro ⟨hmem, hlisted⟩
    obtain ⟨f, hf, howned⟩ := isListed_iff.1 hlisted
    obtain ⟨⟨hbefore, -⟩, hne⟩ := (owned_completeOne_iff hs hk).1 ⟨hmem, howned⟩
    exact ⟨⟨hbefore, hlisted⟩, hne⟩
  · rintro ⟨⟨hmem, hlisted⟩, hne⟩
    obtain ⟨f, hf, howned⟩ := isListed_iff.1 hlisted
    exact ⟨((owned_completeOne_iff hs hk).2 ⟨⟨hmem, howned⟩, hne⟩).1, hlisted⟩

theorem isListed_cons {f : FinishedJob} {rest : List FinishedJob} :
    isListed (f :: rest) j = (j.isOwnedBy f.job || isListed rest j) := List.any_cons

theorem isOwnedBy_iff_eq (hs : s.Distinct) (hk : s.owned? p = some k) (hj : j ∈ s.jobs) :
    j.isOwnedBy p ↔ j = k := by
  obtain ⟨hget, howned⟩ := (owned?_eq_some_iff hs).1 hk
  constructor
  · intro h
    apply eq_of_get? hs hj
    rw [(Job.isOwnedBy_iff.1 h).1, hget]
  · rintro rfl
    exact howned

theorem isOwnedBy_of_owned?_eq_none (h : s.owned? p = none) (hj : j ∈ s.jobs) :
    j.isOwnedBy p = false := by
  simpa using List.find?_eq_none.1 h j hj

theorem mem_found (hs : s.Distinct) {jobs : List FinishedJob} :
    j ∈ s.found delete clock jobs ↔ j ∈ s.jobs ∧ isListed jobs j := by
  induction jobs generalizing s with
  | nil => simp [found, isListed]
  | cons f rest ih =>
    rw [found, List.mem_append, ih (completeOne_distinct hs f.job delete clock), isListed_cons,
      Bool.or_eq_true]
    cases howned : s.owned? f.job with
    | none =>
      rw [completeOne_of_free howned]
      constructor
      · rintro (hj | ⟨hj, hlisted⟩)
        · exact absurd hj List.not_mem_nil
        · exact ⟨hj, .inr hlisted⟩
      · rintro ⟨hj, hlisted⟩
        rw [isOwnedBy_of_owned?_eq_none howned hj] at hlisted
        exact .inr ⟨hj, hlisted.resolve_left Bool.false_ne_true⟩
    | some k =>
      have hk := owned?_mem howned
      rw [listed_completeOne_iff hs howned, Option.mem_toList, Option.some_inj]
      constructor
      · rintro (rfl | ⟨⟨hj, hlisted⟩, -⟩)
        · exact ⟨hk.1, .inl hk.2⟩
        · exact ⟨hj, .inr hlisted⟩
      · rintro ⟨hj, hlisted⟩
        rw [isOwnedBy_iff_eq hs howned hj] at hlisted
        by_cases hkj : j = k
        · exact .inl hkj.symm
        · exact .inr ⟨⟨hj, hlisted.resolve_left hkj⟩, hkj⟩

theorem found_nodup (hs : s.Distinct) (jobs : List FinishedJob) :
    (s.found delete clock jobs).Nodup := by
  induction jobs generalizing s with
  | nil => exact List.nodup_nil
  | cons f rest ih =>
    have hs' := completeOne_distinct hs f.job delete clock
    rw [found]
    cases howned : s.owned? f.job with
    | none => exact ih hs'
    | some k =>
      -- the job has ended, so no later claim finds it
      have hfresh : k ∉ (s.completeOne f.job delete clock).found delete clock rest := by
        rw [mem_found hs', listed_completeOne_iff hs howned]
        exact fun h => h.2 rfl
      exact List.nodup_cons.2 ⟨hfresh, ih hs'⟩

/-- Each job that is under one of the claims is found once. -/
theorem found_perm (hs : s.Distinct) (jobs : List FinishedJob) :
    (s.found delete clock jobs).Perm (s.listed jobs) := by
  have hlisted : (s.listed jobs).Nodup := (List.Nodup.of_map _ hs).filter _
  rw [List.perm_ext_iff_of_nodup (found_nodup hs jobs) hlisted]
  intro j
  rw [mem_found hs, listed, List.mem_filter]

/-! ## 2. All at once -/

theorem endAll_distinct (hs : s.Distinct) (jobs : List FinishedJob) (delete : Bool)
    (clock : Instant) : (s.endAll jobs delete clock).Distinct := by
  cases delete with
  | true => exact filter_distinct hs _
  | false => exact updateIf_distinct hs _ (Job.finish_id · _ _)

theorem not_isListed_of_ne_processing (jobs : List FinishedJob) (h : j.status ≠ .processing) :
    isListed jobs j = false := by
  rw [Bool.eq_false_iff]
  intro hlisted
  obtain ⟨f, -, howned⟩ := isListed_iff.1 hlisted
  exact h (Job.isOwnedBy_iff.1 howned).2.1

theorem unlocked?_endAll (hs : s.Distinct) (jobs : List FinishedJob) :
    (s.endAll jobs delete clock).unlocked? l = s.unlocked? l := by
  apply unlocked?_congr (endAll_distinct hs jobs delete clock) hs
  cases delete with
  | true =>
    apply waiting_filter
    intro j _ hwaits
    rw [not_isListed_of_ne_processing jobs (by rw [hwaits]; nofun), Bool.not_false]
  | false =>
    apply waiting_updateIf
    intro j _ hlisted
    constructor
    · rintro ⟨hwaits, -⟩
      rw [not_isListed_of_ne_processing jobs (by rw [hwaits]; nofun)] at hlisted
      nomatch hlisted
    · rintro ⟨hwaits, -⟩
      nomatch hwaits

/-- Jobs end in the same way before and after another one is let go. -/
theorem endAll_unlock (hs : s.Distinct) (jobs : List FinishedJob) :
    (s.unlock l).endAll jobs delete clock = (s.endAll jobs delete clock).unlock l := by
  rw [unlock_eq_updateIf (endAll_distinct hs jobs delete clock), unlocked?_endAll hs,
    unlock_eq_updateIf hs]
  -- the job that is let go waits before and is scheduled after, so it is not one of those that end
  have hfree : ∀ j ∈ s.jobs, decide (s.unlocked? l = some j.id) → isListed jobs j = false := by
    intro j hj hfound
    obtain ⟨i, hi, hwaits, -⟩ := unlocked?_spec hs (of_decide_eq_true hfound)
    rw [get?_of_mem hs hj] at hi
    cases hi
    exact not_isListed_of_ne_processing jobs (by rw [hwaits]; nofun)
  have hstill : ∀ j : Job, isListed jobs j.released = false := fun j =>
    not_isListed_of_ne_processing jobs nofun
  cases delete with
  | true =>
    apply updateIf_filter
    intro j hj hfound
    rw [hstill, hfree j hj hfound]
  | false =>
    apply updateIf_comm
    · exact fun _ => rfl
    · intro j hj hfound
      rw [hstill, hfree j hj hfound]
    · intro j hj hfound hlisted
      rw [hfree j hj hfound] at hlisted
      nomatch hlisted

theorem endAll_cons (hs : s.Distinct) {f : FinishedJob} {rest : List FinishedJob}
    (hk : s.owned? f.job = some k) :
    s.endAll (f :: rest) delete clock = (s.ended f.job delete clock).endAll rest delete clock := by
  have hids : ∀ j ∈ s.jobs, j.isOwnedBy f.job = decide (j.id = f.job.id) := by
    intro j hj
    rw [Bool.eq_iff_iff, decide_eq_true_eq, isOwnedBy_iff_eq hs hk hj]
    have hget := ((owned?_eq_some_iff hs).1 hk).1
    constructor
    · rintro rfl
      exact id_of_get? hget
    · exact fun hid => eq_of_get? hs hj (hid ▸ hget)
  cases delete with
  | true =>
    have hjobs : s.jobs.filter (!isListed (f :: rest) ·) =
        (s.jobs.filter (·.id ≠ f.job.id)).filter (!isListed rest ·) := by
      rw [List.filter_filter]
      apply List.filter_congr
      intro j hj
      rw [isListed_cons, hids j hj, Bool.not_or, Bool.and_comm, decide_not]
    show Store.mk (s.jobs.filter (!isListed (f :: rest) ·)) s.workers = _
    rw [hjobs]
    rfl
  | false =>
    have hjobs : (s.jobs.map fun j => if isListed (f :: rest) j then j.finish .completed clock
        else j) = (s.jobs.map fun j => if decide (j.id = f.job.id) then j.finish .completed clock
        else j).map fun j => if isListed rest j then j.finish .completed clock else j := by
      rw [List.map_map]
      apply List.map_congr_left
      intro j hj
      -- a job that has ended is under no claim
      have hended := not_isListed_of_ne_processing (j := j.finish .completed clock) rest nofun
      by_cases hid : j.id = f.job.id <;> simp [isListed_cons, hids j hj, hid, hended]
    show Store.mk (s.jobs.map fun j => if isListed (f :: rest) j then j.finish .completed clock
      else j) s.workers = _
    rw [hjobs]
    rfl

theorem endAll_of_free {f : FinishedJob} {rest : List FinishedJob}
    (h : s.owned? f.job = none) :
    s.endAll (f :: rest) delete clock = s.endAll rest delete clock := by
  have hsame : ∀ j ∈ s.jobs, isListed (f :: rest) j = isListed rest j := by
    intro j hj
    rw [isListed_cons, isOwnedBy_of_owned?_eq_none h hj, Bool.false_or]
  cases delete with
  | true =>
    have hjobs : s.jobs.filter (!isListed (f :: rest) ·) = s.jobs.filter (!isListed rest ·) :=
      List.filter_congr fun j hj => by rw [hsame j hj]
    show Store.mk (s.jobs.filter (!isListed (f :: rest) ·)) s.workers = _
    rw [hjobs]
    rfl
  | false => exact updateIf_congr hsame

theorem endAll_nil (s : Store) : s.endAll [] delete clock = s := by
  cases delete with
  | true =>
    show Store.mk (s.jobs.filter fun _ => true) s.workers = s
    rw [List.filter_true]
  | false => exact updateIf_eq_self _ _ fun _ _ => rfl

/-- Completing jobs one by one is ending all of them and then unlocking their successors. -/
theorem complete_eq_unlock (hs : s.Distinct) (jobs : List FinishedJob) :
    s.complete jobs delete clock =
      (s.unlocks delete clock jobs).foldl unlock (s.endAll jobs delete clock) := by
  induction jobs generalizing s with
  | nil => exact (endAll_nil s).symm
  | cons f rest ih =>
    show (s.completeOne f.job delete clock).complete rest delete clock = _
    rw [ih (completeOne_distinct hs f.job delete clock), unlocks, unlocks, found]
    cases howned : s.owned? f.job with
    | none =>
      rw [completeOne_of_free howned, endAll_of_free howned]
      rfl
    | some k =>
      -- the successor of the first job is let go before the others end, or else after
      have hended := ended_distinct hs f.job delete clock
      rw [completeOne_of_owned howned, endAll_unlock hended, ← endAll_cons hs howned]
      rfl

end JobQueue.Store
