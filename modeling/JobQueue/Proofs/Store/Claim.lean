import JobQueue.Proofs.Store.Life
import Mathlib.Algebra.Ring.Nat
import Mathlib.Data.List.Perm.Subperm

/-!
# A claim takes the oldest due jobs

The jobs that a claim takes are due, come in the order of their time and creation, and leave no
earlier one behind. What is due afterwards is what was due before without them. So claims made in
turn at one time take together what one claim with all their limits would.
-/

namespace JobQueue.Store

variable {s : Store} {now : Instant} {limit : Nat} {taken : List Job}

/-! ## 1. The oldest due jobs -/

/-- The jobs are the oldest ones that are due, up to the limit. Which come first of those with the
same time and creation is left open. -/
structure Oldest (s : Store) (now : Instant) (limit : Nat) (taken : List Job) : Prop where
  due : ∀ j ∈ taken, j ∈ s.jobs ∧ isDue now j
  distinct : (taken.map (·.id)).Nodup
  ordered : taken.Pairwise fun a b => a.isBefore b
  least : ∀ j ∈ s.jobs, isDue now j → j ∉ taken → ∀ k ∈ taken, k.isBefore j
  length_eq : taken.length = min limit (s.jobs.countP (isDue now))

theorem isBefore_total (a b : Job) : (a.isBefore b || b.isBefore a) = true := by
  rw [Bool.or_eq_true]
  by_cases h : a.isBefore b = true
  · exact Or.inl h
  · exact Or.inr (Job.isBefore_of_not h)

theorem oldest_dueJobs (hs : s.Distinct) (limit : Nat) (now : Instant) :
    Oldest s now limit (s.dueJobs limit now) := by
  have htrans : ∀ a b c : Job, a.isBefore b → b.isBefore c → a.isBefore c :=
    fun _ _ _ => Job.isBefore_trans
  have hsorted : ((s.jobs.filter (isDue now)).mergeSort Job.isBefore).Pairwise
      fun a b => a.isBefore b :=
    List.pairwise_mergeSort htrans isBefore_total _
  have hperm := List.mergeSort_perm (s.jobs.filter (isDue now)) Job.isBefore
  generalize hall : (s.jobs.filter (isDue now)).mergeSort Job.isBefore = all at hsorted hperm
  have htake : s.dueJobs limit now = all.take limit := by rw [dueJobs, hall]
  rw [htake]
  refine ⟨fun j hj => mem_dueJobs (htake ▸ hj), ?_, hsorted.sublist (List.take_sublist _ _), ?_, ?_⟩
  · have hids : (all.map (·.id)).Nodup := (hperm.map _).nodup_iff.2 (filter_distinct hs _)
    exact hids.sublist ((List.take_sublist _ _).map _)
  · -- what is not taken stands behind what is
    intro j hj hdue hleft k hk
    have hmem : j ∈ all := hperm.mem_iff.2 (List.mem_filter.2 ⟨hj, hdue⟩)
    rw [← List.take_append_drop limit all] at hmem hsorted
    have hbehind := (List.mem_append.1 hmem).resolve_left hleft
    exact (List.pairwise_append.1 hsorted).2.2 k hk j hbehind
  · rw [List.length_take, hperm.length_eq, ← List.countP_eq_length_filter]

/-- A limit that is large enough takes all that is due. -/
theorem Oldest.perm_of_le (h : Oldest s now limit taken)
    (hlimit : s.jobs.countP (isDue now) ≤ limit) : taken.Perm (s.jobs.filter (isDue now)) := by
  have hsub : taken ⊆ s.jobs.filter (isDue now) := fun j hj =>
    List.mem_filter.2 (h.due j hj)
  have hlength := h.length_eq
  rw [Nat.min_eq_right hlimit, List.countP_eq_length_filter] at hlength
  exact (List.subperm_of_subset h.distinct.of_map hsub).perm_of_length_le
    (Nat.le_of_eq hlength.symm)

/-- The oldest jobs, and the oldest of those that are due then, are the oldest of all. -/
theorem Oldest.append {s' : Store} {limit' : Nat} {taken' : List Job} (hs : s.Distinct)
    (h : Oldest s now limit taken) (h' : Oldest s' now limit' taken')
    (hperm : (s.jobs.filter (isDue now)).Perm (taken ++ s'.jobs.filter (isDue now))) :
    Oldest s now (limit + limit') (taken ++ taken') := by
  have hdue : ((s.jobs.filter (isDue now)).map (·.id)).Nodup := filter_distinct hs _
  have hids := (hperm.map (·.id)).nodup_iff.1 hdue
  rw [List.map_append, List.nodup_append] at hids
  have hmem : ∀ j, j ∈ s.jobs ∧ isDue now j ↔ j ∈ taken ∨ j ∈ s'.jobs ∧ isDue now j := by
    intro j
    rw [← List.mem_filter, hperm.mem_iff, List.mem_append, List.mem_filter]
  have hapart : ∀ j ∈ taken, ∀ k ∈ taken', j.id ≠ k.id := fun j hj k hk =>
    hids.2.2 _ (List.mem_map_of_mem hj) _ (List.mem_map_of_mem (List.mem_filter.2 (h'.due k hk)))
  refine ⟨?due, ?distinct, ?ordered, ?least, ?length⟩
  case due =>
    intro j hj
    rcases List.mem_append.1 hj with hj | hj
    · exact h.due j hj
    · exact (hmem j).2 (Or.inr (h'.due j hj))
  case distinct =>
    rw [List.map_append, List.nodup_append]
    refine ⟨h.distinct, h'.distinct, ?_⟩
    intro a ha b hb
    obtain ⟨j, hj, rfl⟩ := List.mem_map.1 ha
    obtain ⟨k, hk, rfl⟩ := List.mem_map.1 hb
    exact hapart j hj k hk
  case ordered =>
    -- what was left behind by the first is not before what they took
    rw [List.pairwise_append]
    refine ⟨h.ordered, h'.ordered, fun j hj k hk => ?_⟩
    obtain ⟨hin, hdue⟩ := (hmem k).2 (Or.inr (h'.due k hk))
    exact h.least k hin hdue (fun hk' => hapart k hk' k hk rfl) j hj
  case least =>
    intro j hj hdue hleft k hk
    rw [List.mem_append, not_or] at hleft
    rcases List.mem_append.1 hk with hk | hk
    · exact h.least j hj hdue hleft.1 k hk
    · obtain ⟨hj', hdue'⟩ := ((hmem j).1 ⟨hj, hdue⟩).resolve_left hleft.1
      exact h'.least j hj' hdue' hleft.2 k hk
  case length =>
    have hcount := hperm.length_eq
    rw [List.length_append, ← List.countP_eq_length_filter, ← List.countP_eq_length_filter]
      at hcount
    rw [List.length_append, h.length_eq, h'.length_eq]
    have hlength := h.length_eq
    omega

/-! ## 2. A claim -/

/-- Every due job has an attempt left that can be counted. -/
def Countable (s : Store) (now : Instant) : Prop :=
  ∀ j ∈ s.jobs, isDue now j → j.attempt ≠ attemptLimit

theorem Countable.claim_eq (h : s.Countable now) (owner : WorkerId) (limit : Nat) :
    s.claim owner limit now =
      (.ok ((s.dueJobs limit now).map fun j => (j.start owner now).claimed owner),
        s.updateIf (fun j => ((s.dueJobs limit now).map (·.id)).contains j.id)
          (·.start owner now)) :=
  Store.claim_eq (fun j hj => h j (mem_dueJobs hj).1 (mem_dueJobs hj).2) owner

/-- A claim starts the jobs that it takes, and leaves all others as they are. -/
theorem get?_claim (hs : s.Distinct) (h : s.Countable now) (owner : WorkerId) (limit : Nat)
    (id : JobId) :
    (s.claim owner limit now).2.get? id =
      if id ∈ (s.dueJobs limit now).map (·.id) then (s.get? id).map (·.start owner now)
      else s.get? id := by
  rcases claim_spec hs owner limit now with hcrash | ⟨claims, hok, -, hget⟩
  · rw [h.claim_eq] at hcrash
    cases hcrash
  · have hclaims : claims.map (·.id) = (s.dueJobs limit now).map (·.id) := by
      rw [h.claim_eq] at hok
      cases hok
      rw [List.map_map]
      rfl
    rw [hget, hclaims]

theorem claim_distinct (hs : s.Distinct) (owner : WorkerId) (limit : Nat) (now : Instant) :
    (s.claim owner limit now).2.Distinct :=
  answer_distinct hs now (.claim owner limit now)

theorem not_isDue_start (j : Job) (owner : WorkerId) (now now' : Instant) :
    ¬ isDue now' (j.start owner now) = true := by
  simp [isDue, Job.start]

/-- What was due is what the claim takes and what is due then. -/
theorem due_perm (hs : s.Distinct) (h : s.Countable now) (owner : WorkerId) (limit : Nat) :
    (s.jobs.filter (isDue now)).Perm
      (s.dueJobs limit now ++ (s.claim owner limit now).2.jobs.filter (isDue now)) := by
  have hs' := claim_distinct hs owner limit now
  have hold := oldest_dueJobs hs limit now
  have hget := get?_claim hs h owner limit
  have hafter : ∀ j, j ∈ (s.claim owner limit now).2.jobs ∧ isDue now j ↔
      j ∈ s.jobs ∧ isDue now j ∧ j ∉ s.dueJobs limit now := by
    intro j
    constructor
    · rintro ⟨hj, hdue⟩
      have hj := get?_of_mem hs' hj
      rw [hget] at hj
      split at hj
      · -- what the claim has started is not due any more
        obtain ⟨k, -, rfl⟩ := Option.map_eq_some_iff.1 hj
        exact absurd hdue (not_isDue_start k owner now now)
      · rename_i hfree
        exact ⟨mem_of_get? hj, hdue, fun hmem => hfree (List.mem_map_of_mem hmem)⟩
    · rintro ⟨hj, hdue, hfree⟩
      have hids : j.id ∉ (s.dueJobs limit now).map (·.id) := by
        intro hmem
        obtain ⟨k, hk, hid⟩ := List.mem_map.1 hmem
        have hsame := List.inj_on_of_nodup_map hs (hold.due k hk).1 hj hid
        exact hfree (hsame ▸ hk)
      have hkept : (s.claim owner limit now).2.get? j.id = some j := by
        rw [hget, if_neg hids, get?_of_mem hs hj]
      exact ⟨mem_of_get? hkept, hdue⟩
  rw [List.perm_ext_iff_of_nodup (filter_distinct hs _).of_map ?_]
  · intro j
    rw [List.mem_append, List.mem_filter, List.mem_filter, hafter]
    by_cases hj : j ∈ s.dueJobs limit now
    · simp [hj, hold.due j hj]
    · simp [hj]
  · rw [List.nodup_append]
    refine ⟨hold.distinct.of_map, (filter_distinct hs' _).of_map, ?_⟩
    rintro j hj _ hk rfl
    exact ((hafter j).1 (List.mem_filter.1 hk)).2.2 hj

/-! ## 3. Claims in turn -/

/-- Claims made in turn at one time, and what each is answered. -/
def claimEach (now : Instant) : List (WorkerId × Nat) → Store →
    List (Except (Stop BackendError) (List ClaimedJob)) × Store
  | [], s => ([], s)
  | (owner, limit) :: rest, s =>
    let (answer, s) := s.claim owner limit now
    let (answers, s) := claimEach now rest s
    (answer :: answers, s)

theorem Countable.claim (hs : s.Distinct) (h : s.Countable now) (owner : WorkerId) (limit : Nat) :
    (s.claim owner limit now).2.Countable now := by
  intro j hj hdue
  have hmem := (due_perm hs h owner limit).mem_iff.2
    (List.mem_append_right _ (List.mem_filter.2 ⟨hj, hdue⟩))
  obtain ⟨hj, hdue⟩ := List.mem_filter.1 hmem
  exact h j hj hdue

/-- Claims made in turn take together what one claim with all their limits would. -/
theorem claimEach_oldest (hs : s.Distinct) (h : s.Countable now) (calls : List (WorkerId × Nat)) :
    ∃ (taken : List Job) (handed : List (List ClaimedJob)),
      Oldest s now (calls.map (·.2)).sum taken ∧ (s.claimEach now calls).1 = handed.map .ok ∧
      handed.flatten.map (·.id) = taken.map (·.id) := by
  induction calls generalizing s with
  | nil => exact ⟨[], [], ⟨by simp, by simp, by simp, by simp, by simp⟩, rfl, rfl⟩
  | cons call rest ih =>
    obtain ⟨owner, limit⟩ := call
    obtain ⟨taken, handed, htaken, hanswers, hids⟩ :=
      ih (claim_distinct hs owner limit now) (h.claim hs owner limit)
    refine ⟨s.dueJobs limit now ++ taken,
      (s.dueJobs limit now).map (fun j => (j.start owner now).claimed owner) :: handed,
      (oldest_dueJobs hs limit now).append hs htaken (due_perm hs h owner limit), ?_, ?_⟩
    · show (s.claim owner limit now).1 ::
        (claimEach now rest (s.claim owner limit now).2).1 = _
      rw [hanswers, h.claim_eq]
      rfl
    · rw [List.flatten_cons, List.map_append, List.map_append, hids, List.map_map]
      rfl

/-- **A claim takes exactly the oldest due jobs.** It returns as many as the limit allows, in the
order of their time and creation, and leaves no earlier one behind. What it returns is what is
stored then: the job under the claim, started at the time of the claim, with one more attempt.
Nothing else changes. So claims made in turn at one time hand out the due jobs in that order, none
of them twice, and all of them once their limits are large enough together. -/
theorem claim_takes_oldest (hs : s.Distinct) (hroom : ∀ j ∈ s.jobs, j.attempt.toNat < 65535)
    (now : Instant) :
    (∀ owner limit, ∃ (taken : List Job) (claims : List ClaimedJob),
      Oldest s now limit taken ∧ (s.claim owner limit now).1 = .ok claims ∧
      claims.map (·.id) = taken.map (·.id) ∧
      (∀ c ∈ claims, ∃ j ∈ taken, ∃ k, s.get? c.id = some j ∧
        (s.claim owner limit now).2.get? c.id = some k ∧ c = k.claimed owner ∧
        k = { j with
          status := .processing
          owner := some owner
          lastStartedAt := some now
          attempt := k.attempt } ∧
        k.attempt.toNat = j.attempt.toNat + 1) ∧
      (∀ id, id ∉ taken.map (·.id) → (s.claim owner limit now).2.get? id = s.get? id) ∧
      (s.claim owner limit now).2.workers = s.workers) ∧
    ∀ calls : List (WorkerId × Nat), ∃ (taken : List Job) (handed : List (List ClaimedJob)),
      Oldest s now (calls.map (·.2)).sum taken ∧ (s.claimEach now calls).1 = handed.map .ok ∧
      handed.flatten.map (·.id) = taken.map (·.id) ∧
      (s.jobs.countP (isDue now) ≤ (calls.map (·.2)).sum →
        taken.Perm (s.jobs.filter (isDue now))) := by
  have hcount : s.Countable now := fun j hj _ hfull => by
    have hlt := hroom j hj
    rw [hfull] at hlt
    exact absurd hlt (by decide)
  refine ⟨fun owner limit => ?_, fun calls => ?_⟩
  · have hold := oldest_dueJobs hs limit now
    refine ⟨_, _, hold, congrArg Prod.fst (hcount.claim_eq owner limit), by rw [List.map_map]; rfl,
      ?_, ?_, by rw [hcount.claim_eq]; rfl⟩
    · intro c hc
      obtain ⟨j, hj, rfl⟩ := List.mem_map.1 hc
      have hmem := (hold.due j hj).1
      refine ⟨j, hj, j.start owner now, get?_of_mem hs hmem, ?_, rfl, rfl,
        attempt_start owner now (hroom j hmem)⟩
      show (s.claim owner limit now).2.get? j.id = _
      rw [get?_claim hs hcount, if_pos (List.mem_map_of_mem hj), get?_of_mem hs hmem]
      rfl
    · intro id hid
      rw [get?_claim hs hcount, if_neg hid]
  · obtain ⟨taken, handed, hold, hanswers, hids⟩ := claimEach_oldest hs hcount calls
    exact ⟨taken, handed, hold, hanswers, hids, hold.perm_of_le⟩

/-- Of three jobs that are due, the first was asked for last, and the second was created after the
third; a fourth one waits. Two workers get the three in order. -/
theorem claim_takes_oldest_two_workers :
    let later : Instant := ⟨1, by decide, by decide⟩
    let job (n : Nat) (due created : Instant) : Job :=
      { (NewJob.plain n).toJob created with scheduledAt := due }
    let a := job 1 later .epoch
    let b := job 2 .epoch later
    let c := job 3 .epoch .epoch
    let s : Store := { jobs := [a, b, c, { job 4 .epoch .epoch with status := .waitingPrev }] }
    s.Distinct ∧ (∀ j ∈ s.jobs, j.attempt.toNat < 65535) ∧
      ∃ handed : List (List ClaimedJob),
        (s.claimEach later [(⟨.ofNat 8⟩, 1), (⟨.ofNat 9⟩, 5)]).1 = handed.map .ok ∧
        handed.flatten.map (·.id) = [c.id, b.id, a.id] := by
  intro later job a b c s
  have hs : s.Distinct := by unfold Distinct; decide
  have hroom : ∀ j ∈ s.jobs, j.attempt.toNat < 65535 := by decide
  obtain ⟨taken, handed, hold, hanswers, hids, hall⟩ :=
    (claim_takes_oldest hs hroom later).2 [(⟨.ofNat 8⟩, 1), (⟨.ofNat 9⟩, 5)]
  have hperm : taken.Perm [c, b, a] := (hall (by decide)).trans (by decide)
  have horder : taken = [c, b, a] := by
    have hstrict : ∀ i ∈ [c, b, a], ∀ j ∈ [c, b, a],
        i.isBefore j = true → j.isBefore i = true → i = j := by decide
    exact hperm.eq_of_pairwise (fun i j hi hj => hstrict i (hperm.mem_iff.1 hi) j hj) hold.ordered
      (by decide)
  exact ⟨hs, hroom, handed, hanswers, by rw [hids, horder]; rfl⟩

end JobQueue.Store
