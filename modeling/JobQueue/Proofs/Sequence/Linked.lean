import JobQueue.Job.Sequence
import JobQueue.Proofs.Draft
import JobQueue.Proofs.Store.Life

/-!
# The links of a sequence

What the builder makes of the jobs of a sequence, and how they stand in the store once they are
enqueued: all but the first wait, each names what its end lets go, and in a group the schedules
follow the order of the members.
-/

namespace JobQueue

theorem Instant.nanos_max (a b : Instant) : (max a b).nanos = max a.nanos b.nanos := by
  show (if a.nanos ≤ b.nanos then b else a).nanos = _
  split <;> omega

namespace SequenceKind

variable {kind : SequenceKind} {jobs linked : List NewJob}

/-- What a member names, given the member after it. -/
def successorOf (kind : SequenceKind) (next : Option JobId) : Successor :=
  match kind, next with
  | .group g, _ => .sequence g
  | .chain, some id => .next id
  | .chain, none => .none

/-- The jobs as the builder leaves them. -/
structure Linked (kind : SequenceKind) (jobs : List NewJob) : Prop where
  once : ∀ job ∈ jobs, job.cron = none
  first : ∀ h : 0 < jobs.length, jobs[0].waits = false
  waits : ∀ i (h : i + 1 < jobs.length), jobs[i + 1].waits = true
  successor : ∀ i (h : i < jobs.length),
    jobs[i].successor = kind.successorOf (jobs[i + 1]?.map (·.id))
  increasing : ∀ g, kind = .group g → jobs.Pairwise (·.scheduledAt < ·.scheduledAt)

/-- A job that is not part of a sequence yet. -/
def Unlinked (job : NewJob) : Prop := job.cron = none ∧ job.waits = false ∧ job.successor = .none

/-! ## 1. Holding back -/

theorem holdBack_ids (jobs : List NewJob) : (holdBack jobs).map (·.id) = jobs.map (·.id) := by
  cases jobs with
  | nil => rfl
  | cons job rest =>
    rw [holdBack, List.map_cons, List.map_cons, List.map_map]
    rfl

theorem holdBack_length (jobs : List NewJob) : (holdBack jobs).length = jobs.length := by
  have hids := congrArg List.length (holdBack_ids jobs)
  rwa [List.length_map, List.length_map] at hids

/-- What the members name and when they are due is settled before all but the first are held
back. -/
theorem linked_holdBack (honce : ∀ job ∈ jobs, job.cron = none)
    (hfirst : ∀ h : 0 < jobs.length, jobs[0].waits = false)
    (hsuccessor : ∀ i (h : i < jobs.length),
      jobs[i].successor = kind.successorOf (jobs[i + 1]?.map (·.id)))
    (hincreasing : ∀ g, kind = .group g → jobs.Pairwise (·.scheduledAt < ·.scheduledAt)) :
    kind.Linked (holdBack jobs) := by
  cases jobs with
  | nil => constructor <;> simp [holdBack]
  | cons job rest =>
    refine ⟨?_, fun _ => hfirst (Nat.zero_lt_succ _), ?_, ?_, ?_⟩
    · intro j hj
      rcases List.mem_cons.1 hj with rfl | hj
      · exact honce j List.mem_cons_self
      · obtain ⟨k, hk, rfl⟩ := List.mem_map.1 hj
        exact honce k (List.mem_cons_of_mem _ hk)
    · intro i h
      simp only [holdBack, List.getElem_cons_succ, List.getElem_map]
    · intro i h
      have hlength := holdBack_length (job :: rest)
      have hnext : ((holdBack (job :: rest))[i + 1]?).map (·.id) =
          ((job :: rest)[i + 1]?).map (·.id) := by
        rw [← List.getElem?_map, ← List.getElem?_map, holdBack_ids]
      rw [hnext, ← hsuccessor i (by omega)]
      cases i with
      | zero => rfl
      | succ i => simp only [holdBack, List.getElem_cons_succ, List.getElem_map]
    · intro g hg
      have hpairwise := hincreasing g hg
      rw [List.pairwise_cons] at hpairwise
      rw [holdBack, List.pairwise_cons, List.pairwise_map]
      refine ⟨?_, hpairwise.2⟩
      intro j hj
      obtain ⟨k, hk, rfl⟩ := List.mem_map.1 hj
      exact hpairwise.1 k hk

/-! ## 2. Chains -/

theorem linkChain_ids (jobs : List NewJob) : (linkChain jobs).map (·.id) = jobs.map (·.id) := by
  fun_induction linkChain jobs with
  | case1 => rfl
  | case2 => rfl
  | case3 job next rest ih => rw [List.map_cons, ih, List.map_cons (l := next :: rest)]

theorem mem_linkChain {job : NewJob} (h : job ∈ linkChain jobs) :
    ∃ j ∈ jobs, job.cron = j.cron ∧ job.waits = j.waits := by
  fun_induction linkChain jobs with
  | case1 => cases h
  | case2 j => exact ⟨job, h, rfl, rfl⟩
  | case3 j next rest ih =>
    rcases List.mem_cons.1 h with rfl | h
    · exact ⟨j, List.mem_cons_self, rfl, rfl⟩
    · obtain ⟨k, hk, hsame⟩ := ih h
      exact ⟨k, List.mem_cons_of_mem _ hk, hsame⟩

theorem linkChain_successor (hjobs : ∀ job ∈ jobs, Unlinked job) (i : Nat)
    (h : i < (linkChain jobs).length) :
    (linkChain jobs)[i].successor =
      SequenceKind.chain.successorOf ((linkChain jobs)[i + 1]?.map (·.id)) := by
  -- linking changes no id, so the next id is that of the next job to be linked
  rw [← List.getElem?_map, linkChain_ids, List.getElem?_map]
  fun_induction linkChain jobs generalizing i with
  | case1 => cases h
  | case2 job =>
    have hi : i = 0 := Nat.lt_one_iff.1 h
    subst hi
    exact (hjobs job List.mem_cons_self).2.2
  | case3 job next rest ih =>
    cases i with
    | zero => rfl
    | succ i =>
      have hrest : ∀ j ∈ next :: rest, Unlinked j :=
        fun j hj => hjobs j (List.mem_cons_of_mem _ hj)
      simpa only [List.getElem_cons_succ, List.getElem?_cons_succ] using
        ih hrest i (Nat.lt_of_succ_lt_succ h)

theorem chain_linked (hjobs : ∀ job ∈ jobs, Unlinked job) :
    SequenceKind.chain.Linked (holdBack (linkChain jobs)) := by
  refine linked_holdBack ?_ ?_ (linkChain_successor hjobs) nofun
  · intro job hjob
    obtain ⟨j, hj, hcron, -⟩ := mem_linkChain hjob
    rw [hcron]
    exact (hjobs j hj).1
  · intro h
    obtain ⟨j, hj, -, hwaits⟩ := mem_linkChain (List.getElem_mem h)
    rw [hwaits]
    exact (hjobs j hj).2.1

/-! ## 3. Groups -/

theorem spread_cons {g : SequenceId} {previous : Instant} {job : NewJob} {rest : List NewJob}
    (h : spread g previous (job :: rest) = .ok linked) :
    ∃ earliest members, previous.add? spacing = some earliest ∧
      spread g (max job.scheduledAt earliest) rest = .ok members ∧
      linked = { job with
        successor := .sequence g
        scheduledAt := max job.scheduledAt earliest } :: members := by
  rw [spread] at h
  cases hadd : previous.add? spacing with
  | none =>
    rw [hadd] at h
    cases h
  | some earliest =>
    simp only [hadd] at h
    obtain ⟨members, hrest, hlinked⟩ := bind_eq_ok_iff.1 h
    cases hlinked
    exact ⟨earliest, members, rfl, hrest, rfl⟩

theorem spread_increasing {g : SequenceId} {previous : Instant}
    (h : spread g previous jobs = .ok linked) :
    (∀ job ∈ linked, previous < job.scheduledAt) ∧
      linked.Pairwise (·.scheduledAt < ·.scheduledAt) := by
  induction jobs generalizing previous linked with
  | nil =>
    cases h
    exact ⟨List.forall_mem_nil _, List.Pairwise.nil⟩
  | cons job rest ih =>
    obtain ⟨earliest, members, hadd, hrest, rfl⟩ := spread_cons h
    obtain ⟨hlater, hpairwise⟩ := ih hrest
    -- a schedule is at least one step after the one before it
    have hearliest : earliest.nanos = previous.nanos + 1000000 :=
      Instant.ofNanos?_eq_some_iff.1 hadd
    have hmax := Instant.nanos_max job.scheduledAt earliest
    have hfirst : previous.nanos < (max job.scheduledAt earliest).nanos := by omega
    refine ⟨?_, List.pairwise_cons.2 ⟨hlater, hpairwise⟩⟩
    intro j hj
    rcases List.mem_cons.1 hj with rfl | hj
    · exact hfirst
    · exact Int.lt_trans hfirst (hlater j hj)

theorem mem_spread {g : SequenceId} {previous : Instant}
    (h : spread g previous jobs = .ok linked) {job : NewJob} (hjob : job ∈ linked) :
    job.successor = .sequence g ∧ ∃ j ∈ jobs, job.cron = j.cron ∧ job.waits = j.waits := by
  induction jobs generalizing previous linked with
  | nil =>
    cases h
    cases hjob
  | cons first rest ih =>
    obtain ⟨earliest, members, -, hrest, rfl⟩ := spread_cons h
    rcases List.mem_cons.1 hjob with rfl | hjob
    · exact ⟨rfl, first, List.mem_cons_self, rfl, rfl⟩
    · obtain ⟨hsuccessor, k, hk, hsame⟩ := ih hrest hjob
      exact ⟨hsuccessor, k, List.mem_cons_of_mem _ hk, hsame⟩

theorem group_linked {g : SequenceId} (hjobs : ∀ job ∈ jobs, Unlinked job)
    (h : linkGroup g jobs = .ok linked) : (SequenceKind.group g).Linked (holdBack linked) := by
  cases jobs with
  | nil =>
    cases h
    exact linked_holdBack (List.forall_mem_nil _) (fun h => absurd h (Nat.lt_irrefl 0))
      (fun i h => absurd h (Nat.not_lt_zero i)) fun _ _ => List.Pairwise.nil
  | cons first rest =>
    obtain ⟨members, hrest, hlinked⟩ := bind_eq_ok_iff.1 h
    cases hlinked
    refine linked_holdBack ?_ ?_ ?_ ?_
    · intro job hjob
      rcases List.mem_cons.1 hjob with rfl | hjob
      · exact (hjobs first List.mem_cons_self).1
      · obtain ⟨-, k, hk, hcron, -⟩ := mem_spread hrest hjob
        rw [hcron]
        exact (hjobs k (List.mem_cons_of_mem _ hk)).1
    · intro _
      exact (hjobs first List.mem_cons_self).2.1
    · intro i hi
      rcases List.mem_cons.1 (List.getElem_mem hi) with hmem | hmem
      · rw [hmem]
        rfl
      · exact (mem_spread hrest hmem).1
    · intro _ _
      obtain ⟨hlater, hpairwise⟩ := spread_increasing hrest
      exact List.pairwise_cons.2 ⟨hlater, hpairwise⟩

/-! ## 4. The builder -/

theorem drafts_build {drafts : List Draft} {clock : Instant}
    (h : drafts.mapM (·.build clock) = .ok jobs) :
    ∀ job ∈ jobs, ∃ d ∈ drafts, d.build clock = .ok job := by
  intro job hjob
  have hall := mapM_eq_ok_iff.1 h
  obtain ⟨i, hi, rfl⟩ := List.mem_iff_getElem.1 hjob
  have hi' : i < drafts.length := hall.length_eq ▸ hi
  exact ⟨drafts[i], List.getElem_mem hi', hall.get hi' hi⟩

theorem build_linked {drafts : List Draft} {clock : Instant}
    (h : kind.build drafts clock = .ok linked) : kind.Linked linked := by
  obtain ⟨jobs, hjobs, h⟩ := bind_eq_ok_iff.1 h
  unfold link at h
  by_cases hrecurrent : jobs.any (·.cron.isSome) = true
  · rw [if_pos hrecurrent] at h
    cases h
  · rw [if_neg hrecurrent] at h
    have hunlinked : ∀ job ∈ jobs, Unlinked job := by
      intro job hjob
      obtain ⟨d, -, hbuilt⟩ := drafts_build hjobs job hjob
      refine ⟨?_, Draft.unlinked_of_build hbuilt⟩
      by_contra hcron
      exact hrecurrent (List.any_eq_true.2 ⟨job, hjob, Option.isSome_iff_ne_none.2 hcron⟩)
    cases kind with
    | chain =>
      cases h
      exact chain_linked hunlinked
    | group g =>
      -- what can still fail is the spreading, at the end of the calendar
      cases hlink : linkGroup g jobs with
      | error e =>
        simp only [hlink] at h
        cases h
      | ok members =>
        simp only [hlink] at h
        cases h
        exact group_linked hunlinked hlink

end SequenceKind

/-! ## 5. Enqueuing -/

namespace Store

variable {s : Store} {clock : Instant}

/-- Jobs that are all inserted have ids of their own, are in the store as they were inserted, and
leave all others as they were. -/
theorem insertEach_ok {jobs : List NewJob} {ids : List JobId}
    (h : (s.insertEach clock jobs).1 = .ok ids) :
    ids = jobs.map (·.id) ∧ ids.Nodup ∧ (∀ id ∈ ids, s.get? id = none) ∧
      (∀ job ∈ jobs, (s.insertEach clock jobs).2.get? job.id = some (job.toJob clock)) ∧
      ∀ id, id ∉ ids → (s.insertEach clock jobs).2.get? id = s.get? id := by
  induction jobs generalizing s ids with
  | nil =>
    cases h
    exact ⟨rfl, List.nodup_nil, List.forall_mem_nil _, List.forall_mem_nil _, fun _ _ => rfl⟩
  | cons new rest ih =>
    rw [insertEach] at h ⊢
    cases hinsert : s.insert new clock with
    | error e =>
      rw [hinsert] at h
      cases h
    | ok s' =>
      rw [hinsert] at h
      obtain ⟨members, hrest, rfl⟩ : ∃ members, (s'.insertEach clock rest).1 = .ok members ∧
          ids = new.id :: members := by
        cases hrest : (s'.insertEach clock rest).1 with
        | error e =>
          simp only [hrest] at h
          cases h
        | ok members =>
          simp only [hrest] at h
          cases h
          exact ⟨members, rfl, rfl⟩
      obtain ⟨hids, hnodup, hfresh, hmembers, hothers⟩ := ih hrest
      have hget := get?_insert hinsert
      -- the first id is in the store by now, so no later job can have it
      have hnew : new.id ∉ members := by
        intro hmem
        have hnone := hfresh _ hmem
        rw [hget, if_pos rfl] at hnone
        cases hnone
      refine ⟨by rw [hids, List.map_cons], List.nodup_cons.2 ⟨hnew, hnodup⟩, ?_, ?_, ?_⟩
      · intro id hid
        rcases List.mem_cons.1 hid with rfl | hid
        · exact (insert_eq_ok_iff.1 hinsert).1
        · have hnone := hfresh id hid
          rw [hget, if_neg (by rintro rfl; exact hnew hid)] at hnone
          exact hnone
      · intro job hjob
        rcases List.mem_cons.1 hjob with rfl | hjob
        · exact (hothers _ hnew).trans (by rw [hget, if_pos rfl])
        · exact hmembers job hjob
      · intro id hid
        rw [List.mem_cons, not_or] at hid
        exact (hothers id hid.2).trans (by rw [hget, if_neg hid.1])

theorem insertMany_of_ok {jobs : List NewJob} {ids : List JobId}
    (h : (s.insertMany jobs clock).1 = .ok ids) :
    s.insertMany jobs clock = s.insertEach clock jobs := by
  unfold insertMany at h ⊢
  split at h
  · cases h
  · rfl

end Store

namespace SequenceKind

/-- A sequence that is enqueued stands in the store as it was linked, beside what was there. -/
theorem enqueue_spec {kind : SequenceKind} {drafts : List Draft} {clock : Instant} {s s' : Store}
    {ids : List JobId} (hs : s.Distinct)
    (h : kind.enqueue drafts Store.backend clock s = (.ok ids, s')) :
    s'.Distinct ∧ ids.Nodup ∧ (∀ id, id ∉ ids → s'.get? id = s.get? id) ∧
      ∃ jobs, kind.Linked jobs ∧ ids = jobs.map (·.id) ∧
        ∀ job ∈ jobs, s'.get? job.id = some (job.toJob clock) := by
  unfold enqueue at h
  cases hbuild : kind.build drafts clock with
  | error e =>
    rw [hbuild] at h
    cases h
  | ok jobs =>
    have hlinked := build_linked hbuild
    cases jobs with
    | nil =>
      rw [hbuild] at h
      cases h
      exact ⟨hs, List.nodup_nil, fun _ _ => rfl, [], hlinked, rfl, List.forall_mem_nil _⟩
    | cons first rest =>
      simp only [hbuild] at h
      have hids : (s.insertMany (first :: rest) clock).1 = .ok ids := by
        have hresult := congrArg Prod.fst h
        change (Answer.ofExcept (s.insertMany (first :: rest) clock).1).mapError Stop.ofBackend =
          .ok ids at hresult
        cases hr : (s.insertMany (first :: rest) clock).1 with
        | error e =>
          rw [hr] at hresult
          cases hresult
        | ok members =>
          rw [hr] at hresult
          cases hresult
          rfl
      have hstore : (s.insertMany (first :: rest) clock).2 = s' := congrArg Prod.snd h
      -- insertion as a whole succeeded, so it inserted one job after the other
      have heach := Store.insertMany_of_ok hids
      rw [heach] at hids hstore
      subst hstore
      obtain ⟨hsame, hnodup, -, hmembers, hothers⟩ := Store.insertEach_ok hids
      exact ⟨Store.insertEach_distinct hs clock _, hnodup, hothers, _, hlinked, hsame, hmembers⟩

end SequenceKind

end JobQueue
