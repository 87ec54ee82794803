import JobQueue.Proofs.Sequence.Waiting
import Mathlib.Data.Nat.Find

/-!
# Sequences that are stranded

A sequence whose next member is cancelled goes on no more: what waits behind it waits for good.
`Passed` says what lies behind a member that has been let go, if only members name members. Together
with what lies before a member that waits it tells exactly when a sequence is stranded.
-/

namespace JobQueue.Store

variable {s : Store} {kind : SequenceKind} {ids : List JobId} {clock : Instant} {c : Call}
  {gone : Nat → JobStatus → Prop} {i : Nat} {j x : Job} {calls : List (Instant × Call)}

/-- The member at a position does not wait, and did not when it was cancelled. -/
structure LetGo (gone : Nat → JobStatus → Prop) (s : Store) (ids : List JobId) (i : Nat) : Prop where
  lt : i < ids.length
  stored : ∀ j, s.member? ids i = some j → j.status ≠ .waitingPrev
  cancelled : ¬ gone i .waitingPrev

/-- What is known if only members name members: those before a member that has been let go are
completed, or are gone without ending the sequence. -/
structure Passed (kind : SequenceKind) (ids : List JobId) (gone : Nat → JobStatus → Prop)
    (s : Store) : Prop where
  others : ∀ id j, id ∉ ids → s.get? id = some j → ¬ kind.Reaches ids j.successor
  absent : ∀ i status, gone i status → s.member? ids i = none
  once : ∀ i status status', gone i status → gone i status' → status = status'
  passed : ∀ i, LetGo gone s ids i → ∀ q < i,
    (∀ j, s.member? ids q = some j → j.status = .completed) ∧
      ∀ status, gone q status → kind.endsWith status = false

theorem LetGo.of_member (h : Passed kind ids gone s) (hj : s.member? ids i = some j)
    (hgo : j.status ≠ .waitingPrev) : LetGo gone s ids i := by
  refine ⟨(List.getElem?_eq_some_iff.1 (member?_eq_some_iff.1 hj).1).1, ?_, ?_⟩
  · intro k hk
    rw [hj] at hk
    cases hk
    exact hgo
  · intro hgone
    rw [h.absent i _ hgone] at hj
    cases hj

/-! ## 1. Calls that complete nothing -/

theorem Cancels.removes (h : s.Cancels c ids i j.status) (hs : s.Distinct) (clock : Instant) :
    (Store.answer clock c s).2.member? ids i = none := by
  obtain ⟨k, hk, hmem, hstatus, hidle⟩ := h
  obtain ⟨hid, hget⟩ := member?_eq_some_iff.1 hk
  cases c with
  | cancel jobs =>
    have hlisted : k.id ∈ jobs := hmem
    rw [member?, hid, Option.bind_some]
    show get? { s with jobs := s.jobs.filter (!(fun j : Job =>
      jobs.contains j.id && j.status.isNotStarted) ·) } k.id = none
    rw [get?_filter hs, hget]
    simp [Option.filter, hlisted, hstatus, hidle]
  | _ => cases hmem

theorem Passed.stays (h : Passed kind ids gone s) (hb : Backed kind ids gone s) (hs : s.Distinct)
    (hc : c.Follows kind ids) (hcall : ∀ jobs delete, c ≠ .complete jobs delete)
    (hapart : ∀ new ∈ c.newJobs, ¬ kind.Reaches ids new.successor) (clock : Instant) :
    Passed kind ids (fun i status => gone i status ∨ s.Cancels c ids i status)
      (Store.answer clock c s).2 := by
  have hmoved := hb.moved hs hc hcall clock
  refine ⟨?_, ?_, ?_, ?_⟩
  · intro id j' hid hj'
    rcases successor_of_change (answer_change hs clock c id) hj' with
      ⟨j, hj, hsame⟩ | ⟨new, hnew, hsame⟩
    · rw [hsame]
      exact h.others id j hid hj
    · rw [hsame]
      exact hapart new hnew
  · rintro i status (hgone | hcancels)
    · have hstep := hmoved i
      rw [h.absent i status hgone] at hstep
      generalize (Store.answer clock c s).2.member? ids i = o at hstep ⊢
      cases hstep with
      | kept => rfl
    · obtain ⟨j, -, -, rfl, -⟩ := id hcancels
      exact hcancels.removes hs clock
  · -- a member that is gone is not there to be cancelled
    rintro i status status' (hgone | ⟨j, hj, -, hstatus, -⟩) (hgone' | ⟨j', hj', -, hstatus', -⟩)
    · exact h.once i status status' hgone hgone'
    · rw [h.absent i status hgone] at hj'
      cases hj'
    · rw [h.absent i status' hgone'] at hj
      cases hj
    · rw [hj] at hj'
      cases hj'
      exact hstatus.symm.trans hstatus'
  · intro i hgo q hq
    -- nothing is let go by the call, so the member had been let go before it
    have hbefore : LetGo gone s ids i := by
      refine ⟨hgo.lt, ?_, fun hgone => hgo.cancelled (Or.inl hgone)⟩
      intro j hj hwaits
      have hstep := hmoved i
      rw [hj] at hstep
      generalize ho : (Store.answer clock c s).2.member? ids i = o at hstep
      cases hstep with
      | kept => exact hgo.stored j ho hwaits
      | ran hrun _ =>
        rw [hwaits] at hrun
        cases hrun
      | cancelled hcancels => exact hgo.cancelled (Or.inr (hwaits ▸ hcancels))
    obtain ⟨hdone, hends⟩ := h.passed i hbefore q hq
    refine ⟨?_, ?_⟩
    · intro j' hj'
      have hstep := hmoved q
      rw [hj'] at hstep
      generalize s.member? ids q = o at hdone hstep
      cases hstep with
      | kept => exact hdone j' rfl
      | ran hrun _ =>
        rw [hdone _ rfl] at hrun
        cases hrun
    · rintro status (hgone | ⟨j, hj, -, rfl, hidle⟩)
      · exact hends status hgone
      · rw [hdone j hj] at hidle
        cases hidle

/-! ## 2. Completions -/

section Held

variable {f : FinishedJob} {delete : Bool} (hs : s.Distinct) (hx : s.get? f.job.id = some x)
  (howned : x.isOwnedBy f.job)

include hs

theorem waits_of_unlocked {l : Successor} {id : JobId}
    (hunlocked : (s.ended f.job delete clock).unlocked? l = some id) :
    ∃ y, s.get? id = some y ∧ y.status = .waitingPrev ∧ l.Names y := by
  obtain ⟨y, hy, hwaits, hnames⟩ :=
    unlocked?_spec (ended_distinct hs f.job delete clock) hunlocked
  obtain ⟨-, hget⟩ := waits_of_ended hs (mem_of_get? hy) hwaits
  exact ⟨y, id_of_get? hy ▸ hget, hwaits, hnames⟩

include hx howned

/-- A member that is completed or absent stays so. -/
theorem done_of_done {q : Nat} (hdone : ∀ j, s.member? ids q = some j → j.status = .completed)
    {j : Job} (hj : (s.completeOne f.job delete clock).member? ids q = some j) :
    j.status = .completed := by
  rw [member?_completeOne hs hx howned] at hj
  split at hj
  · split at hj <;> cases hj
    rfl
  · obtain ⟨k, hk, rfl⟩ := Option.map_eq_some_iff.1 hj
    split
    · rename_i hunlocked
      obtain ⟨y, hy, hwaits, -⟩ := waits_of_unlocked hs hunlocked
      rw [(member?_eq_some_iff.1 hk).2] at hy
      cases hy
      rw [hdone k hk] at hwaits
      cases hwaits
    · exact hdone k hk

/-- A member that waits and does not after the end of a job has been let go by it. -/
theorem unlocked_of_letGo (hj : s.member? ids i = some j) (hwaits : j.status = .waitingPrev)
    (hgo : LetGo gone (s.completeOne f.job delete clock) ids i) :
    (s.ended f.job delete clock).unlocked? x.successor = some j.id := by
  by_contra hlocked
  obtain ⟨hid, hget⟩ := member?_eq_some_iff.1 hj
  have hother : ids[i]? ≠ some f.job.id := by
    rw [hid]
    exact fun heq => id_ne_of_waits hx howned hget hwaits (Option.some.inj heq)
  refine hgo.stored j ?_ hwaits
  rw [member?_completeOne hs hx howned, if_neg hother, hj, Option.map_some, if_neg hlocked]

end Held

section Behind

variable {k q : Nat} {f : FinishedJob} {delete : Bool}

/-- In a chain the member that is let go is the next one. -/
theorem Backed.next_of_unlocked (hb : Backed .chain ids gone s) (hs : s.Distinct)
    (hids : ids.Nodup) (hk : s.member? ids k = some x) (hj : s.member? ids i = some j)
    (hunlocked : (s.ended f.job delete clock).unlocked? x.successor = some j.id) : i = k + 1 := by
  obtain ⟨hid, hget⟩ := member?_eq_some_iff.1 hj
  obtain ⟨y, hy, -, hnames⟩ := waits_of_unlocked hs hunlocked
  rw [hget] at hy
  cases hy
  rw [(hb.linked k x hk).1] at hnames
  cases hafter : ids[k + 1]? with
  | none =>
    rw [hafter] at hnames
    exact hnames.elim
  | some id =>
    rw [hafter] at hnames
    have hsame : j.id = id := hnames
    exact position_eq hids hid (hsame ▸ hafter)

/-- In a group the member that is let go is the first of those that wait. -/
theorem Backed.first_of_unlocked {g : SequenceId} (hb : Backed (.group g) ids gone s)
    (hs : s.Distinct) (hids : ids.Nodup) (hk : s.member? ids k = some x)
    (howned : x.isOwnedBy f.job) (hj : s.member? ids i = some j)
    (hunlocked : (s.ended f.job delete clock).unlocked? x.successor = some j.id) (hq : q < i)
    (hother : q ≠ k) {z : Job} (hz : s.member? ids q = some z) : z.status ≠ .waitingPrev := by
  intro hzwaits
  rw [(hb.linked k x hk).1] at hunlocked
  obtain ⟨y, hfirst, hyid⟩ := Option.map_eq_some_iff.1 hunlocked
  obtain ⟨hy, hwaits, -, hyfirst⟩ := firstWaiting?_spec hfirst
  obtain ⟨-, hyget⟩ := waits_of_ended hs hy hwaits
  rw [hyid, (member?_eq_some_iff.1 hj).2] at hyget
  cases hyget
  obtain ⟨hzid, hzget⟩ := member?_eq_some_iff.1 hz
  have hne : z.id ≠ f.job.id := by
    intro heq
    rw [heq, ← (Job.isOwnedBy_iff.1 howned).1] at hzid
    exact hother (position_eq hids hzid (member?_eq_some_iff.1 hk).1)
  have hlasts : (s.ended f.job delete clock).get? z.id = some z := by
    rw [get?_ended hs, if_neg hne, hzget]
  -- the schedules follow the order of the members, and the first that waits is scheduled first
  have hlater : z.scheduledAt.nanos < j.scheduledAt.nanos :=
    hb.spread g rfl q i z j hq hz hj hzwaits hwaits
  have hle := Job.isBefore_iff.1 (hyfirst z (mem_of_get? hlasts) hzwaits (hb.linked q z hz).1)
  omega

/-- If a member lets another one go, then all before that one have been passed, but for itself. -/
theorem Passed.behind (h : Passed kind ids gone s) (hb : Backed kind ids gone s) (hs : s.Distinct)
    (hids : ids.Nodup) (hk : s.member? ids k = some x) (howned : x.isOwnedBy f.job)
    (hj : s.member? ids i = some j)
    (hunlocked : (s.ended f.job delete clock).unlocked? x.successor = some j.id) (hq : q < i)
    (hother : q ≠ k) :
    (∀ y, s.member? ids q = some y → y.status = .completed) ∧
      ∀ status, gone q status → kind.endsWith status = false := by
  have hstatus := (Job.isOwnedBy_iff.1 howned).2.1
  have hgo : LetGo gone s ids k := .of_member h hk (by rw [hstatus]; exact nofun)
  by_cases hqgo : LetGo gone s ids q
  · -- were the member behind the one that ends, that one would be completed
    have hbefore : q < k := by
      by_contra hle
      have hdone := (h.passed q hqgo k (by omega)).1 x hk
      rw [hstatus] at hdone
      cases hdone
    exact h.passed k hgo q hbefore
  · cases kind with
    | chain =>
      have hnext := hb.next_of_unlocked hs hids hk hj hunlocked
      exact h.passed k hgo q (by omega)
    | group g =>
      refine ⟨fun z hz => ?_, fun status hgone => ?_⟩
      · have hgoes := hb.first_of_unlocked hs hids hk howned hj hunlocked hq hother hz
        exact absurd (.of_member h hz hgoes) hqgo
      · -- a member that is gone and was not let go waited when it was cancelled
        have hstill : gone q .waitingPrev := by
          by_contra hnot
          refine hqgo ⟨?_, fun z hz => ?_, hnot⟩
          · exact Nat.lt_trans hq (List.getElem?_eq_some_iff.1 (member?_eq_some_iff.1 hj).1).1
          · rw [h.absent q status hgone] at hz
            cases hz
        rw [h.once q status _ hgone hstill]
        rfl

end Behind

theorem Passed.completeOne (h : Passed kind ids gone s) (hb : Backed kind ids gone s)
    (hs : s.Distinct) (hids : ids.Nodup) (f : FinishedJob) (delete : Bool) (clock : Instant) :
    Passed kind ids gone (s.completeOne f.job delete clock) := by
  have hchange := completeOne_change hs f delete clock
  by_cases hheld : ∃ x, s.get? f.job.id = some x ∧ x.isOwnedBy f.job
  · obtain ⟨x, hx, howned⟩ := hheld
    have hmember := member?_completeOne hs hx howned delete clock ids
    refine ⟨?_, ?_, h.once, ?_⟩
    · intro id j' hid hj'
      rcases successor_of_change (hchange id) hj' with ⟨j, hj, hsame⟩ | ⟨_, hnew, -⟩
      · rw [hsame]
        exact h.others id j hid hj
      · cases hnew
    · intro i status hgone
      have hnone := h.absent i status hgone
      have hother : ids[i]? ≠ some f.job.id := by
        intro hid
        have hxid := id_of_get? hx
        rw [member?_eq_some_iff.2 ⟨hxid ▸ hid, hxid ▸ hx⟩] at hnone
        cases hnone
      rw [hmember, if_neg hother, hnone, Option.map_none]
    · intro i hgo q hq
      by_cases hwaiting : ∃ j, s.member? ids i = some j ∧ j.status = .waitingPrev
      · obtain ⟨j, hj, hwaits⟩ := hwaiting
        have hunlocked := unlocked_of_letGo hs hx howned hj hwaits hgo
        obtain ⟨y, hy, -, hnames⟩ := waits_of_unlocked hs hunlocked
        rw [(member?_eq_some_iff.1 hj).2] at hy
        cases hy
        -- only a member names a member
        obtain ⟨k, hk⟩ : ∃ k, s.member? ids k = some x := by
          apply exists_member? _ hx
          by_contra hout
          exact h.others _ x hout hx
            (reaches_of_names (mem_of_member? hj) (hb.linked i j hj).1 hnames)
        have hkid := (member?_eq_some_iff.1 hk).1
        rw [id_of_get? hx] at hkid
        by_cases hlast : q = k
        · subst hlast
          refine ⟨?_, ?_⟩
          · intro z hz
            rw [hmember, if_pos hkid] at hz
            split at hz <;> cases hz
            rfl
          · intro status hgone
            rw [h.absent q status hgone] at hk
            cases hk
        · obtain ⟨hdone, hends⟩ := h.behind hb hs hids hk howned hj hunlocked hq hlast
          exact ⟨fun z hz => done_of_done hs hx howned hdone hz, hends⟩
      · have hbefore : LetGo gone s ids i :=
          ⟨hgo.lt, fun j hj hwaits => hwaiting ⟨j, hj, hwaits⟩, hgo.cancelled⟩
        obtain ⟨hdone, hends⟩ := h.passed i hbefore q hq
        exact ⟨fun z hz => done_of_done hs hx howned hdone hz, hends⟩
  · rw [completeOne_eq_self hs delete clock fun j hj hp => hheld ⟨j, hj, hp⟩]
    exact h

theorem Passed.complete (h : Passed kind ids gone s) (hb : Backed kind ids gone s)
    (hs : s.Distinct) (hids : ids.Nodup) (jobs : List FinishedJob) (delete : Bool)
    (clock : Instant) : Passed kind ids gone (s.complete jobs delete clock) := by
  induction jobs generalizing s with
  | nil => exact h
  | cons f rest ih =>
    exact ih (h.completeOne hb hs hids f delete clock) (hb.completeOne hs f delete clock)
      (completeOne_distinct hs f.job delete clock)

/-! ## 3. Runs -/

theorem Passed.answer (h : Passed kind ids gone s) (hb : Backed kind ids gone s)
    (hs : s.Distinct) (hids : ids.Nodup) (hc : c.Follows kind ids)
    (hapart : ∀ new ∈ c.newJobs, ¬ kind.Reaches ids new.successor) (clock : Instant) :
    Passed kind ids (fun i status => gone i status ∨ s.Cancels c ids i status)
      (Store.answer clock c s).2 := by
  by_cases hcall : ∃ jobs delete, c = .complete jobs delete
  · obtain ⟨jobs, delete, rfl⟩ := hcall
    rw [cancels_complete]
    exact h.complete hb hs hids jobs delete clock
  · exact h.stays hb hs hc (fun jobs delete heq => hcall ⟨jobs, delete, heq⟩) hapart clock

/-- No job outside of a sequence names it or a member of it. -/
structure Apart (s : Store) (calls : List (Instant × Call)) (kind : SequenceKind)
    (ids : List JobId) : Prop where
  stored : ∀ j ∈ s.jobs, j.id ∉ ids → ¬ kind.Reaches ids j.successor
  inserted : ∀ e ∈ calls, ∀ new ∈ e.2.newJobs, ¬ kind.Reaches ids new.successor

/-- At first all members but the first wait. -/
theorem passed_of_linked {jobs : List NewJob} {created : Instant} (hlinked : kind.Linked jobs)
    (hmembers : ∀ job ∈ jobs, s.get? job.id = some (job.toJob created))
    (hothers : ∀ id j, id ∉ jobs.map (·.id) → s.get? id = some j →
      ¬ kind.Reaches (jobs.map (·.id)) j.successor) :
    Passed kind (jobs.map (·.id)) (fun _ _ => False) s := by
  refine ⟨hothers, fun _ _ hgone => hgone.elim, fun _ _ _ hgone => hgone.elim, ?_⟩
  intro i hgo q hq
  have hlt : i < jobs.length := by simpa using hgo.lt
  have hjob := List.getElem?_eq_getElem hlt
  have hwaits : (jobs[i].toJob created).status = .waitingPrev :=
    waiting_of_linked hlinked (Nat.zero_lt_of_lt hq) hjob
  refine absurd hwaits (hgo.stored _ (member?_eq_some_iff.2 ⟨?_, ?_⟩))
  · exact getElem?_ids.2 ⟨_, hjob, rfl⟩
  · exact hmembers _ (List.getElem_mem hlt)

theorem Passed.run (h : Passed kind ids (fun _ _ => False) s)
    (hb : Backed kind ids (fun _ _ => False) s) (hs : s.Distinct) (hids : ids.Nodup)
    (hcalls : ∀ e ∈ calls, e.2.Follows kind ids)
    (hapart : ∀ e ∈ calls, ∀ new ∈ e.2.newJobs, ¬ kind.Reaches ids new.successor) :
    Passed kind ids (s.CancelledIn calls ids) (s.run calls) := by
  induction calls using List.reverseRecOn with
  | nil =>
    rw [cancelledIn_nil]
    exact h
  | append_singleton calls e ih =>
    have hlast : e ∈ calls ++ [e] := List.mem_append_right _ (List.mem_singleton.2 rfl)
    have hfirst : ∀ e' ∈ calls, e'.2.Follows kind ids :=
      fun e' he' => hcalls e' (List.mem_append_left _ he')
    have hpassed := ih hfirst fun e' he' => hapart e' (List.mem_append_left _ he')
    rw [run_append, cancelledIn_append_singleton]
    exact hpassed.answer (hb.run hs hfirst) (run_distinct hs calls) hids (hcalls e hlast)
      (hapart e hlast) e.1

/-! ## 4. Waiting members -/

/-- Some member before the position can run. -/
def RunsBefore (s : Store) (ids : List JobId) (i : Nat) : Prop :=
  ∃ p < i, ∃ k, s.member? ids p = some k ∧ k.status.canRun

/-- In a run, a member is cancelled with which the sequence ends. -/
def EndsAt (s : Store) (calls : List (Instant × Call)) (kind : SequenceKind) (ids : List JobId)
    (i : Nat) : Prop :=
  ∃ status, s.CancelledIn calls ids i status ∧ kind.endsWith status

/-- After a run, a sequence has come to such a member before the position: of those before it that
are stored, all are completed. -/
def Stranded (s : Store) (calls : List (Instant × Call)) (kind : SequenceKind) (ids : List JobId)
    (i : Nat) : Prop :=
  ∃ c < i, s.EndsAt calls kind ids c ∧
    ∀ q < c, ∀ k, (s.run calls).member? ids q = some k → k.status = .completed

/-- A member can run whose end lets a member go that waits, at the position or before it. -/
def MovesOn (s : Store) (ids : List JobId) (i : Nat) : Prop :=
  ∃ p < i, ∃ x, s.member? ids p = some x ∧ x.status.canRun ∧
    ∀ (f : FinishedJob) (delete : Bool) (clock : Instant), x.isOwnedBy f.job →
      ∃ m ≤ i, ∃ y, s.member? ids m = some y ∧ y.status = .waitingPrev ∧
        (Store.answer clock (.complete [f] delete) s).2.member? ids m = some y.released

theorem Backed.movesOn (h : Backed kind ids gone s) (hs : s.Distinct)
    (hj : s.member? ids i = some j) (hwaits : j.status = .waitingPrev) :
    s.MovesOn ids i ∨ ∃ c < i, ∃ status, gone c status ∧ kind.endsWith status := by
  refine (h.source hj hwaits).imp_left ?_
  rintro ⟨p, m, x, y, hbefore, hle, hx, hrun, hy, hywaits⟩
  refine ⟨p, Nat.lt_of_lt_of_le hbefore.lt hle, x, hx, hrun, fun f delete clock howned => ?_⟩
  obtain ⟨hxid, hxget⟩ := member?_eq_some_iff.1 hx
  rw [(Job.isOwnedBy_iff.1 howned).1] at hxid hxget
  obtain ⟨n, z, hn, hz, hzwaits, hunlocked⟩ :=
    h.unlocks hs hxget howned delete clock hxid hbefore hy hywaits
  have hnm : n ≤ m := by
    rcases hn with rfl | hn
    · exact Nat.le_refl n
    · exact Nat.le_of_lt hn.lt
  exact ⟨n, Nat.le_trans hnm hle, z, hz, hzwaits,
    member?_unlocked hs hxget howned hz hzwaits hunlocked⟩

/-- Without a member that can run, the first with which the sequence ends is one that it has come
to. -/
theorem Backed.stranded (h : Backed kind ids (s.CancelledIn calls ids) (s.run calls))
    (hstuck : ¬ (s.run calls).RunsBefore ids i)
    (hends : ∃ c < i, s.EndsAt calls kind ids c) : s.Stranded calls kind ids i := by
  classical
  obtain ⟨hlt, hfirst⟩ := Nat.find_spec hends
  refine ⟨Nat.find hends, hlt, hfirst, fun q hq k hk => ?_⟩
  have hqi : q < i := Nat.lt_trans hq hlt
  by_contra hopen
  by_cases hwaits : k.status = .waitingPrev
  · rcases h.source hk hwaits with ⟨p, m, x, -, hbefore, hle, hx, hrun, -⟩ | ⟨c, hc, hgone⟩
    · have hlt' := hbefore.lt
      exact hstuck ⟨p, by omega, x, hx, hrun⟩
    · exact Nat.find_min hends (Nat.lt_trans hc hq) ⟨Nat.lt_trans hc hqi, hgone⟩
  · have hfailed := (h.linked q k hk).2.2
    refine hstuck ⟨q, hqi, k, hk, ?_⟩
    cases hstatus : k.status <;> simp_all [JobStatus.canRun]

/-- Of a sequence that is stranded nothing can run. -/
theorem Passed.not_runsBefore (h : Passed kind ids (s.CancelledIn calls ids) (s.run calls))
    (hstranded : s.Stranded calls kind ids i) : ¬ (s.run calls).RunsBefore ids i := by
  rintro ⟨p, hp, x, hx, hrun⟩
  obtain ⟨c, hc, ⟨status, hgone, hends⟩, hdone⟩ := hstranded
  have hgo : LetGo _ (s.run calls) ids p := .of_member h hx (by
    intro hwaits
    rw [hwaits] at hrun
    cases hrun)
  rcases Nat.lt_trichotomy p c with hlt | rfl | hgt
  · rw [hdone p hlt x hx] at hrun
    cases hrun
  · rw [h.absent p status hgone] at hx
    cases hx
  · have hpassed := (h.passed p hgo c hgt).2 status hgone
    rw [hends] at hpassed
    cases hpassed

/-- What is behind a member with which the sequence ends has not been let go. -/
theorem Passed.waits_behind (h : Passed kind ids gone s) {c : Nat} {status : JobStatus}
    (hgone : gone c status) (hends : kind.endsWith status) (hc : c < i)
    (hj : s.member? ids i = some j) : j.status = .waitingPrev := by
  by_contra hgo
  have hpassed := (h.passed i (.of_member h hj hgo) c hc).2 status hgone
  rw [hends] at hpassed
  cases hpassed

/-- **A sequence is stranded by cancellations only.** In a sequence of which no member fails, whatever
else is called, before each member that waits some other can run, or the sequence has come to a member
that was cancelled: in a group one that no longer waited. As long as there is none of these before it,
the end of a member that can run lets a member go that waits. If no job outside names a member, it is
never both: of a sequence that has come to such a member nothing before can run, and what was behind
it waits in every later run, unless it is cancelled too. -/
theorem waiting_runs_or_stranded {drafts : List Draft} {before : Store}
    (henqueue : kind.enqueue drafts Store.backend clock before = (.ok ids, s))
    (hbefore : before.Distinct)
    (hgroup : ∀ g, kind = .group g → ∀ j ∈ before.jobs, j.successor ≠ .sequence g)
    (hcalls : ∀ e ∈ calls, e.2.Follows kind ids) (hj : (s.run calls).member? ids i = some j)
    (hwaits : j.status = .waitingPrev) :
    ((s.run calls).RunsBefore ids i ∨ s.Stranded calls kind ids i) ∧
    ((∀ c < i, ¬ s.EndsAt calls kind ids c) → (s.run calls).MovesOn ids i) ∧
    (s.Apart calls kind ids → ¬ ((s.run calls).RunsBefore ids i ∧ s.Stranded calls kind ids i)) ∧
    ∀ more : List (Instant × Call), (∀ e ∈ more, e.2.Follows kind ids) →
      s.Apart (calls ++ more) kind ids → (∃ c < i, s.EndsAt calls kind ids c) →
      ∀ k, (s.run (calls ++ more)).member? ids i = some k → k.status = .waitingPrev := by
  obtain ⟨hs, hids, hothers, jobs, hlinked, rfl, hmembers⟩ :=
    SequenceKind.enqueue_spec hbefore henqueue
  have hbegun : Backed kind (jobs.map (·.id)) (fun _ _ => False) s := by
    refine backed_of_linked hlinked hmembers fun g hg id j hid hget => ?_
    rw [hothers id hid] at hget
    exact hgroup g hg j (mem_of_get? hget)
  have hbacked := hbegun.run hs hcalls
  have hpassed : ∀ all : List (Instant × Call), (∀ e ∈ all, e.2.Follows kind (jobs.map (·.id))) →
      s.Apart all kind (jobs.map (·.id)) →
      Passed kind (jobs.map (·.id)) (s.CancelledIn all (jobs.map (·.id))) (s.run all) := by
    intro all hall hapart
    refine (passed_of_linked hlinked hmembers fun id j hid hget => ?_).run hbegun hs hids hall
      hapart.inserted
    exact hapart.stored j (mem_of_get? hget) (id_of_get? hget ▸ hid)
  refine ⟨?_, ?_, ?_, ?_⟩
  · by_cases hruns : (s.run calls).RunsBefore (jobs.map (·.id)) i
    · exact Or.inl hruns
    · rcases hbacked.movesOn (run_distinct hs calls) hj hwaits with ⟨p, hp, x, hx, hrun, -⟩ | hends
      · exact absurd ⟨p, hp, x, hx, hrun⟩ hruns
      · exact Or.inr (hbacked.stranded hruns hends)
  · intro hopen
    rcases hbacked.movesOn (run_distinct hs calls) hj hwaits with hmoves | ⟨c, hc, hends⟩
    · exact hmoves
    · exact absurd hends (hopen c hc)
  · rintro hapart ⟨hruns, hstranded⟩
    exact (hpassed calls hcalls hapart).not_runsBefore hstranded hruns
  · rintro more hmore hapart ⟨c, hc, status, hgone, hends⟩ k hk
    have hall : ∀ e ∈ calls ++ more, e.2.Follows kind (jobs.map (·.id)) :=
      fun e he => (List.mem_append.1 he).elim (hcalls e) (hmore e)
    exact (hpassed (calls ++ more) hall hapart).waits_behind (hgone.append more) hends hc hk

/-- A job of a sequence. -/
def member (n : Nat) : Draft where
  type := { name := "plain", parameter := .text }
  id := ⟨.ofNat n⟩
  parameter := some (.text "")
  restartOnCrash := true

/-- The ids of some members. -/
def memberIds (n : Nat) : List JobId := (List.range n).map fun i => ⟨.ofNat (i + 1)⟩

/-- A sequence of as many jobs, in a store of its own. -/
def enqueued (kind : SequenceKind) (n : Nat) : Store :=
  (kind.enqueue ((List.range n).map fun i => member (i + 1)) Store.backend .epoch {}).2

/-- A chain of three, of which the second is cancelled: as long as the first can run there is a member
that can, but the third waits on when that is completed. -/
theorem waiting_runs_or_stranded_gap :
    let cancel : Instant × Call := (.epoch, .cancel [⟨.ofNat 2⟩])
    let claim : Instant × Call := (.epoch, .claim ⟨.ofNat 1⟩ 1 .epoch)
    let done : Instant × Call := (.epoch, .complete [⟨⟨⟨.ofNat 1⟩, ⟨.ofNat 1⟩⟩, .none⟩] true)
    let s := enqueued .chain 3
    (∃ j, (s.run [cancel]).member? (memberIds 3) 2 = some j ∧ j.status = .waitingPrev) ∧
    (s.run [cancel]).RunsBefore (memberIds 3) 2 ∧
    ¬ s.Stranded [cancel] .chain (memberIds 3) 2 ∧
    (s.run [cancel, claim, done]).jobs.length = 1 ∧
    ∃ k, (s.run [cancel, claim, done]).member? (memberIds 3) 2 = some k ∧
      k.status = .waitingPrev := by
  intro cancel claim done s
  have henqueue : SequenceKind.chain.enqueue [member 1, member 2, member 3] Store.backend .epoch {} =
      (.ok (memberIds 3), s) := rfl
  have hfollows : ∀ e ∈ [cancel, claim, done], e.2.Follows .chain (memberIds 3) := by
    intro e he
    rcases List.mem_cons.1 he with rfl | he
    · exact ⟨List.forall_mem_nil _, nofun⟩
    · rcases List.mem_cons.1 he with rfl | he
      · exact ⟨List.forall_mem_nil _, nofun⟩
      · obtain rfl := List.mem_singleton.1 he
        exact complete_follows _ _
  have hapart : ∀ calls : List (Instant × Call), (∀ e ∈ calls, e.2.newJobs = []) →
      s.Apart calls .chain (memberIds 3) := by
    intro calls hnone
    refine ⟨?_, fun e he new hnew => ?_⟩
    · have hmembers : ∀ j ∈ s.jobs, j.id ∈ memberIds 3 := by decide +kernel
      exact fun j hj hout => absurd (hmembers j hj) hout
    · rw [hnone e he] at hnew
      cases hnew
  have hcancelled : s.EndsAt [cancel] .chain (memberIds 3) 1 :=
    ⟨.waitingPrev, ⟨[], cancel, [], rfl, _, rfl, List.mem_cons_self, rfl, rfl⟩, rfl⟩
  obtain ⟨-, -, hnotBoth, hstays⟩ := waiting_runs_or_stranded henqueue distinct_empty
    (fun _ _ => List.forall_mem_nil _)
    (fun e he => hfollows e (List.mem_singleton.1 he ▸ List.mem_cons_self)) (i := 2) rfl rfl
  have hruns : (s.run [cancel]).RunsBefore (memberIds 3) 2 := ⟨0, by decide, _, rfl, rfl⟩
  have hwaits := hstays [claim, done] (fun e he => hfollows e (List.mem_cons_of_mem _ he))
    (hapart _ (by simp [cancel, claim, done, Call.newJobs])) ⟨1, by decide, hcancelled⟩
  have hlast : ((s.run [cancel, claim, done]).member? (memberIds 3) 2).isSome := by decide +kernel
  obtain ⟨k, hk⟩ := Option.isSome_iff_exists.1 hlast
  exact ⟨⟨_, rfl, rfl⟩, hruns, fun hstranded => hnotBoth
    (hapart _ (by simp [cancel, Call.newJobs])) ⟨hruns, hstranded⟩, by decide +kernel, k, hk,
    hwaits k hk⟩

/-- Once the first of two members has been cancelled no other job is left but the second, and it
waits: in a chain and in a group. -/
theorem cancelled_first_strands :
    let cancel : Instant × Call := (.epoch, .cancel [⟨.ofNat 1⟩])
    let chain := (enqueued .chain 2).run [cancel]
    let group := (enqueued (.group ⟨.ofNat 1⟩) 2).run [cancel]
    (∃ j, chain.jobs = [j] ∧ chain.member? (memberIds 2) 1 = some j ∧ j.status = .waitingPrev) ∧
    ¬ chain.RunsBefore (memberIds 2) 1 ∧
    (∃ j, group.jobs = [j] ∧ group.member? (memberIds 2) 1 = some j ∧ j.status = .waitingPrev) ∧
    ¬ group.RunsBefore (memberIds 2) 1 := by
  intro cancel chain group
  have hempty : ∀ s : Store, s.member? (memberIds 2) 0 = none → ¬ s.RunsBefore (memberIds 2) 1 := by
    rintro s hnone ⟨p, hp, k, hk, -⟩
    obtain rfl := Nat.lt_one_iff.1 hp
    rw [hnone] at hk
    cases hk
  exact ⟨⟨_, rfl, rfl, rfl⟩, hempty chain rfl, ⟨_, rfl, rfl, rfl⟩, hempty group rfl⟩

end JobQueue.Store
