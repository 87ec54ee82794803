import JobQueue.Proofs.Sequence.Order
import Mathlib.Data.List.Induction

/-!
# What a waiting member waits for

A member of a sequence waits for the end of a member before it. Members can be cancelled, and a
cancelled job lets nothing go. `Backed` says of every member that waits what there is before it:
a member that will let it go once it ends, or one that was cancelled.
-/

namespace JobQueue

/-- Whether a job can be claimed, or has been. -/
def JobStatus.canRun (s : JobStatus) : Bool := s = .scheduled || s = .processing

namespace SequenceKind

/-- Whether the end of the member at one position may let the member at another one go. -/
def Before (kind : SequenceKind) (p i : Nat) : Prop :=
  match kind with
  | .chain => i = p + 1
  | .group _ => p < i

/-- Whether a sequence ends with a member that is cancelled in this status. A group does without a
member that still waited. -/
def endsWith (kind : SequenceKind) (status : JobStatus) : Bool :=
  match kind with
  | .chain => true
  | .group _ => status = .scheduled

/-- Whether a member in this status will let others go. In a chain it may wait itself. -/
def carries (kind : SequenceKind) (status : JobStatus) : Bool :=
  match kind with
  | .chain => status.canRun || status = .waitingPrev
  | .group _ => status.canRun

variable {kind : SequenceKind} {p i m : Nat} {status : JobStatus}

theorem Before.lt (h : kind.Before p i) : p < i := by
  cases kind with
  | chain =>
    have hnext : i = p + 1 := h
    omega
  | group g => exact h

theorem carries_of_canRun (h : status.canRun) : kind.carries status := by
  cases kind <;> simp [carries, h]

/-- A member that carries others and has not started ends the sequence if it is cancelled. -/
theorem endsWith_of_carries (h : kind.carries status) (hidle : status.isNotStarted) :
    kind.endsWith status := by
  cases kind with
  | chain => rfl
  | group g => cases status <;> simp_all [carries, endsWith, JobStatus.canRun,
      JobStatus.isNotStarted]

end SequenceKind

/-- A call leaves a sequence as it is linked and fails no member: what it inserts has an id of its own
and is not in the group. -/
structure Call.Follows (c : Call) (kind : SequenceKind) (ids : List JobId) : Prop where
  inserted : ∀ new ∈ c.newJobs, new.id ∉ ids ∧ ∀ g, kind = .group g → new.successor ≠ .sequence g
  fails : ∀ p error, c = .fail p error → p.id ∉ ids

theorem Call.Follows.fresh {c : Call} {kind : SequenceKind} {ids : List JobId}
    (h : c.Follows kind ids) {id : JobId} (hid : id ∈ ids) : ∀ new ∈ c.newJobs, new.id ≠ id := by
  rintro new hnew rfl
  exact (h.inserted new hnew).1 hid

namespace Store

variable {s s' : Store} {kind : SequenceKind} {ids : List JobId} {clock : Instant} {c : Call}
  {gone : Nat → JobStatus → Prop} {i m p : Nat} {j x : Job}

/-- The member at a position, if it is stored. -/
def member? (s : Store) (ids : List JobId) (i : Nat) : Option Job := ids[i]?.bind s.get?

/-- A call cancels the member at a position, which has the status. -/
def Cancels (s : Store) (c : Call) (ids : List JobId) (i : Nat) (status : JobStatus) : Prop :=
  ∃ j, s.member? ids i = some j ∧ j.id ∈ c.cancelled ∧ j.status = status ∧ status.isNotStarted

/-! ## 1. Members -/

theorem member?_eq_some_iff :
    s.member? ids i = some j ↔ ids[i]? = some j.id ∧ s.get? j.id = some j := by
  constructor
  · intro h
    obtain ⟨id, hid, hget⟩ := Option.bind_eq_some_iff.1 h
    obtain rfl := id_of_get? hget
    exact ⟨hid, hget⟩
  · rintro ⟨hid, hget⟩
    exact Option.bind_eq_some_iff.2 ⟨j.id, hid, hget⟩

theorem exists_member? {id : JobId} (hid : id ∈ ids) (hget : s.get? id = some j) :
    ∃ i, s.member? ids i = some j := by
  obtain ⟨i, hi⟩ := List.mem_iff_getElem?.1 hid
  obtain rfl := id_of_get? hget
  exact ⟨i, member?_eq_some_iff.2 ⟨hi, hget⟩⟩

theorem mem_of_member? (h : s.member? ids i = some j) : j.id ∈ ids :=
  List.mem_of_getElem? (member?_eq_some_iff.1 h).1

/-- Members at different positions have different ids. -/
theorem position_eq (hids : ids.Nodup) (hi : ids[i]? = some j.id) (hm : ids[m]? = some j.id) :
    i = m :=
  (List.getElem?_inj (List.getElem?_eq_some_iff.1 hi).1 hids).1 (hi.trans hm.symm)

/-! ## 2. What is kept -/

/-- What is known of the members of a sequence, given which of them have been cancelled, and in which
status. -/
structure Backed (kind : SequenceKind) (ids : List JobId) (gone : Nat → JobStatus → Prop)
    (s : Store) : Prop where
  linked : ∀ i j, s.member? ids i = some j →
    j.successor = kind.successorOf ids[i + 1]? ∧ j.cron = none ∧ j.status ≠ .failed
  spread : ∀ g, kind = .group g → ∀ i m j k, i < m → s.member? ids i = some j →
    s.member? ids m = some k → j.status = .waitingPrev → k.status = .waitingPrev →
    j.scheduledAt < k.scheduledAt
  outside : ∀ g, kind = .group g → ∀ id j, id ∉ ids → s.get? id = some j →
    j.successor ≠ .sequence g
  backed : ∀ i j, s.member? ids i = some j → j.status = .waitingPrev → ∃ p, kind.Before p i ∧
    ((∃ k, s.member? ids p = some k ∧ kind.carries k.status) ∨
      ∃ status, gone p status ∧ kind.endsWith status)

/-- There is a member before it that can run and lets it or one before it go, or the sequence has
ended before it. -/
theorem Backed.source (h : Backed kind ids gone s) (hj : s.member? ids i = some j)
    (hwaits : j.status = .waitingPrev) :
    (∃ p m k y, kind.Before p m ∧ m ≤ i ∧ s.member? ids p = some k ∧ k.status.canRun ∧
      s.member? ids m = some y ∧ y.status = .waitingPrev) ∨
    ∃ p < i, ∃ status, gone p status ∧ kind.endsWith status := by
  induction i using Nat.strongRecOn generalizing j with
  | ind i ih =>
    obtain ⟨p, hbefore, ⟨k, hk, hcarries⟩ | ⟨status, hgone, hends⟩⟩ := h.backed i j hj hwaits
    · by_cases hrun : k.status.canRun = true
      · exact Or.inl ⟨p, i, k, j, hbefore, Nat.le_refl i, hk, hrun, hj, hwaits⟩
      · -- a member of a chain that cannot run and carries others waits itself
        have hkwaits : k.status = .waitingPrev := by
          cases kind <;> simp_all [SequenceKind.carries]
        have hlt := hbefore.lt
        rcases ih p hlt hk hkwaits with ⟨q, m, y, z, hq, hle, hrest⟩ | ⟨q, hlt', hrest⟩
        · exact Or.inl ⟨q, m, y, z, hq, by omega, hrest⟩
        · exact Or.inr ⟨q, by omega, hrest⟩
    · exact Or.inr ⟨p, hbefore.lt, status, hgone, hends⟩

/-! ## 3. Calls that complete nothing -/

/-- What a call that completes nothing does to the member at a position. -/
inductive Moved (s : Store) (c : Call) (ids : List JobId) (i : Nat) : Option Job → Option Job → Prop
  | kept {o : Option Job} : Moved s c ids i o o
  | ran {j j' : Job} (hj : j.status.canRun) (hj' : j'.status.canRun) :
      Moved s c ids i (some j) (some j')
  | cancelled {j : Job} (h : s.Cancels c ids i j.status) : Moved s c ids i (some j) none

theorem Backed.moved (h : Backed kind ids gone s) (hs : s.Distinct) (hc : c.Follows kind ids)
    (hcall : ∀ jobs delete, c ≠ .complete jobs delete) (clock : Instant) (i : Nat) :
    Moved s c ids i (s.member? ids i) ((Store.answer clock c s).2.member? ids i) := by
  cases hid : ids[i]? with
  | none =>
    rw [member?, member?, hid]
    exact .kept
  | some id =>
    have hmember : s.member? ids i = s.get? id := by rw [member?, hid, Option.bind_some]
    have hmember' : (Store.answer clock c s).2.member? ids i =
        (Store.answer clock c s).2.get? id := by rw [member?, hid, Option.bind_some]
    have hmem := List.mem_of_getElem? hid
    have hlinked := h.linked i
    rw [hmember', hmember]
    rw [hmember] at hlinked
    have hstep := answer_change hs clock c id
    generalize ho' : (Store.answer clock c s).2.get? id = o' at hstep ⊢
    generalize ho : s.get? id = o at hstep hlinked ⊢
    cases hstep with
    | kept => exact .kept
    | @inserted _ new hnew => exact absurd (id_of_get? ho') (hc.fresh hmem new hnew)
    | @revised _ j _ hrec =>
      rw [Job.isRecurrent, (hlinked j rfl).2.1] at hrec
      cases hrec
    | @cancelled _ j hcancelled hidle =>
      exact .cancelled ⟨j, hmember.trans ho, hcancelled, rfl, hidle⟩
    | @dropped _ j _ hrec _ =>
      rw [Job.isRecurrent, (hlinked j rfl).2.1] at hrec
      cases hrec
    | started hdue _ =>
      simp only [isDue, Bool.and_eq_true, decide_eq_true_eq] at hdue
      exact .ran (by simp [JobStatus.canRun, hdue.1]) rfl
    | completed _ _ => exact absurd rfl (hcall _ _)
    | removed _ _ => exact absurd rfl (hcall _ _)
    | unlocked _ _ _ _ _ => exact absurd rfl (hcall _ _)
    | retried howned => exact .ran (by simp [JobStatus.canRun, (Job.isOwnedBy_iff.1 howned).2.1]) rfl
    | rescheduled howned =>
      exact .ran (by simp [JobStatus.canRun, (Job.isOwnedBy_iff.1 howned).2.1]) rfl
    | failed howned =>
      have hsame := (id_of_get? ho).symm.trans (Job.isOwnedBy_iff.1 howned).1
      exact absurd (hsame ▸ hmem) (hc.fails _ _ rfl)
    | recovered hstatus _ _ _ hrestart =>
      exact .ran (by simp [JobStatus.canRun, hstatus]) (by rw [recover, if_pos hrestart]; rfl)

/-- The links and the jobs outside of a sequence stay as they are. -/
theorem Backed.frame (h : Backed kind ids gone s) (hc : c.Follows kind ids)
    (hchange : ∀ id, Change s clock c (s.get? id) (s'.get? id)) {gone' : Nat → JobStatus → Prop}
    (hwaiting : ∀ i j, s'.member? ids i = some j → j.status = .waitingPrev →
      s.member? ids i = some j)
    (hfailed : ∀ i j, s'.member? ids i = some j → j.status ≠ .failed)
    (hbacked : ∀ i j, s'.member? ids i = some j → j.status = .waitingPrev → ∃ p, kind.Before p i ∧
      ((∃ k, s'.member? ids p = some k ∧ kind.carries k.status) ∨
        ∃ status, gone' p status ∧ kind.endsWith status)) : Backed kind ids gone' s' := by
  refine ⟨?_, ?_, ?_, hbacked⟩
  · intro i j' hj'
    obtain ⟨hid, hget⟩ := member?_eq_some_iff.1 hj'
    obtain ⟨j, hj, hstep⟩ :=
      exists_change_of_fresh (hchange j'.id) (hc.fresh (mem_of_member? hj')) hget
    have hsame := id_of_get? hj
    obtain ⟨hsuccessor, hcron, -⟩ :=
      h.linked i j (member?_eq_some_iff.2 ⟨hsame ▸ hid, hsame ▸ hj⟩)
    exact ⟨hstep.successor_eq.trans hsuccessor, hstep.cron_eq_none hcron, hfailed i j' hj'⟩
  · intro g hg i m j k hlt hj hk hjwaits hkwaits
    exact h.spread g hg i m j k hlt (hwaiting i j hj hjwaits) (hwaiting m k hk hkwaits) hjwaits
      hkwaits
  · intro g hg id j' hid hj'
    rcases successor_of_change (hchange id) hj' with ⟨j, hj, hsame⟩ | ⟨new, hnew, hsame⟩
    · rw [hsame]
      exact h.outside g hg id j hid hj
    · rw [hsame]
      exact (hc.inserted new hnew).2 g hg

/-- A call that completes nothing lets no member go, and takes away only those that it cancels. -/
theorem Backed.stays (h : Backed kind ids gone s) (hs : s.Distinct) (hc : c.Follows kind ids)
    (hcall : ∀ jobs delete, c ≠ .complete jobs delete) (clock : Instant) :
    Backed kind ids (fun i status => gone i status ∨ s.Cancels c ids i status)
      (Store.answer clock c s).2 := by
  have hmoved := h.moved hs hc hcall clock
  generalize hs' : (Store.answer clock c s).2 = s' at hmoved ⊢
  have hwaiting : ∀ i j, s'.member? ids i = some j → j.status = .waitingPrev →
      s.member? ids i = some j := by
    intro i j hj hwaits
    have hstep := hmoved i
    rw [hj] at hstep
    generalize s.member? ids i = o at hstep
    cases hstep with
    | kept => rfl
    | ran _ hrun =>
      rw [hwaits] at hrun
      cases hrun
  refine h.frame hc (fun id => hs' ▸ answer_change hs clock c id) hwaiting ?_ ?_
  · intro i j hj
    have hstep := hmoved i
    have hlinked := h.linked i
    rw [hj] at hstep
    generalize s.member? ids i = o at hstep hlinked
    cases hstep with
    | kept => exact (hlinked j rfl).2.2
    | ran _ hrun =>
      intro hfailed
      rw [hfailed] at hrun
      cases hrun
  · intro i j hj hwaits
    obtain ⟨p, hbefore, ⟨k, hk, hcarries⟩ | ⟨status, hgone, hends⟩⟩ :=
      h.backed i j (hwaiting i j hj hwaits) hwaits
    · refine ⟨p, hbefore, ?_⟩
      have hstep := hmoved p
      rw [hk] at hstep
      generalize s'.member? ids p = o at hstep ⊢
      cases hstep with
      | kept => exact Or.inl ⟨k, rfl, hcarries⟩
      | ran _ hrun => exact Or.inl ⟨_, rfl, SequenceKind.carries_of_canRun hrun⟩
      | cancelled hcancels =>
        obtain ⟨_, -, -, -, hidle⟩ := id hcancels
        exact Or.inr ⟨_, Or.inr hcancels, SequenceKind.endsWith_of_carries hcarries hidle⟩
    · exact ⟨p, hbefore, Or.inr ⟨status, Or.inl hgone, hends⟩⟩

/-! ## 4. Completions -/

theorem complete_follows (jobs : List FinishedJob) (delete : Bool) :
    (Call.complete jobs delete).Follows kind ids :=
  ⟨List.forall_mem_nil _, nofun⟩

section Held

variable {f : FinishedJob} (hs : s.Distinct) (hx : s.get? f.job.id = some x)
  (howned : x.isOwnedBy f.job)

include hs hx howned

/-- The member whose claim ends is completed or deleted, and of the others one may be let go. -/
theorem member?_completeOne (delete : Bool) (clock : Instant) (ids : List JobId) (i : Nat) :
    (s.completeOne f.job delete clock).member? ids i =
      if ids[i]? = some f.job.id then (if delete then none else some (x.finish .completed clock))
      else (s.member? ids i).map fun j =>
        if (s.ended f.job delete clock).unlocked? x.successor = some j.id then j.released else j := by
  unfold member?
  cases hid : ids[i]? with
  | none => rfl
  | some id =>
    simp only [Option.bind_some, Option.some.injEq]
    exact get?_completeOne hs hx howned delete clock id

omit hs in
theorem id_ne_of_waits (hj : s.get? j.id = some j) (hwaits : j.status = .waitingPrev) :
    j.id ≠ f.job.id := by
  intro hid
  rw [hid, hx] at hj
  cases hj
  rw [(Job.isOwnedBy_iff.1 howned).2.1] at hwaits
  cases hwaits

/-- If a member waits that the one whose claim ends may let go, then that one lets it go or one that
comes before it. -/
theorem Backed.unlocks (h : Backed kind ids gone s) (delete : Bool) (clock : Instant) {k : Nat}
    (hk : ids[k]? = some f.job.id) (hbefore : kind.Before k i) (hj : s.member? ids i = some j)
    (hwaits : j.status = .waitingPrev) :
    ∃ m y, (m = i ∨ kind.Before m i) ∧ s.member? ids m = some y ∧ y.status = .waitingPrev ∧
      (s.ended f.job delete clock).unlocked? x.successor = some y.id := by
  have hxid := id_of_get? hx
  obtain ⟨hsuccessor, -⟩ := h.linked k x (member?_eq_some_iff.2 ⟨hxid ▸ hk, hxid ▸ hx⟩)
  obtain ⟨hid, hget⟩ := member?_eq_some_iff.1 hj
  have hlasts : (s.ended f.job delete clock).get? j.id = some j := by
    rw [get?_ended hs, if_neg (id_ne_of_waits hx howned hget hwaits), hget]
  rw [hsuccessor]
  cases kind with
  | chain =>
    obtain rfl : i = k + 1 := hbefore
    refine ⟨k + 1, j, Or.inl rfl, hj, hwaits, ?_⟩
    rw [hid]
    simp only [SequenceKind.successorOf, unlocked?, hlasts, Option.any_some, hwaits, decide_true,
      if_true]
  | group g =>
    obtain ⟨y, hfirst⟩ := exists_firstWaiting? (mem_of_get? hlasts) hwaits (h.linked i j hj).1
    obtain ⟨hy, hywaits, hyseq, hyfirst⟩ := firstWaiting?_spec hfirst
    obtain ⟨-, hyget⟩ := waits_of_ended hs hy hywaits
    have hmember : y.id ∈ ids := by
      by_contra hout
      exact h.outside g rfl y.id y hout hyget hyseq
    obtain ⟨m, hm⟩ := exists_member? hmember hyget
    refine ⟨m, y, ?_, hm, hywaits, by simp only [SequenceKind.successorOf, unlocked?, hfirst,
      Option.map_some]⟩
    -- the schedules follow the order of the members, so the first that waits is not a later one
    rcases Nat.lt_trichotomy m i with hlt | heq | hgt
    · exact Or.inr hlt
    · exact Or.inl heq
    · have hlater : j.scheduledAt.nanos < y.scheduledAt.nanos :=
        h.spread g rfl i m j y hgt hj hm hwaits hywaits
      have hle := Job.isBefore_iff.1 (hyfirst j (mem_of_get? hlasts) hwaits (h.linked i j hj).1)
      omega

/-- The member that is let go can be claimed. -/
theorem member?_unlocked {delete : Bool} (hj : s.member? ids i = some j)
    (hwaits : j.status = .waitingPrev)
    (hunlocked : (s.ended f.job delete clock).unlocked? x.successor = some j.id) :
    (s.completeOne f.job delete clock).member? ids i = some j.released := by
  obtain ⟨hid, hget⟩ := member?_eq_some_iff.1 hj
  have hne : ids[i]? ≠ some f.job.id := by
    rw [hid]
    exact fun heq => id_ne_of_waits hx howned hget hwaits (Option.some.inj heq)
  rw [member?_completeOne hs hx howned, if_neg hne, hj, Option.map_some, if_pos hunlocked]

end Held

theorem Backed.completeOne (h : Backed kind ids gone s) (hs : s.Distinct) (f : FinishedJob)
    (delete : Bool) (clock : Instant) :
    Backed kind ids gone (s.completeOne f.job delete clock) := by
  by_cases hheld : ∃ x, s.get? f.job.id = some x ∧ x.isOwnedBy f.job
  · obtain ⟨x, hx, howned⟩ := hheld
    have hmember := member?_completeOne hs hx howned delete clock ids
    have hwaiting : ∀ i j, (s.completeOne f.job delete clock).member? ids i = some j →
        j.status = .waitingPrev → s.member? ids i = some j := by
      intro i j hj hwaits
      rw [hmember] at hj
      split at hj
      · split at hj <;> cases hj
        cases hwaits
      · obtain ⟨j', hj', rfl⟩ := Option.map_eq_some_iff.1 hj
        split at hwaits
        · cases hwaits
        · rename_i hlocked
          rw [hj', if_neg hlocked]
    refine h.frame (complete_follows [f] delete) (completeOne_change hs f delete clock) hwaiting
      ?_ ?_
    · intro i j hj
      rw [hmember] at hj
      split at hj
      · split at hj <;> cases hj
        exact nofun
      · obtain ⟨j', hj', rfl⟩ := Option.map_eq_some_iff.1 hj
        split
        · exact nofun
        · exact (h.linked i j' hj').2.2
    · intro i j hj hwaits
      have hbefore := hwaiting i j hj hwaits
      obtain ⟨p, hp, ⟨k, hk, hcarries⟩ | hgone⟩ := h.backed i j hbefore hwaits
      · by_cases hends : ids[p]? = some f.job.id
        · -- the end lets a member go, which is not the one that still waits
          obtain ⟨m, y, hm, hy, hywaits, hunlocked⟩ :=
            h.unlocks hs hx howned delete clock hends hp hbefore hwaits
          have hgo := member?_unlocked hs hx howned hy hywaits hunlocked
          rcases hm with rfl | hm
          · rw [hj] at hgo
            cases hgo
            cases hwaits
          · exact ⟨m, hm, Or.inl ⟨_, hgo, SequenceKind.carries_of_canRun rfl⟩⟩
        · refine ⟨p, hp, Or.inl ⟨_, by rw [hmember, if_neg hends, hk, Option.map_some], ?_⟩⟩
          split
          · exact SequenceKind.carries_of_canRun rfl
          · exact hcarries
      · exact ⟨p, hp, Or.inr hgone⟩
  · rw [completeOne_eq_self hs delete clock fun j hj hp => hheld ⟨j, hj, hp⟩]
    exact h

theorem Backed.complete (h : Backed kind ids gone s) (hs : s.Distinct) (jobs : List FinishedJob)
    (delete : Bool) (clock : Instant) : Backed kind ids gone (s.complete jobs delete clock) := by
  induction jobs generalizing s with
  | nil => exact h
  | cons f rest ih =>
    exact ih (h.completeOne hs f delete clock) (completeOne_distinct hs f.job delete clock)

/-! ## 5. Runs -/

/-- In a run, the member at a position is cancelled in the status. -/
def CancelledIn (s : Store) (calls : List (Instant × Call)) (ids : List JobId) (i : Nat)
    (status : JobStatus) : Prop :=
  ∃ before e after, calls = before ++ e :: after ∧ (s.run before).Cancels e.2 ids i status

theorem cancelledIn_nil (s : Store) (ids : List JobId) :
    s.CancelledIn [] ids = fun _ _ => False := by
  refine funext₂ fun i status => propext (iff_false_intro ?_)
  rintro ⟨before, e, after, hsplit, -⟩
  simp at hsplit

/-- A run cancels what its last call cancels and what the run before that does. -/
theorem cancelledIn_append_singleton (s : Store) (calls : List (Instant × Call))
    (e : Instant × Call) (ids : List JobId) : s.CancelledIn (calls ++ [e]) ids = fun i status =>
      s.CancelledIn calls ids i status ∨ (s.run calls).Cancels e.2 ids i status := by
  refine funext₂ fun i status => propext ⟨?_, ?_⟩
  · rintro ⟨before, e', after, hsplit, hcancels⟩
    rcases List.eq_nil_or_concat after with rfl | ⟨after, last, rfl⟩
    · obtain ⟨rfl, hsame⟩ := List.append_inj' hsplit rfl
      cases hsame
      exact Or.inr hcancels
    · rw [List.concat_eq_append, ← List.cons_append, ← List.append_assoc] at hsplit
      obtain ⟨rfl, -⟩ := List.append_inj' hsplit rfl
      exact Or.inl ⟨before, e', after, rfl, hcancels⟩
  · rintro (⟨before, e', after, rfl, hcancels⟩ | hcancels)
    · exact ⟨before, e', after ++ [e], by rw [List.append_assoc, List.cons_append], hcancels⟩
    · exact ⟨calls, e, [], rfl, hcancels⟩

theorem CancelledIn.append {calls : List (Instant × Call)} {status : JobStatus}
    (h : s.CancelledIn calls ids i status) (more : List (Instant × Call)) :
    s.CancelledIn (calls ++ more) ids i status := by
  obtain ⟨before, e, after, rfl, hcancels⟩ := h
  exact ⟨before, e, after ++ more, by rw [List.append_assoc, List.cons_append], hcancels⟩

/-- A completion cancels nothing. -/
theorem cancels_complete (s : Store) (ids : List JobId) (gone : Nat → JobStatus → Prop)
    (jobs : List FinishedJob) (delete : Bool) :
    (fun i status => gone i status ∨ s.Cancels (.complete jobs delete) ids i status) = gone := by
  refine funext₂ fun i status => propext (or_iff_left ?_)
  rintro ⟨_, -, hmem, -⟩
  cases hmem

theorem Backed.answer (h : Backed kind ids gone s) (hs : s.Distinct) (hc : c.Follows kind ids)
    (clock : Instant) :
    Backed kind ids (fun i status => gone i status ∨ s.Cancels c ids i status)
      (Store.answer clock c s).2 := by
  by_cases hcall : ∃ jobs delete, c = .complete jobs delete
  · obtain ⟨jobs, delete, rfl⟩ := hcall
    rw [cancels_complete]
    exact h.complete hs jobs delete clock
  · exact h.stays hs hc (fun jobs delete heq => hcall ⟨jobs, delete, heq⟩) clock

theorem Backed.run (h : Backed kind ids (fun _ _ => False) s) (hs : s.Distinct)
    {calls : List (Instant × Call)} (hcalls : ∀ e ∈ calls, e.2.Follows kind ids) :
    Backed kind ids (s.CancelledIn calls ids) (s.run calls) := by
  -- the induction is on the last call, since what was cancelled is told by the run so far
  induction calls using List.reverseRecOn with
  | nil =>
    rw [cancelledIn_nil]
    exact h
  | append_singleton calls e ih =>
    have hfirst := ih fun e he => hcalls e (List.mem_append_left _ he)
    have hlast := hcalls e (List.mem_append_right _ (List.mem_singleton.2 rfl))
    rw [run_append, cancelledIn_append_singleton]
    exact hfirst.answer (run_distinct hs calls) hlast e.1

/-- A sequence that has just been enqueued: all but the first member wait for the ones before. -/
theorem backed_of_linked {jobs : List NewJob} {created : Instant} (hlinked : kind.Linked jobs)
    (hmembers : ∀ job ∈ jobs, s.get? job.id = some (job.toJob created))
    (houtside : ∀ g, kind = .group g → ∀ id j, id ∉ jobs.map (·.id) → s.get? id = some j →
      j.successor ≠ .sequence g) :
    Backed kind (jobs.map (·.id)) (fun _ _ => False) s := by
  have hmember : ∀ i j, s.member? (jobs.map (·.id)) i = some j →
      ∃ job, jobs[i]? = some job ∧ j = job.toJob created := by
    intro i j hj
    obtain ⟨hid, hget⟩ := member?_eq_some_iff.1 hj
    obtain ⟨job, hjob, hsame⟩ := getElem?_ids.1 hid
    rw [← hsame, hmembers job (List.mem_of_getElem? hjob)] at hget
    exact ⟨job, hjob, (Option.some.inj hget).symm⟩
  have hstored : ∀ i, (h : i < jobs.length) →
      s.member? (jobs.map (·.id)) i = some (jobs[i].toJob created) := by
    intro i h
    exact member?_eq_some_iff.2 ⟨getElem?_ids.2 ⟨jobs[i], List.getElem?_eq_getElem h, rfl⟩,
      hmembers _ (List.getElem_mem h)⟩
  refine ⟨?_, ?_, houtside, ?_⟩
  · intro i j hj
    obtain ⟨job, hjob, rfl⟩ := hmember i j hj
    obtain ⟨hlt, rfl⟩ := List.getElem?_eq_some_iff.1 hjob
    refine ⟨?_, hlinked.once _ (List.getElem_mem hlt), ?_⟩
    · rw [List.getElem?_map]
      exact hlinked.successor i hlt
    · show jobs[i].initialStatus ≠ .failed
      unfold NewJob.initialStatus
      split <;> exact nofun
  · intro g hg i m j k hlt hj hk _ _
    obtain ⟨job, hjob, rfl⟩ := hmember i j hj
    obtain ⟨job', hjob', rfl⟩ := hmember m k hk
    obtain ⟨hi, rfl⟩ := List.getElem?_eq_some_iff.1 hjob
    obtain ⟨hm, rfl⟩ := List.getElem?_eq_some_iff.1 hjob'
    exact List.pairwise_iff_getElem.1 (hlinked.increasing g hg) i m hi hm hlt
  · intro i j hj hwaits
    obtain ⟨job, hjob, rfl⟩ := hmember i j hj
    obtain ⟨hlt, rfl⟩ := List.getElem?_eq_some_iff.1 hjob
    have hfirst : ∀ h : 0 < jobs.length, (jobs[0].toJob created).status = .scheduled := by
      intro h
      rw [NewJob.toJob, NewJob.initialStatus, hlinked.first h]
      rfl
    cases i with
    | zero =>
      rw [hfirst hlt] at hwaits
      cases hwaits
    | succ i =>
      -- the first member carries a whole group, and in a chain each member carries the next
      cases kind with
      | chain =>
        refine ⟨i, rfl, Or.inl ⟨_, hstored i (by omega), ?_⟩⟩
        show SequenceKind.chain.carries jobs[i].initialStatus
        unfold NewJob.initialStatus
        split <;> rfl
      | group g =>
        refine ⟨0, Nat.zero_lt_succ i, Or.inl ⟨_, hstored 0 (by omega), ?_⟩⟩
        rw [hfirst (by omega)]
        rfl

end Store

end JobQueue
