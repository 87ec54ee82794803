import JobQueue.Completion
import JobQueue.Proofs.Store.Replay

/-!
# Completing jobs in another order

The batcher writes the jobs that belong to no group before those that do, whatever order they came
in. This changes nothing as long as no job is both named by a link and member of a group: then two
completions let go the same jobs in either order.
-/

namespace JobQueue

instance (l : Successor) (j : Job) : Decidable (l.Names j) :=
  match l with
  | .none => isFalse not_false
  | .next id => inferInstanceAs (Decidable (j.id = id))
  | .sequence _ => inferInstanceAs (Decidable (j.successor = _))

namespace Store

variable {s s' : Store} {clock : Instant} {delete : Bool} {l l' : Successor} {p q : ProcessingJob}
  {j k : Job}

/-! ## 1. Changes of different jobs -/

theorem updateIf_congr {f : Job → Job} {a b : Job → Bool} (h : ∀ j ∈ s.jobs, a j = b j) :
    s.updateIf a f = s.updateIf b f := by
  have hjobs : s.jobs.map (fun j => if a j then f j else j) =
      s.jobs.map fun j => if b j then f j else j :=
    List.map_congr_left fun j hj => by rw [h j hj]
  rw [updateIf, updateIf, hjobs]

/-- Two changes commute if neither touches what the other looks at, and if they agree on the jobs
that both change. -/
theorem updateIf_comm {a b : Job → Bool} {f g : Job → Job} (ha : ∀ j, a (g j) = a j)
    (hb : ∀ j ∈ s.jobs, a j → b (f j) = b j) (hfg : ∀ j ∈ s.jobs, a j → b j → g (f j) = f (g j)) :
    (s.updateIf a f).updateIf b g = (s.updateIf b g).updateIf a f := by
  simp only [updateIf, List.map_map]
  congr 1
  apply List.map_congr_left
  intro j hj
  by_cases haj : a j = true
  · by_cases hbj : b j = true
    · simp [haj, hbj, ha, hb j hj haj, hfg j hj haj hbj]
    · simp [haj, hbj, hb j hj haj]
  · by_cases hbj : b j = true
    · simp [haj, hbj, ha]
    · simp [haj, hbj]

theorem updateIf_filter {a b : Job → Bool} {f : Job → Job}
    (hb : ∀ j ∈ s.jobs, a j → b (f j) = b j) :
    { s.updateIf a f with jobs := (s.updateIf a f).jobs.filter b } =
      updateIf { s with jobs := s.jobs.filter b } a f := by
  simp only [updateIf, List.filter_map]
  congr 2
  apply List.filter_congr
  intro j hj
  by_cases haj : a j = true
  · simp only [Function.comp, haj, if_true, hb j hj haj]
  · simp only [Function.comp, haj, Bool.false_eq_true, if_false]

/-! ## 2. Who waits for a link -/

/-- The jobs that wait and that the link can let go. -/
def waiting (s : Store) (l : Successor) : List Job :=
  s.jobs.filter fun j => j.status = .waitingPrev && l.Names j

theorem mem_waiting : j ∈ s.waiting l ↔ j ∈ s.jobs ∧ j.status = .waitingPrev ∧ l.Names j := by
  simp [waiting]

/-- The job that a link lets go depends only on those that wait for it. -/
theorem unlocked?_congr (hs : s.Distinct) (hs' : s'.Distinct) (h : s.waiting l = s'.waiting l) :
    s.unlocked? l = s'.unlocked? l := by
  cases l with
  | none => rfl
  | next id =>
    -- ids are distinct, so the job found by its id waits exactly if some job with that id does
    have hwaits : ∀ {t : Store}, t.Distinct →
        ((t.get? id).any (·.status = .waitingPrev) = true ↔ ∃ j, j ∈ t.waiting (.next id)) := by
      intro t ht
      constructor
      · intro hany
        obtain ⟨j, hj, hstatus⟩ := (Option.any_eq_true _ _).1 hany
        exact ⟨j, mem_waiting.2 ⟨mem_of_get? hj, of_decide_eq_true hstatus, id_of_get? hj⟩⟩
      · rintro ⟨j, hj⟩
        obtain ⟨hmem, hstatus, hid⟩ := mem_waiting.1 hj
        rw [(get?_eq_some_iff ht).2 ⟨hmem, hid⟩]
        simp [hstatus]
    have hsame : (s.get? id).any (·.status = .waitingPrev) =
        (s'.get? id).any (·.status = .waitingPrev) := by
      rw [Bool.eq_iff_iff, hwaits hs, hwaits hs', h]
    simp only [unlocked?, hsame]
  | sequence sequence =>
    -- the search passes over the members that do not wait
    have hfirst : ∀ t : Store, t.firstWaiting? sequence =
        (t.waiting (.sequence sequence)).foldl earlier none := fun t => rfl
    simp only [unlocked?, hfirst, h]

theorem waiting_updateIf {a : Job → Bool} {f : Job → Job}
    (h : ∀ j ∈ s.jobs, a j → ¬ (j.status = .waitingPrev ∧ l.Names j) ∧
      ¬ ((f j).status = .waitingPrev ∧ l.Names (f j))) :
    (s.updateIf a f).waiting l = s.waiting l := by
  simp only [waiting, updateIf, List.filter_map]
  have hsame : s.jobs.filter ((fun j => decide (j.status = .waitingPrev) && decide (l.Names j)) ∘
      fun j => if a j then f j else j) =
      s.jobs.filter fun j => j.status = .waitingPrev && l.Names j := by
    apply List.filter_congr
    intro j hj
    by_cases haj : a j = true
    · obtain ⟨hbefore, hafter⟩ := h j hj haj
      simp only [Function.comp, haj, if_true, ← Bool.decide_and, hbefore, hafter]
    · simp [haj]
  rw [hsame]
  -- none of those that wait is changed
  conv_rhs => rw [← List.map_id (List.filter _ _)]
  apply List.map_congr_left
  intro j hj
  obtain ⟨hmem, hwaits⟩ := List.mem_filter.1 hj
  rw [if_neg, id]
  intro haj
  exact (h j hmem haj).1 (by simpa using hwaits)

theorem waiting_filter {b : Job → Bool}
    (h : ∀ j ∈ s.jobs, j.status = .waitingPrev → b j = true) :
    waiting { s with jobs := s.jobs.filter b } l = s.waiting l := by
  simp only [waiting, List.filter_filter]
  apply List.filter_congr
  intro j hj
  by_cases hwaits : j.status = .waitingPrev
  · simp [hwaits, h j hj hwaits]
  · simp [hwaits]

/-! ## 3. Letting go in either order -/

/-- Letting a job go changes the one job that is found. -/
theorem unlock_eq_updateIf (hs : s.Distinct) (l : Successor) :
    s.unlock l = s.updateIf (fun j => s.unlocked? l = some j.id) Job.released := by
  cases l with
  | none => exact (updateIf_eq_self _ _ fun j _ => by simp [unlocked?]).symm
  | next id =>
    show s.updateIf (fun j => j.id = id && j.status = .waitingPrev) Job.released = _
    apply updateIf_congr
    intro j hj
    by_cases hid : j.id = id
    · subst hid
      simp [unlocked?, get?_of_mem hs hj]
    · simp [unlocked?, hid, Ne.symm hid]
  | sequence sequence =>
    cases hfirst : s.firstWaiting? sequence with
    | none =>
      simp only [unlock, hfirst]
      exact (updateIf_eq_self _ _ fun j _ => by simp [unlocked?, hfirst]).symm
    | some first =>
      rw [unlock_sequence hfirst]
      apply updateIf_congr
      intro j _
      simp [unlocked?, hfirst, eq_comm]

/-- A link that names no member of a group. -/
def Clear (s : Store) (l : Successor) : Prop :=
  ∀ j ∈ s.jobs, l = .next j.id → j.successor.isSequence = false

/-- No job is named by the link of another and member of a group. -/
def Unmixed (s : Store) : Prop := ∀ i ∈ s.jobs, s.Clear i.successor

instance (s : Store) (l : Successor) : Decidable (s.Clear l) :=
  inferInstanceAs (Decidable (∀ j ∈ s.jobs, _))

instance (s : Store) : Decidable s.Unmixed := inferInstanceAs (Decidable (∀ i ∈ s.jobs, _))

theorem eq_of_names (hl : s.Clear l) (hl' : s.Clear l') (hj : j ∈ s.jobs) (hjl : l.Names j)
    (hjl' : l'.Names j) : l = l' := by
  have hmember : ∀ {id sequence}, s.Clear (.next id) → j.id = id →
      j.successor ≠ .sequence sequence := by
    intro id sequence hclear hid hsequence
    subst hid
    have hno := hclear j hj rfl
    rw [hsequence] at hno
    cases hno
  -- a job has one id and is in one group, so only a mixed pair of links could differ
  cases l with
  | none => cases hjl
  | next id =>
    have hid : j.id = id := hjl
    cases l' with
    | none => cases hjl'
    | next id' =>
      have hid' : j.id = id' := hjl'
      rw [← hid, ← hid']
    | sequence sequence => exact absurd hjl' (hmember hl hid)
  | sequence sequence =>
    have hsequence : j.successor = .sequence sequence := hjl
    cases l' with
    | none => cases hjl'
    | next id => exact absurd hsequence (hmember hl' hjl')
    | sequence sequence' => exact hsequence.symm.trans hjl'

theorem unlocked?_unlock (hs : s.Distinct) (hl : s.Clear l) (hl' : s.Clear l') (hne : l ≠ l') :
    (s.unlock l).unlocked? l' = s.unlocked? l' := by
  apply unlocked?_congr (unlock_distinct hs l) hs
  rw [unlock_eq_updateIf hs]
  apply waiting_updateIf
  intro j hj hfound
  -- the job that is let go waited for the first link, so it does not wait for the second
  obtain ⟨i, hi, -, hnames⟩ := unlocked?_spec hs (of_decide_eq_true hfound)
  rw [get?_of_mem hs hj] at hi
  cases hi
  constructor
  · rintro ⟨-, hnames'⟩
    exact hne (eq_of_names hl hl' hj hnames hnames')
  · rintro ⟨hstatus, -⟩
    cases hstatus

theorem unlock_comm (hs : s.Distinct) (hl : s.Clear l) (hl' : s.Clear l') :
    (s.unlock l).unlock l' = (s.unlock l').unlock l := by
  by_cases hne : l = l'
  · rw [hne]
  · -- neither changes whom the other finds, so both change the same two jobs
    rw [unlock_eq_updateIf (unlock_distinct hs l), unlock_eq_updateIf (unlock_distinct hs l'),
      unlocked?_unlock hs hl hl' hne, unlocked?_unlock hs hl' hl (Ne.symm hne),
      unlock_eq_updateIf hs, unlock_eq_updateIf hs]
    exact updateIf_comm (fun _ => rfl) (fun _ _ _ => rfl) fun _ _ _ _ => rfl

/-! ## 4. Ending in either order -/

theorem ended_comm (hne : p.id ≠ q.id) :
    (s.ended p delete clock).ended q delete clock =
      (s.ended q delete clock).ended p delete clock := by
  cases delete with
  | true =>
    show Store.mk ((s.jobs.filter _).filter _) s.workers =
      Store.mk ((s.jobs.filter _).filter _) s.workers
    rw [List.filter_comm]
  | false =>
    apply updateIf_comm
    · exact fun _ => rfl
    · exact fun _ _ _ => rfl
    · intro j _ hp hq
      exact absurd ((of_decide_eq_true hp).symm.trans (of_decide_eq_true hq)) hne

theorem unlocked?_ended (hs : s.Distinct) (hk : s.get? p.id = some k)
    (hprocessing : k.status = .processing) :
    (s.ended p delete clock).unlocked? l = s.unlocked? l := by
  -- the job that ends is processing, so nobody who waits is touched
  have hstays : ∀ j ∈ s.jobs, j.id = p.id → j.status ≠ .waitingPrev := by
    intro j hj hid hwaits
    rw [(get?_eq_some_iff hs).2 ⟨hj, hid⟩] at hk
    cases hk
    rw [hwaits] at hprocessing
    cases hprocessing
  apply unlocked?_congr (ended_distinct hs p delete clock) hs
  cases delete with
  | true =>
    apply waiting_filter
    intro j hj hwaits
    rw [decide_eq_true_eq]
    intro hid
    exact hstays j hj hid hwaits
  | false =>
    apply waiting_updateIf
    intro j hj hid
    constructor
    · rintro ⟨hwaits, -⟩
      exact hstays j hj (of_decide_eq_true hid) hwaits
    · rintro ⟨hwaits, -⟩
      cases hwaits

/-- A job that is processing ends in the same way before and after another is let go. -/
theorem ended_unlock (hs : s.Distinct) (hk : s.get? p.id = some k)
    (hprocessing : k.status = .processing) :
    (s.unlock l).ended p delete clock = (s.ended p delete clock).unlock l := by
  rw [unlock_eq_updateIf (ended_distinct hs p delete clock), unlocked?_ended hs hk hprocessing,
    unlock_eq_updateIf hs]
  cases delete with
  | true => exact updateIf_filter fun _ _ _ => rfl
  | false =>
    apply updateIf_comm
    · exact fun _ => rfl
    · exact fun _ _ _ => rfl
    · -- a job that waits is not the one that ends
      intro j hj hfound hid
      obtain ⟨i, hi, hwaits, -⟩ := unlocked?_spec hs (of_decide_eq_true hfound)
      rw [of_decide_eq_true hid, hk] at hi
      cases hi
      rw [hwaits] at hprocessing
      cases hprocessing

/-! ## 5. Links are kept -/

/-- Every job of the second store is one of the first, with its link. -/
def Inherits (s s' : Store) : Prop :=
  ∀ j' ∈ s'.jobs, ∃ j ∈ s.jobs, j.id = j'.id ∧ j.successor = j'.successor

theorem Inherits.clear (h : Inherits s s') (hl : s.Clear l) : s'.Clear l := by
  intro j' hj' hid
  obtain ⟨j, hj, hsame, hsuccessor⟩ := h j' hj'
  rw [← hsuccessor]
  exact hl j hj (by rw [hsame, hid])

theorem Inherits.unmixed (h : Inherits s s') (hu : s.Unmixed) : s'.Unmixed := by
  intro i' hi'
  obtain ⟨i, hi, -, hsuccessor⟩ := h i' hi'
  rw [← hsuccessor]
  exact h.clear (hu i hi)

theorem Inherits.trans {t : Store} (h : Inherits s s') (h' : Inherits s' t) : Inherits s t := by
  intro j'' hj''
  obtain ⟨j', hj', hid', hsuccessor'⟩ := h' j'' hj''
  obtain ⟨j, hj, hid, hsuccessor⟩ := h j' hj'
  exact ⟨j, hj, hid.trans hid', hsuccessor.trans hsuccessor'⟩

theorem inherits_updateIf {a : Job → Bool} {f : Job → Job}
    (hf : ∀ j, (f j).id = j.id ∧ (f j).successor = j.successor) :
    Inherits s (s.updateIf a f) := by
  intro j' hj'
  obtain ⟨j, hj, hjj'⟩ := List.mem_map.1 hj'
  refine ⟨j, hj, ?_⟩
  rw [← hjj']
  split
  · exact ⟨(hf j).1.symm, (hf j).2.symm⟩
  · exact ⟨rfl, rfl⟩

theorem inherits_ended : Inherits s (s.ended p delete clock) := by
  cases delete with
  | true => exact fun j hj => ⟨j, List.mem_of_mem_filter hj, rfl, rfl⟩
  | false => exact inherits_updateIf fun _ => ⟨rfl, rfl⟩

theorem inherits_unlock (hs : s.Distinct) : Inherits s (s.unlock l) := by
  rw [unlock_eq_updateIf hs]
  exact inherits_updateIf fun _ => ⟨rfl, rfl⟩

theorem inherits_completeOne (hs : s.Distinct) : Inherits s (s.completeOne p delete clock) := by
  cases h : s.owned? p with
  | none =>
    rw [completeOne_of_free h]
    exact fun j hj => ⟨j, hj, rfl, rfl⟩
  | some j =>
    rw [completeOne_of_owned h]
    exact inherits_ended.trans (inherits_unlock (ended_distinct hs p delete clock))

/-! ## 6. Completing in either order -/

/-- Two completions of different jobs: both end, and then both links let go. -/
theorem completeOne_completeOne (hs : s.Distinct) (hne : p.id ≠ q.id) (hj : s.owned? p = some j)
    (hk : s.owned? q = some k) :
    (s.completeOne p delete clock).completeOne q delete clock =
      (((s.ended p delete clock).ended q delete clock).unlock j.successor).unlock k.successor := by
  obtain ⟨hgetk, hkq⟩ := (owned?_eq_some_iff hs).1 hk
  have hprocessing := (Job.isOwnedBy_iff.1 hkq).2.1
  have hended := ended_distinct hs p delete clock
  have hstill : (s.ended p delete clock).get? q.id = some k := by
    rw [get?_ended hs, if_neg (Ne.symm hne), hgetk]
  -- the second job is processing, so it is not the one that the first lets go
  have howned : ((s.ended p delete clock).unlock j.successor).owned? q = some k := by
    rw [owned?_eq_some_iff (unlock_distinct hended _), get?_unlock, hstill]
    refine ⟨?_, hkq⟩
    rw [Option.map_some, if_neg]
    intro hfound
    obtain ⟨i, hi, hwaits, -⟩ := unlocked?_spec hended hfound
    rw [(Job.isOwnedBy_iff.1 hkq).1, hstill] at hi
    cases hi
    rw [hwaits] at hprocessing
    cases hprocessing
  rw [completeOne_of_owned hj, completeOne_of_owned howned, ended_unlock hended hstill hprocessing]

theorem holds_of_holds_completeOne (hs : s.Distinct)
    (h : (s.completeOne q delete clock).Holds p) : s.Holds p := by
  by_contra hfree
  -- only a claim makes a job one of a worker
  have hafter : (Store.answer clock (.complete [⟨q, .none⟩] delete) s).2.Holds p := h
  obtain ⟨limit, now, claims, hcall, -⟩ := grants_of_holds hs hfree hafter
  cases hcall

theorem completeOne_comm (hs : s.Distinct) (hu : s.Unmixed) (p q : ProcessingJob) (delete : Bool)
    (clock : Instant) :
    (s.completeOne p delete clock).completeOne q delete clock =
      (s.completeOne q delete clock).completeOne p delete clock := by
  -- a completion of a job that its worker does not hold does nothing, before and after the other
  have hskip : ∀ {t : Store} {r : ProcessingJob}, t.Distinct → ¬ t.Holds r →
      t.completeOne r delete clock = t := by
    intro t r ht hfree
    exact completeOne_eq_self ht delete clock fun j hj howned => hfree (holds_iff.2 ⟨j, hj, howned⟩)
  by_cases hp : s.Holds p
  · by_cases hq : s.Holds q
    · obtain ⟨j, hj, hjp⟩ := holds_iff.1 hp
      obtain ⟨k, hk, hkq⟩ := holds_iff.1 hq
      by_cases hid : p.id = q.id
      · -- one job has one owner, so the two are the same
        rw [hid, hk] at hj
        cases hj
        rw [Job.eq_of_isOwnedBy hjp hkq]
      · have hjowned := (owned?_eq_some_iff hs).2 ⟨hj, hjp⟩
        have hkowned := (owned?_eq_some_iff hs).2 ⟨hk, hkq⟩
        have hboth := ended_distinct (ended_distinct hs p delete clock) q delete clock
        have hclear : ∀ i ∈ s.jobs,
            ((s.ended p delete clock).ended q delete clock).Clear i.successor := fun i hi =>
          (inherits_ended.trans inherits_ended).clear (hu i hi)
        rw [completeOne_completeOne hs hid hjowned hkowned,
          completeOne_completeOne hs (Ne.symm hid) hkowned hjowned, ended_comm (Ne.symm hid),
          unlock_comm hboth (hclear j (mem_of_get? hj)) (hclear k (mem_of_get? hk))]
    · rw [hskip hs hq, hskip (completeOne_distinct hs p delete clock)]
      exact fun h => hq (holds_of_holds_completeOne hs h)
  · rw [hskip hs hp, hskip (completeOne_distinct hs q delete clock)]
    exact fun h => hp (holds_of_holds_completeOne hs h)

theorem complete_append (jobs jobs' : List FinishedJob) :
    s.complete (jobs ++ jobs') delete clock =
      (s.complete jobs delete clock).complete jobs' delete clock :=
  List.foldl_append

theorem complete_perm (hs : s.Distinct) (hu : s.Unmixed) {jobs jobs' : List FinishedJob}
    (h : jobs.Perm jobs') (delete : Bool) (clock : Instant) :
    s.complete jobs delete clock = s.complete jobs' delete clock := by
  induction h generalizing s with
  | nil => rfl
  | cons f _ ih =>
    exact ih (completeOne_distinct hs f.job delete clock) ((inherits_completeOne hs).unmixed hu)
  | swap f g rest =>
    -- the first two in the other order, and then the rest on the same store
    show ((s.completeOne g.job delete clock).completeOne f.job delete clock).complete rest delete
      clock = _
    rw [completeOne_comm hs hu]
    rfl
  | trans _ _ ih ih' => exact (ih hs hu).trans (ih' hs hu)

end Store

end JobQueue
