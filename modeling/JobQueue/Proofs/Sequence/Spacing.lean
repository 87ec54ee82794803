import JobQueue.Database.Value
import JobQueue.Proofs.Sequence.Linked
import Mathlib.Data.List.Forall2
import Mathlib.Order.Bounds.Basic

/-!
# The schedules of a group

A member of a group is due as late as it was asked for, and as late as each member before it pushes
it: at the time that this member was asked for and one step for every place between them. These are
the least times that are not before those asked for and at least a step apart. A group is built as
long as they are on the calendar, and building it crashes where they are not.
-/

namespace JobQueue

namespace SequenceKind

/-! ## 1. Times that are a step apart -/

/-- What the members before the `i`th, and the `i`th itself, ask of its time: the time asked for
with one step for every place from there to the `i`th. -/
def pushes (requested : List Int) (i : Nat) : Set Int :=
  {t | ∃ j r, j ≤ i ∧ requested[j]? = some r ∧ t = r + ((i : Int) - j) * spacing.nanos}

/-- Times for the members of a group that none of them comes before, in steps at least. -/
structure Spaced (requested times : List Int) : Prop where
  requested_le : List.Forall₂ (· ≤ ·) requested times
  apart : times.IsChain fun a b => a + spacing.nanos ≤ b

/-- Times that are no later than some member asks for. -/
structure Tight (requested times : List Int) : Prop extends Spaced requested times where
  pushed : ∀ (i : Nat) (t : Int), times[i]? = some t → t ∈ pushes requested i

variable {requested times other : List Int} {p r s t : Int} {i : Nat}

theorem spacing_nanos : spacing.nanos = 1000000 := rfl

theorem mem_pushes_zero : t ∈ pushes (r :: requested) 0 ↔ t = r := by
  constructor
  · rintro ⟨j, r', hj, hr, rfl⟩
    cases Nat.le_zero.1 hj
    cases hr
    simp only [Int.sub_self, Int.zero_mul, Int.add_zero]
  · rintro rfl
    exact ⟨0, t, Nat.le_refl 0, rfl, by simp only [Int.sub_self, Int.zero_mul, Int.add_zero]⟩

theorem mem_pushes_succ : t ∈ pushes (r :: requested) (i + 1) ↔
    t = r + (i + 1) * spacing.nanos ∨ t ∈ pushes requested i := by
  simp only [pushes, Set.mem_ofPred_eq, spacing_nanos]
  constructor
  · rintro ⟨j, r', hj, hr, rfl⟩
    cases j with
    | zero =>
      cases hr
      left
      omega
    | succ j => exact Or.inr ⟨j, r', Nat.le_of_succ_le_succ hj, hr, by omega⟩
  · rintro (rfl | ⟨j, r', hj, hr, rfl⟩)
    · exact ⟨0, r, Nat.zero_le _, rfl, by omega⟩
    · exact ⟨j + 1, r', Nat.succ_le_succ hj, hr, by omega⟩

/-- What is asked of the members after a time that is itself pushed is asked of them by the member
that it belongs to, or by the one before it. -/
theorem pushes_max_subset : pushes (max s (p + spacing.nanos) :: requested) i ⊆
    pushes (p :: s :: requested) (i + 1) := by
  intro t ht
  rw [mem_pushes_succ]
  cases i with
  | zero =>
    rw [mem_pushes_zero] at ht ⊢
    push_cast
    omega
  | succ i =>
    rw [mem_pushes_succ] at ht ⊢
    rcases ht with ht | ht
    · rw [spacing_nanos] at ht ⊢
      push_cast
      omega
    · exact Or.inr (Or.inr ht)

theorem exists_pushes_max_le (h : t ∈ pushes (p :: s :: requested) (i + 1)) :
    ∃ t' ∈ pushes (max s (p + spacing.nanos) :: requested) i, t ≤ t' := by
  rw [mem_pushes_succ] at h
  cases i with
  | zero =>
    rw [mem_pushes_zero] at h
    refine ⟨_, mem_pushes_zero.2 rfl, ?_⟩
    push_cast at h
    omega
  | succ i =>
    rw [mem_pushes_succ, ← or_assoc] at h
    rcases h with h | h
    · refine ⟨_, mem_pushes_succ.2 (Or.inl rfl), ?_⟩
      rw [spacing_nanos] at h ⊢
      push_cast at h
      omega
    · exact ⟨t, mem_pushes_succ.2 (Or.inr h), Int.le_refl t⟩

/-! ## 2. The least times -/

/-- A time comes after each one before it, with a step for every place between them. -/
theorem Spaced.step_le (h : Spaced requested times) {j : Nat} {a b : Int} (hj : j ≤ i)
    (ha : times[j]? = some a) (hb : times[i]? = some b) :
    a + ((i : Int) - j) * spacing.nanos ≤ b := by
  rw [spacing_nanos]
  induction i, hj using Nat.le_induction generalizing b with
  | base =>
    rw [ha] at hb
    cases hb
    omega
  | succ i hle ih =>
    obtain ⟨hi, rfl⟩ := List.getElem?_eq_some_iff.1 hb
    have hstep := h.apart.getElem i hi
    have hbefore := ih (List.getElem?_eq_getElem (Nat.lt_of_succ_lt hi))
    rw [spacing_nanos] at hstep
    push_cast
    omega

/-- Times that keep the distance are as late as any member asks. -/
theorem Spaced.push_le (h : Spaced requested times) {a : Int} (ht : t ∈ pushes requested i)
    (ha : times[i]? = some a) : t ≤ a := by
  obtain ⟨j, r, hj, hr, rfl⟩ := ht
  obtain ⟨hi, -⟩ := List.getElem?_eq_some_iff.1 ha
  have hb : times[j]? = some times[j] := List.getElem?_eq_getElem (Nat.lt_of_le_of_lt hj hi)
  have hle : r ≤ times[j] := by
    obtain ⟨hjr, rfl⟩ := List.getElem?_eq_some_iff.1 hr
    exact h.requested_le.get hjr (Nat.lt_of_le_of_lt hj hi)
  have hstep := h.step_le hj hb ha
  omega

theorem Tight.isGreatest (h : Tight requested times) (ht : times[i]? = some t) :
    IsGreatest (pushes requested i) t :=
  ⟨h.pushed i t ht, fun _ hpush => h.push_le hpush ht⟩

/-- Tight times are the least ones that keep the distance. -/
theorem Tight.le (h : Tight requested times) (hother : Spaced requested other) :
    List.Forall₂ (· ≤ ·) times other := by
  have hlength : times.length = other.length := by
    rw [← h.requested_le.length_eq, hother.requested_le.length_eq]
  refine List.forall₂_of_length_eq_of_get hlength fun i hi hi' => ?_
  have hpush := h.pushed i _ (List.getElem?_eq_getElem hi)
  exact hother.push_le hpush (List.getElem?_eq_getElem hi')

/-- Times that keep the distance already are not moved. -/
theorem Tight.eq_of_apart (h : Tight requested times)
    (hapart : requested.IsChain fun a b => a + spacing.nanos ≤ b) : times = requested := by
  have hself : Spaced requested requested := ⟨List.forall₂_refl requested, hapart⟩
  have hle := h.le hself
  refine List.ext_getElem hle.length_eq fun i hi hi' => ?_
  exact Int.le_antisymm (hle.get hi hi') (h.requested_le.get hi' hi)

/-! ## 3. Spreading -/

/-- When jobs are due, in nanoseconds. -/
def dueTimes (jobs : List NewJob) : List Int := jobs.map (·.scheduledAt.nanos)

variable {g : SequenceId} {previous : Instant} {jobs members : List NewJob}

theorem getElem?_dueTimes (hi : i < jobs.length) :
    (dueTimes jobs)[i]? = some jobs[i].scheduledAt.nanos := by
  rw [dueTimes, List.getElem?_map, List.getElem?_eq_getElem hi, Option.map_some]

theorem tight_spread (h : spread g previous jobs = .ok members) :
    Tight (previous.nanos :: dueTimes jobs) (previous.nanos :: dueTimes members) := by
  induction jobs generalizing previous members with
  | nil =>
    cases h
    refine ⟨⟨List.forall₂_refl _, List.IsChain.singleton _⟩, ?_⟩
    intro i t ht
    cases i with
    | zero =>
      cases ht
      exact mem_pushes_zero.2 rfl
    | succ i => cases ht
  | cons job rest ih =>
    obtain ⟨earliest, others, hadd, hrest, rfl⟩ := spread_cons h
    have htight := ih hrest
    have hearliest : earliest.nanos = previous.nanos + spacing.nanos :=
      Instant.ofNanos?_eq_some_iff.1 hadd
    rw [Instant.nanos_max, hearliest] at htight
    show Tight (_ :: _ :: dueTimes rest) (_ :: (max job.scheduledAt earliest).nanos :: _)
    rw [Instant.nanos_max, hearliest]
    refine ⟨⟨?_, ?_⟩, ?_⟩
    · obtain ⟨-, hlater⟩ := List.forall₂_cons.1 htight.requested_le
      exact .cons (Int.le_refl _) (.cons (Int.le_max_left ..) hlater)
    · exact List.isChain_cons_cons.2 ⟨Int.le_max_right .., htight.apart⟩
    · intro i t ht
      cases i with
      | zero =>
        cases ht
        exact mem_pushes_zero.2 rfl
      | succ i => exact pushes_max_subset (htight.pushed i t ht)

/-- Spreading fails only with a crash, and exactly if the last time comes after the end of the
calendar. -/
theorem spread_eq_error_iff {e : Stop QueueError} : spread g previous jobs = .error e ↔
    e = .crash ∧ ∃ t ∈ pushes (previous.nanos :: dueTimes jobs) jobs.length,
      Instant.maxNanos < t := by
  induction jobs generalizing previous with
  | nil =>
    constructor
    · rintro ⟨⟩
    · rintro ⟨-, t, ht, hlate⟩
      have hmax := previous.le_max
      rw [mem_pushes_zero.1 ht] at hlate
      omega
  | cons job rest ih =>
    have hmin := previous.min_le
    rw [spread]
    cases hadd : previous.add? spacing with
    | none =>
      -- already the first step leaves the calendar, and the others go further
      have hlate : Instant.maxNanos < previous.nanos + spacing.nanos := by
        have hout := Instant.ofNanos?_eq_none_iff.1 hadd
        rw [spacing_nanos] at hout ⊢
        omega
      have hlast : ∃ t ∈ pushes (previous.nanos :: dueTimes (job :: rest)) (rest.length + 1),
          Instant.maxNanos < t := by
        refine ⟨_, mem_pushes_succ.2 (Or.inl rfl), ?_⟩
        rw [spacing_nanos] at hlate ⊢
        omega
      simp only [Except.error.injEq, eq_comm, List.length_cons, hlast, and_true]
    | some earliest =>
      have hearliest : earliest.nanos = previous.nanos + spacing.nanos :=
        Instant.ofNanos?_eq_some_iff.1 hadd
      rw [bind_ok_eq_error_iff, ih, Instant.nanos_max, hearliest]
      refine and_congr_right fun _ => ?_
      constructor
      · rintro ⟨t, ht, hlate⟩
        exact ⟨t, pushes_max_subset ht, hlate⟩
      · rintro ⟨t, ht, hlate⟩
        obtain ⟨t', ht', hle⟩ := exists_pushes_max_le ht
        exact ⟨t', ht', Int.lt_of_lt_of_le hlate hle⟩

theorem tight_linkGroup (h : linkGroup g jobs = .ok members) :
    Tight (dueTimes jobs) (dueTimes members) := by
  cases jobs with
  | nil =>
    cases h
    exact ⟨⟨.nil, .nil⟩, nofun⟩
  | cons job rest =>
    obtain ⟨others, hrest, h⟩ := bind_eq_ok_iff.1 h
    cases h
    exact tight_spread hrest

/-- The group is crammed: the last member would be due after the end of the calendar. -/
def Crammed (jobs : List NewJob) : Prop :=
  ∃ t ∈ pushes (dueTimes jobs) (jobs.length - 1), Instant.maxNanos < t

theorem Crammed.lt_length (h : Crammed jobs) : jobs.length - 1 < jobs.length := by
  obtain ⟨t, ⟨j, r, -, hr, -⟩, -⟩ := h
  obtain ⟨hj, -⟩ := List.getElem?_eq_some_iff.1 hr
  rw [dueTimes, List.length_map] at hj
  omega

theorem linkGroup_eq_error_iff {e : Stop QueueError} :
    linkGroup g jobs = .error e ↔ e = .crash ∧ Crammed jobs := by
  cases jobs with
  | nil =>
    constructor
    · rintro ⟨⟩
    · rintro ⟨-, t, ⟨j, r, -, hr, -⟩, -⟩
      cases hr
  | cons job rest =>
    rw [linkGroup, bind_ok_eq_error_iff]
    exact spread_eq_error_iff

/-! ## 4. What is built -/

/-- The member is the job but for the group that it names and its time. -/
def IsMoved (g : SequenceId) (job member : NewJob) : Prop :=
  member = { job with successor := .sequence g, scheduledAt := member.scheduledAt }

theorem forall₂_spread (h : spread g previous jobs = .ok members) :
    List.Forall₂ (IsMoved g) jobs members := by
  induction jobs generalizing previous members with
  | nil =>
    cases h
    exact .nil
  | cons job rest ih =>
    obtain ⟨earliest, others, -, hrest, rfl⟩ := spread_cons h
    exact .cons rfl (ih hrest)

theorem forall₂_linkGroup (h : linkGroup g jobs = .ok members) :
    List.Forall₂ (IsMoved g) jobs members := by
  cases jobs with
  | nil =>
    cases h
    exact .nil
  | cons job rest =>
    obtain ⟨others, hrest, h⟩ := bind_eq_ok_iff.1 h
    cases h
    exact .cons rfl (forall₂_spread hrest)

theorem getElem?_holdBack (jobs : List NewJob) (i : Nat) :
    (holdBack jobs)[i]? = jobs[i]?.map fun job =>
      { job with waits := job.waits || decide (0 < i) } := by
  cases jobs with
  | nil => rfl
  | cons job rest =>
    cases i with
    | zero => simp [holdBack]
    | succ i => simp [holdBack]

/-- The job at a place of a group, due at a time. -/
def memberAt (g : SequenceId) (i : Nat) (job : NewJob) (t : Instant) : NewJob :=
  { job with successor := .sequence g, scheduledAt := t, waits := job.waits || decide (0 < i) }

/-- What a group is linked to: its jobs at the least times a step apart. -/
structure Grouped (g : SequenceId) (jobs members : List NewJob) : Prop where
  length_eq : members.length = jobs.length
  member : ∀ i (hi : i < jobs.length) (hi' : i < members.length),
    members[i] = memberAt g i jobs[i] members[i].scheduledAt
  tight : Tight (dueTimes jobs) (dueTimes members)

theorem grouped_linkGroup (h : linkGroup g jobs = .ok members) :
    Grouped g jobs (holdBack members) := by
  have hmoved := forall₂_linkGroup h
  have hlength : (holdBack members).length = jobs.length :=
    (holdBack_length members).trans hmoved.length_eq.symm
  have hmember : ∀ i (hi : i < members.length) (hi' : i < (holdBack members).length),
      (holdBack members)[i] =
        { members[i] with waits := members[i].waits || decide (0 < i) } := by
    intro i hi hi'
    have hheld := getElem?_holdBack members i
    rw [List.getElem?_eq_getElem hi, List.getElem?_eq_getElem hi'] at hheld
    exact Option.some.inj hheld
  refine ⟨hlength, fun i hi hi' => ?_, ?_⟩
  · have hlt : i < members.length := hmoved.length_eq ▸ hi
    have hjob : IsMoved g jobs[i] members[i] := hmoved.get hi hlt
    rw [hmember i hlt hi', hjob]
    rfl
  · have htimes : dueTimes (holdBack members) = dueTimes members := by
      refine List.ext_getElem (by simp only [dueTimes, List.length_map, holdBack_length]) ?_
      intro i hi hi'
      simp only [dueTimes, List.length_map] at hi hi'
      simp only [dueTimes, List.getElem_map, hmember i hi' hi]
    rw [htimes]
    exact tight_linkGroup h

theorem link_of_once (kind : SequenceKind) (honce : ∀ job ∈ jobs, job.cron = none) :
    kind.link jobs = match kind with
      | .chain => .ok (holdBack (linkChain jobs))
      | .group g => (linkGroup g jobs).map holdBack := by
  refine if_neg fun hany => ?_
  obtain ⟨job, hjob, hcron⟩ := List.any_eq_true.1 hany
  rw [honce job hjob] at hcron
  cases hcron

/-- A group is linked unless it is crammed. -/
theorem link_group (g : SequenceId) (honce : ∀ job ∈ jobs, job.cron = none) :
    (link (.group g) jobs = .error .crash ∧ Crammed jobs) ∨
      ∃ members, link (.group g) jobs = .ok members ∧ ¬ Crammed jobs ∧ Grouped g jobs members := by
  have hlinked : link (.group g) jobs = (linkGroup g jobs).map holdBack := link_of_once _ honce
  rw [hlinked]
  cases hlink : linkGroup g jobs with
  | error e =>
    obtain ⟨rfl, hcrammed⟩ := linkGroup_eq_error_iff.1 hlink
    exact Or.inl ⟨rfl, hcrammed⟩
  | ok members =>
    refine Or.inr ⟨holdBack members, rfl, ?_, grouped_linkGroup hlink⟩
    intro hcrammed
    rw [linkGroup_eq_error_iff.2 ⟨rfl, hcrammed⟩] at hlink
    cases hlink

/-! ## 5. Linking again -/

/-- Jobs that keep the distance already are on the calendar with all that they ask for. -/
theorem not_crammed_of_apart
    (hapart : (dueTimes jobs).IsChain fun a b => a + spacing.nanos ≤ b) : ¬ Crammed jobs := by
  intro hcrammed
  have hlt := hcrammed.lt_length
  obtain ⟨t, hpush, hlate⟩ := hcrammed
  have hself : Spaced (dueTimes jobs) (dueTimes jobs) := ⟨List.forall₂_refl _, hapart⟩
  have hle := hself.push_le hpush (getElem?_dueTimes hlt)
  have hmax := jobs[jobs.length - 1].scheduledAt.le_max
  omega

theorem Grouped.once (h : Grouped g jobs members) (honce : ∀ job ∈ jobs, job.cron = none) :
    ∀ member ∈ members, member.cron = none := by
  intro member hmember
  obtain ⟨i, hi, rfl⟩ := List.mem_iff_getElem.1 hmember
  have hi' : i < jobs.length := h.length_eq ▸ hi
  rw [h.member i hi' hi]
  exact honce jobs[i] (List.getElem_mem hi')

/-- Members of a group become themselves. -/
theorem Grouped.eq_of_grouped {again : List NewJob} (h : Grouped g jobs members)
    (hagain : Grouped g members again) : again = members := by
  have htimes : dueTimes again = dueTimes members := hagain.tight.eq_of_apart h.tight.apart
  refine List.ext_getElem hagain.length_eq fun i hi hi' => ?_
  have htime : again[i].scheduledAt = members[i].scheduledAt := by
    have hnanos := getElem?_dueTimes hi
    rw [htimes, getElem?_dueTimes hi'] at hnanos
    exact Instant.eq_of_nanos_eq (Option.some.inj hnanos).symm
  have hmember := h.member i (h.length_eq ▸ hi') hi'
  have hwaits : (members[i].waits || decide (0 < i)) = members[i].waits := by
    rw [hmember, memberAt, Bool.or_assoc, Bool.or_self]
  have hsuccessor : members[i].successor = .sequence g := by rw [hmember, memberAt]
  rw [hagain.member i hi' hi, htime, memberAt, hwaits, ← hsuccessor]

theorem link_members (honce : ∀ job ∈ jobs, job.cron = none) (h : Grouped g jobs members) :
    link (.group g) members = .ok members := by
  obtain ⟨-, hcrammed⟩ | ⟨again, hagain, -, hgrouped⟩ := link_group g (h.once honce)
  · exact absurd hcrammed (not_crammed_of_apart h.tight.apart)
  · rw [hagain, h.eq_of_grouped hgrouped]

/-! ## 6. Storage -/

/-- Times that are a step apart are told apart in whole milliseconds. -/
theorem truncMillis_lt {a b : Instant} (h : a.nanos + spacing.nanos ≤ b.nanos) :
    a.truncMillis < b.truncMillis := by
  have hcut : ∀ t : Instant, t.truncMillis.nanos = t.nanos / 1000000 * 1000000 := by
    intro t
    have hmin := t.min_le
    have hmax := t.le_max
    have hin : Instant.ofNanos? (t.nanos / 1000000 * 1000000) ≠ none := by
      rw [Ne, Instant.ofNanos?_eq_none_iff]
      unfold Instant.minNanos Instant.maxNanos at *
      omega
    obtain ⟨t', ht'⟩ := Option.ne_none_iff_exists'.1 hin
    rw [Instant.truncMillis, Int.fdiv_eq_ediv_of_nonneg _ (by decide), ht', Option.getD_some]
    exact Instant.ofNanos?_eq_some_iff.1 ht'
  show a.truncMillis.nanos < b.truncMillis.nanos
  rw [spacing_nanos] at h
  rw [hcut, hcut]
  omega

/-- So they are in whole microseconds. -/
theorem timestamp_lt {a b : Instant} (h : a.nanos + spacing.nanos ≤ b.nanos) :
    (Database.Timestamp.ofInstant a).instant < (Database.Timestamp.ofInstant b).instant := by
  have hcut : ∀ t : Instant, t.nanos - 1000 < (Database.Timestamp.ofInstant t).instant.nanos ∧
      (Database.Timestamp.ofInstant t).instant.nanos < t.nanos + 1000 := by
    intro t
    unfold Database.Timestamp.ofInstant
    split <;> simp only <;> omega
  have ha := (hcut a).2
  have hb := (hcut b).1
  rw [spacing_nanos] at h
  show (Database.Timestamp.ofInstant a).instant.nanos <
    (Database.Timestamp.ofInstant b).instant.nanos
  omega

theorem Spaced.pairwise (h : Spaced requested (dueTimes members)) :
    members.Pairwise fun a b =>
      a.scheduledAt.nanos + spacing.nanos ≤ b.scheduledAt.nanos := by
  rw [List.pairwise_iff_getElem]
  intro i j hi hj hij
  have hstep := h.step_le (Nat.le_of_lt hij) (getElem?_dueTimes hi) (getElem?_dueTimes hj)
  rw [spacing_nanos] at hstep ⊢
  omega

/-! ## 7. Building a group -/

/-- **A group is due at the least times that are not before those asked for and a step apart.** Each
member is due at the latest time that it or a member before it asks of it. Nothing else of the jobs
is changed but that they name the group, and that all but the first of them wait. The order survives
where times are kept in milliseconds or microseconds, and linking a group again changes nothing. -/
theorem group_least
    (hbuilt : ∀ job ∈ jobs, ∃ (d : Draft) (clock : Instant), d.build clock = .ok job)
    (honce : ∀ job ∈ jobs, job.cron = none)
    (hcalendar : ∀ i < jobs.length, ∀ t ∈ pushes (dueTimes jobs) i, t ≤ Instant.maxNanos) :
    ∃ members, link (.group g) jobs = .ok members ∧
      (∀ drafts clock, drafts.mapM (·.build clock) = .ok jobs →
        build (.group g) drafts clock = .ok members) ∧
      members.length = jobs.length ∧
      (∀ i (_ : i < jobs.length) (_ : i < members.length),
        members[i] = { jobs[i] with
          successor := .sequence g
          scheduledAt := members[i].scheduledAt
          waits := decide (0 < i) } ∧
        IsGreatest (pushes (dueTimes jobs) i) members[i].scheduledAt.nanos) ∧
      Spaced (dueTimes jobs) (dueTimes members) ∧
      (∀ times, Spaced (dueTimes jobs) times →
        List.Forall₂ (· ≤ ·) (dueTimes members) times) ∧
      (members.Pairwise fun a b => a.scheduledAt.truncMillis < b.scheduledAt.truncMillis ∧
        (Database.Timestamp.ofInstant a.scheduledAt).instant <
          (Database.Timestamp.ofInstant b.scheduledAt).instant) ∧
      link (.group g) members = .ok members := by
  obtain ⟨-, hcrammed⟩ | ⟨members, hlink, -, hgrouped⟩ := link_group g honce
  · have hlt := hcrammed.lt_length
    obtain ⟨t, hpush, hlate⟩ := hcrammed
    exact absurd (hcalendar _ hlt t hpush) (Int.not_le.2 hlate)
  · refine ⟨members, hlink, ?build, hgrouped.length_eq, ?members, hgrouped.tight.toSpaced,
      fun times htimes => hgrouped.tight.le htimes, ?stored, link_members honce hgrouped⟩
    case build =>
      intro drafts clock hjobs
      rw [build, hjobs]
      exact hlink
    case members =>
      intro i hi hi'
      obtain ⟨d, clock, hjob⟩ := hbuilt _ (List.getElem_mem hi)
      have hmember := hgrouped.member i hi hi'
      rw [memberAt, (Draft.unlinked_of_build hjob).1, Bool.false_or] at hmember
      exact ⟨hmember, hgrouped.tight.isGreatest (getElem?_dueTimes hi')⟩
    case stored =>
      exact hgrouped.tight.toSpaced.pairwise.imp fun h => ⟨truncMillis_lt h, timestamp_lt h⟩

/-- A draft that is due at a time. -/
def dueDraft (n : Nat) (t : Instant) : Draft :=
  { Draft.new { name := "plain", parameter := .nothing } ⟨.ofNat n⟩ with scheduledAt := some t }

/-- The last of three members was to be first, and is due last. -/
theorem group_least_three :
    let drafts := [dueDraft 1 ⟨5000000, by decide, by decide⟩,
      dueDraft 2 ⟨5000000, by decide, by decide⟩, dueDraft 3 .epoch]
    ∃ members, build (.group ⟨.ofNat 9⟩) drafts .epoch = .ok members ∧
      dueTimes members = [5000000, 6000000, 7000000] ∧
      ∀ times, Spaced [5000000, 5000000, 0] times →
        List.Forall₂ (· ≤ ·) (dueTimes members) times := by
  intro drafts
  obtain ⟨jobs, hjobs, htimes, honce⟩ : ∃ jobs, drafts.mapM (·.build .epoch) = .ok jobs ∧
      dueTimes jobs = [5000000, 5000000, 0] ∧ ∀ job ∈ jobs, job.cron = none :=
    ⟨_, rfl, rfl, by decide⟩
  have hbuilt : ∀ job ∈ jobs, ∃ (d : Draft) (clock : Instant), d.build clock = .ok job := by
    intro job hjob
    obtain ⟨d, -, hd⟩ := drafts_build hjobs job hjob
    exact ⟨d, .epoch, hd⟩
  have hlength : jobs.length = 3 := by
    have hthree := congrArg List.length htimes
    rwa [dueTimes, List.length_map] at hthree
  have hcalendar : ∀ i < jobs.length, ∀ t ∈ pushes (dueTimes jobs) i, t ≤ Instant.maxNanos := by
    rintro i hi t ⟨j, r, hj, hr, rfl⟩
    have hearly : ∀ r ∈ dueTimes jobs, r ≤ 5000000 := by
      rw [htimes]
      decide
    have hle := hearly r (List.mem_of_getElem? hr)
    rw [spacing_nanos, Instant.maxNanos]
    omega
  obtain ⟨built, hmembers, hdue⟩ : ∃ built, build (.group ⟨.ofNat 9⟩) drafts .epoch = .ok built ∧
      dueTimes built = [5000000, 6000000, 7000000] := ⟨_, rfl, rfl⟩
  obtain ⟨members, -, hbuild, -, -, -, hleast, -⟩ :=
    group_least (g := ⟨.ofNat 9⟩) hbuilt honce hcalendar
  cases (hbuild drafts .epoch hjobs).symm.trans hmembers
  rw [htimes] at hleast
  exact ⟨built, hmembers, hdue, hleast⟩

/-! ## 8. Leaving the calendar -/

theorem link_recurrent (kind : SequenceKind) (h : ∃ job ∈ jobs, job.cron ≠ none) :
    kind.link jobs = .error (.error .recurrentInSequence) := by
  obtain ⟨job, hjob, hcron⟩ := h
  exact if_pos (List.any_eq_true.2 ⟨job, hjob, Option.isSome_iff_ne_none.2 hcron⟩)

theorem link_chain (honce : ∀ job ∈ jobs, job.cron = none) :
    ∃ members, link .chain jobs = .ok members ∧ members.length = jobs.length := by
  refine ⟨_, link_of_once .chain honce, ?_⟩
  have hids := congrArg List.length (linkChain_ids jobs)
  rw [List.length_map, List.length_map] at hids
  rw [holdBack_length, hids]

/-- **A sequence is built unless it is a group whose last member would be due after the end of the
calendar.** Then building it crashes. Any other sequence has its jobs as members, or holds a
recurrent job, which is reported. -/
theorem build_crashes_iff (kind : SequenceKind) (jobs : List NewJob) :
    (kind.link jobs = .error .crash ↔
      (∃ g, kind = .group g) ∧ (∀ job ∈ jobs, job.cron = none) ∧ Crammed jobs) ∧
    (kind.link jobs ≠ .error .crash →
      (∃ members, kind.link jobs = .ok members ∧ members.length = jobs.length) ∨
        kind.link jobs = .error (.error .recurrentInSequence) ∧ ∃ job ∈ jobs, job.cron ≠ none) ∧
    ∀ drafts clock, kind.build drafts clock = drafts.mapM (·.build clock) >>= kind.link := by
  by_cases honce : ∀ job ∈ jobs, job.cron = none
  · cases kind with
    | chain =>
      obtain ⟨members, hlink, hlength⟩ := link_chain honce
      refine ⟨?_, fun _ => Or.inl ⟨members, hlink, hlength⟩, fun _ _ => rfl⟩
      rw [hlink]
      exact ⟨nofun, nofun⟩
    | group g =>
      obtain ⟨hlink, hcrammed⟩ | ⟨members, hlink, hfits, hgrouped⟩ := link_group g honce
      · exact ⟨⟨fun _ => ⟨⟨g, rfl⟩, honce, hcrammed⟩, fun _ => hlink⟩,
          fun hok => absurd hlink hok, fun _ _ => rfl⟩
      · refine ⟨?_, fun _ => Or.inl ⟨members, hlink, hgrouped.length_eq⟩, fun _ _ => rfl⟩
        rw [hlink]
        exact ⟨nofun, fun h => absurd h.2.2 hfits⟩
  · have hrecurrent : ∃ job ∈ jobs, job.cron ≠ none := by
      simpa only [not_forall, exists_prop] using honce
    have hlink := link_recurrent kind hrecurrent
    refine ⟨?_, fun _ => Or.inr ⟨hlink, hrecurrent⟩, fun _ _ => rfl⟩
    rw [hlink]
    exact ⟨nofun, fun h => absurd h.2.1 honce⟩

/-- A group whose first member is due at the last instant of the calendar is not built, although
both of its jobs are, and are a chain. -/
theorem group_crashes_at_last :
    let drafts := [dueDraft 1 .last, dueDraft 2 .epoch]
    build (.group ⟨.ofNat 9⟩) drafts .epoch = .error .crash ∧
      ∃ jobs members, drafts.mapM (·.build .epoch) = .ok jobs ∧
        build .chain drafts .epoch = .ok members ∧ members.length = 2 :=
  ⟨rfl, _, _, rfl, rfl, by rfl⟩

end SequenceKind

end JobQueue
