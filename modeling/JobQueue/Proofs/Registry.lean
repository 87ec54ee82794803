import JobQueue.Handler.Catalog
import JobQueue.Proofs.Except
import JobQueue.Worker
import Mathlib.Data.List.Nodup

/-!
# What a worker is built from

A worker is built exactly from parts that go together: there is a backend, the configuration passes
its checks, every policy is for the job type of a handler, and no two handlers have one name. Of
several faults the first in this order is reported. In a worker that was built, the policy of a job
type is the configured one, else the one that its handler declares, else the default.
-/

namespace JobQueue

/-! ## 1. Faults of a configuration -/

namespace WorkerConfig

variable {c : WorkerConfig} {fault : ConfigFault}

/-- The fault is there, and none that is checked before it. -/
def FailsFirst (c : WorkerConfig) (fault : ConfigFault) : Prop :=
  ∃ earlier later, c.checks = earlier ++ (fault, true) :: later ∧
    ∀ check ∈ earlier, check.2 = false

theorem failsFirst_of_fault? (h : c.fault? = some fault) : c.FailsFirst fault := by
  obtain ⟨⟨fault', found⟩, hfind, rfl⟩ := Option.map_eq_some_iff.1 h
  obtain ⟨hfound, earlier, later, hchecks, hearlier⟩ := List.find?_eq_some_iff_append.1 hfind
  obtain rfl : found = true := hfound
  refine ⟨earlier, later, hchecks, fun check hcheck => ?_⟩
  exact Bool.not_eq_true' _ ▸ hearlier check hcheck

/-- Every configured policy allows an attempt. -/
theorem attempts_of_valid (h : c.fault? = none) : c.defaultPolicy.maxAttempts ≠ 0 ∧
    ∀ entry ∈ c.policies, entry.2.maxAttempts ≠ 0 := by
  have hcheck : (ConfigFault.noAttempts, decide (c.defaultPolicy.maxAttempts = 0 ∨
      c.policies.any (·.2.maxAttempts = 0))) ∈ c.checks := by
    simp [checks]
  simpa using check_of_valid h hcheck

end WorkerConfig

/-! ## 2. Names of job types -/

namespace Registry

theorem firstDuplicate?_eq_none_iff {names seen : List String} :
    firstDuplicate? seen names = none ↔ names.Nodup ∧ ∀ name ∈ names, name ∉ seen := by
  -- the search carries the names that it has passed, so these vary in the induction
  induction names generalizing seen with
  | nil => simp [firstDuplicate?]
  | cons name rest ih =>
    rw [firstDuplicate?]
    by_cases hseen : name ∈ seen
    · rw [if_pos (List.contains_iff_mem.2 hseen)]
      simp [hseen]
    · rw [if_neg (mt List.contains_iff_mem.1 hseen), ih]
      simp only [List.nodup_cons, List.mem_cons, forall_eq_or_imp, not_or]
      constructor
      · rintro ⟨hnodup, hfresh⟩
        refine ⟨⟨fun hmem => (hfresh name hmem).1 rfl, hnodup⟩, hseen, ?_⟩
        exact fun other hother => (hfresh other hother).2
      · rintro ⟨⟨hname, hnodup⟩, -, hfresh⟩
        refine ⟨hnodup, fun other hother => ⟨?_, hfresh other hother⟩⟩
        rintro rfl
        exact hname hother

/-- A name that occurs again, before any other does. -/
def FirstRepeat (names : List String) (name : String) : Prop :=
  ∃ earlier later, names = earlier ++ name :: later ∧ earlier.Nodup ∧ name ∈ earlier

theorem of_firstDuplicate? {names seen : List String} {name : String}
    (h : firstDuplicate? seen names = some name) :
    ∃ earlier later, names = earlier ++ name :: later ∧
      (earlier.Nodup ∧ ∀ other ∈ earlier, other ∉ seen) ∧ (name ∈ seen ∨ name ∈ earlier) := by
  -- a name that is passed joins those seen, so in the end it stands before the repeated one
  induction names generalizing seen with
  | nil => cases h
  | cons first rest ih =>
    rw [firstDuplicate?] at h
    by_cases hseen : first ∈ seen
    · rw [if_pos (List.contains_iff_mem.2 hseen)] at h
      cases h
      exact ⟨[], rest, rfl, ⟨List.nodup_nil, List.forall_mem_nil _⟩, Or.inl hseen⟩
    · rw [if_neg (mt List.contains_iff_mem.1 hseen)] at h
      obtain ⟨earlier, later, rfl, ⟨hnodup, hfresh⟩, hname⟩ := ih h
      refine ⟨first :: earlier, later, rfl, ⟨?_, ?_⟩, ?_⟩
      · exact List.nodup_cons.2 ⟨fun hmem => hfresh first hmem List.mem_cons_self, hnodup⟩
      · rintro other hother hin
        rcases List.mem_cons.1 hother with rfl | hother
        · exact hseen hin
        · exact hfresh other hother (List.mem_cons_of_mem _ hin)
      · rcases hname with hname | hname
        · rcases List.mem_cons.1 hname with rfl | hname
          · exact Or.inr List.mem_cons_self
          · exact Or.inl hname
        · exact Or.inr (List.mem_cons_of_mem _ hname)

theorem firstRepeat_of_firstDuplicate? {names : List String} {name : String}
    (h : firstDuplicate? [] names = some name) : FirstRepeat names name := by
  obtain ⟨earlier, later, hnames, ⟨hnodup, -⟩, hname⟩ := of_firstDuplicate? h
  exact ⟨earlier, later, hnames, hnodup, hname.resolve_left List.not_mem_nil⟩

/-! ## 3. Registries -/

variable {handlers : List Handler} {defaultPolicy : RetryPolicy}
  {overrides : List (String × RetryPolicy)} {r : Registry} {h : Handler}

/-- Each of the policies is for the job type of one of the handlers. -/
def Covers (handlers : List Handler) (overrides : List (String × RetryPolicy)) : Prop :=
  ∀ entry ∈ overrides, ∃ h ∈ handlers, h.type.name = entry.1

theorem covers_iff : Covers handlers overrides ↔
    (overrides.find? fun (name, _) => !(handlers.map (·.type.name)).contains name) = none := by
  simp [Covers, List.find?_eq_none]

theorem build_eq_ok_iff : build handlers defaultPolicy overrides = .ok r ↔
    Covers handlers overrides ∧ (handlers.map (·.type.name)).Nodup ∧
      r = ⟨handlers.map fun h => (h, policyOf overrides defaultPolicy h), defaultPolicy⟩ := by
  rw [covers_iff, build]
  dsimp only
  split
  · rename_i hfind
    simp only [hfind, reduceCtorEq, false_and]
  · rename_i hfind
    have hnames := @firstDuplicate?_eq_none_iff (handlers.map (·.type.name)) []
    split
    · rename_i hrepeat
      refine iff_of_false nofun fun ⟨_, hnodup, _⟩ => ?_
      rw [hnames.2 ⟨hnodup, fun _ _ => List.not_mem_nil⟩] at hrepeat
      cases hrepeat
    · rename_i hdistinct
      simp only [hfind, (hnames.1 hdistinct).1, true_and, Except.ok.injEq, eq_comm]

theorem build_of_not_covers (hcovers : ¬ Covers handlers overrides) :
    ∃ entry ∈ overrides, (∀ h ∈ handlers, h.type.name ≠ entry.1) ∧
      build handlers defaultPolicy overrides = .error (.unknownJobType entry.1) := by
  rw [covers_iff] at hcovers
  obtain ⟨entry, hfind⟩ := Option.ne_none_iff_exists'.1 hcovers
  refine ⟨entry, List.mem_of_find?_eq_some hfind, ?_, ?_⟩
  · have hunknown := List.find?_some hfind
    simpa using hunknown
  · unfold build
    dsimp only
    rw [hfind]

theorem build_of_repeat (hcovers : Covers handlers overrides)
    (hrepeats : ¬ (handlers.map (·.type.name)).Nodup) :
    ∃ name, FirstRepeat (handlers.map (·.type.name)) name ∧
      build handlers defaultPolicy overrides = .error (.duplicateJobType name) := by
  cases hfirst : firstDuplicate? [] (handlers.map (·.type.name)) with
  | none => exact absurd (firstDuplicate?_eq_none_iff.1 hfirst).1 hrepeats
  | some name =>
    refine ⟨name, firstRepeat_of_firstDuplicate? hfirst, ?_⟩
    unfold build
    dsimp only
    rw [covers_iff.1 hcovers, hfirst]

theorem mem_of_build (hbuild : build handlers defaultPolicy overrides = .ok r) :
    ∀ entry ∈ r.entries, entry.1 ∈ handlers := by
  obtain ⟨-, -, rfl⟩ := build_eq_ok_iff.1 hbuild
  intro entry hentry
  obtain ⟨handler, hhandler, rfl⟩ := List.mem_map.1 hentry
  exact hhandler

theorem entry?_eq (hbuild : build handlers defaultPolicy overrides = .ok r) (jobType : String) :
    r.entry? jobType = (handlers.find? (·.type.name = jobType)).map
      fun h => (h, policyOf overrides defaultPolicy h) := by
  obtain ⟨-, -, rfl⟩ := build_eq_ok_iff.1 hbuild
  exact List.find?_map ..

/-- A registry finds each of its handlers by the name of its type. -/
theorem entry?_of_mem (hbuild : build handlers defaultPolicy overrides = .ok r)
    (hmem : h ∈ handlers) : ∃ policy, r.entry? h.type.name = some (h, policy) := by
  have hnodup := (build_eq_ok_iff.1 hbuild).2.1
  rw [entry?_eq hbuild]
  cases hfind : handlers.find? (·.type.name = h.type.name) with
  | none =>
    have hnot := List.find?_eq_none.1 hfind h hmem
    simp at hnot
  | some g =>
    have hname : g.type.name = h.type.name := by simpa using List.find?_some hfind
    -- names are distinct, so the handler of that name is this one
    obtain rfl := List.inj_on_of_nodup_map hnodup (List.mem_of_find?_eq_some hfind) hmem hname
    exact ⟨_, rfl⟩

/-- The policy that the handler of a job type declares, if it has one and that declares one. -/
def declared? (handlers : List Handler) (jobType : String) : Option RetryPolicy :=
  (handlers.find? (·.type.name = jobType)).bind (·.type.retryPolicy)

theorem retryPolicy_eq (hbuild : build handlers defaultPolicy overrides = .ok r)
    (jobType : String) : r.retryPolicy jobType =
      ((overrides.lookup jobType).or (declared? handlers jobType)).getD defaultPolicy := by
  rw [retryPolicy, entry?_eq hbuild, declared?]
  obtain ⟨hcovers, -, rfl⟩ := build_eq_ok_iff.1 hbuild
  cases hfind : handlers.find? (·.type.name = jobType) with
  | some h =>
    have hname : h.type.name = jobType := by simpa using List.find?_some hfind
    -- the entry holds the policy that was settled for the handler's own name
    show policyOf overrides defaultPolicy h = _
    rw [policyOf, hname]
    rfl
  | none =>
    -- a policy configured for this job type would be for one of the handlers
    have hnone : overrides.lookup jobType = none := by
      rw [List.lookup_eq_none_iff]
      intro entry hentry
      obtain ⟨h, hh, hname⟩ := hcovers entry hentry
      have hother := List.find?_eq_none.1 hfind h hh
      simp only [hname, decide_eq_true_eq] at hother
      exact bne_iff_ne.2 (Ne.symm hother)
    rw [hnone]
    rfl

/-- The policy of a job type is the default, or configured, or declared by a handler. -/
theorem retryPolicy_cases (hbuild : build handlers defaultPolicy overrides = .ok r)
    (jobType : String) : r.retryPolicy jobType = defaultPolicy ∨
      (jobType, r.retryPolicy jobType) ∈ overrides ∨
      ∃ h ∈ handlers, h.type.retryPolicy = some (r.retryPolicy jobType) := by
  have hpolicy := retryPolicy_eq hbuild jobType
  cases hlookup : overrides.lookup jobType with
  | some policy =>
    rw [hlookup] at hpolicy
    obtain ⟨earlier, later, rfl, -⟩ := List.lookup_eq_some_iff.1 hlookup
    rw [hpolicy]
    exact Or.inr (Or.inl (List.mem_append_right _ List.mem_cons_self))
  | none =>
    rw [hlookup, Option.none_or] at hpolicy
    cases hdeclared : declared? handlers jobType with
    | some policy =>
      rw [hdeclared] at hpolicy
      obtain ⟨h, hfind, hdeclares⟩ := Option.bind_eq_some_iff.1 hdeclared
      rw [hpolicy]
      exact Or.inr (Or.inr ⟨h, List.mem_of_find?_eq_some hfind, hdeclares⟩)
    | none =>
      rw [hdeclared] at hpolicy
      exact Or.inl hpolicy

end Registry

/-! ## 4. Workers -/

namespace Blueprint

variable {β : Type} {b : Blueprint β} {worker : Worker β}

theorem build_eq_ok_iff : b.build = .ok worker ↔
    b.backend = some worker.backend ∧ b.config.fault? = none ∧
      Registry.build b.handlers b.config.defaultPolicy b.config.policies = .ok worker.registry ∧
      worker.id = b.workerId ∧ worker.config = b.config ∧
      worker.pipeline = .ofLayers b.outer b.inner b.observed := by
  unfold build
  split
  · rename_i hbackend
    simp [hbackend]
  · rename_i backend hbackend
    split
    · rename_i hfault
      simp [hfault]
    · rename_i hvalid
      rw [bind_eq_ok_iff, hbackend]
      constructor
      · rintro ⟨registry, hregistry, hworker⟩
        cases hworker
        exact ⟨rfl, hvalid, hregistry, rfl, rfl, rfl⟩
      · rintro ⟨hsame, -, hregistry, hid, hconfig, hpipeline⟩
        obtain rfl := Option.some.inj hsame
        refine ⟨worker.registry, hregistry, ?_⟩
        rw [← hid, ← hconfig, ← hpipeline]

theorem build_of_valid {backend : β} (hbackend : b.backend = some backend)
    (hvalid : b.config.fault? = none) {e : QueueError}
    (h : Registry.build b.handlers b.config.defaultPolicy b.config.policies = .error e) :
    b.build = .error e := by
  unfold build
  rw [hbackend]
  dsimp only
  rw [hvalid]
  dsimp only
  rw [h]
  rfl

theorem build_of_fault {backend : β} (hbackend : b.backend = some backend) {fault : ConfigFault}
    (hfault : b.config.fault? = some fault) : b.build = .error (.invalidConfig fault) := by
  unfold build
  rw [hbackend]
  dsimp only
  rw [hfault]

/-- The parts of a worker go together. -/
structure Consistent (b : Blueprint β) : Prop where
  backend : b.backend ≠ none
  valid : b.config.fault? = none
  covers : Registry.Covers b.handlers b.config.policies
  distinct : (b.handlers.map (·.type.name)).Nodup

theorem exists_build_iff : (∃ worker, b.build = .ok worker) ↔ b.Consistent := by
  constructor
  · rintro ⟨worker, hbuild⟩
    obtain ⟨hbackend, hvalid, hregistry, -⟩ := build_eq_ok_iff.1 hbuild
    obtain ⟨hcovers, hdistinct, -⟩ := Registry.build_eq_ok_iff.1 hregistry
    exact ⟨by rw [hbackend]; nofun, hvalid, hcovers, hdistinct⟩
  · rintro ⟨hbackend, hvalid, hcovers, hdistinct⟩
    obtain ⟨backend, hbackend⟩ := Option.ne_none_iff_exists'.1 hbackend
    exact ⟨⟨b.workerId, backend, b.config, _, _⟩, build_eq_ok_iff.2 ⟨hbackend, hvalid,
      Registry.build_eq_ok_iff.2 ⟨hcovers, hdistinct, rfl⟩, rfl, rfl, rfl⟩⟩

/-- **A worker is built exactly from consistent parts.** Otherwise it is reported that there is no
backend; if there is one, the first fault of the configuration; if that has none, a policy that is
for no handler; and if there is no such policy, the first name that a second handler has. In a
worker the configured policy of a job type comes before the one that its handler declares, and that
one before the default; if every declared policy allows an attempt, then so does each of these. -/
theorem build_iff_consistent (b : Blueprint β) :
    ((∃ worker, b.build = .ok worker) ↔ b.Consistent) ∧
    (b.backend = none → b.build = .error .missingBackend) ∧
    (b.backend ≠ none → b.config.fault? ≠ none →
      ∃ fault, b.config.FailsFirst fault ∧ b.build = .error (.invalidConfig fault)) ∧
    (b.backend ≠ none → b.config.fault? = none →
      ¬ Registry.Covers b.handlers b.config.policies →
      ∃ entry ∈ b.config.policies, (∀ h ∈ b.handlers, h.type.name ≠ entry.1) ∧
        b.build = .error (.unknownJobType entry.1)) ∧
    (b.backend ≠ none → b.config.fault? = none → Registry.Covers b.handlers b.config.policies →
      ¬ (b.handlers.map (·.type.name)).Nodup →
      ∃ name, Registry.FirstRepeat (b.handlers.map (·.type.name)) name ∧
        b.build = .error (.duplicateJobType name)) ∧
    ∀ worker, b.build = .ok worker → ∀ jobType,
      worker.registry.retryPolicy jobType =
        ((b.config.policies.lookup jobType).or (Registry.declared? b.handlers jobType)).getD
          b.config.defaultPolicy ∧
      ((∀ h ∈ b.handlers, ∀ policy, h.type.retryPolicy = some policy → policy.maxAttempts ≠ 0) →
        (worker.registry.retryPolicy jobType).maxAttempts ≠ 0) := by
  refine ⟨exists_build_iff, ?_, ?_, ?_, ?_, ?_⟩
  · intro hbackend
    unfold build
    rw [hbackend]
  · intro hbackend hfault
    obtain ⟨backend, hbackend⟩ := Option.ne_none_iff_exists'.1 hbackend
    obtain ⟨fault, hfault⟩ := Option.ne_none_iff_exists'.1 hfault
    exact ⟨fault, WorkerConfig.failsFirst_of_fault? hfault, build_of_fault hbackend hfault⟩
  · intro hbackend hvalid hcovers
    obtain ⟨backend, hbackend⟩ := Option.ne_none_iff_exists'.1 hbackend
    obtain ⟨entry, hentry, hunknown, herror⟩ := Registry.build_of_not_covers hcovers
    exact ⟨entry, hentry, hunknown, build_of_valid hbackend hvalid herror⟩
  · intro hbackend hvalid hcovers hrepeats
    obtain ⟨backend, hbackend⟩ := Option.ne_none_iff_exists'.1 hbackend
    obtain ⟨name, hname, herror⟩ := Registry.build_of_repeat hcovers hrepeats
    exact ⟨name, hname, build_of_valid hbackend hvalid herror⟩
  · intro worker hbuild jobType
    obtain ⟨-, hvalid, hregistry, -⟩ := build_eq_ok_iff.1 hbuild
    refine ⟨Registry.retryPolicy_eq hregistry jobType, fun hdeclared => ?_⟩
    obtain ⟨hdefault, hconfigured⟩ := WorkerConfig.attempts_of_valid hvalid
    obtain heq | hentry | ⟨h, hh, hpolicy⟩ := Registry.retryPolicy_cases hregistry jobType
    · rw [heq]
      exact hdefault
    · exact hconfigured _ hentry
    · exact hdeclared h hh _ hpolicy

/-- A policy is configured for one handler, another declares its own, and a third does neither. -/
theorem build_iff_consistent_catalog :
    let b : Blueprint Unit := {
      backend := some ()
      config := { policies := [("simple_handler", .noRetry)] }
      workerId := ⟨.ofNat 1⟩
      handlers := [Catalog.simple, Catalog.orders, Catalog.unit].map (Catalog.handler · 0) }
    ∃ worker, b.build = .ok worker ∧
      worker.registry.retryPolicy "simple_handler" = .noRetry ∧
      some (worker.registry.retryPolicy "mock_return_handler") = Catalog.orders.retryPolicy ∧
      worker.registry.retryPolicy "unit" = .standard ∧
      worker.registry.retryPolicy "other" = .standard := by
  intro b
  obtain ⟨hbuilt, -, -, -, -, hpolicies⟩ := build_iff_consistent b
  have hcovers : Registry.Covers b.handlers b.config.policies := by
    intro entry hentry
    obtain rfl := List.mem_singleton.1 hentry
    exact ⟨Catalog.handler Catalog.simple 0, List.mem_cons_self, rfl⟩
  have hvalid : b.config.fault? = none := by decide +kernel
  obtain ⟨worker, hworker⟩ := hbuilt.2 ⟨nofun, hvalid, hcovers, by decide +kernel⟩
  have hpolicy := fun jobType => (hpolicies worker hworker jobType).1
  exact ⟨worker, hworker, hpolicy _, congrArg some (hpolicy _), hpolicy _, hpolicy _⟩

end Blueprint

end JobQueue
