import JobQueue.Outcome
import JobQueue.Proofs.Store.Lease
import Mathlib.Data.List.Induction

/-!
# Replaying a write

A write that ends a claim may be made again later, when nobody knows whether it took effect. The
guard compares the id, the status and the owner of the job and nothing that tells two claims of one
worker apart, so a replay is harmless unless the worker of the write holds a later claim of the job.
-/

namespace JobQueue

namespace OutcomeWrite

/-- The call in which a write is made. -/
def call (w : OutcomeWrite) (delete : Bool) : Call :=
  match w with
  | .complete finished => .complete [finished] delete
  | .retry job scheduledAt error => .retry job scheduledAt error
  | .reschedule job scheduledAt error => .reschedule job scheduledAt error
  | .fail job error => .fail job error

theorem perform_snd (w : OutcomeWrite) (delete : Bool) (clock : Instant) (s : Store) :
    (w.perform delete (Store.answer clock) s).2 = (Store.answer clock (w.call delete) s).2 := by
  cases w <;> rfl

theorem eq_of_ends_call {w : OutcomeWrite} {delete : Bool} {p : ProcessingJob}
    (h : (w.call delete).Ends p) : p = w.job := by
  cases w with
  | complete finished =>
    obtain ⟨f, hf, hp⟩ := h
    rw [List.mem_singleton.1 hf] at hp
    exact hp.symm
  | retry q t e => exact h.symm
  | reschedule q t e => exact h.symm
  | fail q e => exact h.symm

end OutcomeWrite

namespace Store

variable {s : Store} {clock : Instant} {c : Call} {p : ProcessingJob}

/-! ## 1. What a write does -/

theorem perform_eq_self (hs : s.Distinct) {w : OutcomeWrite} (delete : Bool)
    (h : ¬ s.Holds w.job) : (w.perform delete (Store.answer clock) s).2 = s := by
  have hfree : ∀ j ∈ s.jobs, j.isOwnedBy w.job = false := by
    intro j hj
    rw [Bool.eq_false_iff]
    intro howned
    have hget := get?_of_mem hs hj
    rw [(Job.isOwnedBy_iff.1 howned).1] at hget
    exact h (holds_iff.2 ⟨j, hget, howned⟩)
  cases w with
  | complete finished =>
    apply completeOne_eq_self hs delete clock
    intro j hget howned
    exact h (holds_iff.2 ⟨j, hget, howned⟩)
  | retry p t e => exact updateIf_eq_self _ _ hfree
  | reschedule p t e => exact updateIf_eq_self _ _ hfree
  | fail p e => exact updateIf_eq_self _ _ hfree

theorem not_holds_updateIf {f : Job → Job} (hf : ∀ j, (f j).id = j.id)
    (hfree : ∀ j, (f j).owner = none) : ¬ (s.updateIf (·.isOwnedBy p) f).Holds p := by
  intro hp
  obtain ⟨k, hk, hkp⟩ := holds_iff.1 hp
  rw [get?_updateIf s _ hf] at hk
  obtain ⟨j, -, hjk⟩ := Option.map_eq_some_iff.1 hk
  by_cases hj : j.isOwnedBy p = true
  · rw [if_pos hj] at hjk
    have howner := (Job.isOwnedBy_iff.1 hkp).2.2
    rw [← hjk, hfree] at howner
    cases howner
  · rw [if_neg hj] at hjk
    rw [hjk] at hj
    exact hj hkp

theorem not_holds_perform (hs : s.Distinct) (w : OutcomeWrite) (delete : Bool) (clock : Instant) :
    ¬ (w.perform delete (Store.answer clock) s).2.Holds w.job := by
  cases w with
  | complete finished =>
    intro hp
    by_cases hheld : s.Holds finished.job
    · obtain ⟨j, hj, howned⟩ := holds_iff.1 hheld
      obtain ⟨k, hk, hkp⟩ := holds_iff.1 hp
      change (s.completeOne finished.job delete clock).get? finished.job.id = some k at hk
      rw [get?_completeOne hs hj howned, if_pos rfl] at hk
      have hstatus := (Job.isOwnedBy_iff.1 hkp).2.1
      cases delete with
      | true => cases hk
      | false =>
        cases hk
        cases hstatus
    · rw [perform_eq_self (w := .complete finished) hs delete hheld] at hp
      exact hheld hp
  | retry p t e => exact not_holds_updateIf (Job.putBack_id · t clock) fun _ => rfl
  | reschedule p t e => exact not_holds_updateIf (Job.putBack_id · t clock) fun _ => rfl
  | fail p e => exact not_holds_updateIf (Job.finish_id · .failed clock) fun _ => rfl

theorem perform_eq_self_iff (hs : s.Distinct) (w : OutcomeWrite) (delete : Bool)
    (clock : Instant) : (w.perform delete (Store.answer clock) s).2 = s ↔ ¬ s.Holds w.job := by
  constructor
  · intro hsame hheld
    -- a write with its claim takes the owner away, so the store is another one
    have hended := not_holds_perform hs w delete clock
    rw [hsame] at hended
    exact hended hheld
  · exact perform_eq_self hs delete

/-! ## 2. How a claim comes about -/

theorem grants_of_holds (hs : s.Distinct) (hfree : ¬ s.Holds p)
    (hp : (Store.answer clock c s).2.Holds p) : s.Grants c p := by
  obtain ⟨k, hk, hkp⟩ := holds_iff.1 hp
  obtain ⟨hid, hstatus, howner⟩ := Job.isOwnedBy_iff.1 hkp
  have hchange := answer_change hs clock c p.id
  have hbefore : ∀ j, s.get? p.id = some j → ¬ j.isOwnedBy p := by
    intro j hj hjp
    exact hfree (holds_iff.2 ⟨j, hj, hjp⟩)
  -- of all that can happen to a job only a start gives it an owner
  rw [hk] at hchange
  generalize ho : s.get? p.id = o at hchange hbefore
  cases hchange with
  | kept => exact absurd hkp (hbefore k rfl)
  | @inserted _ new _ =>
    cases hwaits : new.waits <;> simp [NewJob.toJob, NewJob.initialStatus, hwaits] at hstatus
  | @revised new j _ _ =>
    have hj : j.isOwnedBy p := Job.isOwnedBy_iff.2 ⟨hid, hstatus, howner⟩
    exact absurd hj (hbefore j rfl)
  | @started owner limit now j _ _ =>
    have hsame : owner = p.owner := Option.some.inj howner
    subst hsame
    rcases claim_spec hs p.owner limit now with hcrash | ⟨claims, hok, -, hget⟩
    · change (s.claim p.owner limit now).2.get? p.id = _ at hk
      rw [hcrash, ho] at hk
      rw [← Option.some.inj hk] at hkp
      exact absurd hkp (hbefore j rfl)
    · refine ⟨limit, now, claims, rfl, hok, ?_⟩
      by_contra hmem
      change (s.claim p.owner limit now).2.get? p.id = _ at hk
      rw [hget, if_neg hmem, ho] at hk
      rw [← Option.some.inj hk] at hkp
      exact absurd hkp (hbefore j rfl)
  | completed _ _ => cases hstatus
  | unlocked _ _ _ _ _ => cases hstatus
  | retried _ => cases hstatus
  | rescheduled _ => cases hstatus
  | failed _ => cases hstatus
  | recovered _ _ _ _ hrestart =>
    rw [recover, if_pos hrestart] at hstatus
    cases hstatus

/-- A free job is under a claim after some calls exactly if one of them made the claim and the claim
has lasted since. -/
theorem holds_run_iff (hs : s.Distinct) (hfree : ¬ s.Holds p) (calls : List (Instant × Call)) :
    (s.run calls).Holds p ↔ ∃ l e r, calls = l ++ e :: r ∧ (s.run l).Grants e.2 p ∧
      ∀ m, m <+: r → (s.run (l ++ e :: m)).Holds p := by
  constructor
  · -- the induction is on the last call, so that the claim that lasts to the end is the latest one
    induction calls using List.reverseRecOn with
    | nil => exact fun hp => absurd hp hfree
    | append_singleton calls d ih =>
      intro hp
      -- the last call either finds the claim there, or makes it
      by_cases hheld : (s.run calls).Holds p
      · obtain ⟨l, e, r, rfl, hgrant, hlasts⟩ := ih hheld
        refine ⟨l, e, r ++ [d], by simp, hgrant, ?_⟩
        intro m hm
        rcases List.prefix_concat_iff.1 hm with rfl | hm
        · rwa [← List.cons_append, ← List.append_assoc]
        · exact hlasts m hm
      · rw [run_append] at hp
        refine ⟨calls, d, [], rfl, grants_of_holds (run_distinct hs calls) hheld hp, ?_⟩
        intro m hm
        rw [List.prefix_nil.1 hm, run_append]
        exact hp
  · rintro ⟨l, e, r, rfl, -, hlasts⟩
    exact hlasts r (List.prefix_refl r)

/-! ## 3. Replays -/

/-- **When a replay is harmless.** A write whose claim has ended, made again after any calls,
changes nothing exactly if its worker has not claimed the job anew, or not held it since. No claim of
another worker or job ends by it, and none that it names is left. -/
theorem replay_harmless_iff (before after : List (Instant × Call)) (w : OutcomeWrite)
    (hended : ¬ (run {} before).Holds w.job) (delete : Bool) (clock : Instant) :
    let s := run {} (before ++ after)
    let s' := (w.perform delete (Store.answer clock) s).2
    (s' = s ↔ ¬ ∃ l e r, after = l ++ e :: r ∧ (run {} (before ++ l)).Grants e.2 w.job ∧
      ∀ m, m <+: r → (run {} (before ++ (l ++ e :: m))).Holds w.job) ∧
    (∀ q, q ≠ w.job → s.Holds q → s'.Holds q) ∧ ¬ s'.Holds w.job := by
  intro s s'
  have hs : s.Distinct := run_distinct distinct_empty _
  refine ⟨?_, ?_, not_holds_perform hs w delete clock⟩
  · have hregrant := holds_run_iff (run_distinct distinct_empty before) hended after
    simp only [← run_append] at hregrant
    rw [← hregrant]
    exact perform_eq_self_iff hs w delete clock
  · intro q hq hheld
    by_contra hfree
    have hone : s.OneBeat := oneBeat_run _
    change ¬ (w.perform delete (Store.answer clock) s).2.Holds q at hfree
    rw [OutcomeWrite.perform_snd] at hfree
    -- another claim would have ended by a call that names it, but the write names its own
    rcases ends_of_not_holds hs hone hheld hfree with hends | ⟨staleBefore, beat, hcall, -⟩
    · exact hq (OutcomeWrite.eq_of_ends_call hends)
    · cases w <;> cases hcall

/-- The retry of one worker, made again while another holds the job: the store stays as it is. -/
theorem replay_harmless_other_worker :
    let p : ProcessingJob := ⟨⟨.ofNat 1⟩, ⟨.ofNat 1⟩⟩
    let q : ProcessingJob := ⟨⟨.ofNat 1⟩, ⟨.ofNat 2⟩⟩
    let w : OutcomeWrite := .retry p .epoch "late"
    let s := run {} [(.epoch, .insert (.plain 1)), (.epoch, .claim p.owner 1 .epoch),
      (.epoch, w.call false), (.epoch, .claim q.owner 1 .epoch)]
    (w.perform false (Store.answer .epoch) s).2 = s ∧
      (w.perform false (Store.answer .epoch) s).2.Holds q := by
  intro p q w s
  have hended : ¬ (run {} [(.epoch, .insert (.plain 1)), (.epoch, .claim p.owner 1 .epoch),
      (.epoch, w.call false)]).Holds w.job := by decide +kernel
  obtain ⟨hharmless, hothers, -⟩ := replay_harmless_iff
    [(.epoch, .insert (.plain 1)), (.epoch, .claim p.owner 1 .epoch), (.epoch, w.call false)]
    [(.epoch, .claim q.owner 1 .epoch)] w hended false .epoch
  constructor
  · apply hharmless.2
    rintro ⟨l, e, r, hafter, ⟨limit, now, claims, he, -⟩, -⟩
    obtain ⟨rfl, hsame⟩ := List.append_eq_singleton_iff.1 hafter.symm |>.resolve_right (by simp)
    cases hsame
    cases he
  · exact hothers q (by decide) (by decide +kernel)

/-- A worker retries a job, claims it again and makes the retry once more: the second claim ends,
though it is a later one than the retry belongs to. -/
theorem replay_ends_later_claim :
    let p : ProcessingJob := ⟨⟨.ofNat 1⟩, ⟨.ofNat 1⟩⟩
    let w : OutcomeWrite := .retry p .epoch "late"
    let before : List (Instant × Call) := [(.epoch, .insert (.plain 1)),
      (.epoch, .claim p.owner 1 .epoch), (.epoch, w.call false)]
    let s := run {} (before ++ [(.epoch, .claim p.owner 1 .epoch)])
    (run {} (before.take 1)).Grants (.claim p.owner 1 .epoch) p ∧ ¬ (run {} before).Holds p ∧
      s.Holds p ∧ (w.perform false (Store.answer .epoch) s).2 ≠ s ∧
      ¬ (w.perform false (Store.answer .epoch) s).2.Holds p := by
  intro p w before s
  refine ⟨?_, by decide +kernel, by decide +kernel, by decide +kernel, by decide +kernel⟩
  exact ⟨1, .epoch, [⟨⟨.ofNat 1⟩, p.owner, "plain", "null", none, 1, .epoch, .none⟩], rfl,
    by decide +kernel, by decide⟩

end Store

end JobQueue
