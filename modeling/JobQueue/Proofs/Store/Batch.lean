import JobQueue.Proofs.Batching.Flush
import JobQueue.Proofs.Store.Commute

/-!
# Batched completion

Whoever completes a job cannot tell from the store whether the batcher wrote it or a call of its
own. The batcher works on requests that wait in its channel, were gathered or are about to be
written: writing all of these one by one leads to the same store before and after each of its steps.
-/

namespace JobQueue.Completion

open Store (answer)

variable {c c' : Completion} {s s' : Store} {delete : Bool} {clock : Instant}
  {batch : List CompletionRequest}

/-- The store as it answers the batcher at a fixed time. -/
def written (delete : Bool) (clock : Instant) (jobs : List FinishedJob) (s : Store) :
    Answer Unit × Store :=
  answer clock (.complete jobs delete) s

/-- The store after each of the requests is written in a call of its own. -/
def oneByOne (delete : Bool) (clock : Instant) (requests : List CompletionRequest) (s : Store) :
    Store :=
  requests.foldl
    (fun s request => ((OutcomeWrite.complete request.job).perform delete (answer clock) s).2) s

theorem oneByOne_eq (requests : List CompletionRequest) (s : Store) :
    oneByOne delete clock requests s = s.complete (requests.map (·.job)) delete clock := by
  rw [Store.complete, List.foldl_map]
  rfl

/-! ## 1. Flushing a batch -/

/-- Some steps of the batcher, as far as it has something to do. -/
def steps {σ : Type} (closed : Bool) (complete : List FinishedJob → σ → Answer Unit × σ) :
    Nat → Completion → σ → Completion × σ
  | 0, c, s => (c, s)
  | n + 1, c, s =>
    match c.step closed complete s with
    | none => (c, s)
    | some (c, s) => steps closed complete n c s

/-- The parts of a batch have its jobs, in another order. -/
theorem exists_flush_eq (batch : List CompletionRequest) :
    ∃ parts writers, Batcher.flush batch = .flushing parts writers none ∧ parts.length ≤ 2 ∧
      parts.flatten.Perm (batch.map (·.job)) ∧ writers.Perm (batch.map (·.writer)) :=
  ⟨_, _, Batcher.flush_eq batch, Batcher.length_parts_le batch, Batcher.parts_perm batch,
    Batcher.askers_perm batch⟩

theorem steps_flushing (closed : Bool) {parts : List (List FinishedJob)} {writers : List Writer}
    (hc : c.batcher = .flushing parts writers none) :
    c.steps closed (written delete clock) (parts.length + 1) s =
      ({ c.reply writers (.ok ()) with batcher := .idle }, s.complete parts.flatten delete clock) := by
  -- each step writes one part, and the last one replies
  induction parts generalizing c s with
  | nil => simp [steps, step, hc, replyOf, Store.complete]
  | cons part rest ih =>
    have hstep : c.step closed (written delete clock) s =
        some ({ c with batcher := .flushing rest writers none },
          s.complete part delete clock) := by
      simp only [step, hc]
      rfl
    rw [List.length_cons, steps, hstep, List.flatten_cons, Store.complete_append]
    exact ih rfl

/-- **Batched completion changes nothing.** When no job is both named by a link and member of a
group, flushing a batch leads to the same store as writing its requests one after the other in the
order in which they came, and all who asked are told that all went well. -/
theorem flush_eq_one_by_one (hs : s.Distinct) (hu : s.Unmixed) (hc : c.batcher = .flush batch)
    (closed delete : Bool) (clock : Instant) :
    ∃ n ≤ 3, ∃ writers, writers.Perm (batch.map (·.writer)) ∧
      c.steps closed (written delete clock) n s =
        ({ c.reply writers (.ok ()) with batcher := .idle }, oneByOne delete clock batch s) := by
  obtain ⟨parts, writers, hflush, hshort, hjobs, hwriters⟩ := exists_flush_eq batch
  refine ⟨parts.length + 1, by omega, writers, hwriters, ?_⟩
  rw [steps_flushing closed (hc.trans hflush), Store.complete_perm hs hu hjobs, oneByOne_eq]

/-- A batch with two members of one group, a job that names the next, and the first of them a second
time: both waiting members are let go, and so is the job that is named. -/
theorem flush_eq_one_by_one_mixed :
    let worker : WorkerId := ⟨.ofNat 9⟩
    let group : Successor := .sequence ⟨.ofNat 7⟩
    let later : Instant := ⟨1, by decide, by decide⟩
    let taken (job : NewJob) : List (Instant × Call) :=
      [(.epoch, .insert job), (.epoch, .claim worker 1 .epoch)]
    let member (n : Nat) : NewJob := { NewJob.plain n with successor := group }
    let s := Store.run {} (taken (member 1) ++ taken (member 2) ++
      taken { NewJob.plain 3 with successor := .next ⟨.ofNat 6⟩ } ++
      [(.epoch, .insert { member 4 with waits := true, scheduledAt := later }),
        (.epoch, .insert { member 5 with waits := true }),
        (.epoch, .insert { NewJob.plain 6 with waits := true })])
    let request (n : Nat) (l : Successor) : CompletionRequest :=
      ⟨.execution n, ⟨⟨⟨.ofNat n⟩, worker⟩, l⟩⟩
    let batch := [request 1 group, request 3 (.next ⟨.ofNat 6⟩), request 2 group, request 1 group]
    s.Distinct ∧ s.Unmixed ∧ (oneByOne false .epoch batch s).jobs.map (·.status) =
        [.completed, .completed, .completed, .scheduled, .scheduled, .scheduled] ∧
      ∃ n ≤ 3, ∃ writers : List Writer, writers.Perm (batch.map (·.writer)) ∧
        steps false (written false .epoch) n { capacity := 4, batcher := .flush batch } s =
          ({ capacity := 4, replies := writers.map (·, .ok ()) },
            oneByOne false .epoch batch s) := by
  intro worker group later taken member s request batch
  have hs : s.Distinct := Store.run_distinct Store.distinct_empty _
  have hu : s.Unmixed := by decide +kernel
  refine ⟨hs, hu, by decide +kernel, ?_⟩
  exact flush_eq_one_by_one hs hu (c := { capacity := 4, batcher := .flush batch }) rfl false false
    .epoch

/-! ## 2. Requests as they come -/

/-- The jobs whose completion was asked for and is not written yet. -/
def pending (c : Completion) : List FinishedJob :=
  (match c.batcher with
    | .gathering batch => batch.map (·.job)
    | .flushing parts _ _ => parts.flatten
    | _ => []) ++ c.channel.map (·.job)

/-- Requests come, in this order, while the batcher works. -/
inductive Batched (delete : Bool) (clock : Instant) (c₀ : Completion) (s₀ : Store) :
    List CompletionRequest → Completion → Store → Prop
  | start : Batched delete clock c₀ s₀ [] c₀ s₀
  | sent {requests : List CompletionRequest} {c : Completion} {s : Store}
      (h : Batched delete clock c₀ s₀ requests c s) (request : CompletionRequest)
      (hroom : c.hasRoom = true) :
      Batched delete clock c₀ s₀ (requests ++ [request]) (c.send request) s
  | stepped {requests : List CompletionRequest} {c c' : Completion} {s s' : Store}
      (h : Batched delete clock c₀ s₀ requests c s) (closed : Bool)
      (hstep : c.step closed (written delete clock) s = some (c', s')) :
      Batched delete clock c₀ s₀ requests c' s'

theorem flush_pending (hc : c.batcher = .flush batch) :
    c.pending.Perm (batch.map (·.job) ++ c.channel.map (·.job)) := by
  obtain ⟨parts, writers, hflush, -, hjobs, -⟩ := exists_flush_eq batch
  rw [pending, hc, hflush]
  exact hjobs.append_right _

/-- A step of the batcher writes some of the jobs that are pending, and the others still are. -/
theorem step_pending {closed : Bool}
    (h : c.step closed (written delete clock) s = some (c', s')) :
    ∃ part, s' = s.complete part delete clock ∧ (part ++ c'.pending).Perm c.pending := by
  unfold step at h
  -- only a step that flushes writes something; the others move a request or reply
  cases hb : c.batcher with
  | idle =>
    cases hchannel : c.channel with
    | cons request rest =>
      simp only [hb, hchannel, Option.some.injEq, Prod.mk.injEq] at h
      obtain ⟨rfl, rfl⟩ := h
      exact ⟨[], rfl, by simp [pending, hb, hchannel]⟩
    | nil =>
      simp only [hb, hchannel, Option.ite_none_right_eq_some, Option.some.injEq,
        Prod.mk.injEq] at h
      obtain ⟨-, rfl, rfl⟩ := h
      exact ⟨[], rfl, by simp [pending, hb, hchannel]⟩
  | gathering batch =>
    have hflush : c'.batcher = .flush batch → c'.channel = c.channel →
        c'.pending.Perm c.pending := by
      intro hbatch hsame
      have hbefore : c.pending = batch.map (·.job) ++ c.channel.map (·.job) := by
        rw [pending, hb]
      rw [hbefore, ← hsame]
      exact flush_pending hbatch
    cases hchannel : c.channel with
    | cons request rest =>
      simp only [hb, hchannel] at h
      by_cases hroom : batch.length < c.capacity
      · rw [if_pos hroom] at h
        cases h
        exact ⟨[], rfl, by simp [pending, hb, hchannel]⟩
      · rw [if_neg hroom] at h
        cases h
        exact ⟨[], rfl, hflush rfl hchannel.symm⟩
    | nil =>
      simp only [hb, hchannel] at h
      cases h
      exact ⟨[], rfl, hflush rfl hchannel.symm⟩
  | flushing parts writers failure =>
    cases parts with
    | nil =>
      simp only [hb] at h
      cases h
      exact ⟨[], rfl, by simp [pending, hb, reply]⟩
    | cons part rest =>
      simp only [hb] at h
      cases h
      exact ⟨part, rfl, by simp [pending, hb]⟩
  | stopped => simp [hb] at h
  | dead => simp [hb] at h

/-- What is written, together with what is pending, is what was pending at first and what came. -/
theorem Batched.pending {c₀ : Completion} {s₀ : Store} {requests : List CompletionRequest}
    (h : Batched delete clock c₀ s₀ requests c s) :
    ∃ jobs, s = s₀.complete jobs delete clock ∧
      (jobs ++ c.pending).Perm (c₀.pending ++ requests.map (·.job)) := by
  induction h with
  | start => exact ⟨[], rfl, by simp⟩
  | @sent requests c s _ request _ ih =>
    obtain ⟨jobs, hs, hperm⟩ := ih
    refine ⟨jobs, hs, ?_⟩
    -- a request goes to the end of the channel
    have hsent : (c.send request).pending = c.pending ++ [request.job] := by
      simp [Completion.pending, send]
    rw [hsent, List.map_append, ← List.append_assoc, ← List.append_assoc]
    exact hperm.append_right _
  | stepped _ closed hstep ih =>
    obtain ⟨jobs, rfl, hperm⟩ := ih
    obtain ⟨part, rfl, hpart⟩ := step_pending hstep
    refine ⟨jobs ++ part, (Store.complete_append _ _).symm, ?_⟩
    rw [List.append_assoc]
    exact (hpart.append_left jobs).trans hperm

/-- However the requests come, and in whatever batches they are gathered: once all of them are
written, the store is as if they had been written one by one. -/
theorem Batched.eq_one_by_one {c₀ : Completion} {s₀ : Store} {requests : List CompletionRequest}
    (hs : s₀.Distinct) (hu : s₀.Unmixed) (h : Batched delete clock c₀ s₀ requests c s)
    (hfresh : c₀.pending = []) (hwritten : c.pending = []) :
    s = oneByOne delete clock requests s₀ := by
  obtain ⟨jobs, rfl, hperm⟩ := h.pending
  rw [hfresh, hwritten, List.append_nil, List.nil_append] at hperm
  rw [Store.complete_perm hs hu hperm, oneByOne_eq]

end JobQueue.Completion
