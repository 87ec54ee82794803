import JobQueue.Proofs.Batching.Flush

/-!
# What the batcher replies

Requests to complete jobs come while the batcher gathers and writes. Whatever comes when, and
however its calls are answered, it goes through the requests in the order in which they came: each
is in one batch, each batch is written with the calls for its two parts, and all who asked get one
reply that says what became of these calls.
-/

namespace JobQueue.Completion

variable {σ : Type} {complete : List FinishedJob → σ → Answer Unit × σ} {limit : Nat}

/-! ## 1. What is seen of the batcher -/

/-- What was seen of a batcher: the requests in the order in which they came, the batches, the calls
with their answers and the replies, and how many steps it made. -/
structure Ledger where
  sent : List CompletionRequest := []
  flushed : List (List CompletionRequest) := []
  calls : List CallMade := []
  replies : List (Writer × CompletionReply) := []
  steps : Nat := 0

/-- Keeps the calls that are made, with their answers. -/
def noting (complete : List FinishedJob → σ → Answer Unit × σ) (jobs : List FinishedJob)
    (s : σ × List CallMade) :
    Answer Unit × σ × List CallMade :=
  let (answer, s') := complete jobs s.1
  (answer, s', s.2 ++ [(jobs, answer)])

/-- The batch that a step begins to flush. -/
def begunBy (c c' : Completion) : List (List CompletionRequest) :=
  match c.batcher, c'.batcher with
  | .gathering batch, .flushing .. => [batch]
  | _, _ => []

/-- What was seen after a step, which may have begun a flush, made a call or given replies. -/
def Ledger.next (l : Ledger) (c c' : Completion) (calls : List CallMade) :
    Ledger :=
  { sent := l.sent
    flushed := l.flushed ++ begunBy c c'
    calls
    replies := l.replies ++ c'.replies.drop c.replies.length
    steps := l.steps + 1 }

/-- A batcher at work, and what is seen of it. Requests come at any time as long as there is room,
replies are taken at any time, and others change what the calls go to. -/
inductive Run (complete : List FinishedJob → σ → Answer Unit × σ) (maxBatch : Nat) (s₀ : σ) :
    Ledger → Completion → σ → Prop
  | start : Run complete maxBatch s₀ {} (.ofConcurrency maxBatch) s₀
  | sent {l : Ledger} {c : Completion} {s : σ} (h : Run complete maxBatch s₀ l c s)
      (request : CompletionRequest) (hopen : c.isOpen = true) (hroom : c.hasRoom = true) :
      Run complete maxBatch s₀ { l with sent := l.sent ++ [request] } (c.send request) s
  | took {l : Ledger} {c : Completion} {s : σ} (h : Run complete maxBatch s₀ l c s)
      (writer : Writer) : Run complete maxBatch s₀ l (c.take writer) s
  | elsewhere {l : Ledger} {c : Completion} {s : σ} (h : Run complete maxBatch s₀ l c s) (s' : σ) :
      Run complete maxBatch s₀ l c s'
  | stepped {l : Ledger} {c c' : Completion} {s s' : σ}
      {calls : List CallMade} (h : Run complete maxBatch s₀ l c s) (closed : Bool)
      (hstep : c.step closed (noting complete) (s, l.calls) = some (c', s', calls)) :
      Run complete maxBatch s₀ (l.next c c' calls) c' s'

/-! ## 2. One flush after the other -/

/-- The requests in the batches of some flushes. -/
def asked (flushes : List Flush) : List CompletionRequest := flushes.flatMap (·.batch)

@[simp] theorem asked_nil : asked [] = [] := rfl

@[simp] theorem asked_append (flushes new : List Flush) :
    asked (flushes ++ new) = asked flushes ++ asked new :=
  List.flatMap_append

@[simp] theorem asked_singleton (f : Flush) : asked [f] = f.batch :=
  List.flatMap_singleton ..

/-- What was seen is what the flushes left, one after the other, and the requests that are in none
of their batches. -/
structure Ledger.Splits (l : Ledger) (flushes : List Flush) (rest : List CompletionRequest) :
    Prop where
  sent : l.sent = asked flushes ++ rest
  flushed : l.flushed = flushes.map (·.batch)
  calls : l.calls = flushes.flatMap (·.calls)
  replies : l.replies = flushes.flatMap (·.replies)

/-- How far the batcher is on its way from one reply to the next. It gathers at most as many
requests as the limit allows, and then has at most two parts to write. -/
def progress (limit : Nat) : Batcher → Nat
  | .idle => 0
  | .gathering batch => batch.length
  | .flushing parts _ _ => limit + 3 - parts.length
  | .stopped => 1
  | .dead => 0

/-- How the batcher and its channel go on from some flushes that are done. -/
inductive Follows (limit : Nat) (l : Ledger) (flushes : List Flush) :
    Batcher → List CompletionRequest → Prop
  | idle {channel : List CompletionRequest} (h : l.Splits flushes channel) :
      Follows limit l flushes .idle channel
  | gathering {batch channel : List CompletionRequest} (h : l.Splits flushes (batch ++ channel))
      (hnonempty : batch ≠ []) (hshort : batch.length ≤ limit) :
      Follows limit l flushes (.gathering batch) channel
  | flushing {f : Flush} {left : List (List FinishedJob)} {channel : List CompletionRequest}
      (h : l.Splits (flushes ++ [f]) channel) (hf : f.Writes limit left) :
      Follows limit l flushes (.flushing left (Batcher.askers f.batch) (firstError f.calls)) channel
  | stopped (h : l.Splits flushes []) : Follows limit l flushes .stopped []
  | dead {f : Flush} {rest : List CompletionRequest} {lost : List Writer}
      (h : l.Splits (flushes ++ [f]) rest) (hbegun : f.Begun limit)
      (hcrash : ∃ call ∈ f.calls, call.2 = .error .crash)
      (hreplies : f.replies = lost.map (·, .error .completionUnavailable))
      (hlost : lost.Perm ((f.batch ++ rest).map (·.writer))) :
      Follows limit l flushes .dead []

/-- While a batch is flushed, no other one is. -/
theorem begunBy_of_flushing {c c' : Completion} {left : List (List FinishedJob)}
    {writers : List Writer} {failure : Option BackendError}
    (hc : c.batcher = .flushing left writers failure) : begunBy c c' = [] := by
  rw [begunBy, hc]

namespace Ledger

variable {l : Ledger} {flushes : List Flush} {f : Flush} {rest : List CompletionRequest}
  {c c' : Completion}

theorem Splits.next (h : l.Splits flushes rest) (hbegun : begunBy c c' = [])
    (hreplies : c'.replies = c.replies) : (l.next c c' l.calls).Splits flushes rest :=
  ⟨h.sent, by simp [Ledger.next, hbegun, h.flushed], h.calls, by
    simp [Ledger.next, hreplies, h.replies]⟩

/-- A batch that is flushed takes the first of the requests that are left. -/
theorem Splits.flush {batch : List CompletionRequest} (h : l.Splits flushes (batch ++ rest))
    (hbegun : begunBy c c' = [batch]) (hreplies : c'.replies = c.replies) :
    (l.next c c' l.calls).Splits (flushes ++ [⟨batch, [], []⟩]) rest :=
  ⟨by simp [Ledger.next, h.sent], by simp [Ledger.next, hbegun, h.flushed],
    by simp [Ledger.next, h.calls], by simp [Ledger.next, hreplies, h.replies]⟩

/-- What is called and replied next belongs to the last flush. -/
theorem Splits.last {calls : List CallMade}
    {replies : List (Writer × CompletionReply)} (h : l.Splits (flushes ++ [f]) rest)
    (hf : f.replies = []) (hbegun : begunBy c c' = [])
    (hreplies : c'.replies = c.replies ++ replies) :
    (l.next c c' (l.calls ++ calls)).Splits
      (flushes ++ [{ batch := f.batch, calls := f.calls ++ calls, replies }]) rest :=
  ⟨by simp [Ledger.next, h.sent], by simp [Ledger.next, hbegun, h.flushed],
    by simp [Ledger.next, h.calls], by simp [Ledger.next, hreplies, h.replies, hf]⟩

end Ledger

/-- What a step comes to: at most one more flush is done, and if the batcher does not end with it,
it is closer to the next reply. -/
structure Advances (l : Ledger) (flushes : List Flush) (c c' : Completion)
    (calls : List CallMade) : Prop where
  capacity : c'.capacity = c.capacity
  replies : ∃ replies, c'.replies = c.replies ++ replies
  follows : ∃ new : List Flush, (∀ f ∈ new, f.Truthful c.capacity) ∧
    Follows c.capacity (l.next c c' calls) (flushes ++ new) c'.batcher c'.channel ∧
    (c'.batcher ≠ .dead → progress c.capacity c.batcher <
      progress c.capacity c'.batcher + (c.capacity + 4) * (asked new).length)

section Step

variable {l : Ledger} {flushes : List Flush} {c c' : Completion}
  {calls : List CallMade}

/-- A step that is no reply. -/
theorem Advances.of_follows (hcapacity : c'.capacity = c.capacity)
    (hreplies : ∃ replies, c'.replies = c.replies ++ replies)
    (hfollows : Follows c.capacity (l.next c c' calls) flushes c'.batcher c'.channel)
    (hprogress : c'.batcher ≠ .dead →
      progress c.capacity c.batcher < progress c.capacity c'.batcher) :
    Advances l flushes c c' calls :=
  ⟨hcapacity, hreplies, [], by simp, by simpa using hfollows, fun h => by
    simpa [asked] using hprogress h⟩

/-- A batch that is gathered is flushed. -/
theorem Advances.flush {batch : List CompletionRequest} (hc : c.batcher = .gathering batch)
    (h : l.Splits flushes (batch ++ c.channel)) (hnonempty : batch ≠ [])
    (hshort : batch.length ≤ c.capacity) :
    Advances l flushes c { c with batcher := .flush batch } l.calls := by
  have hbegun : begunBy c { c with batcher := .flush batch } = [batch] := by
    rw [begunBy, hc, Batcher.flush_eq]
  refine .of_follows rfl ⟨[], by simp⟩ ?_ fun _ => ?_
  · have hsplits := h.flush hbegun rfl
    rw [show ({ c with batcher := .flush batch } : Completion).batcher = _ from
      Batcher.flush_eq batch]
    exact .flushing hsplits ⟨hnonempty, hshort, rfl, by simp, rfl⟩
  · have hparts := Batcher.length_parts_le batch
    simp only [hc, Batcher.flush_eq, progress]
    omega

section Flushing

variable {f : Flush} {part : List FinishedJob} {left : List (List FinishedJob)}

/-- All calls of a flush were made, and it gets its reply. -/
theorem Advances.reply
    (hc : c.batcher = .flushing [] (Batcher.askers f.batch) (firstError f.calls))
    (h : l.Splits (flushes ++ [f]) c.channel) (hf : f.Writes c.capacity []) :
    Advances l flushes c
      { c.reply (Batcher.askers f.batch) (replyOf (firstError f.calls)) with batcher := .idle }
      l.calls := by
  refine ⟨rfl, ⟨_, rfl⟩, [f.done], fun f' hf' => ?_, ?_, fun _ => ?_⟩
  · exact List.mem_singleton.1 hf' ▸ hf.truthful
  · have hbegun : begunBy c
        { c.reply (Batcher.askers f.batch) (replyOf (firstError f.calls)) with
          batcher := .idle } = [] := begunBy_of_flushing hc
    have hsplits : (l.next c _ (l.calls ++ [])).Splits _ c.channel :=
      h.last hf.no_replies hbegun rfl
    rw [List.append_nil, List.append_nil] at hsplits
    exact .idle hsplits
  · -- the batch has a request, which outweighs the way back to the start
    have hone : 1 ≤ f.batch.length := List.length_pos_iff.2 hf.nonempty
    have hmul := Nat.mul_le_mul_left (c.capacity + 4) hone
    simp only [hc, progress, asked, List.flatMap_singleton, Flush.done_batch, List.length_nil]
    omega

/-- A call of a flush is answered. -/
theorem Advances.answered {answer : Answer Unit}
    (hc : c.batcher = .flushing (part :: left) (Batcher.askers f.batch) (firstError f.calls))
    (h : l.Splits (flushes ++ [f]) c.channel) (hf : f.Writes c.capacity (part :: left))
    (hanswer : answer ≠ .error .crash) :
    Advances l flushes c
      { c with
        batcher := .flushing left (Batcher.askers f.batch)
          (firstError (f.calls ++ [(part, answer)])) }
      (l.calls ++ [(part, answer)]) := by
  refine .of_follows rfl ⟨[], by simp⟩ ?_ fun _ => ?_
  · refine .flushing (h.last hf.no_replies (begunBy_of_flushing hc) (by simp))
      ⟨hf.nonempty, hf.short, ?_, ?_, rfl⟩
    · rw [List.map_append, List.append_assoc]
      exact hf.calls_append
    · intro call hcall
      rcases List.mem_append.1 hcall with hcall | hcall
      · exact hf.answered call hcall
      · obtain rfl := List.mem_singleton.1 hcall
        exact hanswer
  · have hparts := congrArg List.length hf.calls_append
    have htwo := Batcher.length_parts_le f.batch
    rw [List.length_append, List.length_cons] at hparts
    -- one part less is left, and there were at most two
    simp only [hc, progress, List.length_cons]
    omega

/-- A call of a flush crashes, and the batcher with it. -/
theorem Advances.crash
    (hc : c.batcher = .flushing (part :: left) (Batcher.askers f.batch) (firstError f.calls))
    (h : l.Splits (flushes ++ [f]) c.channel) (hf : f.Writes c.capacity (part :: left)) :
    Advances l flushes c (c.die (Batcher.askers f.batch))
      (l.calls ++ [(part, .error .crash)]) := by
  refine .of_follows rfl ⟨_, rfl⟩ ?_ fun hdead => absurd rfl hdead
  refine .dead (h.last hf.no_replies (begunBy_of_flushing hc) rfl) ⟨hf.nonempty, hf.short, left, ?_⟩
    ⟨(part, .error .crash), by simp, rfl⟩ rfl ?_
  · rw [List.map_append, List.append_assoc]
    exact hf.calls_append
  · rw [List.map_append]
    exact (Batcher.askers_perm f.batch).append_right _

/-- A call of a flush is made. -/
theorem Advances.call {closed : Bool} {s s' : σ}
    (hc : c.batcher = .flushing (part :: left) (Batcher.askers f.batch) (firstError f.calls))
    (h : l.Splits (flushes ++ [f]) c.channel) (hf : f.Writes c.capacity (part :: left))
    (hstep : c.step closed (noting complete) (s, l.calls) = some (c', s', calls)) :
    Advances l flushes c c' calls := by
  rcases hcomplete : complete part s with ⟨answer, s₁⟩
  simp only [step, hc, noting, hcomplete] at hstep
  match answer with
  | .ok () =>
    cases hstep
    rw [← firstError_append_ok part]
    exact .answered hc h hf (by simp)
  | .error (.error e) =>
    cases hstep
    rw [← firstError_append_error part]
    exact .answered hc h hf (by simp)
  | .error .crash =>
    cases hstep
    exact .crash hc h hf

end Flushing

/-- **A step of the batcher** goes on from where the flushes that are done have left off. -/
theorem Follows.step {closed : Bool} {s s' : σ} (hroom : 0 < c.capacity)
    (h : Follows c.capacity l flushes c.batcher c.channel)
    (hstep : c.step closed (noting complete) (s, l.calls) = some (c', s', calls)) :
    Advances l flushes c c' calls := by
  -- one case for each state of the batcher, so that the step computes
  obtain ⟨capacity, channel, replies, batcher⟩ := c
  dsimp only at h hroom
  cases h with
  | idle h =>
    cases channel with
    | cons request rest =>
      cases hstep
      refine .of_follows rfl ⟨[], by simp⟩ ?_ fun _ => ?_
      · exact .gathering (h.next rfl rfl) (by simp) hroom
      · simp [progress]
    | nil =>
      cases closed with
      | false => cases hstep
      | true =>
        cases hstep
        exact .of_follows rfl ⟨[], by simp⟩ (.stopped (h.next rfl rfl)) (by simp [progress])
  | @gathering batch _ h hnonempty hshort =>
    cases channel with
    | cons request rest =>
      by_cases hfull : batch.length < capacity
      · simp only [Completion.step, if_pos hfull] at hstep
        cases hstep
        refine .of_follows rfl ⟨[], by simp⟩ ?_ fun _ => ?_
        · refine .gathering ?_ (by simp) (by rw [List.length_append]; exact hfull)
          rw [List.append_assoc]
          exact h.next rfl rfl
        · simp [progress]
      · simp only [Completion.step, if_neg hfull] at hstep
        cases hstep
        exact .flush rfl h hnonempty hshort
    | nil =>
      cases hstep
      exact .flush rfl h hnonempty hshort
  | @flushing f left _ h hf =>
    cases left with
    | nil =>
      cases hstep
      exact .reply rfl h hf
    | cons part left => exact .call rfl h hf hstep
  | stopped h => cases hstep
  | dead h hbegun hcrash hreplies hlost => cases hstep

end Step

/-! ## 3. Whole runs -/

/-- What was seen of a batcher, told as its flushes: those that are done, the one that it is at, and
the requests that are not in a batch yet. -/
structure Account (limit : Nat) (l : Ledger) (c : Completion) (flushes : List Flush)
    (current : Option Flush) (rest : List CompletionRequest) : Prop where
  truthful : ∀ f ∈ flushes, f.Truthful limit
  begun : ∀ f ∈ current, f.Begun limit
  splits : l.Splits (flushes ++ current.toList) rest
  /-- No one gets a reply before all calls are made. -/
  silent : c.batcher ≠ .dead → ∀ f ∈ current, f.replies = []
  /-- Whoever has no reply when a call crashes is told that there will be none. -/
  lost : c.batcher = .dead → ∃ f ∈ current, (∃ call ∈ f.calls, call.2 = .error .crash) ∧
    (f.replies.map (·.1)).Perm ((f.batch ++ rest).map (·.writer)) ∧
    ∀ r ∈ f.replies, r.2 = .error .completionUnavailable
  /-- No one finds a reply that was not given. -/
  found : ∀ writer r, c.reply? writer = some r → (writer, r) ∈ l.replies
  /-- Each reply takes a bounded number of steps. -/
  steps_lt : c.batcher ≠ .dead → l.steps < (limit + 4) * ((asked flushes).length + 1)

theorem replied_perm {flushes : List Flush} (h : ∀ f ∈ flushes, f.Truthful limit) :
    ((flushes.flatMap (·.replies)).map (·.1)).Perm ((asked flushes).map (·.writer)) := by
  induction flushes with
  | nil => exact .rfl
  | cons f rest ih =>
    rw [asked, List.flatMap_cons, List.flatMap_cons, List.map_append, List.map_append]
    exact (h f List.mem_cons_self).replied.append
      (ih fun f' hf' => h f' (List.mem_cons_of_mem _ hf'))

theorem Follows.sent {l : Ledger} {flushes : List Flush} {c : Completion}
    (h : Follows limit l flushes c.batcher c.channel) (request : CompletionRequest)
    (hopen : c.isOpen = true) :
    Follows limit { l with sent := l.sent ++ [request] } flushes c.batcher
      (c.channel ++ [request]) := by
  obtain ⟨capacity, channel, replies, batcher⟩ := c
  have hsplits : ∀ {flushes rest}, l.Splits flushes rest →
      Ledger.Splits { l with sent := l.sent ++ [request] } flushes (rest ++ [request]) :=
    fun h => ⟨by simp [h.sent], h.flushed, h.calls, h.replies⟩
  cases h with
  | idle h => exact .idle (hsplits h)
  | @gathering batch _ h hnonempty hshort =>
    refine .gathering ?_ hnonempty hshort
    rw [← List.append_assoc]
    exact hsplits h
  | flushing h hf => exact .flushing (hsplits h) hf
  | stopped h => cases hopen
  | dead h hbegun hcrash hreplies hlost => cases hopen

section Runs

variable {maxBatch : Nat} {s₀ s : σ} {l : Ledger} {c : Completion}

/-- What holds all along a run. -/
theorem Run.follows (h : Run complete maxBatch s₀ l c s) :
    c.capacity = max maxBatch 1 ∧ (∀ r ∈ c.replies, r ∈ l.replies) ∧
      ∃ flushes, (∀ f ∈ flushes, f.Truthful c.capacity) ∧
        Follows c.capacity l flushes c.batcher c.channel ∧
        (c.batcher ≠ .dead →
          l.steps ≤ progress c.capacity c.batcher + (c.capacity + 4) * (asked flushes).length) := by
  induction h with
  | start =>
    exact ⟨rfl, by simp [ofConcurrency], [], by simp, .idle ⟨rfl, rfl, rfl, rfl⟩, by simp⟩
  | sent _ request hopen _ ih =>
    obtain ⟨hcapacity, hfound, flushes, htruthful, hfollows, hsteps⟩ := ih
    exact ⟨hcapacity, hfound, flushes, htruthful, hfollows.sent request hopen, hsteps⟩
  | took _ writer ih =>
    obtain ⟨hcapacity, hfound, flushes, htruthful, hfollows, hsteps⟩ := ih
    exact ⟨hcapacity, fun r hr => hfound r (List.mem_filter.1 hr).1, flushes, htruthful, hfollows,
      hsteps⟩
  | elsewhere _ s' ih => exact ih
  | @stepped l c c' s s' calls _ closed hstep ih =>
    obtain ⟨hcapacity, hfound, flushes, htruthful, hfollows, hsteps⟩ := ih
    -- a batcher that is gone makes no step
    have halive : c.batcher ≠ .dead := by
      intro hdead
      simp [Completion.step, hdead] at hstep
    obtain ⟨hsame, ⟨replies, hreplies⟩, new, hnew, hnext, hprogress⟩ :=
      hfollows.step (by omega) hstep
    rw [hsame]
    refine ⟨hcapacity, ?_, flushes ++ new, ?_, hnext, fun hdead => ?_⟩
    · intro r hr
      rw [hreplies, List.mem_append] at hr
      simp only [Ledger.next, hreplies, List.drop_left, List.mem_append]
      exact hr.imp_left (hfound r)
    · intro f hf
      exact (List.mem_append.1 hf).elim (htruthful f) (hnew f)
    · have hbefore := hsteps halive
      have hcloser := hprogress hdead
      rw [asked_append, List.length_append, Nat.mul_add]
      show l.steps + 1 ≤ _
      omega

/-- The batcher makes a step whenever it is ready. -/
theorem isSome_step (c : Completion) (closed : Bool) (s : σ) :
    (c.step closed complete s).isSome = c.isReady closed := by
  obtain ⟨capacity, channel, replies, batcher⟩ := c
  cases batcher with
  | idle => cases channel <;> cases closed <;> rfl
  | gathering batch =>
    cases channel with
    | nil => rfl
    | cons request rest =>
      by_cases hfull : batch.length < capacity <;> simp [step, isReady, hfull]
  | flushing left writers failure =>
    cases left with
    | nil => rfl
    | cons part left =>
      rcases hcomplete : complete part s with ⟨(_ | _) | _, s'⟩ <;> simp [step, isReady, hcomplete]
  | stopped => rfl
  | dead => rfl

theorem Follows.progress_lt {flushes : List Flush} {batcher : Batcher}
    {channel : List CompletionRequest} (h : Follows limit l flushes batcher channel) :
    progress limit batcher < limit + 4 := by
  cases h with
  | idle => simp [progress]
  | gathering _ _ hshort => simp only [progress]; omega
  | flushing => simp only [progress]; omega
  | stopped => simp only [progress]; omega
  | dead => simp [progress]

/-- What the batcher goes on from can be told as an account. -/
theorem Follows.account {flushes : List Flush} (h : Follows limit l flushes c.batcher c.channel)
    (htruthful : ∀ f ∈ flushes, f.Truthful limit)
    (hfound : ∀ writer r, c.reply? writer = some r → (writer, r) ∈ l.replies)
    (hsteps : c.batcher ≠ .dead →
      l.steps ≤ progress limit c.batcher + (limit + 4) * (asked flushes).length) :
    ∃ current rest, Account limit l c flushes current rest ∧
      (c.isReady false = false → c.batcher ≠ .dead → current = none ∧ rest = []) := by
  have hlt : c.batcher ≠ .dead → l.steps < (limit + 4) * ((asked flushes).length + 1) := by
    intro halive
    have hle := hsteps halive
    have hprogress := h.progress_lt
    rw [Nat.mul_add]
    omega
  obtain ⟨capacity, channel, replies, batcher⟩ := c
  cases h with
  | idle h =>
    refine ⟨none, channel, ⟨htruthful, by simp, by simpa using h, by simp, by simp, hfound, hlt⟩,
      fun hready _ => ⟨rfl, ?_⟩⟩
    cases channel with
    | nil => rfl
    | cons request rest => cases hready
  | @gathering batch _ h hnonempty hshort =>
    refine ⟨none, batch ++ channel,
      ⟨htruthful, by simp, by simpa using h, by simp, by simp, hfound, hlt⟩,
      fun hready => by cases hready⟩
  | @flushing f left _ h hf =>
    refine ⟨some f, channel, ⟨htruthful, ?_, by simpa using h, ?_, by simp, hfound, hlt⟩,
      fun hready => by cases hready⟩
    · rintro _ ⟨⟩
      exact ⟨hf.nonempty, hf.short, left, hf.calls_append⟩
    · rintro - _ ⟨⟩
      exact hf.no_replies
  | stopped h =>
    exact ⟨none, [], ⟨htruthful, by simp, by simpa using h, by simp, by simp, hfound, hlt⟩,
      fun _ _ => ⟨rfl, rfl⟩⟩
  | @dead f rest lost h hbegun hcrash hreplies hlost =>
    refine ⟨some f, rest, ⟨htruthful, ?_, by simpa using h, by simp,
      fun _ => ⟨f, rfl, hcrash, ?_, ?_⟩, hfound, hlt⟩, fun _ halive => absurd rfl halive⟩
    · rintro _ ⟨⟩
      exact hbegun
    · rw [hreplies, List.map_map]
      simpa [Function.comp_def] using hlost
    · intro r hr
      rw [hreplies] at hr
      obtain ⟨writer, -, rfl⟩ := List.mem_map.1 hr
      rfl

/-- Whoever is told that all went well asked for a flush whose calls all did. -/
theorem Account.eq_ok {flushes : List Flush} {current : Option Flush}
    {rest : List CompletionRequest} {writer : Writer} (h : Account limit l c flushes current rest)
    (hreply : c.reply? writer = some (.ok ())) :
    ∃ f ∈ flushes, writer ∈ f.batch.map (·.writer) ∧ ∀ call ∈ f.calls, call.2 = .ok () := by
  have hgiven := h.found writer _ hreply
  rw [h.splits.replies, List.mem_flatMap] at hgiven
  obtain ⟨f, hf, hgiven⟩ := hgiven
  rcases List.mem_append.1 hf with hf | hf
  · have hmem := (h.truthful f hf).replied.mem_iff.1 (List.mem_map_of_mem hgiven)
    exact ⟨f, hf, hmem, ((h.truthful f hf).ok_iff _ hgiven).1 rfl⟩
  · -- a flush that is not done gives no such reply
    rw [Option.mem_toList] at hf
    by_cases hdead : c.batcher = .dead
    · obtain ⟨f', hf', -, -, hunavailable⟩ := h.lost hdead
      obtain rfl := Option.mem_unique hf hf'
      cases hunavailable _ hgiven
    · rw [h.silent hdead f hf] at hgiven
      cases hgiven

/-- **Every request is answered once, and truthfully.** Whenever requests come and whatever the
calls return, the batches are the requests in the order in which they came, none of them empty or
too large; each batch is written with at most two calls, one for its jobs without a group and one
for the others; and all who asked for it get one reply, which is that all went well if all its calls
did, and the first error otherwise. When a call crashes, all who wait are told that there is no
reply. As long as someone waits, the batcher has a step to make, and it makes a bounded number of
them for each reply. -/
theorem requests_answered_once (h : Run complete maxBatch s₀ l c s) :
    ∃ (flushes : List Flush) (current : Option Flush) (rest : List CompletionRequest),
      Account (max maxBatch 1) l c flushes current rest ∧
      (∀ writer, c.reply? writer = some (.ok ()) →
        ∃ f ∈ flushes, writer ∈ f.batch.map (·.writer) ∧ ∀ call ∈ f.calls, call.2 = .ok ()) ∧
      (c.step false complete s = none →
        (l.replies.map (·.1)).Perm (l.sent.map (·.writer)) ∧
        (c.batcher ≠ .dead → l.sent = asked flushes)) := by
  obtain ⟨hcapacity, hfound, flushes, htruthful, hfollows, hsteps⟩ := h.follows
  rw [hcapacity] at htruthful hfollows hsteps
  have hreply : ∀ writer r, c.reply? writer = some r → (writer, r) ∈ l.replies := by
    intro writer r hr
    obtain ⟨before, after, heq, -⟩ := List.lookup_eq_some_iff.1 hr
    exact hfound _ (by simp [heq])
  obtain ⟨current, rest, haccount, hquiet⟩ := hfollows.account htruthful hreply hsteps
  refine ⟨flushes, current, rest, haccount, fun _ => haccount.eq_ok, fun hnone => ?_⟩
  have hready : c.isReady false = false := by
    have hstep : (c.step false complete s).isSome = false := by rw [hnone]; rfl
    exact (isSome_step c false s).symm.trans hstep
  have hsent := haccount.splits.sent
  have hreplies := haccount.splits.replies
  have hdone := replied_perm htruthful
  by_cases hdead : c.batcher = .dead
  · -- all who had no reply by then were told so at once
    refine ⟨?_, fun halive => absurd hdead halive⟩
    obtain ⟨f, hf, -, hlost, -⟩ := haccount.lost hdead
    obtain rfl := Option.mem_def.1 hf
    rw [hsent, hreplies]
    simpa [asked] using hdone.append hlost
  · obtain ⟨rfl, rfl⟩ := hquiet hready hdead
    have hall : l.sent = asked flushes := by simpa [asked] using hsent
    refine ⟨?_, fun _ => hall⟩
    rw [hall, hreplies]
    simpa using hdone

/-- A job without a group and one with a group come together and a third job while they are
gathered. The second call fails, so the first two requests are told its error, and the third one
that all went well. -/
theorem requests_answered_once_two_batches :
    let job (n : Nat) (successor : Successor) : FinishedJob :=
      ⟨⟨⟨.ofNat n⟩, ⟨.ofNat 9⟩⟩, successor⟩
    let request (n : Nat) (successor : Successor) : CompletionRequest :=
      ⟨.execution n, job n successor⟩
    let group : Successor := .sequence ⟨.ofNat 7⟩
    let script (_ : List FinishedJob) (answers : List (Answer Unit)) :
        Answer Unit × List (Answer Unit) := (answers.headD (.ok ()), answers.tail)
    let told (n : Nat) (r : CompletionReply) : Writer × CompletionReply := (.execution n, r)
    ∃ (l : Ledger) (c : Completion),
      Run script 2 [.ok (), .error (.error .badState)] l c [] ∧
      l.sent = [request 1 .none, request 2 group, request 3 .none] ∧
      l.replies = [told 1 (.error (.batchFailed .badState)),
        told 2 (.error (.batchFailed .badState)), told 3 (.ok ())] ∧
      ∃ flushes current rest, Account 2 l c flushes current rest ∧ l.sent = asked flushes := by
  intro job request group script told
  have hstart : Run script 2 [.ok (), .error (.error .badState)] {} (.ofConcurrency 2) _ := .start
  have hgathered := (((hstart.sent (request 1 .none) rfl rfl).sent (request 2 group) rfl rfl).stepped
    false rfl).sent (request 3 .none) rfl rfl
  have hfirst := ((((hgathered.stepped false rfl).stepped false rfl).stepped false rfl).stepped
    false rfl).stepped false rfl
  have hrun := (((hfirst.stepped false rfl).stepped false rfl).stepped false rfl).stepped false rfl
  obtain ⟨flushes, current, rest, haccount, -, hquiet⟩ := requests_answered_once hrun
  exact ⟨_, _, hrun, rfl, rfl, flushes, current, rest, haccount, (hquiet rfl).2 (by decide)⟩

end Runs

end JobQueue.Completion
