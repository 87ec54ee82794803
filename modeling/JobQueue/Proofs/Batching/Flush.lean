import JobQueue.Completion

/-!
# Flushing a batch

A batch is written with at most two calls: one for its jobs that belong to no group, and one for
those that do. All who asked for it get the same reply: that all went well, or the first error.
-/

namespace JobQueue

namespace Batcher

/-! ## 1. The parts of a batch -/

/-- The jobs of a batch as they are written: those without a group, then those of groups. -/
def parts (batch : List CompletionRequest) : List (List FinishedJob) :=
  [(batch.map (·.job)).filter fun job => !job.successor.isSequence,
    (batch.map (·.job)).filter (·.successor.isSequence)].filter (· ≠ [])

/-- Those who asked for a batch, in the order in which they get the reply. -/
def askers (batch : List CompletionRequest) : List Writer :=
  ((split batch).1 ++ (split batch).2).map (·.writer)

theorem split_eq (batch : List CompletionRequest) :
    split batch = (batch.filter fun request => !request.job.successor.isSequence,
      batch.filter (·.job.successor.isSequence)) := by
  rw [split, List.partition_eq_filter_filter]
  simp [Function.comp_def]

theorem split_perm (batch : List CompletionRequest) :
    ((split batch).1 ++ (split batch).2).Perm batch := by
  rw [split, List.partition_eq_filter_filter]
  exact List.filter_append_perm _ batch

theorem flush_eq (batch : List CompletionRequest) :
    flush batch = .flushing (parts batch) (askers batch) none := by
  have hjobs : [(batch.map (·.job)).filter fun job => !job.successor.isSequence,
      (batch.map (·.job)).filter (·.successor.isSequence)] =
      [(split batch).1, (split batch).2].map (·.map (·.job)) := by
    rw [split_eq, List.filter_map, List.filter_map]
    rfl
  rw [parts, hjobs, List.filter_map]
  -- a part has jobs if it has requests
  have hempty : ((fun jobs : List FinishedJob => decide (jobs ≠ [])) ∘ (·.map (·.job))) =
      fun requests : List CompletionRequest => decide (requests ≠ []) := by
    funext requests
    simp
  rw [hempty]
  rfl

theorem length_parts_le (batch : List CompletionRequest) : (parts batch).length ≤ 2 :=
  List.length_filter_le _ _

theorem parts_perm (batch : List CompletionRequest) :
    (parts batch).flatten.Perm (batch.map (·.job)) := by
  have hflatten : (parts batch).flatten =
      (batch.map (·.job)).filter (fun job => !job.successor.isSequence) ++
        (batch.map (·.job)).filter (·.successor.isSequence) := by
    rw [parts]
    exact (List.flatten_filter_ne_nil).trans (by simp)
  rw [hflatten]
  simpa using List.filter_append_perm (fun job => !job.successor.isSequence) (batch.map (·.job))

theorem askers_perm (batch : List CompletionRequest) :
    (askers batch).Perm (batch.map (·.writer)) :=
  (split_perm batch).map _

end Batcher

namespace Completion

variable {limit : Nat}

/-! ## 2. A flush and its reply -/

/-- A call for some jobs, and its answer. -/
abbrev CallMade := List FinishedJob × Answer Unit

/-- A batch that is flushed, the calls that are made for it with their answers, and the replies. -/
structure Flush where
  batch : List CompletionRequest
  calls : List CallMade := []
  replies : List (Writer × CompletionReply) := []

/-- The error that a call is answered with. -/
def errorOf? : Answer Unit → Option BackendError
  | .ok () => none
  | .error .crash => none
  | .error (.error e) => some e

/-- The first error that a call is answered with. -/
def firstError (calls : List CallMade) : Option BackendError :=
  calls.findSome? fun call => errorOf? call.2

/-- A flush that is done, and truthful. -/
structure Flush.Truthful (limit : Nat) (f : Flush) : Prop where
  nonempty : f.batch ≠ []
  short : f.batch.length ≤ limit
  /-- There is a call for the jobs that belong to no group and one for those that do, as far as
  there are such jobs. -/
  calls_eq : f.calls.map (·.1) = Batcher.parts f.batch
  few : f.calls.length ≤ 2
  jobs : (f.calls.flatMap (·.1)).Perm (f.batch.map (·.job))
  /-- All who asked get a reply. -/
  replied : (f.replies.map (·.1)).Perm (f.batch.map (·.writer))
  ok_iff : ∀ r ∈ f.replies, r.2 = .ok () ↔ ∀ call ∈ f.calls, call.2 = .ok ()
  first : ∀ r ∈ f.replies, ∀ e, r.2 = .error e → ∃ done jobs e' rest,
    f.calls = done ++ (jobs, .error (.error e')) :: rest ∧
      (∀ call ∈ done, call.2 = .ok ()) ∧ e = .batchFailed e'

/-- A flush that may still have calls to make. -/
structure Flush.Begun (limit : Nat) (f : Flush) : Prop where
  nonempty : f.batch ≠ []
  short : f.batch.length ≤ limit
  calls_prefix : f.calls.map (·.1) <+: Batcher.parts f.batch

/-- A flush whose calls so far were answered, and which has the parts that are left still to write.
-/
structure Flush.Writes (limit : Nat) (f : Flush) (left : List (List FinishedJob)) : Prop where
  nonempty : f.batch ≠ []
  short : f.batch.length ≤ limit
  calls_append : f.calls.map (·.1) ++ left = Batcher.parts f.batch
  answered : ∀ call ∈ f.calls, call.2 ≠ .error .crash
  no_replies : f.replies = []

/-! ## 3. The first error -/

theorem errorOf?_eq_some_iff {answer : Answer Unit} {e : BackendError} :
    errorOf? answer = some e ↔ answer = .error (.error e) := by
  match answer with
  | .ok () => simp [errorOf?]
  | .error .crash => simp [errorOf?]
  | .error (.error e') => simp [errorOf?]

theorem errorOf?_eq_none_iff {answer : Answer Unit} (hcrash : answer ≠ .error .crash) :
    errorOf? answer = none ↔ answer = .ok () := by
  match answer with
  | .ok () => simp [errorOf?]
  | .error .crash => exact absurd rfl hcrash
  | .error (.error e) => simp [errorOf?]

section Answered

variable {calls : List CallMade}

theorem firstError_append_ok (jobs : List FinishedJob) :
    firstError (calls ++ [(jobs, .ok ())]) = firstError calls := by
  simp [firstError, List.findSome?_append, errorOf?]

theorem firstError_append_error (jobs : List FinishedJob) (e : BackendError) :
    firstError (calls ++ [(jobs, .error (.error e))]) = (firstError calls).or (some e) := by
  simp [firstError, List.findSome?_append, errorOf?]

theorem firstError_eq_none (hcalls : ∀ call ∈ calls, call.2 ≠ .error .crash) :
    firstError calls = none ↔ ∀ call ∈ calls, call.2 = .ok () := by
  rw [firstError, List.findSome?_eq_none_iff]
  exact forall₂_congr fun call hcall => errorOf?_eq_none_iff (hcalls call hcall)

theorem exists_of_firstError {e : BackendError}
    (hcalls : ∀ call ∈ calls, call.2 ≠ .error .crash) (h : firstError calls = some e) :
    ∃ done jobs rest, calls = done ++ (jobs, .error (.error e)) :: rest ∧
      ∀ call ∈ done, call.2 = .ok () := by
  obtain ⟨done, ⟨jobs, answer⟩, rest, rfl, hanswer, hdone⟩ := List.findSome?_eq_some_iff.1 h
  obtain rfl := errorOf?_eq_some_iff.1 hanswer
  refine ⟨done, jobs, rest, rfl, fun call hcall => ?_⟩
  exact (errorOf?_eq_none_iff (hcalls call (List.mem_append_left _ hcall))).1 (hdone call hcall)

end Answered

/-- The flush with the reply to all who asked, which tells the first error. -/
def Flush.done (f : Flush) : Flush :=
  { f with replies := (Batcher.askers f.batch).map (·, replyOf (firstError f.calls)) }

@[simp] theorem Flush.done_batch (f : Flush) : f.done.batch = f.batch := rfl

@[simp] theorem Flush.done_calls (f : Flush) : f.done.calls = f.calls := rfl

/-- When no part is left to write, the reply is truthful. -/
theorem Flush.Writes.truthful {f : Flush} (h : f.Writes limit []) : f.done.Truthful limit where
  nonempty := h.nonempty
  short := h.short
  calls_eq := by simpa using h.calls_append
  few := by
    have hlength := congrArg List.length h.calls_append
    have htwo := Batcher.length_parts_le f.batch
    rw [List.append_nil, List.length_map] at hlength
    exact hlength ▸ htwo
  jobs := by
    have hcalls := h.calls_append
    rw [List.append_nil] at hcalls
    rw [Flush.done_calls, List.flatMap_def, hcalls]
    exact Batcher.parts_perm f.batch
  replied := by
    rw [done, List.map_map]
    simpa [Function.comp_def] using Batcher.askers_perm f.batch
  ok_iff := by
    intro r hr
    obtain ⟨writer, -, rfl⟩ := List.mem_map.1 hr
    rw [Flush.done_calls, ← firstError_eq_none h.answered]
    cases firstError f.calls <;> simp [replyOf]
  first := by
    intro r hr e he
    obtain ⟨writer, -, rfl⟩ := List.mem_map.1 hr
    cases hfirst : firstError f.calls with
    | none =>
      rw [hfirst] at he
      cases he
    | some e' =>
      rw [hfirst] at he
      cases he
      obtain ⟨done, jobs, rest, hsplit, hdone⟩ := exists_of_firstError h.answered hfirst
      exact ⟨done, jobs, e', rest, hsplit, hdone, rfl⟩

end Completion

end JobQueue
