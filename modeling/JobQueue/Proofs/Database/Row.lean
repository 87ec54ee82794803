import JobQueue.Database.Statement
import JobQueue.Proofs.Except

/-!
# Records of jobs

A record that is inserted for a new job holds the values that are bound, and defaults in the other
columns. It is read as the job that is first stored, with times cut to microseconds. So is the
record of any other job: nothing but the cut is lost on the way through its columns. A row whose
count of attempts does not fit is not a job, and one without an owner is not a claimed job; every
other row is.
-/

namespace JobQueue

theorem JobStatus.ofLabel?_label (s : JobStatus) : JobStatus.ofLabel? s.label = some s := by
  cases s <;> decide +kernel

/-- The instant in whole microseconds, cut toward the year 2000. -/
def Instant.cut (t : Instant) : Instant := (Database.Timestamp.ofInstant t).instant

/-- The job with its times cut. -/
def Job.cut (j : Job) : Job :=
  { j with
    createdAt := j.createdAt.cut
    scheduledAt := j.scheduledAt.cut
    lastStartedAt := j.lastStartedAt.map Instant.cut
    lastFinishedAt := j.lastFinishedAt.map Instant.cut }

namespace Database

/-! ## 1. Times -/

/-- The cut goes to a whole microsecond, by less than one of them, and toward the year 2000. -/
theorem cut_spec (t : Instant) : t.cut.nanos % 1000 = 0 ∧
    (Timestamp.originNanos ≤ t.nanos → t.cut.nanos ≤ t.nanos ∧ t.nanos < t.cut.nanos + 1000) ∧
    (t.nanos < Timestamp.originNanos → t.nanos ≤ t.cut.nanos ∧ t.cut.nanos < t.nanos + 1000) := by
  -- a late time loses its remainder and an early one gains it
  refine ⟨(Timestamp.ofInstant t).whole, fun hlate => ?_, fun hearly => ?_⟩
  · have hcut : t.cut.nanos = t.nanos - t.nanos % 1000 := by
      rw [Instant.cut, Timestamp.ofInstant, dif_pos hlate]
    omega
  · have hcut : t.cut.nanos = t.nanos + -t.nanos % 1000 := by
      rw [Instant.cut, Timestamp.ofInstant, dif_neg (Int.not_le.2 hearly)]
    omega

/-! ## 2. Successors and attempts -/

theorem successorOf_columns (s : Successor) :
    successorOf (successorColumns s).1 (successorColumns s).2 = s := by
  cases s <;> rfl

namespace JobRow

variable {r : JobRow} {e : BackendError}

theorem attemptCount_of_counted (h : 0 ≤ r.attempt ∧ r.attempt < 65536) :
    r.attemptCount = .ok r.attempt.toNat.toUInt16 ∧
      (r.attempt.toNat.toUInt16.toNat : Int) = r.attempt := by
  refine ⟨if_pos h, ?_⟩
  have hsmall : r.attempt.toNat < 65536 := by omega
  rw [UInt16.toNat_ofNat_of_lt' hsmall]
  omega

theorem attemptCount_ofJob (j : Job) : (ofJob j).attemptCount = .ok j.attempt := by
  -- a job counts in sixteen bits, so what it has counted fits again
  have hsmall := j.attempt.toNat_lt
  have hcounted : 0 ≤ (ofJob j).attempt ∧ (ofJob j).attempt < 65536 := by
    show 0 ≤ (j.attempt.toNat : Int) ∧ (j.attempt.toNat : Int) < 65536
    omega
  rw [(attemptCount_of_counted hcounted).1]
  show Except.ok (j.attempt.toNat.toUInt16) = _
  rw [Nat.toUInt16_eq, UInt16.ofNat_toNat]

theorem attemptCount_eq_error_iff :
    r.attemptCount = .error e ↔ e = .badState ∧ ¬ (0 ≤ r.attempt ∧ r.attempt ≤ 65535) := by
  unfold attemptCount
  split
  · rename_i hcounted
    refine iff_of_false nofun fun h => h.2 ?_
    omega
  · rename_i hnot
    simp only [Except.error.injEq]
    constructor
    · rintro rfl
      exact ⟨rfl, by omega⟩
    · rintro ⟨rfl, -⟩
      rfl

/-! ## 3. Rows -/

theorem toJob_eq_error_iff :
    r.toJob = .error e ↔ e = .badState ∧ ¬ (0 ≤ r.attempt ∧ r.attempt ≤ 65535) := by
  rw [toJob, bind_ok_eq_error_iff, attemptCount_eq_error_iff]

theorem toClaimed_eq_error_iff : r.toClaimed = .error e ↔
    e = .badState ∧ (¬ (0 ≤ r.attempt ∧ r.attempt ≤ 65535) ∨ r.ownerId = none) := by
  unfold toClaimed
  cases howner : r.ownerId with
  | none =>
    simp only [Except.error.injEq, or_true, and_true]
    exact eq_comm
  | some owner =>
    simp only [reduceCtorEq, or_false]
    rw [bind_ok_eq_error_iff, attemptCount_eq_error_iff]

theorem toJob_ofJob (j : Job) : (ofJob j).toJob = .ok j := by
  rw [toJob, attemptCount_ofJob]
  have howner : (j.owner.map (·.uuid)).map WorkerId.mk = j.owner := by
    cases j.owner <;> rfl
  show Except.ok _ = _
  simp only [successor, ofJob, successorOf_columns, howner]

theorem toClaimed_ofJob {j : Job} {owner : WorkerId} (h : j.owner = some owner) :
    (ofJob j).toClaimed = .ok (j.claimed owner) := by
  have howner : (ofJob j).ownerId = some owner.uuid := by
    show j.owner.map (·.uuid) = _
    rw [h]
    rfl
  rw [toClaimed, howner, attemptCount_ofJob]
  show Except.ok _ = _
  simp only [successor, ofJob, successorOf_columns, Job.claimed]

end JobRow

/-! ## 4. Records -/

theorem Value.eq_of_ofOption {α : Type} {make : α → Value} (hmake : ∀ a b, make a = make b → a = b)
    (hnull : ∀ a, make a ≠ .null) {a b : Option α} (h : ofOption make a = ofOption make b) :
    a = b := by
  cases a with
  | none =>
    cases b with
    | none => rfl
    | some b => exact absurd h.symm (hnull b)
  | some a =>
    cases b with
    | none => exact absurd h (hnull a)
    | some b => exact congrArg some (hmake a b h)

/-- The record in which a job is kept. -/
def Cells.ofJob (j : Job) : Cells where
  id := some j.id.uuid
  jobType := some j.jobType
  parameter := some j.parameter
  cron := j.cron
  status := some j.status.label
  attempt := some j.attempt.toNat
  createdAt := some (.ofInstant j.createdAt)
  scheduledAt := some (.ofInstant j.scheduledAt)
  lastStartedAt := j.lastStartedAt.map .ofInstant
  lastFinishedAt := j.lastFinishedAt.map .ofInstant
  ownerId := j.owner.map (·.uuid)
  nextJobId := (successorColumns j.successor).1
  sequenceId := (successorColumns j.successor).2
  restartOnCrash := some j.restartOnCrash
  lastError := j.lastError

/-- What is lost in a record is what is cut off its times. -/
theorem Cells.toRow_ofJob (j : Job) : (Cells.ofJob j).toRow = .ok (.ofJob j.cut) := by
  have hstarted : (j.lastStartedAt.map Timestamp.ofInstant).map (·.instant) =
      j.lastStartedAt.map Instant.cut := Option.map_map ..
  have hfinished : (j.lastFinishedAt.map Timestamp.ofInstant).map (·.instant) =
      j.lastFinishedAt.map Instant.cut := Option.map_map ..
  simp only [toRow, ofJob, required, requiredStatus, JobStatus.ofLabel?_label, hstarted, hfinished]
  rfl

/-- Records that hold the same values are the same. -/
theorem Cells.ext_value {c c' : Cells} (h : ∀ column, c.value column = c'.value column) :
    c = c' := by
  -- one reader for each type of cell: a value is null only where the cell is empty
  have uuid {a b : Option Uuid} (hab : Value.ofOption .uuid a = .ofOption .uuid b) : a = b :=
    Value.eq_of_ofOption (fun _ _ => Value.uuid.inj) (by simp) hab
  have text {a b : Option String} (hab : Value.ofOption .text a = .ofOption .text b) : a = b :=
    Value.eq_of_ofOption (fun _ _ => Value.text.inj) (by simp) hab
  have time {a b : Option Timestamp} (hab : Value.ofOption .timestamp a = .ofOption .timestamp b) :
      a = b :=
    Value.eq_of_ofOption (fun _ _ => Value.timestamp.inj) (by simp) hab
  have hattempt : c.attempt = c'.attempt :=
    Value.eq_of_ofOption (fun _ _ => Value.integer.inj) (by simp) (h .attempt)
  have hrestart : c.restartOnCrash = c'.restartOnCrash :=
    Value.eq_of_ofOption (fun _ _ => Value.bool.inj) (by simp) (h .restartOnCrash)
  cases c
  cases c'
  rw [Cells.mk.injEq]
  exact ⟨uuid (h .id), text (h .jobType), text (h .parameter), text (h .cron), text (h .status),
    hattempt, time (h .createdAt), time (h .scheduledAt), time (h .lastStartedAt),
    time (h .lastFinishedAt), uuid (h .ownerId), uuid (h .nextJobId), uuid (h .sequenceId),
    hrestart, text (h .lastError)⟩

/-! ## 5. Inserted records -/

/-- What a column of the table holds if nothing is inserted into it. -/
def Column.default (createdAt : Instant) : Column → Value
  | .attempt => .integer 0
  | .createdAt => Statement.time createdAt
  | .restartOnCrash => .bool true
  | _ => .null

/-- What a column holds after the insertion of a new job: the value that is bound to it, or else
its default. -/
def inserted (job : NewJob) (createdAt : Instant) (column : Column) : Value :=
  ((insertColumns.zip (Statement.insertJob job).params).lookup column).getD
    (column.default createdAt)

theorem value_ofJob_toJob (job : NewJob) (createdAt : Instant) (column : Column) :
    (Cells.ofJob (job.toJob createdAt)).value column = inserted job createdAt column := by
  cases column <;> rfl

/-- **Rows and jobs correspond.** There is just one record with the values that an insertion binds
and the defaults of the other columns, and it is read as the job that is first stored, with its
times cut to microseconds. Every job is what its row is read as; so is its record but for the cut,
and to the worker that owns the job its row is the claimed job. Only a row whose attempts a job
cannot count is refused, and for a claimed job a row without an owner. -/
theorem rows_correspond :
    (∀ (job : NewJob) (createdAt : Instant), ∃ c : Cells,
      (∀ c' : Cells, (∀ column, c'.value column = inserted job createdAt column) ↔ c' = c) ∧
      ∃ row, c.toRow = .ok row ∧ row.toJob = .ok (job.toJob createdAt).cut) ∧
    (∀ j : Job, (JobRow.ofJob j).toJob = .ok j ∧
      (Cells.ofJob j).toRow = .ok (JobRow.ofJob j.cut) ∧
      ∀ owner, j.owner = some owner → (JobRow.ofJob j).toClaimed = .ok (j.claimed owner)) ∧
    (∀ t : Instant, t.cut.nanos % 1000 = 0 ∧
      (Timestamp.originNanos ≤ t.nanos → t.cut.nanos ≤ t.nanos ∧ t.nanos < t.cut.nanos + 1000) ∧
      (t.nanos < Timestamp.originNanos → t.nanos ≤ t.cut.nanos ∧ t.cut.nanos < t.nanos + 1000)) ∧
    ∀ (r : JobRow) (e : BackendError),
      (r.toJob = .error e ↔ e = .badState ∧ ¬ (0 ≤ r.attempt ∧ r.attempt ≤ 65535)) ∧
      (r.toClaimed = .error e ↔
        e = .badState ∧ (¬ (0 ≤ r.attempt ∧ r.attempt ≤ 65535) ∨ r.ownerId = none)) := by
  refine ⟨fun job createdAt => ?_, fun j => ?_, cut_spec, fun r e => ?_⟩
  · refine ⟨Cells.ofJob (job.toJob createdAt), fun c' => ⟨fun h => ?_, ?_⟩, _,
      Cells.toRow_ofJob _, JobRow.toJob_ofJob _⟩
    -- its values leave no choice of a record
    · exact Cells.ext_value fun column => (h column).trans (value_ofJob_toJob ..).symm
    · rintro rfl
      exact value_ofJob_toJob job createdAt
  · exact ⟨JobRow.toJob_ofJob j, Cells.toRow_ofJob j, fun owner => JobRow.toClaimed_ofJob⟩
  · exact ⟨JobRow.toJob_eq_error_iff, JobRow.toClaimed_eq_error_iff⟩

end Database

end JobQueue
