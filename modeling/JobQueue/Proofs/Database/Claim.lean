import JobQueue.Proofs.Database.Conversation
import JobQueue.Proofs.Database.Row

/-!
# Claiming in a database

The statement that claims takes effect before its rows are read, and the jobs are made of the rows
one by one. If each row has an owner and a number of attempts that a job can count, the jobs of all
of them are handed out, in the order in which they are due. If one has not, no job is handed out,
although all of them are processing.
-/

namespace JobQueue.Database

open Session

namespace JobRow

variable {r a b : JobRow} {rows : List JobRow} {job : ClaimedJob}

/-! ## 1. Rows of claimed jobs -/

/-- The job is the one in the row. -/
structure Hands (r : JobRow) (job : ClaimedJob) : Prop where
  id_eq : job.id = ⟨r.id⟩
  owner_eq : some job.owner.uuid = r.ownerId
  jobType_eq : job.jobType = r.jobType
  parameter_eq : job.parameter = r.parameter
  cron_eq : job.cron = r.cron
  attempt_eq : (job.attempt.toNat : Int) = r.attempt
  scheduledAt_eq : job.scheduledAt = r.scheduledAt
  successor_eq : job.successor = successorOf r.nextJobId r.sequenceId

/-- The row has an owner, and a job can count its attempts. -/
def Claimable (r : JobRow) : Prop := r.ownerId ≠ none ∧ 0 ≤ r.attempt ∧ r.attempt < 65536

/-- A row is read as the job in it, unless there is none. -/
theorem toClaimed_cases (r : JobRow) :
    (r.Claimable ∧ ∃ job, r.toClaimed = .ok job ∧ r.Hands job) ∨
      (¬ r.Claimable ∧ r.toClaimed = .error .badState) := by
  unfold toClaimed
  cases howner : r.ownerId with
  | none => exact Or.inr ⟨fun h => h.1 howner, rfl⟩
  | some owner =>
    by_cases hcounted : 0 ≤ r.attempt ∧ r.attempt < 65536
    · obtain ⟨hcount, hattempt⟩ := attemptCount_of_counted hcounted
      rw [hcount]
      refine Or.inl ⟨⟨by rw [howner]; nofun, hcounted⟩, _, rfl, ?_⟩
      exact ⟨rfl, howner.symm, rfl, rfl, rfl, hattempt, rfl, rfl⟩
    · have hcount : r.attemptCount = .error .badState := if_neg hcounted
      rw [hcount]
      exact Or.inr ⟨fun h => hcounted h.2, rfl⟩

theorem hands_of_toClaimed (h : r.toClaimed = .ok job) : r.Claimable ∧ r.Hands job := by
  obtain ⟨hclaimable, job', hok, hhands⟩ | ⟨-, herror⟩ := toClaimed_cases r
  · cases h.symm.trans hok
    exact ⟨hclaimable, hhands⟩
  · cases h.symm.trans herror

theorem not_claimable_of_error {e : BackendError} (h : r.toClaimed = .error e) :
    e = .badState ∧ ¬ r.Claimable := by
  obtain ⟨-, job, hok, -⟩ | ⟨hnot, herror⟩ := toClaimed_cases r
  · cases h.symm.trans hok
  · cases h.symm.trans herror
    exact ⟨rfl, hnot⟩

/-! ## 2. The order of rows -/

theorem isBefore_iff : a.isBefore b ↔ a.scheduledAt.nanos < b.scheduledAt.nanos ∨
    a.scheduledAt.nanos = b.scheduledAt.nanos ∧ a.createdAt.nanos ≤ b.createdAt.nanos :=
  Instant.lexicographic_iff

theorem isBefore_trans (a b c : JobRow) (hab : a.isBefore b) (hbc : b.isBefore c) :
    a.isBefore c := by
  rw [isBefore_iff] at hab hbc ⊢
  omega

theorem isBefore_total (a b : JobRow) : (a.isBefore b || b.isBefore a) = true := by
  rw [Bool.or_eq_true, isBefore_iff, isBefore_iff]
  omega

/-- Whether a job is due at a time and was created at another. -/
def timed (due created : Instant) (r : JobRow) : Bool :=
  r.scheduledAt = due ∧ r.createdAt = created

/-- Rows in the order in which their jobs are due, those of one time in the order of their creation,
and those of one creation, too, in the order in which they came. -/
structure InOrder (rows sorted : List JobRow) : Prop where
  perm : sorted.Perm rows
  ordered : sorted.Pairwise fun a b => a.scheduledAt.nanos < b.scheduledAt.nanos ∨
    a.scheduledAt.nanos = b.scheduledAt.nanos ∧ a.createdAt.nanos ≤ b.createdAt.nanos
  ties : ∀ due created, sorted.filter (timed due created) = rows.filter (timed due created)

theorem pairwise_timed (due created : Instant) (rows : List JobRow) :
    (rows.filter (timed due created)).Pairwise fun a b => a.isBefore b := by
  rw [List.pairwise_filter]
  refine List.pairwise_iff_forall_sublist.2 fun {a b} _ ha hb => ?_
  obtain ⟨hdue, hcreated⟩ := of_decide_eq_true ha
  obtain ⟨hdue', hcreated'⟩ := of_decide_eq_true hb
  rw [isBefore_iff, hdue, hdue', hcreated, hcreated']
  exact Or.inr ⟨rfl, Int.le_refl _⟩

theorem inOrder_mergeSort (rows : List JobRow) : InOrder rows (rows.mergeSort isBefore) := by
  have hperm := List.mergeSort_perm rows isBefore
  have hsorted := List.pairwise_mergeSort isBefore_trans isBefore_total rows
  refine ⟨hperm, hsorted.imp isBefore_iff.1, fun due created => ?_⟩
  -- rows of one time and one creation are in order as they came, so sorting does not move them
  have hkept := List.sublist_mergeSort isBefore_trans isBefore_total
    (pairwise_timed due created rows) List.filter_sublist
  have hsub := hkept.filter (timed due created)
  rw [List.filter_filter, funext fun r => Bool.and_self (timed due created r)] at hsub
  exact (hsub.eq_of_length (hperm.filter _).length_eq.symm).symm

/-- What a claim comes to if these rows are returned: they are handed out in order if each of them
can be, and otherwise none is. -/
structure HandsOut (rows : List JobRow) (result : Except BackendError (List ClaimedJob)) :
    Prop where
  ok_iff : (∃ jobs, result = .ok jobs) ↔ ∀ r ∈ rows, r.Claimable
  inOrder : ∀ jobs, result = .ok jobs →
    ∃ sorted, InOrder rows sorted ∧ List.Forall₂ Hands sorted jobs
  error_eq : ∀ e, result = .error e → e = .badState

/-- One row that cannot be a job is enough. -/
theorem HandsOut.eq_error {result : Except BackendError (List ClaimedJob)}
    (h : HandsOut rows result) (hr : r ∈ rows) (hnot : ¬ r.Claimable) :
    result = .error .badState := by
  cases result with
  | ok jobs => exact absurd (h.ok_iff.1 ⟨jobs, rfl⟩ r hr) hnot
  | error e => rw [h.error_eq e rfl]

theorem handsOut_mapM (rows : List JobRow) :
    HandsOut rows ((rows.mergeSort isBefore).mapM toClaimed) := by
  have horder := inOrder_mergeSort rows
  cases hresult : (rows.mergeSort isBefore).mapM toClaimed with
  | error e =>
    obtain ⟨r, hr, hfails⟩ := exists_of_mapM_eq_error hresult
    obtain ⟨rfl, hnot⟩ := not_claimable_of_error hfails
    refine ⟨⟨nofun, fun hall => ?_⟩, nofun, ?_⟩
    · exact absurd (hall r (horder.perm.mem_iff.1 hr)) hnot
    · rintro e ⟨⟩
      rfl
  | ok jobs =>
    have hread := (mapM_eq_ok_iff.1 hresult).imp fun _ _ h => hands_of_toClaimed h
    obtain ⟨hclaimable, hhands⟩ := (List.forall₂_and_left _ _).1 hread
    refine ⟨⟨fun _ r hr => ?_, fun _ => ⟨jobs, rfl⟩⟩, ?_, nofun⟩
    · exact hclaimable r (horder.perm.mem_iff.2 hr)
    · rintro jobs ⟨⟩
      exact ⟨_, horder, hhands⟩

end JobRow

/-! ## 3. Claims -/

/-- What a claim comes to after its statement, by what came of that. -/
structure ClaimResult (outcome : Except Fault Reply)
    (result : Except BackendError (List ClaimedJob)) : Prop where
  failed : ∀ f, outcome = .error f → result = .error f.toBackend
  unread : ∀ reply e, outcome = .ok reply → reply.records.mapM Cells.toRow = .error e →
    result = .error (Fault.decode e).toBackend
  handsOut : ∀ reply rows, outcome = .ok reply → reply.records.mapM Cells.toRow = .ok rows →
    JobRow.HandsOut rows result

/-- The rows of a reply. -/
def rowsOf (outcome : Except Fault Reply) : Except Fault (List JobRow) :=
  outcome.bind fun reply => (reply.records.mapM Cells.toRow).mapError .decode

/-- The jobs of rows that were fetched, in order. -/
def handOut (fetched : Except Fault (List JobRow)) : Except BackendError (List ClaimedJob) := do
  let rows ← fetched.mapError Fault.toBackend
  (rows.mergeSort JobRow.isBefore).mapM (·.toClaimed)

theorem rowsOf_reply {reply : Reply} {rows : Except DecodeError (List JobRow)}
    (h : reply.records.mapM Cells.toRow = rows) : rowsOf (.ok reply) = rows.mapError .decode :=
  congrArg (Except.mapError Fault.decode) h

theorem claimResult_handOut (outcome : Except Fault Reply) :
    ClaimResult outcome (handOut (rowsOf outcome)) := by
  refine ⟨?_, ?_, ?_⟩
  · rintro f rfl
    rfl
  · rintro reply e rfl hunread
    rw [rowsOf_reply hunread]
    rfl
  · rintro reply rows rfl hread
    rw [rowsOf_reply hread]
    exact JobRow.handsOut_mapM rows

theorem run_claimJobs {limit : Nat} (hlimit : limit ≠ 0) (owner : WorkerId) (now : Instant)
    (s : Session) :
    let sent := (send (.claim owner (min limit maxLimit) now)).run s
    (claimJobs owner limit now).run s = (handOut (rowsOf sent.1), sent.2) := by
  intro sent
  have hrows : ((fetch (.claim owner (min limit maxLimit) now) Cells.toRow).run s).1 =
      rowsOf sent.1 := congrArg Prod.fst (run_fetch _ _ s)
  unfold claimJobs
  rw [if_neg hlimit, run_bind, run_failingAs, hrows, run_fetch]
  cases rowsOf sent.1 <;> rfl

/-- **A claim hands out all that it claimed exactly if each row can be a job.** Nothing but its one
statement is sent, and if that fails so does the claim. If it is answered with rows, the claim
returns one job for each of them, the one in the row, in the order in which they are due; or it
fails, although all of them have been claimed, because one has no owner or has been attempted too
often to be counted. -/
theorem claim_hands_out_iff (s : Session) (owner : WorkerId) (limit : Nat) (now : Instant) :
    (limit = 0 → (query (.claim owner limit now)).run s = (.ok [], s)) ∧
    (limit ≠ 0 → ∃ outcome s' result,
      (send (.claim owner (min limit maxLimit) now)).run s = (outcome, s') ∧
      (query (.claim owner limit now)).run s = (result, s') ∧ ClaimResult outcome result) := by
  refine ⟨?_, fun hlimit => ?_⟩
  · rintro rfl
    rfl
  · exact ⟨_, _, _, rfl, run_claimJobs hlimit owner now s, claimResult_handOut _⟩

/-- The record of a claimed job. -/
def claimedCells (id : Nat) (attempt : Int) : Cells where
  id := some (.ofNat id)
  jobType := some "job"
  parameter := some "null"
  status := some "processing"
  attempt := some attempt
  createdAt := some ⟨.epoch, rfl⟩
  scheduledAt := some ⟨.epoch, rfl⟩
  ownerId := some (.ofNat 101)
  restartOnCrash := some true

/-- The second of two jobs that a claim has set to processing is at its 65536th attempt: neither is
handed out. -/
theorem claim_drops_batch :
    (query (.claim ⟨.ofNat 101⟩ 5 .epoch)).run
        { replies := [.ok { records := [claimedCells 1 1, claimedCells 2 65536] }] } =
      (.error .badState, { log := [.claim ⟨.ofNat 101⟩ 5 .epoch] }) := by
  have hresult := (claimResult_handOut
    (.ok { records := [claimedCells 1 1, claimedCells 2 65536] })).handsOut _ _ rfl rfl
  have hdrops := hresult.eq_error (List.mem_cons_of_mem _ List.mem_cons_self)
    fun hsecond => absurd hsecond.2.2 (by decide)
  refine (run_claimJobs (by decide) _ _ _).trans ?_
  exact congrArg (·, _) hdrops

end JobQueue.Database
