import JobQueue.Proofs.Database.Conversation

/-!
# All or nothing

A call that needs several statements sends them in one transaction. `Transacted` lists the ways in
which this can go, whatever the database replies: the session refuses, or the transaction cannot be
begun, or a statement comes to a fault, or the commit does, or all goes well. Only in the last case
do the statements last, and only then does the call succeed.
-/

namespace JobQueue

/-- Whether a call sends several statements. -/
def Call.SendsSeveral : Call → Prop
  | .insertMany _ => True
  | .complete jobs _ => jobs ≠ []
  | .reclaim _ => True
  | _ => False

namespace Database

open Session

/-- The error of a call of which a statement came to a fault. The insertion of a job that is there
already says so, and everything else is an error of the storage. -/
def Statement.report (st : Statement) (f : Fault) : BackendError :=
  match st, f with
  | .insertJob job, .database e =>
    if e.code = "23505" then .duplicateJob job.id else .storage (Fault.database e).message
  | _, f => .storage f.message

/-- Unlocks the jobs all at once, if there are any, and one member for every mention of a group. -/
def unlockStatements (next groups : List Uuid) : List Statement :=
  (if next = [] then [] else [.unlockJobs (next.map JobId.mk)]) ++
    groups.map fun sequence => .promoteMember ⟨sequence⟩

/-- The statements that a call sends in its transaction. The reply to the first may tell which are
the others. -/
def statements (c : Call) (replies : List Reply) : List Statement :=
  match c with
  | .insertMany jobs => jobs.map .insertJob
  | .complete jobs delete =>
    .finish (jobs.map (·.job)) delete :: match replies with
      | [] => []
      | ended :: _ =>
        unlockStatements (ended.records.filterMap (·.nextJobId))
          (ended.records.filterMap (·.sequenceId))
  | .reclaim staleBefore =>
    .deleteDeadWorkers staleBefore :: match replies with
      | [] => []
      | removed :: _ =>
        let dead := removed.records.filterMap (·.id)
        if dead = [] then []
        else [.restartJobs (dead.map WorkerId.mk), .selectAbandoned (dead.map WorkerId.mk)]
  | _ => []

/-- How a transaction can go. The statements are those of the plan, as far as the replies to them
make it known. -/
inductive Transacted {α : Type} (plan : List Reply → List Statement) (s : Session) :
    Except BackendError α → Session → Prop
  | refused {e : DatabaseError} (h : s.refusal = some e) :
      Transacted plan s (.error (.storage (Fault.database e).message)) s
  | notBegun {e : DatabaseError} {s' : Session} (hopen : s.refusal = none)
      (h : s.beginError = some e) (hlog : s'.log = s.log ++ [.begin, .rollback]) :
      Transacted plan s (.error (.storage (Fault.database e).message)) s'
  | brokenOff {before : List Exchange} {st : Statement} {f : Fault} {t s' : Session}
      (hopen : s.refusal = none) (hbegun : s.beginError = none)
      (htalk : Talk (s.record .begin) (before ++ [⟨st, .error f⟩]) t)
      (hbefore : ∀ x ∈ before, x.Answered)
      (hplan : before.map (·.statement) ++ [st] <+: plan (repliesOf before))
      (hlog : s'.log = s.log ++ .begin :: (before.map (·.statement) ++ [st, .rollback])) :
      Transacted plan s (.error (st.report f)) s'
  | notCommitted {sent : List Exchange} {e : DatabaseError} {t s' : Session}
      (hopen : s.refusal = none) (hbegun : s.beginError = none)
      (htalk : Talk (s.record .begin) sent t) (hsent : ∀ x ∈ sent, x.Answered)
      (hplan : sent.map (·.statement) = plan (repliesOf sent)) (h : s.commitError = some e)
      (hlog : s'.log = s.log ++ .begin :: (sent.map (·.statement) ++ [.commit, .rollback])) :
      Transacted plan s (.error (.storage (Fault.database e).message)) s'
  | committed {a : α} {sent : List Exchange} {t s' : Session} (hopen : s.refusal = none)
      (hbegun : s.beginError = none) (htalk : Talk (s.record .begin) sent t)
      (hsent : ∀ x ∈ sent, x.Answered)
      (hplan : sent.map (·.statement) = plan (repliesOf sent)) (h : s.commitError = none)
      (hlog : s'.log = s.log ++ .begin :: (sent.map (·.statement) ++ [.commit])) :
      Transacted plan s (.ok a) s'

variable {ε φ α : Type} {s t : Session} {st : Statement} {sent : List Exchange}
  {plan : List Reply → List Statement}

/-! ## 1. Beginning and ending -/

theorem run_transaction_refused (failure : Fault → ε) (body : Query ε α) {e : DatabaseError}
    (h : s.refusal = some e) :
    (transaction failure body).run s = (.error (failure (.database e)), s) := by
  obtain ⟨refusal, replies, beginError, commitError, applied, unfinished, log⟩ := s
  cases h
  rfl

theorem run_transaction_notBegun (failure : Fault → ε) (body : Query ε α) {e : DatabaseError}
    (hopen : s.refusal = none) (h : s.beginError = some e) :
    (transaction failure body).run s = (.error (failure (.database e)),
      { s with beginError := none, log := s.log ++ [.begin] ++ [.rollback] }) := by
  obtain ⟨refusal, replies, beginError, commitError, applied, unfinished, log⟩ := s
  cases hopen
  cases h
  rfl

theorem run_begin (failure : Fault → ε) (hopen : s.refusal = none) (hbegun : s.beginError = none) :
    (begin.failingAs failure).run s = (.ok (), s.record .begin) := by
  obtain ⟨refusal, replies, beginError, commitError, applied, unfinished, log⟩ := s
  cases hopen
  cases hbegun
  rfl

theorem run_transaction_brokenOff (failure : Fault → ε) {body : Query ε α} {e : ε}
    (hopen : s.refusal = none) (hbegun : s.beginError = none)
    (h : body.run (s.record .begin) = (.error e, t)) :
    (transaction failure body).run s = (.error e, t.record .rollback) := by
  unfold transaction
  rw [run_bind, run_begin failure hopen hbegun]
  refine (run_bind _ _ _).trans ?_
  simp only [ExceptT.run_mk, h]

theorem run_transaction_completed (failure : Fault → ε) {body : Query ε α} {a : α}
    (hopen : s.refusal = none) (hbegun : s.beginError = none)
    (h : body.run (s.record .begin) = (.ok a, t)) :
    (transaction failure body).run s =
      (commit.failingAs failure >>= fun _ => return a : Query ε α).run t := by
  unfold transaction
  rw [run_bind, run_begin failure hopen hbegun]
  refine (run_bind _ _ _).trans ?_
  simp only [ExceptT.run_mk, h]

theorem run_transaction_notCommitted (failure : Fault → ε) {body : Query ε α} {a : α}
    {e : DatabaseError} (hopen : s.refusal = none) (hbegun : s.beginError = none)
    (h : body.run (s.record .begin) = (.ok a, t)) (hcommit : t.commitError = some e) :
    (transaction failure body).run s = (.error (failure (.database e)),
      { t with commitError := none, log := t.log ++ [.commit] ++ [.rollback] }) := by
  rw [run_transaction_completed failure hopen hbegun h]
  obtain ⟨refusal, replies, beginError, commitError, applied, unfinished, log⟩ := t
  cases hcommit
  rfl

theorem run_transaction_committed (failure : Fault → ε) {body : Query ε α} {a : α}
    (hopen : s.refusal = none) (hbegun : s.beginError = none)
    (h : body.run (s.record .begin) = (.ok a, t)) (hcommit : t.commitError = none) :
    (transaction failure body).run s = (.ok a, t.record .commit) := by
  rw [run_transaction_completed failure hopen hbegun h]
  obtain ⟨refusal, replies, beginError, commitError, applied, unfinished, log⟩ := t
  cases hcommit
  rfl

theorem transaction_failingAs (body : Query ε α) (failure : Fault → ε) (f : ε → φ) :
    (transaction failure body).failingAs f =
      transaction (fun fault => f (failure fault)) (body.failingAs f) := by
  funext s
  show ((transaction failure body).failingAs f).run s =
    (transaction (fun fault => f (failure fault)) (body.failingAs f)).run s
  rw [run_failingAs]
  cases hopen : s.refusal with
  | some e => rw [run_transaction_refused _ _ hopen, run_transaction_refused _ _ hopen]; rfl
  | none =>
    cases hbegun : s.beginError with
    | some e =>
      rw [run_transaction_notBegun _ _ hopen hbegun, run_transaction_notBegun _ _ hopen hbegun]
      rfl
    | none =>
      -- the body runs alike on both sides, and so the transaction ends alike
      have hfailing := run_failingAs body f (s.record .begin)
      cases hbody : body.run (s.record .begin) with
      | mk r t =>
        rw [hbody] at hfailing
        cases r with
        | error e =>
          rw [run_transaction_brokenOff _ hopen hbegun hbody,
            run_transaction_brokenOff _ hopen hbegun hfailing]
          rfl
        | ok a =>
          cases hcommit : t.commitError with
          | some e =>
            rw [run_transaction_notCommitted _ hopen hbegun hbody hcommit,
              run_transaction_notCommitted _ hopen hbegun hfailing hcommit]
            rfl
          | none =>
            rw [run_transaction_committed _ hopen hbegun hbody hcommit,
              run_transaction_committed _ hopen hbegun hfailing hcommit]
            rfl

theorem repliesOf_last (before : List Exchange) (st : Statement) (f : Fault) :
    repliesOf (before ++ [⟨st, .error f⟩]) = repliesOf before := by
  simp [repliesOf, Except.toOption]

/-- A query that runs as a transaction, and follows a plan within it. -/
def Query.Carries (q : Query BackendError α) (plan : List Reply → List Statement) : Prop :=
  ∃ body : Query BackendError α, q = transaction Fault.toBackend body ∧
    body.Sends Statement.report fun sent r => Follows (plan (repliesOf sent)) sent r

theorem Query.Carries.transacted {q : Query BackendError α} (h : q.Carries plan) (s : Session) :
    Transacted plan s (q.run s).1 (q.run s).2 := by
  obtain ⟨body, rfl, hbody⟩ := h
  cases hopen : s.refusal with
  | some e =>
    rw [run_transaction_refused _ _ hopen]
    exact .refused hopen
  | none =>
    cases hbegun : s.beginError with
    | some e =>
      rw [run_transaction_notBegun _ _ hopen hbegun]
      exact .notBegun hopen hbegun (List.append_assoc _ _ _)
    | none =>
      obtain ⟨sent, htalk, hreport, hfirst, hall⟩ := hbody (s.record .begin)
      obtain ⟨hlog, -, hcommit⟩ := htalk.session_eq hopen
      cases hrun : body.run (s.record .begin) with
      | mk r t =>
        rw [hrun] at htalk hreport hall hlog hcommit
        -- the log of the session after the transaction's statements, without and with its end
        have hbracket : ∀ ending, t.log ++ ending =
            s.log ++ .begin :: (sent.map (·.statement) ++ ending) := by
          intro ending
          rw [hlog]
          simp [Session.record]
        cases r with
        | error e =>
          rw [run_transaction_brokenOff _ hopen hbegun hrun]
          obtain ⟨before, st, f, rfl, hbefore, rfl⟩ := hreport
          rw [repliesOf_last] at hfirst
          refine .brokenOff hopen hbegun htalk hbefore ?_ ?_
          · simpa using hfirst
          · show t.log ++ [.rollback] = _
            rw [hbracket]
            simp
        | ok a =>
          have hplan := hall ⟨a, rfl⟩
          cases hack : t.commitError with
          | some e =>
            rw [run_transaction_notCommitted _ hopen hbegun hrun hack]
            refine .notCommitted hopen hbegun htalk hreport hplan (hcommit.symm.trans hack) ?_
            show t.log ++ [.commit] ++ [.rollback] = _
            rw [List.append_assoc, hbracket]
            rfl
          | none =>
            rw [run_transaction_committed _ hopen hbegun hrun hack]
            exact .committed hopen hbegun htalk hreport hplan (hcommit.symm.trans hack)
              (hbracket _)

/-! ## 2. The calls -/

theorem report_insertJob (job : NewJob) (f : Fault) :
    (Statement.insertJob job).report f = f.toInsert job.id := by
  cases f <;> rfl

theorem sends_insertJob (job : NewJob) :
    (insertJob job).Sends Statement.report (Follows [.insertJob job]) := by
  have hexec : ((execute (.insertJob job)).failingAs (Fault.toInsert job.id)).Sends
      (fun _ f => f.toInsert job.id) (Follows [.insertJob job]) :=
    ((sends_execute rfl).imp fun _ _ h => h.follows.of_mapError).failingAs
  apply (hexec.follows_bind fun _ => sends_pure job.id).reporting
  intro sent r h x hx f
  rw [List.mem_singleton.1 (h.mem_plan hx), report_insertJob]

theorem sends_promotions (groups : List Uuid) :
    Query.Sends (groups.forM fun sequence => do let _ ← execute (.promoteMember ⟨sequence⟩))
      (fun _ f => f) (Follows (groups.map fun sequence => .promoteMember ⟨sequence⟩)) := by
  apply sends_forM
  intro sequence
  exact ((sends_execute rfl).imp fun _ _ h => h.follows).follows_bind fun _ => sends_pure ()

theorem sends_unlockSuccessors (links : List (Option Uuid × Option Uuid)) :
    (unlockSuccessors links).Sends (fun _ f => f)
      (Follows (unlockStatements (links.filterMap (·.1)) (links.filterMap (·.2)))) := by
  unfold unlockSuccessors unlockStatements
  by_cases hnext : links.filterMap (·.1) = []
  · simpa [hnext] using sends_promotions (links.filterMap (·.2))
  · simp only [hnext, ne_eq, not_false_eq_true, if_true, if_false]
    exact ((sends_execute rfl).imp fun _ _ h => h.follows).follows_bind fun _ =>
      sends_promotions _

/-- What holds of every kind of statement that a call of several statements sends. -/
theorem statements_cases {c : Call} {replies : List Reply} {P : Statement → Prop}
    (hinsert : ∀ jobs, c = .insertMany jobs → ∀ job ∈ jobs, P (.insertJob job))
    (hst : st ∈ statements c replies) (hfinish : ∀ jobs delete, P (.finish jobs delete))
    (hunlock : ∀ ids, P (.unlockJobs ids)) (hpromote : ∀ sequence, P (.promoteMember sequence))
    (hdelete : ∀ staleBefore, P (.deleteDeadWorkers staleBefore))
    (hrestart : ∀ dead, P (.restartJobs dead)) (hselect : ∀ dead, P (.selectAbandoned dead)) :
    P st := by
  cases c with
  | insertMany jobs =>
    obtain ⟨job, hjob, rfl⟩ := List.mem_map.1 hst
    exact hinsert jobs rfl job hjob
  | complete jobs delete =>
    rcases List.mem_cons.1 hst with rfl | hst
    · exact hfinish _ _
    · cases replies with
      | nil => nomatch hst
      | cons ended _ =>
        rcases List.mem_append.1 hst with hst | hst
        · split at hst
          · nomatch hst
          · exact List.mem_singleton.1 hst ▸ hunlock _
        · obtain ⟨sequence, -, rfl⟩ := List.mem_map.1 hst
          exact hpromote _
  | reclaim staleBefore =>
    rcases List.mem_cons.1 hst with rfl | hst
    · exact hdelete _
    · cases replies with
      | nil => nomatch hst
      | cons removed _ =>
        dsimp only at hst
        split at hst
        · nomatch hst
        · simp only [List.mem_cons, List.not_mem_nil, or_false] at hst
          rcases hst with rfl | rfl
          · exact hrestart _
          · exact hselect _
  | _ => nomatch hst

/-- Only insertions have errors of their own. -/
theorem report_of_mem {c : Call} {replies : List Reply} (hc : ∀ jobs, c ≠ .insertMany jobs)
    (hst : st ∈ statements c replies) : ∀ f, st.report f = f.toBackend := by
  refine statements_cases (P := fun st => ∀ f, st.report f = f.toBackend) ?_ hst
    (fun _ _ _ => rfl) (fun _ _ => rfl) (fun _ _ => rfl) (fun _ _ => rfl) (fun _ _ => rfl)
    fun _ _ => rfl
  exact fun jobs hinsert => absurd hinsert (hc jobs)

theorem carries_of_fault {body : Query Fault α}
    (hbody : body.Sends (fun _ f => f) fun sent r => Follows (plan (repliesOf sent)) sent r)
    (hplan : ∀ replies, ∀ st ∈ plan replies, ∀ f, st.report f = f.toBackend) :
    ((transaction id body).failingAs Fault.toBackend).Carries plan := by
  refine ⟨body.failingAs Fault.toBackend, transaction_failingAs _ _ _, ?_⟩
  apply (hbody.imp fun _ _ h => h.of_mapError).failingAs.reporting
  intro sent r h x hx f
  exact (hplan _ _ (h.mem_plan hx) f).symm

theorem carries_insertJobs (jobs : List NewJob) :
    (insertJobs jobs).Carries (statements (.insertMany jobs)) :=
  ⟨_, rfl, sends_mapM sends_insertJob jobs⟩

theorem carries_finishJobs {jobs : List FinishedJob} (hjobs : jobs ≠ []) (delete : Bool) :
    (finishJobs jobs delete).Carries (statements (.complete jobs delete)) := by
  unfold finishJobs
  rw [if_neg hjobs]
  apply carries_of_fault
  · apply (sends_fetch rfl).bind sends_unlockSuccessors
    · rintro sent e ⟨o, rfl, -⟩
      exact ⟨(List.prefix_cons_inj _).2 (List.nil_prefix ..), nofun⟩
    · rintro sent links sent' r ⟨o, rfl, hlinks⟩ hrest
      obtain ⟨ended, rfl, hread⟩ := hlinks links rfl
      -- every record can be read for its links
      have hall : ended.records.mapM (fun c => Except.ok (ε := DecodeError)
          (c.nextJobId, c.sequenceId)) = .ok (ended.records.map fun c =>
          (c.nextJobId, c.sequenceId)) := List.mapM_pure
      dsimp only at hread
      rw [hall] at hread
      cases hread
      simp only [List.filterMap_map] at hrest
      exact hrest.cons
  · exact fun _ _ hst => report_of_mem (c := .complete jobs delete) (fun _ => nofun) hst

theorem filterMap_id_of_mapM {cells : List Cells} {ids : List Uuid}
    (h : cells.mapM Cells.toId = .ok ids) : cells.filterMap (·.id) = ids := by
  have hall := mapM_eq_ok_iff.1 h
  clear h
  induction hall with
  | nil => rfl
  | @cons c id rest ids hc _ ih =>
    have hid : c.id = some id := by
      unfold Cells.toId at hc
      cases hcell : c.id with
      | none =>
        rw [hcell] at hc
        cases hc
      | some id' =>
        rw [hcell] at hc
        cases hc
        rfl
    rw [List.filterMap_cons_some hid, ih]

theorem carries_reclaimJobs (staleBefore : Instant) :
    (reclaimJobs staleBefore).Carries (statements (.reclaim staleBefore)) := by
  unfold reclaimJobs
  apply carries_of_fault
  · apply (sends_fetch rfl).bind (Q := fun dead sent r => Follows (if dead = [] then []
      else [.restartJobs (dead.map WorkerId.mk), .selectAbandoned (dead.map WorkerId.mk)]) sent r)
    · intro dead
      -- without a dead worker there is nothing else to send
      by_cases hdead : dead = []
      · rw [if_pos hdead, if_pos hdead]
        exact sends_pure _
      · rw [if_neg hdead, if_neg hdead]
        apply (((sends_fetch rfl).imp fun _ _ h => h.follows).follows_bind _ :
          Query.Sends _ _ (Follows ([_] ++ [_])))
        intro restarted
        rw [← List.append_nil [_]]
        exact ((sends_fetch rfl).imp fun _ _ h => h.follows).follows_bind fun abandoned =>
          sends_pure _
    · rintro sent e ⟨o, rfl, -⟩
      exact ⟨(List.prefix_cons_inj _).2 (List.nil_prefix ..), nofun⟩
    · rintro sent dead sent' r ⟨o, rfl, hdead⟩ hrest
      obtain ⟨removed, rfl, hread⟩ := hdead dead rfl
      have hids : removed.records.filterMap (·.id) = dead :=
        filterMap_id_of_mapM (eq_ok_of_mapError hread)
      rw [← hids] at hrest
      exact hrest.cons
  · exact fun _ _ hst => report_of_mem (c := .reclaim staleBefore) (fun _ => nofun) hst

theorem carries_query {c : Call} (hc : c.SendsSeveral) : (query c).Carries (statements c) := by
  cases c with
  | insertMany jobs => exact carries_insertJobs jobs
  | complete jobs delete => exact carries_finishJobs hc delete
  | reclaim staleBefore => exact carries_reclaimJobs staleBefore
  | _ => exact hc.elim

/-! ## 3. What lasts -/

/-- The statements of transactions. -/
def Statement.Brackets (st : Statement) : Prop := st = .begin ∨ st = .commit ∨ st = .rollback

/-- The statements of a log whose effects last, given those of the transaction that is open, if one
is. Outside of transactions every statement does. -/
def lasting : Option (List Statement) → List Statement → List Statement
  | _, [] => []
  | none, .begin :: rest => lasting (some []) rest
  | none, st :: rest => st :: lasting none rest
  | some _, .rollback :: rest => lasting none rest
  | some _, .commit :: .rollback :: rest => lasting none rest
  | some held, .commit :: rest => held ++ lasting none rest
  | some held, st :: rest => lasting (some (held ++ [st])) rest

theorem statements_not_brackets {c : Call} {replies : List Reply} (hst : st ∈ statements c replies) :
    ¬ st.Brackets := by
  apply statements_cases _ hst <;> simp [Statement.Brackets]

theorem lasting_append {sts : List Statement} (h : ∀ st ∈ sts, ¬ st.Brackets) :
    ∀ (held rest : List Statement),
      lasting (some held) (sts ++ rest) = lasting (some (held ++ sts)) rest := by
  induction sts with
  | nil => simp
  | cons st sts ih =>
    intro held rest
    have hst := h st List.mem_cons_self
    have hstep : lasting (some held) (st :: (sts ++ rest)) =
        lasting (some (held ++ [st])) (sts ++ rest) := by
      cases st <;> first | rfl | exact absurd (by simp [Statement.Brackets]) hst
    rw [List.cons_append, hstep, ih fun x hx => h x (List.mem_cons_of_mem _ hx)]
    simp

theorem count_commit {sts : List Statement} (h : ∀ st ∈ sts, ¬ st.Brackets) :
    sts.count .commit = 0 :=
  List.count_eq_zero_of_not_mem fun hcommit => h _ hcommit (.inr (.inl rfl))

theorem Transacted.log_added {r : Except BackendError α} {s s' : Session}
    (h : Transacted plan s r s') (hplan : ∀ replies, ∀ st ∈ plan replies, ¬ st.Brackets) :
    ∃ added, s'.log = s.log ++ added ∧ added.count .commit ≤ 1 ∧
      ((∃ a, r = .ok a) ↔ .commit ∈ added ∧ s.commitError = none) ∧
      (∀ e, r = .error e → lasting none added = []) ∧
      ∀ a, r = .ok a → added = .begin :: (lasting none added ++ [.commit]) := by
  cases h with
  | refused => exact ⟨[], by simp, by simp, by simp, fun _ _ => rfl, nofun⟩
  | notBegun _ _ hlog => exact ⟨_, hlog, by simp, by simp, fun _ _ => rfl, nofun⟩
  | @brokenOff before st f t _ hopen hbegun htalk hbefore hsub hlog =>
    have hnone : ∀ x ∈ before.map (·.statement) ++ [st], ¬ x.Brackets := fun x hx =>
      hplan _ x (hsub.subset hx)
    have hshape : (.begin :: (before.map (·.statement) ++ [st, .rollback]) : List Statement) =
        .begin :: (before.map (·.statement) ++ [st] ++ [.rollback]) := by simp
    rw [hshape] at hlog
    have hcount : (.begin :: (before.map (·.statement) ++ [st] ++ [.rollback]) :
        List Statement).count .commit = 0 := by
      rw [List.count_cons, List.count_append, count_commit hnone]
      rfl
    -- no commit is sent, and the rollback drops what was
    refine ⟨_, hlog, by omega, ⟨nofun, fun hcommit => ?_⟩, fun _ _ => ?_, nofun⟩
    · exact absurd hcommit.1 (List.count_eq_zero.1 hcount)
    · show lasting (some []) _ = []
      rw [lasting_append hnone]
      rfl
  | @notCommitted sent e t _ hopen hbegun htalk hsent hall herror hlog =>
    have hnone : ∀ x ∈ sent.map (·.statement), ¬ x.Brackets := fun x hx => hplan _ x (hall ▸ hx)
    -- here the rollback follows the commit
    refine ⟨_, hlog, ?_, ?_, fun _ _ => ?_, nofun⟩
    · rw [List.count_cons, List.count_append, count_commit hnone]
      decide
    · simp [herror]
    · show lasting (some []) _ = []
      rw [lasting_append hnone]
      rfl
  | @committed a sent t _ hopen hbegun htalk hsent hall hfine hlog =>
    have hnone : ∀ x ∈ sent.map (·.statement), ¬ x.Brackets := fun x hx => hplan _ x (hall ▸ hx)
    refine ⟨_, hlog, ?_, ?_, nofun, fun _ _ => ?_⟩
    · rw [List.count_cons, List.count_append, count_commit hnone]
      decide
    · simp [hfine]
    · have hlasting : lasting none (.begin :: (sent.map (·.statement) ++ [.commit])) =
          sent.map (·.statement) := by
        show lasting (some []) _ = _
        rw [lasting_append hnone]
        simp [lasting]
      rw [hlasting]

/-- A call of several statements is all or nothing, whatever the database replies. -/
theorem query_all_or_nothing {c : Call} (hc : c.SendsSeveral) (s : Session) :
    Transacted (statements c) s ((query c).run s).1 ((query c).run s).2 ∧
      ∃ added, ((query c).run s).2.log = s.log ++ added ∧ added.count .commit ≤ 1 ∧
        ((∃ a, ((query c).run s).1 = .ok a) ↔ .commit ∈ added ∧ s.commitError = none) ∧
        (∀ e, ((query c).run s).1 = .error e → lasting none added = []) ∧
        ∀ a, ((query c).run s).1 = .ok a → added = .begin :: (lasting none added ++ [.commit]) :=
  have h := (carries_query hc).transacted s
  ⟨h, h.log_added fun _ _ => statements_not_brackets⟩

/-- The second of three jobs is there already: none is inserted. -/
theorem query_all_or_nothing_duplicate :
    let job (n : Nat) : NewJob := { (default : NewJob) with id := ⟨.ofNat n⟩ }
    let c : Call := .insertMany [job 1, job 2, job 3]
    let s : Session := { replies := [.ok { affected := 1 }, .error ⟨"23505", "duplicate key"⟩] }
    (query c).run s = (.error (.duplicateJob ⟨.ofNat 2⟩),
        { log := [.begin, .insertJob (job 1), .insertJob (job 2), .rollback] }) ∧
      Transacted (statements c) s ((query c).run s).1 ((query c).run s).2 :=
  ⟨rfl, (query_all_or_nothing (c := .insertMany _) trivial _).1⟩

end Database

end JobQueue
