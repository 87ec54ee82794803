import JobQueue.Proofs.Database.Transaction
import JobQueue.Proofs.Store.Unlocks

/-!
# Unlocking in a database

A database ends jobs with one statement, which returns the links of those that it ended, and unlocks
by kind: the next jobs all at once, and a member for every mention of a group. A store unlocks after
each job. Both unlock the same successors, and each of them as often.
-/

namespace JobQueue

def Successor.target? : Successor → Option JobId
  | .next id => some id
  | _ => Option.none

def Successor.group? : Successor → Option SequenceId
  | .sequence id => some id
  | _ => Option.none

namespace Database

open Session

variable {s t : Session} {sent : List Exchange} {st : Statement} {jobs : List FinishedJob}
  {delete : Bool} {ended : Reply} {later : List (Except DatabaseError Reply)}

/-! ## 1. Links in two columns -/

theorem fst_successorColumns (l : Successor) :
    (successorColumns l).1.map JobId.mk = l.target? := by
  cases l <;> rfl

theorem snd_successorColumns (l : Successor) :
    (successorColumns l).2.map SequenceId.mk = l.group? := by
  cases l <;> rfl

/-- The links of some records, if they are those of some jobs in any order. -/
theorem links_perm {records : List Cells} {l : List Job}
    (h : (records.map fun c => (c.nextJobId, c.sequenceId)).Perm
      (l.map fun j => successorColumns j.successor)) :
    ((records.filterMap (·.nextJobId)).map JobId.mk).Perm
        ((l.map (·.successor)).filterMap Successor.target?) ∧
      ((records.filterMap (·.sequenceId)).map SequenceId.mk).Perm
        ((l.map (·.successor)).filterMap Successor.group?) := by
  have hnext := h.filterMap fun links => links.1.map JobId.mk
  have hgroups := h.filterMap fun links => links.2.map SequenceId.mk
  simp only [List.filterMap_map, Function.comp_def, fst_successorColumns,
    snd_successorColumns] at hnext hgroups
  simp only [List.filterMap_map, Function.comp_def, List.map_filterMap]
  exact ⟨hnext, hgroups⟩

/-! ## 2. The reply to the first statement -/

theorem outcome_finish {x : Exchange} (h : Talk (s.record .begin) (x :: sent) t)
    (hopen : s.refusal = none) (hreplies : s.replies = .ok ended :: later)
    (hx : x.statement = .finish (jobs.map (·.job)) delete) :
    x.outcome = .ok ended ∧ ∃ s', s'.refusal = none ∧ s'.replies = later ∧ Talk s' sent t := by
  obtain ⟨houtcome, s', hopen', hreplies', hrest⟩ := h.uncons hopen
  have hfirst : (s.record .begin).replies = .ok ended :: later := hreplies
  rw [hfirst] at houtcome hreplies'
  rw [hx, judge_eq_self rfl] at houtcome
  exact ⟨houtcome, s', hopen', hreplies', hrest⟩

theorem judge_unlock {next groups : List Uuid} (hst : st ∈ unlockStatements next groups)
    (o : Except Fault Reply) : st.judge o = o := by
  apply judge_eq_self
  rcases List.mem_append.1 hst with hst | hst
  · split at hst
    · nomatch hst
    · rw [List.mem_singleton.1 hst]
      rfl
  · obtain ⟨sequence, -, rfl⟩ := List.mem_map.1 hst
    rfl

/-- A statement that unlocks comes to a fault only with an error of the database. -/
theorem reply_of_fault {next groups : List Uuid} {f : Fault}
    (h : Talk s (sent ++ [⟨st, .error f⟩]) t) (hopen : s.refusal = none)
    (hst : st ∈ unlockStatements next groups) :
    ∃ e, s.replies[sent.length]? = some (.error e) := by
  have houtcome := h.last_outcome hopen
  rw [judge_unlock hst] at houtcome
  cases hreply : s.replies[sent.length]? with
  | none => rw [hreply] at houtcome; nomatch houtcome
  | some reply =>
    cases reply with
    | error e => exact ⟨e, rfl⟩
    | ok reply => rw [hreply] at houtcome; nomatch houtcome

/-! ## 3. What is sent -/

theorem statements_of_talk (h : Talk (s.record .begin) sent t) (hopen : s.refusal = none)
    (hreplies : s.replies = .ok ended :: later)
    (hplan : sent.map (·.statement) = statements (.complete jobs delete) (repliesOf sent)) :
    sent.map (·.statement) = .finish (jobs.map (·.job)) delete ::
      unlockStatements (ended.records.filterMap (·.nextJobId))
        (ended.records.filterMap (·.sequenceId)) := by
  cases sent with
  | nil => nomatch hplan
  | cons x rest =>
    obtain ⟨hx, -⟩ := List.cons.inj hplan
    have houtcome := (outcome_finish h hopen hreplies hx).1
    rw [hplan, repliesOf, List.filterMap_cons, houtcome]
    rfl

/-- Once the jobs are ended, the statements that unlock follow up to the first error. -/
theorem log_finish (hjobs : jobs ≠ []) (delete : Bool) (hopen : s.refusal = none)
    (hbegun : s.beginError = none) (hreplies : s.replies = .ok ended :: later) :
    ∃ sent ending, ((query (.complete jobs delete)).run s).2.log =
        s.log ++ .begin :: .finish (jobs.map (·.job)) delete :: (sent ++ ending) ∧
      (∀ st ∈ ending, st.Brackets) ∧
      (sent = unlockStatements (ended.records.filterMap (·.nextJobId))
          (ended.records.filterMap (·.sequenceId)) ∨
        ∃ before st e, sent = before ++ [st] ∧ later[before.length]? = some (.error e) ∧
          sent <+: unlockStatements (ended.records.filterMap (·.nextJobId))
            (ended.records.filterMap (·.sequenceId))) := by
  have h := (carries_finishJobs hjobs delete).transacted s
  show ∃ sent ending, ((finishJobs jobs delete).run s).2.log = _ ∧ _
  generalize (finishJobs jobs delete).run s = result at h ⊢
  obtain ⟨r, s'⟩ := result
  cases h with
  | refused h => rw [hopen] at h; nomatch h
  | notBegun _ h _ => rw [hbegun] at h; nomatch h
  | @brokenOff before st f t _ _ _ htalk hbefore hplan hlog =>
    cases before with
    | nil =>
      -- the first statement was answered
      have hst : st = .finish (jobs.map (·.job)) delete := (List.cons_prefix_cons.1 hplan).1
      have houtcome := (outcome_finish htalk hopen hreplies hst).1
      nomatch houtcome
    | cons x rest =>
      -- the first statement was answered with the links, so the fault is of one that unlocks
      obtain ⟨(hx : x.statement = _), hunlock⟩ := List.cons_prefix_cons.1 hplan
      obtain ⟨houtcome, s₁, hopen₁, hreplies₁, hrest⟩ := outcome_finish htalk hopen hreplies hx
      rw [repliesOf, List.filterMap_cons, houtcome] at hunlock
      have hst := hunlock.subset (List.mem_concat_self ..)
      obtain ⟨e, he⟩ := reply_of_fault hrest hopen₁ hst
      refine ⟨rest.map (·.statement) ++ [st], [.rollback], ?_, ?_,
        .inr ⟨rest.map (·.statement), st, e, rfl, ?_, hunlock⟩⟩
      · rw [hlog, List.map_cons, hx]
        simp
      · exact List.forall_mem_singleton.2 (.inr (.inr rfl))
      · rw [List.length_map, ← hreplies₁, he]
  | @notCommitted sent e t _ _ _ htalk hsent hplan _ hlog =>
    rw [statements_of_talk htalk hopen hreplies hplan] at hlog
    refine ⟨_, [.commit, .rollback], hlog, ?_, .inl rfl⟩
    simp [Statement.Brackets]
  | @committed a sent t _ _ _ htalk hsent hplan _ hlog =>
    rw [statements_of_talk htalk hopen hreplies hplan] at hlog
    exact ⟨_, [.commit], hlog, List.forall_mem_singleton.2 (.inr (.inl rfl)), .inl rfl⟩

/-- **A database unlocks the successors that a store does.** The first statement is answered with
the links of the jobs that a completion in the store finds under the claims, in any order. Then the
ids that are unlocked and the groups that are promoted are those of the store, each as often. Where
no job has finished, nothing is sent and nothing unlocked. -/
theorem finish_unlocks_alike {store : Store} (hs : store.Distinct) (delete delete' : Bool)
    (clock : Instant) (hopen : s.refusal = none) (hbegun : s.beginError = none)
    (hreplies : s.replies = .ok ended :: later)
    (hended : (ended.records.map fun c => (c.nextJobId, c.sequenceId)).Perm
      ((store.listed jobs).map fun j => successorColumns j.successor)) :
    (store.found delete' clock jobs).Perm (store.listed jobs) ∧
      store.complete jobs delete' clock =
        (store.unlocks delete' clock jobs).foldl Store.unlock
          (store.endAll jobs delete' clock) ∧
      (jobs = [] → (query (.complete jobs delete)).run s = (.ok (), s) ∧
        store.unlocks delete' clock jobs = []) ∧
      (jobs ≠ [] → ∃ next groups sent ending,
        (next.map JobId.mk).Perm
          ((store.unlocks delete' clock jobs).filterMap Successor.target?) ∧
        (groups.map SequenceId.mk).Perm
          ((store.unlocks delete' clock jobs).filterMap Successor.group?) ∧
        ((query (.complete jobs delete)).run s).2.log =
          s.log ++ .begin :: .finish (jobs.map (·.job)) delete :: (sent ++ ending) ∧
        (∀ st ∈ ending, st.Brackets) ∧
        (sent = unlockStatements next groups ∨
          ∃ before st e, sent = before ++ [st] ∧ later[before.length]? = some (.error e) ∧
            sent <+: unlockStatements next groups)) := by
  have hfound : (store.found delete' clock jobs).Perm (store.listed jobs) :=
    Store.found_perm hs jobs
  refine ⟨hfound, Store.complete_eq_unlock hs jobs, ?_, fun hjobs => ?_⟩
  · rintro rfl
    exact ⟨rfl, rfl⟩
  · have hlinks := hended.trans (hfound.map fun j => successorColumns j.successor).symm
    obtain ⟨hnext, hgroups⟩ := links_perm hlinks
    obtain ⟨sent, ending, hlog, hending, hsent⟩ := log_finish hjobs delete hopen hbegun
      hreplies
    exact ⟨_, _, sent, ending, hnext, hgroups, hlog, hending, hsent⟩

/-- Two members of a group and a job with a next one end together, and a fourth is not held. -/
theorem finish_unlocks_alike_members :
    let w : WorkerId := ⟨.ofNat 1⟩
    let job (n : Nat) (l : Successor) : Job :=
      { ((NewJob.plain n).toJob .epoch).start w .epoch with successor := l }
    let store : Store := { jobs := [job 1 (.sequence ⟨.ofNat 8⟩), job 2 (.next ⟨.ofNat 7⟩),
      job 3 (.sequence ⟨.ofNat 8⟩)] }
    let jobs : List FinishedJob := [1, 2, 3, 4].map fun n => ⟨⟨⟨.ofNat n⟩, w⟩, .none⟩
    let ended : Reply := { records := [{ nextJobId := some (.ofNat 7) },
      { sequenceId := some (.ofNat 8) }, { sequenceId := some (.ofNat 8) }] }
    let s : Session := { replies := [.ok ended] }
    store.unlocks true .epoch jobs =
      [.sequence ⟨.ofNat 8⟩, .next ⟨.ofNat 7⟩, .sequence ⟨.ofNat 8⟩] ∧
    ∃ next groups sent ending,
      (next.map JobId.mk).Perm ((store.unlocks true .epoch jobs).filterMap Successor.target?) ∧
      (groups.map SequenceId.mk).Perm
        ((store.unlocks true .epoch jobs).filterMap Successor.group?) ∧
      ((query (.complete jobs false)).run s).2.log =
        .begin :: .finish (jobs.map (·.job)) false :: (sent ++ ending) ∧
      (∀ st ∈ ending, st.Brackets) ∧
      (sent = unlockStatements next groups ∨
        ∃ before st e, sent = before ++ [st] ∧
          ([] : List (Except DatabaseError Reply))[before.length]? = some (.error e) ∧
          sent <+: unlockStatements next groups) := by
  intro w job store jobs ended s
  have hs : (store.jobs.map (·.id)).Nodup := by decide
  have hjobs : jobs ≠ [] := List.cons_ne_nil _ _
  have hended : (ended.records.map fun c => (c.nextJobId, c.sequenceId)).Perm
      ((store.listed jobs).map fun j => successorColumns j.successor) := by decide
  exact ⟨by decide +kernel,
    (finish_unlocks_alike hs false true .epoch (s := s) rfl rfl rfl hended).2.2.2 hjobs⟩

end Database

end JobQueue
