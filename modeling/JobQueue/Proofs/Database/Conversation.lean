import JobQueue.Database.Backend
import JobQueue.Proofs.Except

/-!
# Conversations with a database

A query sends statements one after the other, and each of them is answered or comes to a fault. What
is said here of queries holds in every session, that is for every list of replies to come: a query
goes on as long as it is answered, and fails with the first fault.
-/

namespace JobQueue.Database

open Session

/-- A statement that was sent, and what came of it. -/
structure Exchange where
  statement : Statement
  outcome : Except Fault Reply

def Exchange.Answered (x : Exchange) : Prop := ∃ reply, x.outcome = .ok reply

/-- The replies to a conversation, as far as there are any. -/
def repliesOf (sent : List Exchange) : List Reply := sent.filterMap (·.outcome.toOption)

namespace Statement

/-- Whether a record that is returned can be read, where a transaction reads what its statements
return. -/
def check : Statement → Cells → Except DecodeError Unit
  | .deleteDeadWorkers _, c => c.toId.map fun _ => ()
  | .restartJobs _, c => c.toReclaimed.map fun _ => ()
  | .selectAbandoned _, c => c.toReclaimed.map fun _ => ()
  | _, _ => .ok ()

/-- What comes of a statement: a reply with a record that cannot be read is a fault, too. -/
def judge (st : Statement) (o : Except Fault Reply) : Except Fault Reply :=
  o.bind fun reply => ((reply.records.mapM st.check).mapError .decode).map fun _ => reply

end Statement

/-- A session takes a conversation to another session. -/
inductive Talk : Session → List Exchange → Session → Prop
  | nil {s : Session} : Talk s [] s
  | cons {s s' t : Session} {st : Statement} {o : Except Fault Reply} {rest : List Exchange}
      (hsend : (send st).run s = (o, s')) (hrest : Talk s' rest t) :
      Talk s (⟨st, st.judge o⟩ :: rest) t

variable {ε φ α β : Type} {s t : Session} {st : Statement} {sent : List Exchange}
  {report : Statement → Fault → ε}

/-! ## 1. Sending -/

theorem run_send (hopen : s.refusal = none) (st : Statement) :
    (send st).run s = ((s.replies.headD (.ok {})).mapError .database,
      { s with log := s.log ++ [st], replies := s.replies.tail }) := by
  obtain ⟨refusal, replies, beginError, commitError, applied, unfinished, log⟩ := s
  cases hopen
  cases replies with
  | nil => rfl
  | cons reply rest => cases reply <;> rfl

theorem Talk.append {u : Session} {sent' : List Exchange} (h : Talk s sent t)
    (h' : Talk t sent' u) : Talk s (sent ++ sent') u := by
  induction h with
  | nil => exact h'
  | cons hsend _ ih => exact .cons hsend (ih h')

/-- A conversation is recorded, and leaves alone what a session knows of connections and
transactions. -/
theorem Talk.session_eq (h : Talk s sent t) (hopen : s.refusal = none) :
    t.log = s.log ++ sent.map (·.statement) ∧ t.refusal = none ∧ t.commitError = s.commitError := by
  induction h with
  | nil => exact ⟨(List.append_nil _).symm, hopen, rfl⟩
  | @cons s s' t st o rest hsend _ ih =>
    rw [run_send hopen] at hsend
    cases hsend
    obtain ⟨hlog, hrefusal, hcommit⟩ := ih hopen
    refine ⟨?_, hrefusal, hcommit⟩
    rw [hlog, List.map_cons, List.append_assoc, List.singleton_append]

theorem Talk.uncons {x : Exchange} (h : Talk s (x :: sent) t) (hopen : s.refusal = none) :
    x.outcome = x.statement.judge ((s.replies.headD (.ok {})).mapError .database) ∧
      ∃ s', s'.refusal = none ∧ s'.replies = s.replies.tail ∧ Talk s' sent t := by
  cases h with
  | cons hsend hrest =>
    rw [run_send hopen] at hsend
    cases hsend
    refine ⟨rfl, _, ?_, ?_, hrest⟩
    · exact hopen
    · rfl

/-- What came of the last statement is told by the reply in its turn. -/
theorem Talk.last_outcome {x : Exchange} (h : Talk s (sent ++ [x]) t) (hopen : s.refusal = none) :
    x.outcome = x.statement.judge
      ((s.replies[sent.length]?.getD (.ok {})).mapError .database) := by
  induction sent generalizing s with
  | nil =>
    rw [(h.uncons hopen).1, List.length_nil, ← List.head?_eq_getElem?, List.headD_eq_head?_getD]
  | cons y rest ih =>
    -- the first statement takes the first reply, and the others keep their turns
    obtain ⟨-, s', hopen', hreplies, hrest⟩ := h.uncons hopen
    rw [ih hrest hopen', hreplies, List.getElem?_tail, List.length_cons]

/-- A reply with nothing to read is no fault. -/
theorem judge_eq_self (hcheck : st.check = fun _ => .ok ()) (o : Except Fault Reply) :
    st.judge o = o := by
  cases o with
  | error f => rfl
  | ok reply =>
    have hall : reply.records.mapM st.check = .ok (reply.records.map fun _ => ()) := by
      rw [hcheck]
      exact List.mapM_pure
    simp only [Statement.judge, Except.bind, hall]
    rfl

/-! ## 2. What a query sends -/

theorem run_bind (q : Query ε α) (k : α → Query ε β) (s : Session) :
    (q >>= k).run s = match q.run s with
      | (.ok a, s') => (k a).run s'
      | (.error e, s') => (.error e, s') := by
  show ExceptT.bindCont k (q.run s).1 (q.run s).2 = _
  generalize q.run s = result
  obtain ⟨r, s'⟩ := result
  cases r <;> rfl

theorem run_failingAs (q : Query ε α) (f : ε → φ) (s : Session) :
    (q.failingAs f).run s = ((q.run s).1.mapError f, (q.run s).2) := rfl

/-- A result reports on a conversation: it is good if all statements were answered, and otherwise it
tells the fault of the last one. -/
def Reports (report : Statement → Fault → ε) (sent : List Exchange) : Except ε α → Prop
  | .ok _ => ∀ x ∈ sent, x.Answered
  | .error e => ∃ before st f, sent = before ++ [⟨st, .error f⟩] ∧ (∀ x ∈ before, x.Answered) ∧
      e = report st f

/-- What holds of the conversation and the result of a query in every session. The query goes on
while it is answered, and reports what it came to. -/
def Query.Sends (q : Query ε α) (report : Statement → Fault → ε)
    (P : List Exchange → Except ε α → Prop) : Prop :=
  ∀ s, ∃ sent, Talk s sent (q.run s).2 ∧ Reports report sent (q.run s).1 ∧ P sent (q.run s).1

theorem Reports.append {sent' : List Exchange} {r : Except ε α} (h : ∀ x ∈ sent, x.Answered)
    (h' : Reports report sent' r) : Reports report (sent ++ sent') r := by
  cases r with
  | ok a =>
    intro x hx
    rcases List.mem_append.1 hx with hx | hx
    · exact h x hx
    · exact h' x hx
  | error e =>
    obtain ⟨before, st, f, rfl, hbefore, he⟩ := h'
    refine ⟨sent ++ before, st, f, (List.append_assoc _ _ _).symm, ?_, he⟩
    intro x hx
    rcases List.mem_append.1 hx with hx | hx
    · exact h x hx
    · exact hbefore x hx

namespace Query.Sends

variable {q : Query ε α} {k : α → Query ε β} {P P' : List Exchange → Except ε α → Prop}
  {Q : α → List Exchange → Except ε β → Prop} {R : List Exchange → Except ε β → Prop}

theorem imp (h : q.Sends report P) (hP : ∀ sent r, P sent r → P' sent r) :
    q.Sends report P' := by
  intro s
  obtain ⟨sent, htalk, hreport, hsent⟩ := h s
  exact ⟨sent, htalk, hreport, hP _ _ hsent⟩

theorem reporting {report' : Statement → Fault → ε} (h : q.Sends report P)
    (heq : ∀ sent r, P sent r → ∀ x ∈ sent, ∀ f, report x.statement f = report' x.statement f) :
    q.Sends report' P := by
  intro s
  obtain ⟨sent, htalk, hreport, hsent⟩ := h s
  refine ⟨sent, htalk, ?_, hsent⟩
  have hsame := heq _ _ hsent
  generalize (q.run s).1 = r at hreport
  cases r with
  | ok a => exact hreport
  | error e =>
    obtain ⟨before, st, f, rfl, hbefore, rfl⟩ := hreport
    exact ⟨before, st, f, rfl, hbefore, hsame _ (List.mem_concat_self ..) f⟩

theorem pure {a : α} (h : P [] (.ok a)) : Query.Sends (Pure.pure a) report P := fun _ =>
  ⟨[], .nil, List.forall_mem_nil _, h⟩

/-- A query that comes after another is talked through only if the first one was answered. -/
theorem bind (hq : q.Sends report P) (hk : ∀ a, (k a).Sends report (Q a))
    (hfail : ∀ sent e, P sent (.error e) → R sent (.error e))
    (hgo : ∀ sent a sent' r, P sent (.ok a) → Q a sent' r → R (sent ++ sent') r) :
    (q >>= k).Sends report R := by
  intro s
  rw [run_bind]
  obtain ⟨sent, htalk, hreport, hsent⟩ := hq s
  generalize q.run s = result at htalk hreport hsent
  obtain ⟨r, s'⟩ := result
  cases r with
  | error e => exact ⟨sent, htalk, hreport, hfail _ _ hsent⟩
  | ok a =>
    -- the first was answered throughout, so only the second can have come to a fault
    obtain ⟨sent', htalk', hreport', hsent'⟩ := hk a s'
    exact ⟨sent ++ sent', htalk.append htalk', .append hreport hreport', hgo _ _ _ _ hsent hsent'⟩

theorem failingAs {f : ε → φ} {P : List Exchange → Except φ α → Prop}
    (h : q.Sends report fun sent r => P sent (r.mapError f)) :
    (q.failingAs f).Sends (fun st fault => f (report st fault)) P := by
  intro s
  rw [run_failingAs]
  obtain ⟨sent, htalk, hreport, hsent⟩ := h s
  refine ⟨sent, htalk, ?_, hsent⟩
  generalize (q.run s).1 = r at hreport
  cases r with
  | ok a => exact hreport
  | error e =>
    obtain ⟨before, st, fault, hlast, hbefore, rfl⟩ := hreport
    exact ⟨before, st, fault, hlast, hbefore, rfl⟩

end Query.Sends

/-! ## 3. Single statements -/

/-- A statement and what came of it, with the value that was read from the reply. -/
def Fetched (st : Statement) (read : Reply → Except Fault α) (sent : List Exchange)
    (r : Except Fault α) : Prop :=
  ∃ o, sent = [⟨st, o⟩] ∧ ∀ a, r = .ok a → ∃ reply, o = .ok reply ∧ read reply = .ok a

/-- A query of one statement fails if the statement does, or if its reply is judged a fault. -/
theorem sends_single {q : Query Fault α} {read : Reply → Except Fault α}
    (hrun : ∀ s, q.run s = (((send st).run s).1.bind read, ((send st).run s).2))
    (hjudge : ∀ o, st.judge o = o.bind fun reply => (read reply).map fun _ => reply) :
    q.Sends (fun _ f => f) (Fetched st read) := by
  intro s
  rw [hrun]
  cases hsend : (send st).run s with
  | mk o s' =>
    refine ⟨[⟨st, st.judge o⟩], .cons hsend .nil, ?_⟩
    rw [hjudge]
    cases o with
    | error f => exact ⟨⟨[], st, f, rfl, List.forall_mem_nil _, rfl⟩, _, rfl, nofun⟩
    | ok reply =>
      show Reports _ [⟨st, (read reply).map fun _ => reply⟩] (read reply) ∧
        Fetched st read [⟨st, (read reply).map fun _ => reply⟩] (read reply)
      cases hread : read reply with
      | error f => exact ⟨⟨[], st, f, rfl, List.forall_mem_nil _, rfl⟩, _, rfl, nofun⟩
      | ok a =>
        refine ⟨List.forall_mem_singleton.2 ⟨reply, rfl⟩, _, rfl, ?_⟩
        rintro a' ⟨⟩
        exact ⟨reply, rfl, hread⟩

theorem map_mapM_discard {γ δ : Type} (f : Cells → Except DecodeError γ) (d : δ)
    (cells : List Cells) :
    (cells.mapM fun c => (f c).map fun _ => ()).map (fun _ => d) =
      (cells.mapM f).map fun _ => d := by
  induction cells with
  | nil => rfl
  | cons c rest ih =>
    rw [List.mapM_cons, List.mapM_cons]
    cases f c with
    | error e => rfl
    | ok a =>
      -- both go on to the same records, and fail at the same one
      show ((rest.mapM fun c => (f c).map fun _ => ()) >>= _).map _ = (rest.mapM f >>= _).map _
      generalize (rest.mapM fun c => (f c).map fun _ => ()) = units at ih
      generalize rest.mapM f = rows at ih
      cases units <;> cases rows <;> cases ih <;> rfl

theorem mapError_map {γ δ : Type} (r : Except DecodeError γ) (f : γ → δ) :
    (r.mapError Fault.decode).map f = (r.map f).mapError Fault.decode := by
  cases r <;> rfl

theorem eq_ok_of_mapError {r : Except ε α} {f : ε → φ} {a : α} (h : r.mapError f = .ok a) :
    r = .ok a := by
  cases r with
  | error e => nomatch h
  | ok b => cases h; rfl

theorem run_fetch (st : Statement) (read : Cells → Except DecodeError α) (s : Session) :
    (fetch st read).run s =
      (((send st).run s).1.bind fun reply => (reply.records.mapM read).mapError .decode,
        ((send st).run s).2) := by
  unfold fetch
  rw [run_bind]
  generalize (send st).run s = result
  obtain ⟨o, s'⟩ := result
  cases o <;> rfl

theorem sends_fetch {read : Cells → Except DecodeError α}
    (hread : st.check = fun c => (read c).map fun _ => ()) :
    (fetch st read).Sends (fun _ f => f)
      (Fetched st fun reply => (reply.records.mapM read).mapError .decode) := by
  apply sends_single (run_fetch st read)
  intro o
  simp only [Statement.judge, hread, mapError_map, map_mapM_discard]

theorem sends_execute (hcheck : st.check = fun _ => .ok ()) :
    (execute st).Sends (fun _ f => f) (Fetched st fun reply => .ok reply.affected) := by
  apply sends_single
  · intro s
    unfold execute
    rw [run_bind]
    generalize (send st).run s = result
    obtain ⟨o, s'⟩ := result
    cases o <;> rfl
  · intro o
    rw [judge_eq_self hcheck]
    cases o <;> rfl

/-! ## 4. Several statements -/

/-- The statements sent are those of a plan, up to the first that came to a fault. -/
def Follows (plan : List Statement) (sent : List Exchange) (r : Except ε α) : Prop :=
  sent.map (·.statement) <+: plan ∧ ((∃ a, r = .ok a) → sent.map (·.statement) = plan)

theorem follows_of_eq {r : Except ε α} {plan : List Statement}
    (h : sent.map (·.statement) = plan) : Follows plan sent r :=
  ⟨h ▸ List.prefix_refl _, fun _ => h⟩

theorem Follows.mem_plan {r : Except ε α} {plan : List Statement} (h : Follows plan sent r)
    {x : Exchange} (hx : x ∈ sent) : x.statement ∈ plan :=
  h.1.subset (List.mem_map_of_mem hx)

theorem Follows.cons {x : Exchange} {r : Except ε α} {plan : List Statement}
    (h : Follows plan sent r) : Follows (x.statement :: plan) (x :: sent) r := by
  refine ⟨?_, fun hr => ?_⟩
  · rw [List.map_cons]
    exact (List.prefix_cons_inj _).2 h.1
  · rw [List.map_cons, h.2 hr]

theorem Follows.of_mapError {r : Except ε α} {f : ε → φ} {plan : List Statement}
    (h : Follows plan sent r) : Follows plan sent (r.mapError f) := by
  cases r with
  | error e => exact ⟨h.1, nofun⟩
  | ok a => exact ⟨h.1, fun _ => h.2 ⟨a, rfl⟩⟩

theorem Fetched.follows {read : Reply → Except Fault α} {r : Except Fault α}
    (h : Fetched st read sent r) : Follows [st] sent r := by
  obtain ⟨o, rfl, -⟩ := h
  exact follows_of_eq rfl

theorem Query.Sends.follows_bind {q : Query ε α} {k : α → Query ε β} {plan plan' : List Statement}
    (hq : q.Sends report (Follows plan)) (hk : ∀ a, (k a).Sends report (Follows plan')) :
    (q >>= k).Sends report (Follows (plan ++ plan')) := by
  apply hq.bind hk
  · intro sent e h
    exact ⟨h.1.trans (List.prefix_append _ _), nofun⟩
  · intro sent a sent' r h h'
    rw [Follows, List.map_append, h.2 ⟨a, rfl⟩]
    exact ⟨(List.prefix_append_right_inj _).2 h'.1, fun hr => by rw [h'.2 hr]⟩

theorem sends_pure (a : α) : Query.Sends (Pure.pure a) report (Follows []) :=
  .pure (follows_of_eq rfl)

theorem sends_forM {γ : Type} {f : γ → Query ε Unit} {plan : γ → Statement}
    (hf : ∀ c, (f c).Sends report (Follows [plan c])) (l : List γ) :
    (l.forM f).Sends report (Follows (l.map plan)) := by
  induction l with
  | nil => exact sends_pure ()
  | cons c rest ih => exact (hf c).follows_bind fun _ => ih

theorem sends_mapM {γ : Type} {f : γ → Query ε α} {plan : γ → Statement}
    (hf : ∀ c, (f c).Sends report (Follows [plan c])) (l : List γ) :
    (l.mapM f).Sends report (Follows (l.map plan)) := by
  induction l with
  | nil => exact sends_pure []
  | cons c rest ih =>
    rw [List.mapM_cons]
    apply (hf c).follows_bind
    intro a
    rw [← List.append_nil (List.map plan rest)]
    exact ih.follows_bind fun as => sends_pure (a :: as)

end JobQueue.Database
