import JobQueue.Job.Draft

/-!
# Sequences

Jobs that are enqueued together and run one after the other. In a chain each job names the next one.
In a group all jobs name the group, and every completion lets the waiting member go that is
scheduled first; the schedules of a group are therefore spread out so that they follow the order of
its members. Only the first job of a sequence can be claimed at once.
-/

namespace JobQueue

inductive SequenceKind
  | chain
  | group (id : SequenceId)
deriving DecidableEq, Inhabited

namespace SequenceKind

/-- Lets each job name the one after it. -/
def linkChain : List NewJob → List NewJob
  | [] => []
  | [job] => [job]
  | job :: next :: rest => { job with successor := .next next.id } :: linkChain (next :: rest)

/-- The least distance between the schedules of two members of a group. -/
def spacing : Delta := ⟨1000000, by decide, by decide⟩

/-- Moves schedules so that each is later than the one before it. The sum has to be on the
calendar, even where it is not needed. -/
def spread (id : SequenceId) (previous : Instant) :
    List NewJob → Except (Stop QueueError) (List NewJob)
  | [] => .ok []
  | job :: rest =>
    match previous.add? spacing with
    | none => .error .crash
    | some earliest => do
      let scheduledAt := max job.scheduledAt earliest
      let rest ← spread id scheduledAt rest
      .ok ({ job with successor := .sequence id, scheduledAt } :: rest)

/-- Lets all jobs name the group, with their schedules spread out. -/
def linkGroup (id : SequenceId) : List NewJob → Except (Stop QueueError) (List NewJob)
  | [] => .ok []
  | job :: rest => do
    let rest ← spread id job.scheduledAt rest
    .ok ({ job with successor := .sequence id } :: rest)

/-- Lets all jobs but the first wait. -/
def holdBack : List NewJob → List NewJob
  | [] => []
  | job :: rest => job :: rest.map ({ · with waits := true })

/-- The jobs of a sequence, linked. -/
def link (kind : SequenceKind) (jobs : List NewJob) : Except (Stop QueueError) (List NewJob) :=
  if jobs.any (·.cron.isSome) then .error (.error .recurrentInSequence)
  else
    match kind with
    | .chain => .ok (holdBack (linkChain jobs))
    | .group id => (linkGroup id jobs).map holdBack

/-- Builds the drafts one by one, and then the sequence. -/
def build (kind : SequenceKind) (drafts : List Draft) (clock : Instant) :
    Except (Stop QueueError) (List NewJob) := do
  let jobs ← drafts.mapM (·.build clock)
  kind.link jobs

/-- Builds a sequence and inserts it as a whole. Nothing is asked of the backend for an empty
one. -/
def enqueue {σ : Type} (kind : SequenceKind) (drafts : List Draft) (b : Backend σ)
    (clock : Instant) (s : σ) : Except (Stop QueueError) (List JobId) × σ :=
  match kind.build drafts clock with
  | .error e => (.error e, s)
  | .ok [] => (.ok [], s)
  | .ok jobs =>
    let (r, s) := b.answer clock (.insertMany jobs) s
    (r.mapError Stop.ofBackend, s)

end SequenceKind

end JobQueue
