import JobQueue.Backend

/-!
# Faults

A backend made from another one whose calls fail at given times. It shows what a worker does when
its store is out of order.
-/

namespace JobQueue

/-- The calls that a worker makes. -/
inductive CallKind
  | claim
  | complete
  | retry
  | reschedule
  | fail
  | heartbeat
  | reclaim
deriving DecidableEq

/-- The kind of a call, if it is one that a worker makes. -/
def Call.kind? : Call → Option CallKind
  | .claim .. => some .claim
  | .complete .. => some .complete
  | .retry .. => some .retry
  | .reschedule .. => some .reschedule
  | .fail .. => some .fail
  | .heartbeat .. => some .heartbeat
  | .reclaim _ => some .reclaim
  | _ => none

/-- A call that fails from one time until before another, every time or a number of times. Times
are in milliseconds. -/
structure BackendFault where
  kind : CallKind
  start : Nat := 0
  stop : Option Nat := none
  count : Option Nat := none
  result : Stop BackendError

/-- The state of a backend together with the faults that it has from a time on. -/
structure Faulty (σ : Type) where
  inner : σ
  origin : Instant
  faults : List BackendFault

namespace BackendFault

/-- Whether a call of the kind fails at a time. -/
def applies (f : BackendFault) (kind : Option CallKind) (millis : Int) : Bool :=
  kind = some f.kind && f.start ≤ millis && f.stop.all (millis < ↑·) && f.count ≠ some 0

/-- One time less. -/
def spend (f : BackendFault) : BackendFault := { f with count := f.count.map (· - 1) }

/-- The first of the faults that applies, and what is left of them after it. -/
def findFirst? (kind : Option CallKind) (millis : Int) :
    List BackendFault → Option (Stop BackendError × List BackendFault)
  | [] => none
  | f :: rest =>
    if f.applies kind millis then some (f.result, f.spend :: rest)
    else (findFirst? kind millis rest).map fun (result, rest) => (result, f :: rest)

end BackendFault

/-- The call that is made in place of another: a claim of more jobs than were asked for. -/
def Backend.answerExceeding {σ : Type} (b : Backend σ) (excess : Nat) (clock : Instant) :
    (c : Call) → σ → Answer c.Result × σ
  | .claim owner limit now, s => b.answer clock (.claim owner (limit + excess) now) s
  | c, s => b.answer clock c s

/-- The backend with faults, which may also hand out more jobs than it is asked for. -/
def Backend.faulty {σ : Type} (b : Backend σ) (excess : Nat) : Backend (Faulty σ) where
  answer clock c s :=
    let millis := (clock.nanos - s.origin.nanos) / 1000000
    match BackendFault.findFirst? c.kind? millis s.faults with
    | some (stop, faults) => (.error stop, { s with faults })
    | none =>
      let (a, inner) := b.answerExceeding excess clock c s.inner
      (a, { s with inner })

end JobQueue
