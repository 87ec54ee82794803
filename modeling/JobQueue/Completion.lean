import JobQueue.Backend
import JobQueue.Config

/-!
# Batched completion

Completions that come at about the same time are written together. Whoever completes a job sends a
request and waits for the reply. The batcher gathers the requests that are there, writes them with
at most two calls, one for the jobs that do not belong to a group and one for those that do, and
replies to all of them alike.
-/

namespace JobQueue

/-- Who makes a write: an execution, or one of the two replays of the retry queue. -/
inductive Writer
  | execution (key : Nat)
  | replayLoop
  | shutdown
deriving DecidableEq

structure CompletionRequest where
  writer : Writer
  job : FinishedJob
deriving DecidableEq

/-- What became of a request. -/
abbrev CompletionReply := Except BackendError Unit

inductive Batcher
  | idle
  | gathering (batch : List CompletionRequest)
  /-- The parts that are not written yet, the replies to make, and the first error. -/
  | flushing (parts : List (List FinishedJob)) (replyTo : List Writer)
      (failure : Option BackendError)
  | stopped
  | dead
deriving DecidableEq

/-- The requests on their way to the batcher, and the replies on their way back. -/
structure Completion where
  /-- The number of requests that fit in the channel, and in a batch. -/
  capacity : Nat
  channel : List CompletionRequest := []
  replies : List (Writer × CompletionReply) := []
  batcher : Batcher := .idle

namespace Batcher

/-- The jobs of a batch that belong to no group, and those that do. -/
def split (batch : List CompletionRequest) :
    List CompletionRequest × List CompletionRequest :=
  batch.partition fun request => !request.job.successor.isSequence

/-- A batch to be flushed: the jobs without a group first. -/
def flush (batch : List CompletionRequest) : Batcher :=
  let (single, grouped) := split batch
  .flushing ([single, grouped].filter (· ≠ []) |>.map (·.map (·.job)))
    ((single ++ grouped).map (·.writer)) none

end Batcher

namespace Completion

/-- The channel and the largest batch have room for at least one request. -/
def ofConcurrency (maxConcurrency : Nat) : Completion := { capacity := max maxConcurrency 1 }

/-- Whether requests are still taken. -/
def isOpen (c : Completion) : Bool := c.batcher ≠ .dead && c.batcher ≠ .stopped

def hasRoom (c : Completion) : Bool := c.channel.length < c.capacity

def send (c : Completion) (request : CompletionRequest) : Completion :=
  { c with channel := c.channel ++ [request] }

/-- The reply to a writer, if it has come. -/
def reply? (c : Completion) (writer : Writer) : Option CompletionReply := c.replies.lookup writer

/-- Takes the reply to a writer. -/
def take (c : Completion) (writer : Writer) : Completion :=
  { c with replies := c.replies.filter (·.1 ≠ writer) }

/-- Replies to writers alike. -/
def reply (c : Completion) (writers : List Writer) (r : CompletionReply) : Completion :=
  { c with replies := c.replies ++ writers.map fun writer => (writer, r) }

/-- The batcher is gone, with all requests that it had not replied to. -/
def die (c : Completion) (unanswered : List Writer) : Completion :=
  { c.reply (unanswered ++ c.channel.map (·.writer)) (.error .completionUnavailable) with
    channel := []
    batcher := .dead }

/-- The reply to a flushed batch. -/
def replyOf : Option BackendError → CompletionReply
  | none => .ok ()
  | some e => .error (.batchFailed e)

/-- Whether the batcher has something to do. It stops when no one is left to send requests. -/
def isReady (c : Completion) (closed : Bool) : Bool :=
  match c.batcher with
  | .idle => !c.channel.isEmpty || closed
  | .gathering _ => true
  | .flushing .. => true
  | .stopped => false
  | .dead => false

/-- One step of the batcher. A batch is flushed as soon as it is full or no request is there. -/
def step {σ : Type} (c : Completion) (closed : Bool)
    (complete : List FinishedJob → σ → Answer Unit × σ) (s : σ) : Option (Completion × σ) :=
  match c.batcher with
  | .idle =>
    match c.channel with
    | request :: rest => some ({ c with channel := rest, batcher := .gathering [request] }, s)
    | [] => if closed then some ({ c with batcher := .stopped }, s) else none
  | .gathering batch =>
    match c.channel with
    | request :: rest =>
      if batch.length < c.capacity then
        some ({ c with channel := rest, batcher := .gathering (batch ++ [request]) }, s)
      else some ({ c with batcher := .flush batch }, s)
    | [] => some ({ c with batcher := .flush batch }, s)
  | .flushing (part :: parts) replyTo failure =>
    match complete part s with
    | (.ok (), s) => some ({ c with batcher := .flushing parts replyTo failure }, s)
    | (.error (.error e), s) =>
      some ({ c with batcher := .flushing parts replyTo (failure.or (some e)) }, s)
    | (.error .crash, s) => some (c.die replyTo, s)
  | .flushing [] replyTo failure =>
    some ({ c.reply replyTo (replyOf failure) with batcher := .idle }, s)
  | .stopped => none
  | .dead => none

end Completion

end JobQueue
