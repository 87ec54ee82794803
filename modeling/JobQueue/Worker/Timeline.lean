import JobQueue.Worker.Step

/-!
# The timeline of a worker

One way to run a worker: computation takes no time, a task goes on until it has to wait, and tasks
that can go on take turns in the order in which they became able to. When all of them wait, time
jumps to the first timer.
-/

namespace JobQueue.World

variable {σ : Type}

/-- Starts a worker, which begins with a sign of life. It crashes if the retry queue would be too
large. -/
def start (worker : Worker (Backend σ)) (state : σ) (origin : Instant) :
    Except (Stop QueueError) (World σ) :=
  let w : World σ := { state, origin, engine := .start worker 0 }
  match w.ask worker.backend (.heartbeat worker.id origin) with
  | (.ok (), w) =>
    if RetryQueue.capacityLimit < worker.config.retryQueueCapacity then .error .crash else .ok w
  | (.error (.error e), _) => .error (.error (.backend e))
  | (.error .crash, _) => .error .crash

/-- All tasks. -/
def tasks (w : World σ) : List Task :=
  [.shutdown, .batcher, .claims, .heartbeats, .reclaims, .replays]
    ++ w.engine.executions.map (.execution ·.key)

/-- Which of two things happens where either may. This is as good as drawn: it depends on how much
has happened so far. -/
def goesOn (w : World σ) : Bool := w.log.length % 2 = 1

/-- The next step of a task, if it can go on. Draws come out in the middle. -/
def next? (worker : Worker (Backend σ)) (w : World σ) (t : Task) : Option (World σ) :=
  w.step worker t w.goesOn 0

/-- The tasks that can go on: first those that could before, and then the new ones. -/
def line (worker : Worker (Backend σ)) (before : List Task) (w : World σ) : List Task :=
  let ready := w.tasks.filter fun t => (w.next? worker t).isSome
  before.filter ready.contains ++ ready.filter (!before.contains ·)

/-- Whether a shutdown has returned. -/
def hasReturned (w : World σ) : Bool := w.engine.shutdown matches .returned _

/-- Runs tasks until all of them wait or a shutdown returns, in at most `fuel` steps. -/
def settle (worker : Worker (Backend σ)) : Nat → List Task → World σ → World σ
  | 0, _, w => w
  | fuel + 1, before, w =>
    if w.hasReturned then w
    else
      match line worker before w with
      | [] => w
      | t :: rest =>
        match w.next? worker t with
        | none => w
        | some w => settle worker fuel (t :: rest) w

/-- The time at which a loop wakes. -/
def wakeTimes (e : Engine) : List Nat :=
  let claims := match e.claims with
    | .sleeping _ wake => [wake]
    | _ => []
  let ticker : Ticker → List Nat
    | .sleeping wake => [wake]
    | _ => []
  let replays := match e.replays with
    | .sleeping wake => [wake]
    | _ => []
  let executions := e.executions.filterMap fun x => match x.phase with
    | .sleeping wake _ _ => some wake
    | _ => none
  let shutdown := match e.shutdown with
    | .draining wake => [wake]
    | _ => []
  claims ++ ticker e.heartbeats ++ ticker e.reclaims ++ replays ++ executions ++ shutdown

/-- The first time after now at which a timer rings. -/
def nextTimer? (w : World σ) : Option Nat :=
  ((wakeTimes w.engine).filter (w.now < ·)).min?

/-- Runs the worker up to a time at which the tasks have not had a turn yet. -/
def runUntil (worker : Worker (Backend σ)) (steps : Nat) : Nat → Nat → World σ → World σ
  | 0, _, w => w
  | fuel + 1, target, w =>
    if target ≤ w.now then w
    else
      let w := settle worker steps [] w
      if w.hasReturned then w
      else
        match w.nextTimer? with
        | some t =>
          if t < target then runUntil worker steps fuel target { w with now := t }
          else { w with now := target }
        | none => { w with now := target }

/-- Tells the worker to stop. -/
def requestShutdown (w : World σ) : World σ :=
  w.update ({ · with cancelled := true, shutdown := .joining })

/-- What the shutdown has returned, if it has. -/
def shutdownResult? (w : World σ) : Option (Except (Stop QueueError) Unit) :=
  match w.engine.shutdown with
  | .returned result => some result
  | _ => none

/-- Lets the shutdown alone go on as far as it can. -/
def advanceShutdown (worker : Worker (Backend σ)) : Nat → World σ → World σ
  | 0, w => w
  | fuel + 1, w =>
    match w.next? worker .shutdown with
    | none => w
    | some w => advanceShutdown worker fuel w

/-- Shuts the worker down, and gives up when the limit is over. -/
def shutDown (worker : Worker (Backend σ)) (steps fuel limit : Nat) (w : World σ) : World σ :=
  let w := runUntil worker steps fuel (w.now + limit) w.requestShutdown
  advanceShutdown worker steps w

end JobQueue.World
