import JobQueue.Handler

/-!
# A catalog of handlers

Handlers for every type of parameter. Most of them have nothing to do; one obeys the order in its
parameter, and one follows a script.
-/

namespace JobQueue.Catalog

/-! ## Job types -/

def simple : JobType := { name := "simple_handler", parameter := .text }

/-- Two attempts, with five and then ten seconds between them. -/
def orders : JobType where
  name := "mock_return_handler"
  parameter := .order
  retryPolicy := some ⟨2, [Delta.ofSeconds 5, Delta.ofSeconds 10], none⟩

def optional : JobType := { name := "optional", parameter := .optional }

def unit : JobType := { name := "unit", parameter := .nothing, restartOnCrash := false }

def record : JobType where
  name := "record"
  parameter := .record
  restartOnCrash := false
  retryPolicy := some .noRetry

def script : JobType := { name := "script", parameter := .anything }

def jobTypes : List JobType := [simple, orders, optional, unit, record, script]

/-- The job type of a name. -/
def jobType? (name : String) : Option JobType := jobTypes.find? (·.name = name)

/-! ## Scripts -/

/-- A step either goes on or ends the run. -/
inductive Step
  | goOn (effects : List Effect)
  | stop (exit : Exit)

/-- Reads a step. What is not a step has no effect. -/
def Step.ofJson : Json → Step
  | .array [.string "sleep", .number (.integer millis)] =>
    .goOn [.sleep (.ofMillis millis.toNat), .stamp "sleep"]
  | .array [.string "cancelled"] => .goOn [.awaitShutdown, .stamp "cancelled"]
  | .array [.string "error", .string text] => .stop (.error ⟨"error", text⟩)
  | .array [.string "custom", .string text] => .stop (.error ⟨"custom", text⟩)
  | .array [.string "panic", .string text] => .stop (.panic text)
  | .array [.string "panic_static"] => .stop (.panic "static panic")
  | _ => .goOn []

/-- Carries out steps up to one that ends the run, or to the last. -/
def runSteps : List Json → Run
  | [] => ⟨[], .done⟩
  | step :: rest =>
    match Step.ofJson step with
    | .goOn effects => (runSteps rest).after effects
    | .stop exit => ⟨[], exit⟩

/-- The steps of an attempt: a script has a list of steps for each, and the last one repeats. -/
def stepsFor (script : Json) (attempt : UInt16) : List Json :=
  match script with
  | .array runs =>
    match runs[min (attempt.toNat - 1) (runs.length - 1)]? with
    | some (.array steps) => steps
    | _ => []
  | _ => []

/-! ## Behaviour -/

def Order.run : Order → Run
  | .done => ⟨[], .done⟩
  | .panic => ⟨[], .panic "job paniced"⟩
  | .error message => ⟨[], .error ⟨"custom", message⟩⟩

/-- What the handlers of the catalog do. -/
def run (parameter : Parameter) (attempt : UInt16) : Run :=
  let body : Run := match parameter with
    | .order o => Order.run o
    | .anything script => runSteps (stepsFor script attempt)
    | _ => ⟨[], .done⟩
  body.after [.invoke]

/-- A handler that is not there for its first `refusals` jobs. -/
def handler (type : JobType) (refusals : Nat) : Handler where
  type := type
  factory := fun calls => if calls < refusals then .nothing else .made
  run := run

end JobQueue.Catalog
