import JobQueue.Handler

/-!
# Middleware

Middleware stands around the handler in layers. Each layer sees what the layers inside of it do: it
may run code before and after them, leave them out, or replace how they end. The outermost layer
reports every execution to the observer.
-/

namespace JobQueue

/-- What a layer does. -/
inductive Layer
  /-- Leaves out the rest, and ends in a way of its own. -/
  | stop (exit : Exit)
  /-- Runs the rest, if need be after a while, and settles the end once the rest has returned. -/
  | pass (wait : Option Duration) (settle : Exit → Exit)

namespace Layer

/-- Passes the run on unchanged. -/
def record : Layer := .pass none id

/-- Fails without running the rest. -/
def short (text : String) : Layer := .stop (.error ⟨"custom", text⟩)

/-- Succeeds without running the rest. -/
def skip : Layer := .stop .done

/-- Panics without running the rest. -/
def panic (text : String) : Layer := .stop (.panic text)

/-- Waits before running the rest. -/
def delay (span : Duration) : Layer := .pass (some span) id

/-- Runs the rest and succeeds. -/
def swallow : Layer := .pass none fun _ => .done

/-- Runs the rest and fails. -/
def failAfter (text : String) : Layer := .pass none fun _ => .error ⟨"error", text⟩

/-- Runs the rest and panics. -/
def panicAfter (text : String) : Layer := .pass none fun _ => .panic text

end Layer

structure Middleware where
  name : String
  layer : Layer
  /-- Later attempts than this are passed on unchanged. -/
  attempts : Option Nat := none

/-- How a result is named in the trace. -/
def Exit.label : Exit → String
  | .done => "done"
  | .error failure => failure.kind ++ "/" ++ failure.message
  | .panic message => "panic/" ++ message

namespace Middleware

/-- What the layer does at an attempt. -/
def layerAt (m : Middleware) (attempt : UInt16) : Layer :=
  if m.attempts.all (attempt.toNat ≤ ·) then m.layer else .record

/-- Puts the layer around a run. A panic from inside passes through without a trace. -/
def wrap (m : Middleware) (attempt : UInt16) (inner : Run) : Run :=
  let enter := Effect.note ("enter " ++ m.name)
  match m.layerAt attempt with
  | .stop exit => ⟨[enter], exit⟩
  | .pass wait settle =>
    let before := enter :: (wait.map Effect.sleep).toList
    match inner.exit with
    | .panic message => ⟨before ++ inner.effects, .panic message⟩
    | exit =>
      let leave := Effect.note ("exit " ++ m.name ++ " " ++ exit.label)
      ⟨before ++ inner.effects ++ [leave], settle exit⟩

end Middleware

/-- The layers around every handler, outermost first. -/
structure Pipeline where
  layers : List Middleware
  observed : Bool

/-- The outer layers stand around the inner ones. -/
def Pipeline.ofLayers (outer inner : List Middleware) (observed : Bool) : Pipeline :=
  ⟨outer ++ inner, observed⟩

/-- Reports how a run ends, and lets it end so. -/
def Run.report (r : Run) : Run :=
  { r with effects := r.effects ++ [.observe (r.exit = .done)] }

/-- Runs an endpoint inside of all layers. -/
def Pipeline.execute (p : Pipeline) (attempt : UInt16) (endpoint : Run) : Run :=
  let inner := p.layers.foldr (fun m r => m.wrap attempt r) endpoint
  if p.observed then inner.report else inner

end JobQueue
