import JobQueue.Handler.Catalog
import JobQueue.Pipeline

/-!
# How layers nest

Layers are entered from the outermost inward, up to the first that leaves out the rest; the handler
is called if none does so, and then once. On the way out a layer runs its code if what is inside of
it has returned, the innermost first. A panic passes through every layer further out, so it leaves
the pipeline as it is; the observer is told once, whatever happens.
-/

namespace JobQueue

/-! ## 1. Effects -/

def Effect.report? : Effect → Option Bool
  | .observe succeeded => some succeeded
  | _ => none

/-- Whether code has come to its end, and has not panicked. -/
def Exit.returned : Exit → Bool
  | .panic _ => false
  | _ => true

/-- One call of a handler, which leaves it to the layers to tell the observer. -/
structure Run.IsCall (r : Run) : Prop where
  once : r.effects.count .invoke = 1
  silent : r.effects.filterMap Effect.report? = []

namespace Catalog

/-- No step of a script calls the handler anew or tells the observer. -/
theorem runSteps_quiet (steps : List Json) : ∀ effect ∈ (runSteps steps).effects,
    effect ≠ .invoke ∧ effect.report? = none := by
  induction steps with
  | nil => exact List.forall_mem_nil _
  | cons step rest ih =>
    unfold runSteps
    cases hstep : Step.ofJson step with
    | stop exit => exact List.forall_mem_nil _
    | goOn effects =>
      have hhere : ∀ effect ∈ effects, effect ≠ .invoke ∧ effect.report? = none := by
        unfold Step.ofJson at hstep
        split at hstep <;> cases hstep <;> simp [Effect.report?]
      intro effect heffect
      rcases List.mem_append.1 heffect with hfirst | hlater
      · exact hhere effect hfirst
      · exact ih effect hlater

/-- What the handlers of the catalog do is one call. -/
theorem run_isCall (parameter : Parameter) (attempt : UInt16) : (run parameter attempt).IsCall := by
  -- the call comes first, and the parameter settles what follows it
  obtain ⟨body, hrun, hquiet⟩ : ∃ body : Run, run parameter attempt = body.after [.invoke] ∧
      ∀ effect ∈ body.effects, effect ≠ .invoke ∧ effect.report? = none := by
    refine ⟨_, rfl, ?_⟩
    split
    · rename_i o
      cases o <;> exact List.forall_mem_nil _
    · exact runSteps_quiet _
    · exact List.forall_mem_nil _
  rw [hrun]
  constructor
  · show (Effect.invoke :: body.effects).count .invoke = 1
    rw [List.count_cons_self, List.count_eq_zero.2 fun hmem => (hquiet _ hmem).1 rfl]
  · show (Effect.invoke :: body.effects).filterMap Effect.report? = []
    rw [List.filterMap_cons_none rfl, List.filterMap_eq_nil_iff]
    exact fun effect heffect => (hquiet effect heffect).2

end Catalog

/-! ## 2. One layer -/

namespace Middleware

variable {m : Middleware} {attempt : UInt16} {inner : Run} {exit : Exit}

/-- How the layer ends, if it leaves out the rest. -/
def stop? (m : Middleware) (attempt : UInt16) : Option Exit :=
  match m.layerAt attempt with
  | .stop exit => some exit
  | .pass .. => none

/-- What the layer does on the way in. -/
def entering (m : Middleware) (attempt : UInt16) : List Effect :=
  .note ("enter " ++ m.name) ::
    match m.layerAt attempt with
    | .stop _ => []
    | .pass wait _ => (wait.map Effect.sleep).toList

/-- What the layer does on the way out. -/
def leaving (m : Middleware) (inner : Exit) : Effect :=
  .note ("exit " ++ m.name ++ " " ++ inner.label)

/-- How the layer ends, once what is inside of it has returned. -/
def settle (m : Middleware) (attempt : UInt16) (inner : Exit) : Exit :=
  match m.layerAt attempt with
  | .stop exit => exit
  | .pass _ settle => settle inner

theorem wrap_of_stop (h : m.stop? attempt = some exit) (inner : Run) :
    m.wrap attempt inner = ⟨m.entering attempt, exit⟩ := by
  unfold stop? at h
  unfold wrap entering
  cases hlayer : m.layerAt attempt with
  | stop exit' =>
    rw [hlayer] at h
    cases h
    rfl
  | pass wait settle =>
    rw [hlayer] at h
    cases h

theorem wrap_of_panic (h : m.stop? attempt = none) (hpanic : inner.exit.returned = false) :
    m.wrap attempt inner = ⟨m.entering attempt ++ inner.effects, inner.exit⟩ := by
  unfold stop? at h
  unfold wrap entering
  cases hlayer : m.layerAt attempt with
  | stop exit =>
    rw [hlayer] at h
    cases h
  | pass wait settle =>
    -- the code on the way out is reached by every end but a panic
    cases hexit : inner.exit with
    | panic message => rfl
    | done => rw [hexit] at hpanic; cases hpanic
    | error failure => rw [hexit] at hpanic; cases hpanic

theorem wrap_of_returned (h : m.stop? attempt = none) (hreturned : inner.exit.returned = true) :
    m.wrap attempt inner =
      ⟨m.entering attempt ++ inner.effects ++ [m.leaving inner.exit],
        m.settle attempt inner.exit⟩ := by
  unfold stop? at h
  unfold wrap entering settle leaving
  cases hlayer : m.layerAt attempt with
  | stop exit =>
    rw [hlayer] at h
    cases h
  | pass wait settle =>
    cases hexit : inner.exit with
    | panic message => rw [hexit] at hreturned; cases hreturned
    | done => rfl
    | error failure => rfl

theorem entering_reports (m : Middleware) (attempt : UInt16) :
    (m.entering attempt).filterMap Effect.report? = [] := by
  unfold entering
  cases m.layerAt attempt with
  | stop exit => rfl
  | pass wait settle => cases wait <;> rfl

theorem invoke_notMem_entering (m : Middleware) (attempt : UInt16) :
    Effect.invoke ∉ m.entering attempt := by
  unfold entering
  cases m.layerAt attempt with
  | stop exit => simp
  | pass wait settle => cases wait <;> simp

end Middleware

/-! ## 3. Layers around each other -/

namespace Pipeline

variable (attempt : UInt16) (endpoint : Run)

/-- What layers do, the first of them outermost. -/
def stack (layers : List Middleware) : Run :=
  layers.foldr (fun m r => m.wrap attempt r) endpoint

/-- Each layer with how that ends which is inside of it. -/
def insides : List Middleware → List (Middleware × Exit)
  | [] => []
  | m :: rest => (m, (stack attempt endpoint rest).exit) :: insides rest

/-- How many layers run the rest before one does not. -/
def depth (layers : List Middleware) : Nat := layers.findIdx fun m => (m.stop? attempt).isSome

/-- How that ends which is furthest inside: a layer that leaves out the rest, or the handler. -/
def innermost (layers : List Middleware) : Exit :=
  (layers.findSome? (·.stop? attempt)).getD endpoint.exit

/-- The layers that run code on the way out, in this order: they have run what is inside of them,
and it has returned. Each stands with how it did. -/
def left (layers : List Middleware) : List (Middleware × Exit) :=
  ((insides attempt endpoint layers).take (depth attempt layers)).reverse.filter (·.2.returned)

variable {attempt : UInt16} {endpoint : Run} {m : Middleware} {rest : List Middleware}

theorem depth_of_stop {exit : Exit} (h : m.stop? attempt = some exit) :
    depth attempt (m :: rest) = 0 := by
  rw [depth, List.findIdx_cons, h]
  rfl

theorem depth_of_pass (h : m.stop? attempt = none) :
    depth attempt (m :: rest) = depth attempt rest + 1 := by
  rw [depth, List.findIdx_cons, h]
  rfl

theorem left_of_stop {exit : Exit} (h : m.stop? attempt = some exit) :
    left attempt endpoint (m :: rest) = [] := by
  rw [left, depth_of_stop h]
  rfl

/-- A layer that runs the rest is the last on the way out, unless the rest panics. -/
theorem left_of_pass (h : m.stop? attempt = none) :
    left attempt endpoint (m :: rest) = left attempt endpoint rest ++
      if (stack attempt endpoint rest).exit.returned then
        [(m, (stack attempt endpoint rest).exit)] else [] := by
  rw [left, depth_of_pass h, insides, List.take_succ_cons, List.reverse_cons, List.filter_append,
    List.filter_cons, List.filter_nil]
  rfl

theorem stack_effects (layers : List Middleware) :
    (stack attempt endpoint layers).effects =
      (layers.take (depth attempt layers + 1)).flatMap (·.entering attempt) ++
        (if depth attempt layers = layers.length then endpoint.effects else []) ++
        (left attempt endpoint layers).map fun (m, inner) => m.leaving inner := by
  induction layers with
  | nil => exact (List.append_nil _).symm
  | cons m rest ih =>
    show (m.wrap attempt (stack attempt endpoint rest)).effects = _
    cases hstop : m.stop? attempt with
    | some exit =>
      rw [Middleware.wrap_of_stop hstop, left_of_stop hstop, depth_of_stop hstop]
      simp
    | none =>
      -- the layer is the first on the way in, and the last on the way out if the rest returns
      rw [left_of_pass hstop, depth_of_pass hstop, List.take_succ_cons, List.flatMap_cons]
      simp only [List.length_cons, Nat.add_right_cancel_iff, List.map_append, List.append_assoc]
      cases hreturned : (stack attempt endpoint rest).exit.returned with
      | true =>
        rw [Middleware.wrap_of_returned hstop hreturned, ih]
        simp
      | false =>
        rw [Middleware.wrap_of_panic hstop hreturned, ih]
        simp

theorem stack_exit (layers : List Middleware) :
    (stack attempt endpoint layers).exit =
      (left attempt endpoint layers).foldl (fun inner (m, _) => m.settle attempt inner)
        (innermost attempt endpoint layers) := by
  induction layers with
  | nil => rfl
  | cons m rest ih =>
    show (m.wrap attempt (stack attempt endpoint rest)).exit = _
    cases hstop : m.stop? attempt with
    | some exit =>
      rw [Middleware.wrap_of_stop hstop, left_of_stop hstop, innermost, List.findSome?_cons, hstop]
      rfl
    | none =>
      -- what is furthest inside is not this layer, so all that it does is settle the result
      have hinner : innermost attempt endpoint (m :: rest) = innermost attempt endpoint rest := by
        rw [innermost, List.findSome?_cons, hstop]
        rfl
      rw [left_of_pass hstop, hinner, List.foldl_append, ← ih]
      cases hreturned : (stack attempt endpoint rest).exit.returned with
      | true =>
        rw [Middleware.wrap_of_returned hstop hreturned]
        rfl
      | false =>
        rw [Middleware.wrap_of_panic hstop hreturned]
        rfl

/-- A panic inside of a layer that has been entered comes out of all of them. -/
theorem stack_of_panic {layers : List Middleware} {message : String}
    (h : (m, .panic message) ∈ (insides attempt endpoint layers).take (depth attempt layers)) :
    (stack attempt endpoint layers).exit = .panic message := by
  induction layers with
  | nil => cases h
  | cons outer rest ih =>
    cases hstop : outer.stop? attempt with
    | some exit =>
      rw [depth_of_stop hstop] at h
      cases h
    | none =>
      rw [depth_of_pass hstop, insides, List.take_succ_cons] at h
      -- the panic is the end of the rest, or it comes out of the rest by induction
      have hrest : (stack attempt endpoint rest).exit = .panic message := by
        rcases List.mem_cons.1 h with hhere | hdeeper
        · exact (congrArg Prod.snd hhere).symm
        · exact ih hdeeper
      show (outer.wrap attempt (stack attempt endpoint rest)).exit = _
      rw [Middleware.wrap_of_panic hstop (by rw [hrest]; rfl), hrest]

/-! ## 4. The observer -/

theorem execute_exit (p : Pipeline) (attempt : UInt16) (endpoint : Run) :
    (p.execute attempt endpoint).exit = (stack attempt endpoint p.layers).exit := by
  unfold execute
  split <;> rfl

theorem execute_effects (p : Pipeline) (attempt : UInt16) (endpoint : Run) :
    (p.execute attempt endpoint).effects = (stack attempt endpoint p.layers).effects ++
      if p.observed then [.observe ((p.execute attempt endpoint).exit = .done)] else [] := by
  rw [execute_exit]
  unfold execute
  split
  · rfl
  · exact (List.append_nil _).symm

theorem stack_reports (layers : List Middleware)
    (h : endpoint.effects.filterMap Effect.report? = []) :
    (stack attempt endpoint layers).effects.filterMap Effect.report? = [] := by
  have hbody : (if depth attempt layers = layers.length then endpoint.effects else []).filterMap
      Effect.report? = [] := by
    split
    · exact h
    · rfl
  rw [stack_effects, List.filterMap_append, List.filterMap_append, List.filterMap_flatMap, hbody]
  simp [Middleware.entering_reports, Middleware.leaving, Effect.report?]

/-- A run inside of the layers is reported once, and as what it is. -/
theorem execute_reports {p : Pipeline} (hp : p.observed = true) (attempt : UInt16)
    {endpoint : Run} (h : endpoint.effects.filterMap Effect.report? = []) :
    (p.execute attempt endpoint).effects.filterMap Effect.report? =
      [decide ((p.execute attempt endpoint).exit = .done)] := by
  rw [execute_effects, List.filterMap_append, stack_reports _ h, if_pos hp]
  rfl

theorem count_invoke_stack (layers : List Middleware) :
    (stack attempt endpoint layers).effects.count .invoke =
      if depth attempt layers = layers.length then endpoint.effects.count .invoke else 0 := by
  -- a layer never calls the handler itself, neither on the way in nor on the way out
  have hentering : ((layers.take (depth attempt layers + 1)).flatMap (·.entering attempt)).count
      .invoke = 0 := by
    rw [List.count_eq_zero, List.mem_flatMap]
    rintro ⟨m, -, hm⟩
    exact m.invoke_notMem_entering attempt hm
  have hleaving : ((left attempt endpoint layers).map fun (m, inner) => m.leaving inner).count
      .invoke = 0 := by
    rw [List.count_eq_zero, List.mem_map]
    rintro ⟨⟨m, inner⟩, -, hm⟩
    cases hm
  rw [stack_effects, List.count_append, List.count_append, hentering, hleaving, Nat.zero_add,
    Nat.add_zero]
  split
  · rfl
  · rfl

/-! ## 5. A whole pipeline -/

/-- **How a pipeline runs.** The outer layers and then the inner ones are entered in this order, up
to the first that leaves out the rest. If none does so, the handler is called once, and otherwise
not at all. The layers that have run the rest, and have seen it return, are left from the inside to
the outside, and each settles how it ends; a panic inside of them comes out as it is. An observer is
told once, at the end of all, whether the run has succeeded. -/
theorem execute_nests {endpoint : Run} (hcall : endpoint.IsCall) (outer inner : List Middleware)
    (observed : Bool) (attempt : UInt16) :
    let run := (ofLayers outer inner observed).execute attempt endpoint
    let layers := outer ++ inner
    let reached := depth attempt layers
    run.effects =
        (layers.take (reached + 1)).flatMap (·.entering attempt) ++
        (if reached = layers.length then endpoint.effects else []) ++
        (left attempt endpoint layers).map (fun (m, inside) => m.leaving inside) ++
        (if observed then [.observe (run.exit = .done)] else []) ∧
      run.effects.count .invoke = (if reached = layers.length then 1 else 0) ∧
      run.exit = (left attempt endpoint layers).foldl (fun inside (m, _) => m.settle attempt inside)
        (innermost attempt endpoint layers) ∧
      (∀ m message, (m, .panic message) ∈ (insides attempt endpoint layers).take reached →
        run.exit = .panic message) ∧
      (observed = true → run.effects.filterMap Effect.report? = [decide (run.exit = .done)]) := by
  intro run layers reached
  have heffects : run.effects = (stack attempt endpoint layers).effects ++
      if observed then [.observe (run.exit = .done)] else [] := execute_effects _ _ _
  have hexit : run.exit = (stack attempt endpoint layers).exit := execute_exit _ _ _
  have hquiet : (if observed then [Effect.observe (run.exit = .done)] else []).count .invoke =
      0 := by
    cases observed <;> rfl
  refine ⟨?_, ?_, ?_, ?_, ?_⟩
  · rw [heffects, stack_effects]
  · rw [heffects, List.count_append, hquiet, count_invoke_stack, hcall.once, Nat.add_zero]
  · rw [hexit, stack_exit]
  · intro m message hpanic
    rw [hexit, stack_of_panic hpanic]
  · intro hobserved
    exact execute_reports hobserved attempt hcall.silent

/-- A layer that panics on the way out: the layers around it run no more code, although one of them
would have made a success of any result. -/
theorem execute_nests_late_panic :
    let endpoint := Catalog.run (.order (.error "no disk")) 1
    let run := (ofLayers [⟨"log", .record, none⟩, ⟨"guard", .swallow, none⟩]
        [⟨"late", .panicAfter "too late", none⟩, ⟨"pause", .delay (.ofMillis 5), none⟩]
        true).execute 1 endpoint
    endpoint.IsCall ∧
      run.effects = [.note "enter log", .note "enter guard", .note "enter late",
        .note "enter pause", .sleep (.ofMillis 5), .invoke, .note "exit pause custom/no disk",
        .note "exit late custom/no disk", .observe false] ∧
      run.effects.count .invoke = 1 ∧ run.exit = .panic "too late" ∧
      run.effects.filterMap Effect.report? = [false] := by
  intro endpoint run
  have hcall : endpoint.IsCall := Catalog.run_isCall _ _
  obtain ⟨heffects, hcount, hexit, -, hobserved⟩ := execute_nests hcall
    [⟨"log", .record, none⟩, ⟨"guard", .swallow, none⟩]
    [⟨"late", .panicAfter "too late", none⟩, ⟨"pause", .delay (.ofMillis 5), none⟩] true 1
  exact ⟨hcall, heffects.trans rfl, hcount.trans rfl, hexit.trans rfl, (hobserved rfl).trans rfl⟩

end Pipeline

end JobQueue
