import JobQueue.Proofs.Worker.Move
import Mathlib.Data.List.Nodup

/-!
# The ledger of writes

Every write that an execution hands over is in one place at any time: its execution still holds it,
or it is in the retry queue, or it was made, by the execution itself or by a replay. The queue gives
writes back in the order in which it took them. The ledger records what becomes of each write; the
invariants tie it to the engine, one for each part of the engine that has to do with writes.
-/

namespace JobQueue

variable {σ : Type} {worker : Worker (Backend σ)} {w : World σ}

/-- What became of the writes that were handed over, each under the number of its execution. -/
structure Ledger where
  handed : List (Nat × OutcomeWrite) := []
  /-- Made at the first attempt. -/
  recorded : List (Nat × OutcomeWrite) := []
  /-- Put into the retry queue, in this order. -/
  queued : List (Nat × OutcomeWrite) := []
  /-- Made by replays, in this order. -/
  replayed : List OutcomeWrite := []
  /-- Lost with an execution that crashed. -/
  crashed : List (Nat × OutcomeWrite) := []
deriving DecidableEq

def Ledger.record (l : Ledger) : Option WriteEvent → Ledger
  | none => l
  | some (.handed key write) => { l with handed := l.handed ++ [(key, write)] }
  | some (.recorded key write) => { l with recorded := l.recorded ++ [(key, write)] }
  | some (.queued key write) => { l with queued := l.queued ++ [(key, write)] }
  | some (.replayed write) => { l with replayed := l.replayed ++ [write] }
  | some (.crashed key write) => { l with crashed := l.crashed ++ [(key, write)] }

/-- The write that an execution holds, under its number. -/
def Execution.held? (x : Execution) : Option (Nat × OutcomeWrite) :=
  x.phase.write?.map (x.key, ·)

def Engine.held (e : Engine) : List (Nat × OutcomeWrite) := e.executions.filterMap (·.held?)

namespace Desk

def held (d : Desk) : List (Nat × OutcomeWrite) := d.executions.filterMap (·.held?)

/-! ## 1. Numbers of executions -/

structure Numbered (d : Desk) : Prop where
  keys : (d.executions.map (·.key)).Nodup
  fresh : ∀ x ∈ d.executions, x.key < d.started

variable {d d' : Desk} {event : Option WriteEvent} {x : Execution} {l : Ledger}

/-- An execution is the only one that is changed or ended under its number. -/
theorem Numbered.split (hd : d.Numbered) (hx : x ∈ d.executions) :
    ∃ left right, d.executions = left ++ x :: right ∧
      (∀ phase, (d.enter x.key phase).executions = left ++ { x with phase } :: right) ∧
      (d.finish x.key).executions = left ++ right := by
  obtain ⟨left, right, hsplit⟩ := List.append_of_mem hx
  -- nothing to the left or to the right of it has its number
  have hkeys := hd.keys
  rw [hsplit, List.map_append, List.map_cons, List.nodup_middle, List.nodup_cons,
    ← List.map_append] at hkeys
  have hothers : ∀ y ∈ left ++ right, y.key ≠ x.key := by
    intro y hy heq
    exact hkeys.1 (heq ▸ List.mem_map_of_mem hy)
  have hleft : ∀ y ∈ left, y.key ≠ x.key := fun y hy => hothers y (List.mem_append_left _ hy)
  have hright : ∀ y ∈ right, y.key ≠ x.key := fun y hy => hothers y (List.mem_append_right _ hy)
  refine ⟨left, right, hsplit, ?_, ?_⟩
  · intro phase
    have hsame : ∀ ys : List Execution, (∀ y ∈ ys, y.key ≠ x.key) →
        ys.map (fun y => if y.key = x.key then { y with phase } else y) = ys := by
      intro ys hys
      rw [List.map_congr_left (g := fun y => y) fun y hy => if_neg (hys y hy), List.map_id']
    rw [enter, hsplit, List.map_append, List.map_cons, hsame left hleft, hsame right hright,
      if_pos rfl]
  · have hsame : ∀ ys : List Execution, (∀ y ∈ ys, y.key ≠ x.key) →
        ys.filter (·.key ≠ x.key) = ys := by
      intro ys hys
      rw [List.filter_eq_self]
      intro y hy
      exact decide_eq_true (hys y hy)
    rw [finish, hsplit, List.filter_append, List.filter_cons_of_neg (by simp), hsame left hleft,
      hsame right hright]

theorem enter_keys (d : Desk) (key : Nat) (phase : Phase) :
    (d.enter key phase).executions.map (·.key) = d.executions.map (·.key) := by
  rw [enter, List.map_map]
  apply List.map_congr_left
  intro x _
  by_cases hx : x.key = key
  · simp only [Function.comp, if_pos hx]
  · simp only [Function.comp, if_neg hx]

theorem Numbered.enter (hd : d.Numbered) (key : Nat) (phase : Phase) :
    (d.enter key phase).Numbered := by
  refine ⟨by rw [enter_keys]; exact hd.keys, ?_⟩
  intro y hy
  have hkey : y.key ∈ (d.enter key phase).executions.map (·.key) := List.mem_map_of_mem hy
  rw [enter_keys] at hkey
  obtain ⟨x, hx, hsame⟩ := List.mem_map.1 hkey
  rw [← hsame]
  exact hd.fresh x hx

theorem Numbered.finish (hd : d.Numbered) (key : Nat) : (d.finish key).Numbered :=
  ⟨hd.keys.sublist (List.filter_sublist.map _),
    fun x hx => hd.fresh x (List.mem_of_mem_filter hx)⟩

theorem Numbered.launch (hd : d.Numbered) (job : ClaimedJob) (startedAt : Nat) (phase : Phase) :
    (d.launch job startedAt phase).Numbered := by
  refine ⟨?_, ?_⟩
  · -- the new number is above all others
    rw [Desk.launch, List.map_append]
    refine hd.keys.append (List.nodup_singleton _) ?_
    intro key hkey hnew
    obtain ⟨x, hx, rfl⟩ := List.mem_map.1 hkey
    have hlt := hd.fresh x hx
    rw [List.map_singleton, List.mem_singleton] at hnew
    simp only at hnew
    omega
  · intro x hx
    rcases List.mem_append.1 hx with hx | hx
    · exact Nat.lt_succ_of_lt (hd.fresh x hx)
    · rw [List.mem_singleton.1 hx]
      exact Nat.lt_succ_self _

/-- Taking an execution out of the others, what all of them hold is what it holds and the rest. -/
theorem count_held_append (left right : List Execution) (x : Execution) (e : Nat × OutcomeWrite) :
    ((left ++ x :: right).filterMap (·.held?)).count e =
      ((left ++ right).filterMap (·.held?)).count e + x.held?.toList.count e := by
  cases hheld : x.held? with
  | none => simp [hheld]
  | some e' =>
    simp only [List.filterMap_append, List.filterMap_cons, hheld, List.count_append,
      List.count_cons, Option.toList_some, List.count_nil]
    omega

theorem Numbered.count_held (hd : d.Numbered) (hx : x ∈ d.executions) (e : Nat × OutcomeWrite) :
    d.held.count e = (d.finish x.key).held.count e + x.held?.toList.count e := by
  obtain ⟨left, right, hsplit, -, hfinish⟩ := hd.split hx
  rw [held, held, hsplit, hfinish, count_held_append]

theorem Numbered.count_held_enter (hd : d.Numbered) (hx : x ∈ d.executions) (phase : Phase)
    (e : Nat × OutcomeWrite) :
    (d.enter x.key phase).held.count e =
      (d.finish x.key).held.count e + { x with phase }.held?.toList.count e := by
  obtain ⟨left, right, -, henter, hfinish⟩ := hd.split hx
  rw [held, held, henter, hfinish, count_held_append]

/-- An execution of the desk after one has gone to another phase: that one, or one of the others. -/
theorem Numbered.mem_enter (hd : d.Numbered) (hx : x ∈ d.executions) {phase : Phase} {y : Execution}
    (hy : y ∈ (d.enter x.key phase).executions) :
    y = { x with phase } ∨ (y ∈ d.executions ∧ y.key ≠ x.key) := by
  obtain ⟨z, hz, rfl⟩ := List.mem_map.1 hy
  by_cases hkey : z.key = x.key
  · have hsame : z = x := List.inj_on_of_nodup_map hd.keys hz hx hkey
    rw [if_pos hkey, hsame]
    exact Or.inl rfl
  · rw [if_neg hkey]
    exact Or.inr ⟨hz, hkey⟩

end Desk

section Numbers

variable {d d' : Desk} {event : Option WriteEvent} {x : Execution}

theorem Turn.numbered (h : Turn worker w d x event d') (hd : d.Numbered) : d'.Numbered := by
  cases h with
  | advanced _ => exact hd.enter _ _
  | concluded _ _ => exact hd.enter _ _
  | overflowed _ _ => exact hd.finish _
  | panicked _ _ => exact hd.finish _
  | sent _ => exact hd.enter _ _
  | recorded _ => exact hd.finish _
  | crashed _ _ => exact hd.finish _
  | refused _ => exact ⟨(hd.enter _ _).keys, (hd.enter _ _).fresh⟩
  | queued _ _ => exact ⟨(hd.finish _).keys, (hd.finish _).fresh⟩

theorem Move.numbered (h : Move worker w d event d') (hd : d.Numbered) : d'.Numbered := by
  cases h with
  | still => exact hd
  | closed _ => exact ⟨hd.keys, hd.fresh⟩
  | launched _ => exact hd.launch _ _ _
  | applied _ => exact hd.launch _ _ _
  | turned _ hturn => exact hturn.numbered hd
  | replayBegun _ _ _ => exact ⟨hd.keys, hd.fresh⟩
  | replaySent _ _ => exact ⟨hd.keys, hd.fresh⟩
  | replayed _ _ => exact ⟨hd.keys, hd.fresh⟩
  | replayedLast _ _ => exact ⟨hd.keys, hd.fresh⟩
  | replayEnded _ => exact ⟨hd.keys, hd.fresh⟩

/-- An execution keeps its slot until it ends. -/
theorem Turn.slots_eq (h : Turn worker w d x event d') (hd : d.Numbered) (hx : x ∈ d.executions) :
    d'.slots + d'.executions.length = d.slots + d.executions.length := by
  have henter : ∀ phase : Phase,
      d.slots + (d.enter x.key phase).executions.length = d.slots + d.executions.length := by
    intro phase
    rw [Desk.enter, List.length_map]
  have hfinish : d.slots + 1 + (d.finish x.key).executions.length =
      d.slots + d.executions.length := by
    obtain ⟨left, right, hsplit, -, hrest⟩ := hd.split hx
    rw [hrest, hsplit, List.length_append, List.length_append, List.length_cons]
    omega
  cases h with
  | advanced _ => exact henter _
  | concluded _ _ => exact henter _
  | overflowed _ _ => exact hfinish
  | panicked _ _ => exact hfinish
  | sent _ => exact henter _
  | recorded _ => exact hfinish
  | crashed _ _ => exact hfinish
  | refused _ => exact henter _
  | queued _ _ => exact hfinish

/-- No execution takes another slot. -/
theorem Turn.slots_le (h : Turn worker w d x event d') : d.slots ≤ d'.slots := by
  cases h with
  | advanced _ => exact Nat.le_refl _
  | concluded _ _ => exact Nat.le_refl _
  | overflowed _ _ => exact Nat.le_succ _
  | panicked _ _ => exact Nat.le_succ _
  | sent _ => exact Nat.le_refl _
  | recorded _ => exact Nat.le_succ _
  | crashed _ _ => exact Nat.le_succ _
  | refused _ => exact Nat.le_refl _
  | queued _ _ => exact Nat.le_succ _

theorem Move.slots_le (h : Move worker w d event d') (hd : d.Numbered) :
    d'.slots + d'.executions.length ≤ d.slots + d.executions.length := by
  cases h with
  | still => exact Nat.le_refl _
  | closed hfewer => exact Nat.add_le_add_right hfewer _
  | launched hslot =>
    simp only [Desk.launch, List.length_append, List.length_singleton]
    omega
  | applied hslot =>
    simp only [Desk.launch, List.length_append, List.length_singleton]
    omega
  | turned hx hturn => exact Nat.le_of_eq (hturn.slots_eq hd hx)
  | replayBegun _ _ _ => exact Nat.le_refl _
  | replaySent _ _ => exact Nat.le_refl _
  | replayed _ _ => exact Nat.le_refl _
  | replayedLast _ _ => exact Nat.le_refl _
  | replayEnded _ => exact Nat.le_refl _

end Numbers

/-! ## 2. The replay that is under way -/

/-- At most one replay is under way. It makes the oldest write of the queue, which stays there. -/
def Desk.OneReplay (d : Desk) : Prop :=
  d.replaying = false ∧ d.replays = [] ∨
  ∃ p, d.replaying = true ∧ d.replays = [p] ∧ d.queue.peek? = some p.write

section Replay

variable {d d' : Desk} {event : Option WriteEvent} {p : WriteProgress}
  {left right : List WriteProgress}

theorem Desk.OneReplay.idle (hd : d.OneReplay) (hidle : d.replaying = false) : d.replays = [] := by
  rcases hd with ⟨-, hnone⟩ | ⟨p, hon, -⟩
  · exact hnone
  · rw [hidle] at hon
    cases hon

theorem Desk.OneReplay.only (hd : d.OneReplay) (hp : d.replays = left ++ p :: right) :
    left = [] ∧ right = [] ∧ d.replaying = true ∧ d.queue.peek? = some p.write := by
  rcases hd with ⟨-, hnone⟩ | ⟨p', hon, hone, holdest⟩
  · rw [hnone] at hp
    simp at hp
  · rw [hone] at hp
    obtain ⟨rfl, rfl, rfl⟩ : left = [] ∧ p' = p ∧ right = [] := by
      cases left with
      | nil => simpa [eq_comm] using hp
      | cons _ _ => simp at hp
    exact ⟨rfl, rfl, hon, holdest⟩

/-- The oldest write stays the oldest as long as writes come in at the back only. -/
theorem RetryQueue.peek?_push {q : RetryQueue} {who : Nat} {write first : OutcomeWrite}
    (h : q.peek? = some first) : (q.push who write).peek? = some first := by
  rw [RetryQueue.peek?] at h
  simp [RetryQueue.peek?, RetryQueue.push, List.head?_append, h]

/-- Executions leave the replays alone, and put writes at the back of the queue only. -/
theorem Turn.oneReplay {x : Execution} (h : Turn worker w d x event d') (hd : d.OneReplay) :
    d'.OneReplay := by
  cases h with
  | advanced _ => exact hd
  | concluded _ _ => exact hd
  | overflowed _ _ => exact hd
  | panicked _ _ => exact hd
  | sent _ => exact hd
  | recorded _ => exact hd
  | crashed _ _ => exact hd
  | refused _ => exact hd
  | queued _ _ =>
    rcases hd with hidle | ⟨p, hon, hone, holdest⟩
    · exact Or.inl hidle
    · exact Or.inr ⟨p, hon, hone, RetryQueue.peek?_push holdest⟩

theorem Move.oneReplay (h : Move worker w d event d') (hd : d.OneReplay) : d'.OneReplay := by
  cases h with
  | still => exact hd
  | closed _ => exact hd
  | launched _ => exact hd
  | applied _ => exact hd
  | turned _ hturn => exact hturn.oneReplay hd
  | replayBegun hidle holdest hreplays =>
    rw [hd.idle hidle] at hreplays
    obtain ⟨rfl, rfl⟩ := List.append_eq_nil_iff.1 hreplays.symm
    exact Or.inr ⟨_, rfl, rfl, holdest⟩
  | replaySent hreplays hsame =>
    obtain ⟨rfl, rfl, hon, holdest⟩ := hd.only hreplays
    exact Or.inr ⟨_, hon, rfl, hsame ▸ holdest⟩
  | replayed hreplays hnext =>
    obtain ⟨rfl, rfl, hon, -⟩ := hd.only hreplays
    exact Or.inr ⟨_, hon, rfl, hnext⟩
  | replayedLast hreplays _ =>
    obtain ⟨rfl, rfl, -, -⟩ := hd.only hreplays
    exact Or.inl ⟨rfl, rfl⟩
  | replayEnded hreplays =>
    obtain ⟨rfl, rfl, -, -⟩ := hd.only hreplays
    exact Or.inl ⟨rfl, rfl⟩

end Replay

/-! ## 3. The queue -/

/-- The queue holds the writes that were put into it, in that order, but for the first ones, which
replays have made; and it holds no more than it has room for. -/
structure Ledger.InOrder (l : Ledger) (q : RetryQueue) : Prop where
  items : l.queued.map (·.2) = l.replayed ++ q.items
  bounded : q.size ≤ q.capacity

/-- Whoever is admitted finds a place. -/
theorem RetryQueue.size_lt_of_admits {q : RetryQueue} {who : Nat} (h : q.admits who) :
    q.size < q.capacity := by
  by_contra hfull
  have hplaces : q.places = 0 := by
    rw [places]
    omega
  rw [admits, hplaces, List.take_zero] at h
  cases h

section Queue

variable {d d' : Desk} {event : Option WriteEvent} {l : Ledger}

/-- Once the oldest write is made, it is the last of those that were replayed. -/
theorem Ledger.InOrder.replay {q : RetryQueue} {write : OutcomeWrite} (hl : l.InOrder q)
    (holdest : q.peek? = some write) :
    (l.record (some (.replayed write))).InOrder q.pop := by
  obtain ⟨rest, hitems⟩ := List.head?_eq_some_iff.1 holdest
  refine ⟨?_, ?_⟩
  · -- it goes from the front of the queue to the end of what was replayed
    have horder := hl.items
    rw [hitems] at horder
    simp [Ledger.record, RetryQueue.pop, hitems, horder]
  · have hbounded := hl.bounded
    simp only [RetryQueue.size, RetryQueue.pop, List.length_tail] at hbounded ⊢
    omega

theorem Ledger.InOrder.push {q : RetryQueue} {key : Nat} {write : OutcomeWrite}
    (hl : l.InOrder q) (hroom : q.admits key) :
    (l.record (some (.queued key write))).InOrder (q.push key write) := by
  refine ⟨?_, ?_⟩
  · simp [Ledger.record, RetryQueue.push, hl.items]
  · have hlt := RetryQueue.size_lt_of_admits hroom
    simp only [RetryQueue.size, RetryQueue.push, List.length_append,
      List.length_singleton] at hlt ⊢
    omega

theorem Turn.inOrder {x : Execution} (h : Turn worker w d x event d') (hl : l.InOrder d.queue) :
    (l.record event).InOrder d'.queue := by
  cases h with
  | advanced _ => exact hl
  | concluded _ _ => exact ⟨hl.items, hl.bounded⟩
  | overflowed _ _ => exact hl
  | panicked _ _ => exact hl
  | sent _ => exact hl
  | recorded _ => exact ⟨hl.items, hl.bounded⟩
  | crashed _ _ => exact ⟨hl.items, hl.bounded⟩
  | refused _ => exact ⟨hl.items, hl.bounded⟩
  | queued _ hroom => exact hl.push hroom

theorem Move.inOrder (h : Move worker w d event d') (hd : d.OneReplay) (hl : l.InOrder d.queue) :
    (l.record event).InOrder d'.queue := by
  cases h with
  | still => exact hl
  | closed _ => exact hl
  | launched _ => exact hl
  | applied _ => exact ⟨hl.items, hl.bounded⟩
  | turned _ hturn => exact hturn.inOrder hl
  | replayBegun _ _ _ => exact hl
  | replaySent _ _ => exact hl
  | replayed hreplays _ => exact hl.replay (hd.only hreplays).2.2.2
  | replayedLast hreplays _ => exact hl.replay (hd.only hreplays).2.2.2
  | replayEnded _ => exact hl

theorem Move.capacity_eq (h : Move worker w d event d') :
    d'.queue.capacity = d.queue.capacity := by
  cases h with
  | turned _ hturn => cases hturn <;> rfl
  | _ => rfl

end Queue

/-! ## 4. The place of each write -/

/-- Executions hand over one write each, and it is in one place. -/
structure Ledger.Placed (l : Ledger) (d : Desk) : Prop where
  fresh : ∀ key ∈ l.handed.map (·.1), key < d.started
  once : (l.handed.map (·.1)).Nodup
  unhanded : ∀ x ∈ d.executions, x.phase.write? = none → x.key ∉ l.handed.map (·.1)
  place : ∀ e, l.handed.count e =
    l.recorded.count e + d.held.count e + l.queued.count e + l.crashed.count e

section Place

variable {d d' : Desk} {event : Option WriteEvent} {l : Ledger} {x : Execution} {phase : Phase}

theorem Phase.Advances.write? {job : ClaimedJob} {before after : Phase}
    (h : before.Advances worker w job after) : before.write? = none ∧ after.write? = none := by
  cases h <;> exact ⟨rfl, rfl⟩

theorem Phase.Ends.write? {job : ClaimedJob} {failure : Option Failure}
    (h : phase.Ends worker w job failure) : phase.write? = none := by
  cases h <;> rfl

theorem Execution.held?_of_write? {write : OutcomeWrite} (h : x.phase.write? = some write) :
    x.held? = some (x.key, write) := by
  rw [held?, h, Option.map_some]

theorem Execution.held?_eq_none (h : x.phase.write? = none) : x.held? = none := by
  rw [held?, h, Option.map_none]

/-- The place of a write depends on the executions alone. -/
theorem Ledger.Placed.of_executions (hl : l.Placed d) (hexecutions : d'.executions = d.executions)
    (hstarted : d'.started = d.started) : l.Placed d' := by
  refine ⟨hstarted ▸ hl.fresh, hl.once, hexecutions ▸ hl.unhanded, ?_⟩
  have hheld : d'.held = d.held := by rw [Desk.held, Desk.held, hexecutions]
  rw [hheld]
  exact hl.place

/-- An execution goes on with what it holds. -/
theorem Ledger.Placed.enter (hl : l.Placed d) (hd : d.Numbered) (hx : x ∈ d.executions)
    (hsame : phase.write? = x.phase.write?) : l.Placed (d.enter x.key phase) := by
  refine ⟨hl.fresh, hl.once, ?_, ?_⟩
  · intro y hy hnone
    rcases hd.mem_enter hx hy with rfl | ⟨hy, -⟩
    · exact hl.unhanded x hx (hsame ▸ hnone)
    · exact hl.unhanded y hy hnone
  · intro e
    have hheld : ({ x with phase } : Execution).held? = x.held? := by
      simp only [Execution.held?, hsame]
    rw [hd.count_held_enter hx, hheld, ← hd.count_held hx]
    exact hl.place e

/-- An execution ends without a write. -/
theorem Ledger.Placed.finish (hl : l.Placed d) (hd : d.Numbered) (hx : x ∈ d.executions)
    (hnone : x.phase.write? = none) : l.Placed (d.finish x.key) := by
  refine ⟨hl.fresh, hl.once, ?_, ?_⟩
  · intro y hy
    exact hl.unhanded y (List.mem_of_mem_filter hy)
  · intro e
    have hplace := hl.place e
    rw [hd.count_held hx, Execution.held?_eq_none hnone] at hplace
    simpa using hplace

/-- An execution ends, and its write has been put where the ledger says. -/
theorem Ledger.Placed.release {l' : Ledger} {write : OutcomeWrite} (hl : l.Placed d)
    (hd : d.Numbered) (hx : x ∈ d.executions) (hwrite : x.phase.write? = some write)
    (hhanded : l'.handed = l.handed)
    (hput : ∀ e, l'.recorded.count e + l'.queued.count e + l'.crashed.count e =
      l.recorded.count e + l.queued.count e + l.crashed.count e + [(x.key, write)].count e) :
    l'.Placed (d.finish x.key) := by
  refine ⟨hhanded ▸ hl.fresh, hhanded ▸ hl.once, ?_, ?_⟩
  · intro y hy
    rw [hhanded]
    exact hl.unhanded y (List.mem_of_mem_filter hy)
  · intro e
    have hplace := hl.place e
    have hadded := hput e
    rw [hd.count_held hx, Execution.held?_of_write? hwrite, Option.toList_some] at hplace
    rw [hhanded]
    omega

/-- An execution hands over its write. -/
theorem Ledger.Placed.hand {write : OutcomeWrite} (hl : l.Placed d) (hd : d.Numbered)
    (hx : x ∈ d.executions) (hnone : x.phase.write? = none)
    (hwrite : phase.write? = some write) :
    (l.record (some (.handed x.key write))).Placed (d.enter x.key phase) := by
  have hkeys : (l.record (some (.handed x.key write))).handed.map (·.1) =
      l.handed.map (·.1) ++ [x.key] := by simp [Ledger.record]
  refine ⟨?_, ?_, ?_, ?_⟩
  · intro key hkey
    rw [hkeys] at hkey
    rcases List.mem_append.1 hkey with hkey | hkey
    · exact hl.fresh key hkey
    · rw [List.mem_singleton.1 hkey]
      exact hd.fresh x hx
  · -- it held no write so far, so its number is not among those that have handed one over
    rw [hkeys]
    exact hl.once.append (List.nodup_singleton _)
      (List.disjoint_singleton.2 (hl.unhanded x hx hnone))
  · intro y hy hother
    rcases hd.mem_enter hx hy with rfl | ⟨hy, hne⟩
    · rw [hwrite] at hother
      cases hother
    · rw [hkeys]
      simp only [List.mem_append, List.mem_singleton, not_or]
      exact ⟨hl.unhanded y hy hother, hne⟩
  · intro e
    have hplace := hl.place e
    rw [hd.count_held hx, Execution.held?_eq_none hnone] at hplace
    rw [hd.count_held_enter hx,
      Execution.held?_of_write? (x := { x with phase }) hwrite]
    simp only [Ledger.record, List.count_append, Option.toList_some, Option.toList_none,
      List.count_nil] at hplace ⊢
    omega

/-- An execution begins that has nothing to hand over yet. -/
theorem Ledger.Placed.launch (hl : l.Placed d) (job : ClaimedJob) (startedAt : Nat) :
    l.Placed (d.launch job startedAt .starting) := by
  refine ⟨fun key hkey => Nat.lt_succ_of_lt (hl.fresh key hkey), hl.once, ?_, ?_⟩
  · intro y hy hnone
    rcases List.mem_append.1 hy with hy | hy
    · exact hl.unhanded y hy hnone
    · rw [List.mem_singleton.1 hy]
      intro hkey
      exact Nat.lt_irrefl _ (hl.fresh _ hkey)
  · intro e
    have hplace := hl.place e
    simpa [Desk.held, Desk.launch, Execution.held?, Phase.write?] using hplace

/-- What an execution has come to when it begins, it could as well come to right afterwards. -/
theorem Desk.Numbered.launch_enter (hd : d.Numbered) (job : ClaimedJob) (startedAt : Nat)
    (phase : Phase) :
    (d.launch job startedAt .starting).enter d.started phase = d.launch job startedAt phase := by
  have hothers : d.executions.map
      (fun y => if y.key = d.started then { y with phase } else y) = d.executions := by
    conv_rhs => rw [← List.map_id' d.executions]
    apply List.map_congr_left
    intro y hy
    exact if_neg (Nat.ne_of_lt (hd.fresh y hy))
  simp only [Desk.enter, Desk.launch, List.map_append, hothers, List.map_singleton, if_true]

theorem Turn.placed (h : Turn worker w d x event d') (hd : d.Numbered) (hx : x ∈ d.executions)
    (hl : l.Placed d) : (l.record event).Placed d' := by
  cases h with
  | advanced hphase => exact hl.enter hd hx (hphase.write?.2.trans hphase.write?.1.symm)
  | concluded hends _ => exact hl.hand hd hx hends.write? rfl
  | overflowed hends _ => exact hl.finish hd hx hends.write?
  | panicked hphase _ => exact hl.finish hd hx (hphase ▸ rfl)
  | sent hphase =>
    refine hl.enter hd hx ?_
    rw [hphase]
    rfl
  | @recorded p hphase =>
    have hwrite : x.phase.write? = some p.write := hphase ▸ rfl
    refine hl.release hd hx hwrite rfl fun e => ?_
    simp only [Ledger.record, List.count_append]
    omega
  | @crashed p _ hphase _ =>
    have hwrite : x.phase.write? = some p.write := hphase ▸ rfl
    refine hl.release hd hx hwrite rfl fun e => ?_
    simp only [Ledger.record, List.count_append]
    omega
  | refused hphase =>
    refine (hl.enter hd hx ?_).of_executions rfl rfl
    rw [hphase, Phase.write?, Phase.write?]
  | @queued write hphase _ =>
    have hwrite : x.phase.write? = some write := hphase ▸ rfl
    refine Ledger.Placed.of_executions (hl.release hd hx hwrite rfl fun e => ?_) rfl rfl
    simp only [Ledger.record, List.count_append]
    omega

theorem Move.placed (h : Move worker w d event d') (hd : d.Numbered) (hl : l.Placed d) :
    (l.record event).Placed d' := by
  cases h with
  | still => exact hl
  | closed _ => exact hl.of_executions rfl rfl
  | launched _ => exact hl.launch _ _
  | @applied job startedAt write _ =>
    have hmem : { key := d.started, job, startedAt, phase := .starting } ∈
        (d.launch job startedAt .starting).executions :=
      List.mem_append_right _ (List.mem_singleton.2 rfl)
    -- as if it had begun first, and come to its write in a second step
    rw [← hd.launch_enter]
    exact (hl.launch job startedAt).hand (hd.launch job startedAt .starting) hmem rfl rfl
  | turned hx hturn => exact hturn.placed hd hx hl
  | replayBegun _ _ _ => exact hl.of_executions rfl rfl
  | replaySent _ _ => exact hl.of_executions rfl rfl
  | replayed _ _ => exact ⟨hl.fresh, hl.once, hl.unhanded, hl.place⟩
  | replayedLast _ _ => exact ⟨hl.fresh, hl.once, hl.unhanded, hl.place⟩
  | replayEnded _ => exact hl.of_executions rfl rfl

end Place

/-! ## 5. All of it -/

/-- The ledger agrees with the desk, and the desk is in order. -/
structure Ledger.Balanced (l : Ledger) (d : Desk) : Prop where
  numbered : d.Numbered
  oneReplay : d.OneReplay
  inOrder : l.InOrder d.queue
  placed : l.Placed d

theorem Move.balanced {d d' : Desk} {event : Option WriteEvent} {l : Ledger}
    (h : Move worker w d event d') (hl : l.Balanced d) : (l.record event).Balanced d' where
  numbered := h.numbered hl.numbered
  oneReplay := h.oneReplay hl.oneReplay
  inOrder := h.inOrder hl.oneReplay hl.inOrder
  placed := h.placed hl.numbered hl.placed

end JobQueue
