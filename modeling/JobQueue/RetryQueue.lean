import JobQueue.Outcome

/-!
# The retry queue

Writes that failed wait here to be made again, oldest first. The queue is bounded: whoever has a
write for a full queue waits for a place, in the order of arrival.
-/

namespace JobQueue

/-- A bounded queue of writes. Those who wait for a place are named by numbers. -/
structure RetryQueue where
  capacity : Nat
  items : List OutcomeWrite := []
  waiting : List Nat := []
deriving DecidableEq

namespace RetryQueue

/-- The largest capacity for which places can be counted: `2 ^ 61 - 1`. -/
def capacityLimit : Nat := 2305843009213693951

def size (q : RetryQueue) : Nat := q.items.length

/-- The oldest write, which stays in the queue. -/
def peek? (q : RetryQueue) : Option OutcomeWrite := q.items.head?

/-- Removes the oldest write. -/
def pop (q : RetryQueue) : RetryQueue := { q with items := q.items.tail }

/-- The places that are not taken. -/
def places (q : RetryQueue) : Nat := q.capacity - q.size

/-- Waits for a place behind those who wait already. -/
def await (q : RetryQueue) (who : Nat) : RetryQueue := { q with waiting := q.waiting ++ [who] }

/-- Whether there is a place for one who waits. -/
def admits (q : RetryQueue) (who : Nat) : Bool := (q.waiting.take q.places).contains who

/-- Takes the place for a write. -/
def push (q : RetryQueue) (who : Nat) (w : OutcomeWrite) : RetryQueue :=
  { q with items := q.items ++ [w], waiting := q.waiting.erase who }

end RetryQueue

end JobQueue
