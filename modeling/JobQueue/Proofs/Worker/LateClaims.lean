import JobQueue.Proofs.Worker.Quiet
import JobQueue.Proofs.Worker.Shutdown

/-!
# Claims after the request to stop

The task that claims jobs waits for a slot and for the request to stop at once. When both are there
it may go either way: it stops, or it takes the slot and claims once more. So the claims that are
made after the request are told by its choices. One of them is the claim for which it held a slot
already, and each of the others is a slot that it took although it could have stopped.
-/

namespace JobQueue

variable {σ : Type}

/-! ## 1. Counting claims -/

def Event.isClaim : Event → Bool
  | .asked c _ => c.isClaim
  | _ => false

namespace World

variable {worker : Worker (Backend σ)} {w w' : World σ} {asks : Call → Bool}

end World

namespace Audit

variable {worker : Worker (Backend σ)} {a b c : Audit σ} {action : Action σ}
  {actions after : List (Action σ)} {w : World σ}

/-! ## 2. Counting choices -/

/-- The task that claims jobs takes some steps, and goes on where it can choose, or does not. -/
def claiming (eager : Bool) (steps : Nat) : List (Action Store) :=
  List.replicate steps (.step .claims eager 0)

end Audit

end JobQueue
