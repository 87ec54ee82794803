import JobQueue.Ident
import JobQueue.Time

/-!
# Values in a database

What a statement carries as parameters. A database keeps times in whole microseconds, so a time is
cut on its way there.
-/

namespace JobQueue.Database

/-- An instant in whole microseconds. -/
structure Timestamp where
  instant : Instant
  whole : instant.nanos % 1000 = 0
deriving DecidableEq

/-- 2000-01-01T00:00:00Z, from which a database counts, in nanoseconds since 1970. -/
def Timestamp.originNanos : Int := 946684800000000000

/-- Cuts an instant to microseconds, toward the year 2000. -/
def Timestamp.ofInstant (t : Instant) : Timestamp :=
  if h : Timestamp.originNanos ≤ t.nanos then
    ⟨⟨t.nanos - t.nanos % 1000,
      by have := t.min_le; unfold originNanos at h; unfold Instant.minNanos at *; omega,
      by have := t.le_max; omega⟩, by simp only; omega⟩
  else
    ⟨⟨t.nanos + -t.nanos % 1000, by have := t.min_le; omega,
      by unfold originNanos at h; unfold Instant.maxNanos; omega⟩, by simp only; omega⟩

inductive Value
  | null
  | uuid (u : Uuid)
  | uuids (us : List Uuid)
  | text (s : String)
  | bool (b : Bool)
  | integer (n : Int)
  | timestamp (t : Timestamp)
deriving DecidableEq

/-- A value that may be missing. -/
def Value.ofOption {α : Type} (make : α → Value) : Option α → Value
  | none => .null
  | some a => make a

end JobQueue.Database
