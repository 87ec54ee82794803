import JobQueue.Decimal.Shortest
import JobQueue.Time

/-!
# Polling

How long a worker waits after a claim that found nothing: the delay grows by a factor after every
such claim, up to a maximum, and returns to its start as soon as there is work.
-/

namespace JobQueue

namespace Duration

/-- Seconds as a floating point number. -/
def toSeconds (d : Duration) : Float :=
  (d.nanos / 1000000000).toUInt64.toFloat
    + (d.nanos % 1000000000).toUInt64.toFloat / 1000000000.0

/-- The duration nearest to a number of seconds, a half going to the even nanosecond. There is none
for a negative or undefined number, and none beyond the longest duration. -/
def ofSeconds? (seconds : Float) : Option Duration :=
  if seconds < 0.0 || seconds.isNaN || seconds.isInf then none
  else
    let b := Decimal.Binary.ofBits (seconds.toBits.toNat % 9223372036854775808).toUInt64
    let top := b.mantissa * 1000000000 * (if b.exponent ≥ 0 then Nat.pow 2 b.exponent.toNat else 1)
    let bottom := if b.exponent ≥ 0 then 1 else Nat.pow 2 (-b.exponent).toNat
    let below := top / bottom
    let rest := 2 * (top % bottom)
    let nanos :=
      if bottom < rest ∨ (rest = bottom ∧ below % 2 = 1) then below + 1 else below
    if nanos ≤ maxNanos then some ⟨nanos⟩ else none

end Duration

/-- The delays after claims that found nothing. -/
structure PollingInterval where
  start : Duration
  factor : Float
  max : Duration
deriving Inhabited

/-- A delay that never grows. -/
def PollingInterval.constant (interval : Duration) : PollingInterval := ⟨interval, 1.0, interval⟩

/-- The delay that follows another. One that can no longer be represented is the maximum. -/
def PollingInterval.grow (p : PollingInterval) (current : Duration) : Duration :=
  match Duration.ofSeconds? (current.toSeconds * p.factor) with
  | none => p.max
  | some grown => min grown p.max

end JobQueue
