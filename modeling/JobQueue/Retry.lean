import JobQueue.Time

/-!
# Retry policies

A policy says how many attempts a job has, and how long to wait after each failed one. Intervals
come from a list whose last value repeats, and may be spread at random. The random draw is an
argument, so a policy is a function.
-/

namespace JobQueue

/-- How far a drawn number of milliseconds may move an interval to either side. -/
inductive Jitter
  | absolute (delta : Delta)
  /-- In proportion to the interval. -/
  | relative (ratio : Float)
deriving Inhabited

/-- The largest 64-bit integer. -/
def maxInt64 : Int := 9223372036854775807

namespace Jitter

/-- A number of milliseconds in proportion to another, rounded to the nearest whole number. What is
out of range becomes the nearest 64-bit integer, and an undefined product becomes zero. -/
def proportion (millis : Int) (ratio : Float) : Int :=
  ((Int64.ofInt millis).toFloat * ratio).round.toInt64.toInt

/-- The width of the range to draw from, in milliseconds: draws are from `-width` to `width`. -/
def width (j : Jitter) (value : Delta) : Int :=
  let millis := match j with
    | .absolute delta => delta.toMillis
    | .relative ratio => proportion value.toMillis ratio
  min (millis.natAbs : Int) maxInt64

/-- Moves an interval by a draw. A sum out of range leaves the interval as it was, and a negative
one becomes zero. -/
def move (value : Delta) (draw : Int) : Delta :=
  (((Delta.ofMillis? draw).bind value.add?).getD value).clampNonneg

end Jitter

structure RetryPolicy where
  maxAttempts : UInt16
  intervals : List Delta
  jitter : Option Jitter := none
deriving Inhabited

namespace RetryPolicy

/-- Five attempts, waiting 1 minute, 5 minutes, 15 minutes, then an hour between them. -/
def standard : RetryPolicy :=
  ⟨5, [Delta.ofSeconds 60, Delta.ofSeconds 300, Delta.ofSeconds 900, Delta.ofSeconds 3600], none⟩

/-- A policy that never retries. -/
def noRetry : RetryPolicy := ⟨1, [], none⟩

/-- Whether a failure of this attempt is the last one. Attempts count from one. -/
def isLastAttempt (p : RetryPolicy) (attempt : UInt16) : Bool := p.maxAttempts ≤ attempt

/-- The interval in the list for an attempt: the last one repeats, and an empty list means none at
all. -/
def baseInterval (p : RetryPolicy) (attempt : UInt16) : Delta :=
  let index := min (max attempt.toNat 1 - 1) (p.intervals.length - 1)
  (p.intervals[index]?).getD Delta.zero

/-- How far the draw for an attempt may go. -/
def drawWidth (p : RetryPolicy) (attempt : UInt16) : Int :=
  (p.jitter.map (·.width (p.baseInterval attempt))).getD 0

/-- The interval to wait after the attempt failed, unless it was the last. -/
def nextInterval (p : RetryPolicy) (attempt : UInt16) (draw : Int) : Option Delta :=
  if p.isLastAttempt attempt then none
  else
    let interval := p.baseInterval attempt
    some (if p.jitter.isSome then Jitter.move interval draw else interval)

/-- Whether every draw gives an interval between `low` and `high`. Intervals grow with the draw
until the sum leaves the range, so the two ends and the resting point decide. -/
def staysWithin (p : RetryPolicy) (attempt : UInt16) (low high : Delta) : Bool :=
  let interval := p.baseInterval attempt
  let width := p.drawWidth attempt
  let least := max (interval.nanos - width * 1000000) 0
  let greatest := max (min (interval.nanos + width * 1000000) Delta.bound) 0
  low.nanos ≤ least && greatest ≤ high.nanos

end RetryPolicy

end JobQueue
