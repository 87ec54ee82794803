import JobQueue.Retry

/-!
# Jitter

A jitter moves an interval by a random number of milliseconds, to either side and no further than it
says. Whatever is drawn, nothing on the way leaves the range of 64-bit integers; a sum that is no
interval leaves the interval where it was, and what is negative becomes zero. The bounds hold at
both ends of all these ranges.
-/

namespace JobQueue

/-! ## 1. Milliseconds -/

/-- The number is a 64-bit integer. -/
def FitsInt64 (n : Int) : Prop := -9223372036854775808 ≤ n ∧ n ≤ maxInt64

theorem FitsInt64.toInt_ofInt {n : Int} (h : FitsInt64 n) : (Int64.ofInt n).toInt = n := by
  obtain ⟨hlow, hhigh⟩ := h
  unfold maxInt64 at hhigh
  exact Int64.toInt_ofInt_of_le hlow (by omega)

namespace Delta

theorem toMillis_natAbs (d : Delta) : d.toMillis.natAbs = d.nanos.natAbs / 1000000 :=
  Int.natAbs_tdiv ..

/-- An interval has no more milliseconds than a positive 64-bit integer, of either sign. -/
theorem toMillis_bounds (d : Delta) : -maxInt64 ≤ d.toMillis ∧ d.toMillis ≤ maxInt64 := by
  have habs := d.toMillis_natAbs
  have hlow := d.neg_bound_le
  have hhigh := d.le_bound
  unfold bound at hlow hhigh
  unfold maxInt64
  omega

theorem exists_ofMillis? {n : Int} (hlow : -maxInt64 ≤ n) (hhigh : n ≤ maxInt64) :
    ∃ d : Delta, ofMillis? n = some d ∧ d.nanos = n * 1000000 := by
  have hrange : -bound ≤ n * 1000000 ∧ n * 1000000 ≤ bound := by
    unfold bound
    unfold maxInt64 at hlow hhigh
    omega
  exact ⟨⟨n * 1000000, hrange.1, hrange.2⟩, dif_pos hrange, rfl⟩

end Delta

/-! ## 2. The range to draw from -/

namespace Jitter

variable {j : Jitter} {value : Delta} {draw : Int}

/-- The milliseconds of a jitter, as they are computed for an interval. -/
def millis (value : Delta) : Jitter → Int
  | .absolute delta => delta.toMillis
  | .relative ratio => proportion value.toMillis ratio

/-- How far a jitter may move an interval to either side, in nanoseconds. -/
def reach (value : Delta) : Jitter → Int
  | .absolute delta => delta.nanos.natAbs
  | .relative ratio => (proportion value.toMillis ratio).natAbs * 1000000

/-- The number may be drawn. -/
def Draws (j : Jitter) (value : Delta) (draw : Int) : Prop :=
  -j.width value ≤ draw ∧ draw ≤ j.width value

theorem millis_fits (j : Jitter) (value : Delta) : FitsInt64 (j.millis value) := by
  cases j with
  | absolute delta =>
    obtain ⟨hlow, hhigh⟩ := delta.toMillis_bounds
    refine ⟨?_, hhigh⟩
    unfold maxInt64 at hlow
    show _ ≤ delta.toMillis
    omega
  | relative ratio =>
    exact ⟨Int64.le_toInt _, Int.le_of_lt_add_one (Int64.toInt_lt _)⟩

theorem width_eq_min (j : Jitter) (value : Delta) :
    j.width value = min ((j.millis value).natAbs : Int) maxInt64 := by
  cases j <;> rfl

/-- The width is the absolute value of the milliseconds. Only the least 64-bit integer has none, and
the greatest stands for it. -/
theorem width_eq (j : Jitter) (value : Delta) : j.width value =
    if j.millis value = -9223372036854775808 then maxInt64 else (j.millis value).natAbs := by
  obtain ⟨hlow, hhigh⟩ := j.millis_fits value
  rw [width_eq_min]
  unfold maxInt64 at *
  split <;> omega

theorem width_bounds (j : Jitter) (value : Delta) :
    0 ≤ j.width value ∧ j.width value ≤ maxInt64 := by
  rw [width_eq_min]
  unfold maxInt64
  omega

theorem width_le_reach (j : Jitter) (value : Delta) :
    j.width value * 1000000 ≤ j.reach value := by
  -- the whole milliseconds of an interval come to no more than its nanoseconds
  cases j with
  | absolute delta =>
    have habs := delta.toMillis_natAbs
    rw [width_eq_min]
    simp only [millis, reach]
    omega
  | relative ratio =>
    rw [width_eq_min]
    simp only [millis, reach]
    omega

/-! ## 3. Moved intervals -/

/-- A draw moves the interval by its milliseconds, unless that comes to no interval. -/
theorem move_nanos (hdraw : j.Draws value draw) : (move value draw).nanos =
    max 0 (if -Delta.bound ≤ value.nanos + draw * 1000000 ∧
        value.nanos + draw * 1000000 ≤ Delta.bound
      then value.nanos + draw * 1000000 else value.nanos) := by
  obtain ⟨hlow, hhigh⟩ := hdraw
  have hwidth := j.width_bounds value
  -- the draw itself is always an interval, so only the sum can fail to be one
  obtain ⟨shift, hshift, hnanos⟩ := @Delta.exists_ofMillis? draw (by omega) (by omega)
  rw [move, Delta.clampNonneg_nanos, hshift, Option.bind_some, Delta.add?, hnanos, Int.max_comm,
    Delta.ofNanos?]
  split <;> rfl

/-- **A jitter stays in its bounds for every draw, and overflows for none.** The milliseconds are
64-bit integers at every step: those of the interval, those of the jitter and the ends of the range
to draw from, which is never empty. Each draw is an interval. Where it leads to an interval it
moves the one that is given; where it does not, that stays; and less than none becomes none. So the
result is not negative, and further from the given interval than the jitter allows only as far as
that is negative. -/
theorem move_within (j : Jitter) (value : Delta) :
    (Int64.ofInt value.toMillis).toInt = value.toMillis ∧
    FitsInt64 (j.millis value) ∧
    j.width value = (if j.millis value = -9223372036854775808 then maxInt64
      else (j.millis value).natAbs) ∧
    FitsInt64 (-j.width value) ∧ FitsInt64 (j.width value) ∧ -j.width value ≤ j.width value ∧
    ∀ draw, j.Draws value draw →
      (∃ shift, Delta.ofMillis? draw = some shift ∧ shift.nanos = draw * 1000000) ∧
      (move value draw).nanos =
        max 0 (if -Delta.bound ≤ value.nanos + draw * 1000000 ∧
            value.nanos + draw * 1000000 ≤ Delta.bound
          then value.nanos + draw * 1000000 else value.nanos) ∧
      0 ≤ (move value draw).nanos ∧
      max 0 (value.nanos - j.reach value) ≤ (move value draw).nanos ∧
      (move value draw).nanos ≤ max 0 (value.nanos + j.reach value) := by
  obtain ⟨hleast, hmost⟩ := j.width_bounds value
  obtain ⟨hlow, hhigh⟩ := value.toMillis_bounds
  have hvalue : FitsInt64 value.toMillis := ⟨by unfold maxInt64 at hlow; omega, hhigh⟩
  -- the greatest width is that of a positive number, so its negative fits too
  have hrange : FitsInt64 (-j.width value) ∧ FitsInt64 (j.width value) := by
    unfold FitsInt64
    unfold maxInt64 at *
    omega
  refine ⟨hvalue.toInt_ofInt, j.millis_fits value, j.width_eq value, hrange.1, hrange.2, by omega,
    fun draw hdraw => ?_⟩
  have hnanos := move_nanos hdraw
  have hreach := j.width_le_reach value
  obtain ⟨hback, hforth⟩ := hdraw
  -- the bounds hold of the given interval too, which stands in where the sum is none
  refine ⟨Delta.exists_ofMillis? (by omega) (by omega), hnanos, ?_⟩
  rw [hnanos]
  split <;> omega

/-- The longest interval with the widest jitter: the greatest draw leads to no interval and changes
nothing, and the least one leaves no time to wait. -/
theorem move_within_extremes :
    let longest : Delta := ⟨Delta.bound, by decide, by decide⟩
    let j := absolute longest
    j.Draws longest maxInt64 ∧ (move longest maxInt64).nanos = Delta.bound ∧
      j.Draws longest (-maxInt64) ∧ (move longest (-maxInt64)).nanos = 0 := by
  intro longest j
  have hmost : j.Draws longest maxInt64 := ⟨by decide, by decide⟩
  have hleast : j.Draws longest (-maxInt64) := ⟨by decide, by decide⟩
  obtain ⟨-, -, -, -, -, -, hmoves⟩ := move_within j longest
  exact ⟨hmost, (hmoves _ hmost).2.1.trans (by decide), hleast,
    (hmoves _ hleast).2.1.trans (by decide)⟩

end Jitter

end JobQueue
