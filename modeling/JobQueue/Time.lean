/-!
# Time

Instants on the UTC time line, signed differences between them, and unsigned waiting times, all in
whole nanoseconds. Instants and differences carry their representable range in the type, so an
operation that can leave the range returns an `Option`.
-/

namespace JobQueue

/-! ## Signed differences -/

/-- The largest difference, in nanoseconds: `2 ^ 63 - 1` milliseconds. -/
def Delta.bound : Int := 9223372036854775807 * 1000000

/-- A signed difference between two instants. -/
structure Delta where
  nanos : Int
  neg_bound_le : -Delta.bound ≤ nanos
  le_bound : nanos ≤ Delta.bound
deriving DecidableEq

namespace Delta

/-- The difference of `n` nanoseconds, if it is in range. -/
def ofNanos? (n : Int) : Option Delta :=
  if h : -bound ≤ n ∧ n ≤ bound then some ⟨n, h.1, h.2⟩ else none

/-- The difference of `n` milliseconds, if it is in range. -/
def ofMillis? (n : Int) : Option Delta := ofNanos? (n * 1000000)

def zero : Delta := ⟨0, by decide, by decide⟩

instance : Inhabited Delta := ⟨zero⟩

/-- The difference of `n` whole seconds, for the small numbers that defaults are written in. -/
def ofSeconds (n : Nat) (h : (n : Int) * 1000000000 ≤ bound := by decide) : Delta :=
  ⟨n * 1000000000, by unfold bound; omega, h⟩

instance : LE Delta := ⟨fun a b => a.nanos ≤ b.nanos⟩
instance : LT Delta := ⟨fun a b => a.nanos < b.nanos⟩
instance (a b : Delta) : Decidable (a ≤ b) := inferInstanceAs (Decidable (a.nanos ≤ b.nanos))
instance (a b : Delta) : Decidable (a < b) := inferInstanceAs (Decidable (a.nanos < b.nanos))

/-- Whole milliseconds, cut toward zero. -/
def toMillis (d : Delta) : Int := d.nanos.tdiv 1000000

/-- The sum, if it is in range. -/
def add? (a b : Delta) : Option Delta := ofNanos? (a.nanos + b.nanos)

/-- A negative difference becomes zero. -/
def clampNonneg (d : Delta) : Delta := if d < zero then zero else d

theorem ofNanos?_eq_some_iff {n : Int} {d : Delta} : ofNanos? n = some d ↔ d.nanos = n := by
  unfold ofNanos?
  constructor
  · intro h
    split at h
    · cases h; rfl
    · cases h
  · rintro rfl
    simp [d.neg_bound_le, d.le_bound]

theorem clampNonneg_nanos (d : Delta) : d.clampNonneg.nanos = max d.nanos 0 := by
  unfold clampNonneg
  split
  · rename_i h
    have h : d.nanos < 0 := h
    show 0 = _
    omega
  · rename_i h
    have h : ¬ d.nanos < 0 := h
    omega

end Delta

/-! ## Instants -/

/-- The first representable instant, in nanoseconds since 1970-01-01T00:00:00Z. -/
def Instant.minNanos : Int := -8334601228800000000000

/-- The last representable instant, in nanoseconds since 1970-01-01T00:00:00Z. -/
def Instant.maxNanos : Int := 8210266876799999999999

/-- A point of the UTC time line, counted from 1970-01-01T00:00:00Z. -/
structure Instant where
  nanos : Int
  min_le : Instant.minNanos ≤ nanos
  le_max : nanos ≤ Instant.maxNanos
deriving DecidableEq

namespace Instant

/-- The instant `n` nanoseconds after 1970-01-01T00:00:00Z, if it is on the calendar. -/
def ofNanos? (n : Int) : Option Instant :=
  if h : minNanos ≤ n ∧ n ≤ maxNanos then some ⟨n, h.1, h.2⟩ else none

def epoch : Instant := ⟨0, by decide, by decide⟩

/-- The first instant of the calendar. -/
def first : Instant := ⟨minNanos, by decide, by decide⟩

/-- The last instant of the calendar. -/
def last : Instant := ⟨maxNanos, by decide, by decide⟩

instance : Inhabited Instant := ⟨epoch⟩

instance : LE Instant := ⟨fun a b => a.nanos ≤ b.nanos⟩
instance : LT Instant := ⟨fun a b => a.nanos < b.nanos⟩
instance (a b : Instant) : Decidable (a ≤ b) := inferInstanceAs (Decidable (a.nanos ≤ b.nanos))
instance (a b : Instant) : Decidable (a < b) := inferInstanceAs (Decidable (a.nanos < b.nanos))
instance : Max Instant := ⟨fun a b => if a ≤ b then b else a⟩

/-- The instant `d` later, if it is on the calendar. -/
def add? (t : Instant) (d : Delta) : Option Instant := ofNanos? (t.nanos + d.nanos)

/-- The instant `d` earlier, if it is on the calendar. -/
def sub? (t : Instant) (d : Delta) : Option Instant := ofNanos? (t.nanos - d.nanos)

/-- Whole seconds since 1970-01-01T00:00:00Z, rounded toward the past. -/
def seconds (t : Instant) : Int := t.nanos.fdiv 1000000000

/-- The instant cut to whole milliseconds. -/
def truncMillis (t : Instant) : Instant :=
  (ofNanos? (t.nanos.fdiv 1000000 * 1000000)).getD first

theorem eq_of_nanos_eq {a b : Instant} (h : a.nanos = b.nanos) : a = b := by
  cases a
  cases b
  cases h
  rfl

theorem eq_iff_nanos_eq {a b : Instant} : a = b ↔ a.nanos = b.nanos :=
  ⟨congrArg nanos, eq_of_nanos_eq⟩

/-- The order by one time, and by another where that is the same. -/
theorem lexicographic_iff {a b c d : Instant} : (a < b || (a = b && c ≤ d)) = true ↔
    a.nanos < b.nanos ∨ a.nanos = b.nanos ∧ c.nanos ≤ d.nanos := by
  rw [Bool.or_eq_true, Bool.and_eq_true, decide_eq_true_eq, decide_eq_true_eq, decide_eq_true_eq,
    eq_iff_nanos_eq]
  exact Iff.rfl

theorem ofNanos?_eq_some_iff {n : Int} {t : Instant} : ofNanos? n = some t ↔ t.nanos = n := by
  unfold ofNanos?
  constructor
  · intro h
    split at h
    · cases h; rfl
    · cases h
  · rintro rfl
    simp [t.min_le, t.le_max]

theorem ofNanos?_eq_none_iff {n : Int} : ofNanos? n = none ↔ n < minNanos ∨ maxNanos < n := by
  unfold ofNanos?
  split
  · rename_i h
    simp only [reduceCtorEq, false_iff]
    omega
  · rename_i h
    simp only [true_iff]
    omega

end Instant

/-! ## Waiting times -/

/-- An unsigned span of time to wait for. -/
structure Duration where
  nanos : Nat
deriving DecidableEq, Inhabited

namespace Duration

/-- The longest waiting time: `2 ^ 64 - 1` seconds and 999999999 nanoseconds. -/
def maxNanos : Nat := 18446744073709551615 * 1000000000 + 999999999

def zero : Duration := ⟨0⟩
def ofSeconds (n : Nat) : Duration := ⟨n * 1000000000⟩
def ofMillis (n : Nat) : Duration := ⟨n * 1000000⟩

instance : LE Duration := ⟨fun a b => a.nanos ≤ b.nanos⟩
instance : LT Duration := ⟨fun a b => a.nanos < b.nanos⟩
instance (a b : Duration) : Decidable (a ≤ b) := inferInstanceAs (Decidable (a.nanos ≤ b.nanos))
instance (a b : Duration) : Decidable (a < b) := inferInstanceAs (Decidable (a.nanos < b.nanos))
instance : Min Duration := ⟨fun a b => if a ≤ b then a else b⟩

/-- Whole milliseconds, rounded up: a timer rings on the first whole millisecond at or after its
deadline. -/
def ceilMillis (d : Duration) : Nat := (d.nanos + 999999) / 1000000

end Duration

end JobQueue
