import JobQueue.Cron.Schedule
import Mathlib.Data.List.Basic

/-!
# What a cron expression is read as

Whatever an expression selects in a field are values of its unit of time, in increasing order. An
expression that is read, be it from fields or from a keyword, has such values in all its fields.
-/

namespace JobQueue.Cron

/-- Values of the unit in increasing order. -/
structure Unit.Lists (u : Unit) (values : List Nat) : Prop where
  sorted : values.Pairwise (· < ·)
  low_le : ∀ v ∈ values, u.low ≤ v
  le_high : ∀ v ∈ values, v ≤ u.high

variable {u : Unit} {values : List Nat}

theorem Unit.lists_values (u : Unit) : u.Lists u.values := by
  have hmem : ∀ v ∈ u.values, u.low ≤ v ∧ v < u.low + (u.high + 1 - u.low) := by
    intro v hv
    rwa [Unit.values, List.mem_range'_1] at hv
  refine ⟨List.pairwise_lt_range' .., fun v hv => (hmem v hv).1, fun v hv => ?_⟩
  have hv := hmem v hv
  omega

theorem Unit.Lists.filter (h : u.Lists values) (p : Nat → Bool) : u.Lists (values.filter p) :=
  ⟨h.sorted.filter p, fun v hv => h.low_le v (List.mem_of_mem_filter hv),
    fun v hv => h.le_high v (List.mem_of_mem_filter hv)⟩

theorem Unit.lists_singleton {v : Nat} (hlow : u.low ≤ v) (hhigh : v ≤ u.high) : u.Lists [v] :=
  ⟨List.pairwise_singleton _ v, by simpa using hlow, by simpa using hhigh⟩

theorem select?_lists {items : List Item} (h : select? u items = some values) :
    u.Lists values := by
  obtain ⟨ps, -, hvalues⟩ := Option.bind_eq_some_iff.1 h
  cases hvalues
  exact u.lists_values.filter _

theorem readValues_lists {days : Bool} {cs rest : List Char}
    (h : readValues u days cs = some (values, rest)) : u.Lists values := by
  obtain ⟨⟨items, left⟩, -, hselect⟩ := Option.bind_eq_some_iff.1 h
  obtain ⟨selected, hvalues, hsame⟩ := Option.bind_eq_some_iff.1 hselect
  cases hsame
  exact select?_lists hvalues

/-- Every field of the schedule holds values of its unit in increasing order. -/
structure Schedule.WellFormed (s : Schedule) : Prop where
  seconds : Unit.second.Lists s.seconds
  minutes : Unit.minute.Lists s.minutes
  hours : Unit.hour.Lists s.hours
  days : Unit.dayOfMonth.Lists s.days
  months : Unit.month.Lists s.months
  weekdays : Unit.dayOfWeek.Lists s.weekdays
  years : Unit.year.Lists s.years

variable {s : Schedule}

theorem keywords_wellFormed {word : String} (h : (word, s) ∈ keywords) : s.WellFormed := by
  have hours := Unit.hour.lists_values
  have days := Unit.dayOfMonth.lists_values
  have months := Unit.month.lists_values
  have weekdays := Unit.dayOfWeek.lists_values
  have years := Unit.year.lists_values
  have zero {u : Unit} (hlow : u.low = 0) : u.Lists [0] :=
    Unit.lists_singleton (by omega) (Nat.zero_le _)
  have one {u : Unit} (hlow : u.low = 1) (hhigh : 1 ≤ u.high) : u.Lists [1] :=
    Unit.lists_singleton (by omega) hhigh
  simp only [keywords, List.mem_cons, Prod.mk.injEq, List.not_mem_nil, or_false] at h
  rcases h with ⟨-, rfl⟩ | ⟨-, rfl⟩ | ⟨-, rfl⟩ | ⟨-, rfl⟩ | ⟨-, rfl⟩
  · exact ⟨zero rfl, zero rfl, zero rfl, one rfl (by decide), one rfl (by decide), weekdays, years⟩
  · exact ⟨zero rfl, zero rfl, zero rfl, one rfl (by decide), months, weekdays, years⟩
  · exact ⟨zero rfl, zero rfl, zero rfl, days, months, one rfl (by decide), years⟩
  · exact ⟨zero rfl, zero rfl, zero rfl, days, months, weekdays, years⟩
  · exact ⟨zero rfl, zero rfl, hours, days, months, weekdays, years⟩

theorem readFields_wellFormed {cs rest : List Char} (h : readFields cs = some (s, rest)) :
    s.WellFormed := by
  unfold readFields at h
  obtain ⟨⟨seconds, cs₁⟩, hseconds, h⟩ := Option.bind_eq_some_iff.1 h
  obtain ⟨⟨minutes, cs₂⟩, hminutes, h⟩ := Option.bind_eq_some_iff.1 h
  obtain ⟨⟨hours, cs₃⟩, hhours, h⟩ := Option.bind_eq_some_iff.1 h
  obtain ⟨⟨days, cs₄⟩, hdays, h⟩ := Option.bind_eq_some_iff.1 h
  obtain ⟨⟨months, cs₅⟩, hmonths, h⟩ := Option.bind_eq_some_iff.1 h
  obtain ⟨⟨weekdays, cs₆⟩, hweekdays, h⟩ := Option.bind_eq_some_iff.1 h
  have hyears : Unit.year.Lists ((readValues .year false cs₆).getD (Unit.year.values, cs₆)).1 := by
    cases hread : readValues .year false cs₆ with
    | none => exact Unit.year.lists_values
    | some years => exact readValues_lists hread
  simp only [Option.ite_none_right_eq_some, Option.some.injEq, Prod.mk.injEq] at h
  obtain ⟨-, rfl, -⟩ := h
  exact ⟨readValues_lists hseconds, readValues_lists hminutes, readValues_lists hhours,
    readValues_lists hdays, readValues_lists hmonths, readValues_lists hweekdays, hyears⟩

theorem Schedule.ofText?_wellFormed {text : String} (h : Schedule.ofText? text = some s) :
    s.WellFormed := by
  obtain ⟨⟨read, rest⟩, hread, hrest⟩ := Option.bind_eq_some_iff.1 h
  simp only [Option.ite_none_right_eq_some, Option.some.injEq] at hrest
  obtain ⟨-, rfl⟩ := hrest
  cases hkeyword : readKeyword text.toList with
  | none =>
    rw [hkeyword] at hread
    exact readFields_wellFormed hread
  | some found =>
    rw [hkeyword] at hread
    cases hread
    obtain ⟨⟨word, schedule⟩, hmem, hword⟩ := List.exists_of_findSome?_eq_some hkeyword
    simp only [Option.ite_none_right_eq_some, Option.some.injEq, Prod.mk.injEq] at hword
    obtain ⟨-, rfl, -⟩ := hword
    exact keywords_wellFormed hmem

end JobQueue.Cron
