import JobQueue.Job.Draft
import JobQueue.Proofs.Except

/-!
# What a draft comes to

A job is built once the draft is found to be due at some time and its parameter can be stored. The
job holds what the draft says, waits for no other and names none.
-/

namespace JobQueue

namespace Draft

variable {d : Draft} {clock : Instant} {job : NewJob}

theorem build_eq_ok_iff : d.build clock = .ok job ↔ ∃ t text, d.dueTime clock = .ok t ∧
    d.parameterText = .ok text ∧
    job = ⟨d.id, d.type.name, text, d.cron, t, false, .none, d.restartOnCrash⟩ := by
  simp only [build, bind_eq_ok_iff, Except.ok.injEq, exists_and_left, @eq_comm _ _ job]

theorem exists_build_iff : (∃ job, d.build clock = .ok job) ↔
    (∃ t, d.dueTime clock = .ok t) ∧ ∃ text, d.parameterText = .ok text := by
  constructor
  · rintro ⟨job, hjob⟩
    obtain ⟨t, text, ht, htext, -⟩ := build_eq_ok_iff.1 hjob
    exact ⟨⟨t, ht⟩, text, htext⟩
  · rintro ⟨⟨t, ht⟩, text, htext⟩
    exact ⟨_, build_eq_ok_iff.2 ⟨t, text, ht, htext, rfl⟩⟩

theorem stored_of_build (h : d.build clock = .ok job) :
    job.jobType = d.type.name ∧ d.parameterText = .ok job.parameter := by
  obtain ⟨t, text, -, htext, rfl⟩ := build_eq_ok_iff.1 h
  exact ⟨rfl, htext⟩

theorem unlinked_of_build (h : d.build clock = .ok job) :
    job.waits = false ∧ job.successor = .none := by
  obtain ⟨t, text, -, -, rfl⟩ := build_eq_ok_iff.1 h
  exact ⟨rfl, rfl⟩

/-- A recurrent job is built only from an expression that can be read. -/
theorem readable_of_build {cron : String} (h : d.build clock = .ok job)
    (hcron : job.cron = some cron) : (Cron.Schedule.ofText? cron).isSome := by
  obtain ⟨t, text, hdue, -, rfl⟩ := build_eq_ok_iff.1 h
  simp only [dueTime, show d.cron = some cron from hcron, firstOccurrence] at hdue
  split at hdue
  · cases hdue
  · rename_i schedule hvalid
    rw [hvalid]
    rfl

theorem parameterText_some {v : Parameter} (h : d.parameter = some v) :
    d.parameterText = .ok v.encode := by
  simp only [parameterText, h]

theorem parameterText_none (h : d.parameter = none) {text : String} :
    d.parameterText = .ok text ↔
      text = noParameter ∧ ∃ v, d.type.parameter.decode noParameter = .ok v := by
  simp only [parameterText, h]
  cases d.type.parameter.decode noParameter <;> simp [eq_comm]

end Draft

end JobQueue
