import JobQueue.Backend
import Mathlib.Data.List.Nodup

/-!
# The store by job

The ids of the jobs of a store are distinct, so a store is known by the job that each id names.
This module says what the operations do to that job: one equation for each way in which they change
the list of jobs, and one specification for each operation built from them.
-/

namespace JobQueue.Store

variable {s s' : Store} {id : JobId} {j : Job}

/-- No two jobs of the store have the same id. -/
def Distinct (s : Store) : Prop := (s.jobs.map (·.id)).Nodup

theorem distinct_empty : Distinct {} := List.nodup_nil

/-! ## 1. Looking a job up -/

theorem id_of_get? (h : s.get? id = some j) : j.id = id := by
  simpa using List.find?_some h

theorem mem_of_get? (h : s.get? id = some j) : j ∈ s.jobs := List.mem_of_find?_eq_some h

theorem get?_of_mem (hs : s.Distinct) (hj : j ∈ s.jobs) : s.get? j.id = some j := by
  have hex : (s.get? j.id).isSome := List.find?_isSome.mpr ⟨j, hj, by simp⟩
  obtain ⟨k, hk⟩ := Option.isSome_iff_exists.mp hex
  -- jobs with the same id are the same, so it is this one that is found
  have hkj : k = j := List.inj_on_of_nodup_map hs (mem_of_get? hk) hj (id_of_get? hk)
  rw [hk, hkj]

theorem get?_eq_some_iff (hs : s.Distinct) : s.get? id = some j ↔ j ∈ s.jobs ∧ j.id = id := by
  constructor
  · intro h
    exact ⟨mem_of_get? h, id_of_get? h⟩
  · rintro ⟨hj, rfl⟩
    exact get?_of_mem hs hj

theorem contains_eq_isSome (s : Store) (id : JobId) : s.contains id = (s.get? id).isSome := by
  rw [Bool.eq_iff_iff, get?, List.find?_isSome, contains, List.any_eq_true]

/-! ## 2. Changing jobs in place -/

theorem updateIf_distinct (hs : s.Distinct) (p : Job → Bool) {f : Job → Job}
    (hf : ∀ j, (f j).id = j.id) : (s.updateIf p f).Distinct := by
  have hids : (s.updateIf p f).jobs.map (·.id) = s.jobs.map (·.id) := by
    simp only [updateIf, List.map_map]
    apply List.map_congr_left
    intro j _
    by_cases hp : p j = true
    · simp only [Function.comp, hp, if_true, hf]
    · simp only [Function.comp, hp, Bool.false_eq_true, if_false]
  unfold Distinct
  rwa [hids]

theorem get?_updateIf (s : Store) (p : Job → Bool) {f : Job → Job} (hf : ∀ j, (f j).id = j.id)
    (id : JobId) :
    (s.updateIf p f).get? id = (s.get? id).map fun j => if p j then f j else j := by
  have hcomp : ((fun j : Job => decide (j.id = id)) ∘ fun j => if p j then f j else j) =
      fun j => decide (j.id = id) := by
    -- the change keeps ids, so a job is found by its id before or after it
    funext j
    by_cases hp : p j = true
    · simp only [Function.comp, hp, if_true, hf]
    · simp only [Function.comp, hp, Bool.false_eq_true, if_false]
  simp only [get?, updateIf, List.find?_map, hcomp]

theorem updateIf_eq_self (p : Job → Bool) (f : Job → Job) (h : ∀ j ∈ s.jobs, p j = false) :
    s.updateIf p f = s := by
  have hjobs : s.jobs.map (fun j => if p j then f j else j) = s.jobs := by
    rw [List.map_congr_left (g := fun j => j), List.map_id']
    intro j hj
    rw [h j hj, if_neg Bool.false_ne_true]
  rw [updateIf, hjobs]

/-! ## 3. Deleting jobs -/

theorem filter_distinct (hs : s.Distinct) (p : Job → Bool) :
    Distinct { s with jobs := s.jobs.filter p } :=
  hs.sublist (List.filter_sublist.map _)

theorem get?_filter (hs : s.Distinct) (p : Job → Bool) (id : JobId) :
    get? { s with jobs := s.jobs.filter p } id = (s.get? id).filter p := by
  apply Option.ext
  intro j
  rw [get?_eq_some_iff (filter_distinct hs p), Option.filter_eq_some_iff, get?_eq_some_iff hs,
    List.mem_filter]
  tauto

/-! ## 4. Inserting jobs -/

theorem insert_eq_ok_iff {new : NewJob} {clock : Instant} :
    s.insert new clock = .ok s' ↔
      s.get? new.id = none ∧ s' = { s with jobs := s.jobs ++ [new.toJob clock] } := by
  rw [insert, contains_eq_isSome]
  cases h : s.get? new.id with
  | none => simp [eq_comm]
  | some j => simp

theorem insert_distinct (hs : s.Distinct) {new : NewJob} {clock : Instant}
    (h : s.insert new clock = .ok s') : s'.Distinct := by
  obtain ⟨hnew, rfl⟩ := insert_eq_ok_iff.1 h
  have hfresh : new.id ∉ s.jobs.map (·.id) := by
    intro hmem
    obtain ⟨j, hj, hid⟩ := List.mem_map.1 hmem
    have hget := get?_of_mem hs hj
    rw [hid, hnew] at hget
    cases hget
  rw [Distinct, List.map_append]
  exact hs.append (List.nodup_singleton _) (by simpa [NewJob.toJob] using hfresh)

theorem get?_insert {new : NewJob} {clock : Instant} (h : s.insert new clock = .ok s')
    (id : JobId) : s'.get? id = if id = new.id then some (new.toJob clock) else s.get? id := by
  obtain ⟨hnew, rfl⟩ := insert_eq_ok_iff.1 h
  have happend : get? { s with jobs := s.jobs ++ [new.toJob clock] } id =
      (s.get? id).or (if new.id = id then some (new.toJob clock) else none) := by
    simp only [get?, List.find?_append, List.find?_singleton, NewJob.toJob, decide_eq_true_eq]
  -- the new job comes last, and none with its id comes before it
  rw [happend]
  by_cases hid : id = new.id
  · rw [hid, hnew, if_pos rfl, Option.none_or]
  · rw [if_neg hid, if_neg (Ne.symm hid), Option.or_none]

end JobQueue.Store
