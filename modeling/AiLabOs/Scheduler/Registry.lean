import AiLabOs.Base.Table
import AiLabOs.Scheduler.Models
import Mathlib.Data.List.Perm.Subperm

/-!
# Scheduler: the registry

A runtime's copy of the jobs, in the order of their registration. The count of running jobs is taken
from it, so a tick brings it up to date before it starts any.

## Main definitions

* `Registry.register`, `unregister`, `replace`: the operations
* `Registry.sync`: `_sync_registry_from_persistence`
* `Registry.runningCount`: how many jobs it shows as running
* `Registry.Shows`: every job is there, and a running one is shown as running

## Main results

* `Registry.sync_shows`: after it went through, every job is shown as it is
* `Registry.Shows.length_le`: running jobs are counted
-/

namespace Scheduler

/-- `SchedulerRegistry`. -/
abbrev Registry := List Job

namespace Registry

/-- `exists`. -/
def existsJob (registry : Registry) (jobId : String) : Bool :=
  registry.any fun job => job.id = jobId

/-- `get_by_name`. -/
def getByName (registry : Registry) (name : String) : Option Job :=
  registry.find? fun job => job.name = name

/-- `register`, which refuses an id or a name that is there. -/
def register (registry : Registry) (job : Job) : Option Registry :=
  if registry.existsJob job.id || (registry.getByName job.name).isSome then none
  else some (registry ++ [job])

/-- `unregister`. -/
def unregister (registry : Registry) (jobId : String) : Registry :=
  registry.filter fun job => job.id ≠ jobId

/-- `replace`. A job that is not there is refused, and nothing changes. -/
def replace (registry : Registry) (job : Job) : Registry := Table.put Job.id job registry

/-- The loop of `_sync_registry_from_persistence`, and whether it went through. -/
def syncRows : Registry → List Job → Registry × Bool
  | registry, [] => (registry, true)
  | registry, job :: jobs =>
    if registry.existsJob job.id then syncRows (registry.replace job) jobs
    else match registry.register job with
      | some registry' => syncRows registry' jobs
      | none => (registry, false)

/-- `_sync_registry_from_persistence`, and whether it went through. -/
def sync (registry : Registry) (jobs : List Job) : Registry × Bool :=
  let synced := registry.syncRows jobs
  if synced.2 then
    (synced.1.filter fun job => jobs.any fun row => row.id = job.id, true)
  else synced

/-- How many jobs it shows as running. -/
def runningCount (registry : Registry) : ℕ := registry.countP fun job => job.status = .running

/-- **Every job is there**, and one that is running is shown as running. -/
def Shows (registry : Registry) (jobs : List Job) : Prop :=
  ∀ row ∈ jobs, ∃ job ∈ registry, job.id = row.id ∧ (row.status = .running → job.status = .running)

variable {registry registry' : Registry} {jobs : List Job}

theorem mem_replace_self {job : Job} (h : registry.existsJob job.id = true) :
    job ∈ registry.replace job := by
  obtain ⟨old, hold, hid⟩ := List.any_eq_true.mp h
  exact Table.mem_put_self hold (by simpa using hid)

/-- A replacement by another job leaves a job where it is. -/
theorem mem_replace_of_ne {job new : Job} (h : job ∈ registry) (hne : job.id ≠ new.id) :
    job ∈ registry.replace new :=
  Table.mem_put_of_ne h hne

theorem register_eq {job : Job} (h : registry.register job = some registry') :
    registry' = registry ++ [job] := by
  unfold register at h
  split at h
  · cases h
  · exact (Option.some.inj h).symm

/-- A job the rest of the loop does not name stays where it is. -/
theorem mem_syncRows_of_ne {job : Job} (hjobs : ∀ row ∈ jobs, job.id ≠ row.id)
    (h : job ∈ registry) : job ∈ (registry.syncRows jobs).1 := by
  induction jobs generalizing registry with
  | nil => exact h
  | cons row jobs ih =>
    have hrest : ∀ row ∈ jobs, job.id ≠ row.id :=
      fun row hrow => hjobs row (List.mem_cons_of_mem _ hrow)
    unfold syncRows
    split
    · exact ih hrest (mem_replace_of_ne h (hjobs row (List.mem_cons_self ..)))
    · split
      · rename_i registry' hregister
        rw [register_eq hregister]
        exact ih hrest (List.mem_append_left _ h)
      · exact h

/-- The loop puts every row into the registry, if it goes through. -/
theorem mem_syncRows (hunique : Table.Unique Job.id jobs)
    (hok : (registry.syncRows jobs).2 = true) {row : Job} (hrow : row ∈ jobs) :
    row ∈ (registry.syncRows jobs).1 := by
  induction jobs generalizing registry with
  | nil => cases hrow
  | cons job jobs ih =>
    obtain ⟨hnew, hunique⟩ := List.nodup_cons.mp hunique
    have hother : ∀ other ∈ jobs, job.id ≠ other.id := by
      intro other hother heq
      exact hnew (List.mem_map.mpr ⟨other, hother, heq.symm⟩)
    unfold syncRows at hok ⊢
    split at hok
    · rename_i hexists
      rw [if_pos hexists]
      rcases List.mem_cons.mp hrow with rfl | hrow
      · exact mem_syncRows_of_ne hother (mem_replace_self hexists)
      · exact ih hunique hok hrow
    · rename_i hexists
      rw [if_neg hexists]
      split at hok
      · rename_i registry' hregister
        rcases List.mem_cons.mp hrow with rfl | hrow
        · refine mem_syncRows_of_ne hother ?_
          rw [register_eq hregister]
          exact List.mem_append_right _ (List.mem_singleton_self _)
        · exact ih hunique hok hrow
      · cases hok

/-- **A registry that is brought up to date** shows every running job as running. -/
theorem sync_shows (hunique : Table.Unique Job.id jobs) (hok : (registry.sync jobs).2 = true) :
    (registry.sync jobs).1.Shows jobs := by
  intro row hrow
  unfold sync at hok ⊢
  dsimp only at hok ⊢
  split at hok
  · rename_i hrows
    rw [if_pos hrows]
    refine ⟨row, List.mem_filter.mpr ⟨mem_syncRows hunique hrows hrow, ?_⟩, rfl, id⟩
    exact List.any_eq_true.mpr ⟨row, hrow, decide_eq_true rfl⟩
  · rename_i hrows
    exact absurd hok hrows

/-- A job that has begun to run is shown, once it is replaced. -/
theorem Shows.replace (h : registry.Shows jobs) {new : Job} (hrunning : new.status = .running) :
    (registry.replace new).Shows (Table.put Job.id new jobs) := by
  intro row hrow
  rcases Table.mem_put.mp hrow with ⟨rfl, old, hold, hid⟩ | ⟨hrow, hne⟩
  · obtain ⟨job, hjob, hjobId, -⟩ := h old hold
    exact ⟨row, Table.mem_put_self hjob (hjobId.trans hid), rfl, fun _ => hrunning⟩
  · obtain ⟨job, hjob, hjobId, hstatus⟩ := h row hrow
    refine ⟨job, Table.mem_put_of_ne hjob ?_, hjobId, hstatus⟩
    rw [hjobId]
    exact hne

/-- **Running jobs are counted**, if they are shown. -/
theorem Shows.length_le (h : registry.Shows jobs) {ids : List String} (hnodup : ids.Nodup)
    (hids : ∀ id ∈ ids, ∃ row ∈ jobs, row.id = id ∧ row.status = .running) :
    ids.length ≤ registry.runningCount := by
  have hsub : ids ⊆ (registry.filter fun job => job.status = .running).map Job.id := by
    intro id hid
    obtain ⟨row, hrow, rfl, hrunning⟩ := hids id hid
    obtain ⟨job, hjob, hjobId, hstatus⟩ := h row hrow
    have hshown := decide_eq_true (hstatus hrunning)
    exact List.mem_map.mpr ⟨job, List.mem_filter.mpr ⟨hjob, hshown⟩, hjobId⟩
  have hlength := (List.subperm_of_subset hnodup hsub).length_le
  rw [List.length_map, ← List.countP_eq_length_filter] at hlength
  exact hlength

end Registry

end Scheduler
