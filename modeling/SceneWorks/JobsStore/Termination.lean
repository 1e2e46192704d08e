import SceneWorks.JobsStore.Steps

/-!
The report of a worker's death. It fails one active job of the worker and releases the
worker row; a second active job of the same worker keeps its owner and its status, and
no sweep looks at it again because the worker is now offline.
-/

namespace SceneWorks.JobsStore

section Report

variable (policy : RoutingPolicy)

/-- Nothing runs on the dead worker, and the report touched no one else's job. -/
structure LeavesNothingRunning (s s' : Store) (workerId : String) : Prop where
  ended : ∀ id r, s'.job id = some r → r.status.isActive = true → r.workerId ≠ some workerId
  released : ∀ w, s'.worker workerId = some w → w.currentJobId = none
  others : ∀ id r, s.job id = some r → r.workerId ≠ some workerId → s'.job id = some r

def HoldsAtMostOne (s : Store) (workerId : String) : Prop :=
  ∀ a b ra rb, s.job a = some ra → s.job b = some rb → ra.status.isActive = true →
    rb.status.isActive = true → ra.workerId = some workerId → rb.workerId = some workerId → a = b

theorem mem_activeJobsOf {s : Store} {workerId : String} {r : JobRow} :
    r ∈ s.activeJobsOf workerId ↔
    s.job r.id = some r ∧ r.workerId = some workerId ∧ r.status.isActive = true := by
  rw [Store.activeJobsOf, List.mem_filter, Store.mem_jobs_iff, Bool.and_eq_true,
    decide_eq_true_eq]

variable (s : Store) (workerId : String) (signal exitCode : Option Int) (pick : Nat)
  (now : Timestamp)

/-- What the report does: nothing to the jobs when the worker holds none, else the end of
one job it holds. -/
theorem job_failWorkerJobTerminated :
    (s.activeJobsOf workerId = [] ∧ ∀ id,
        (step policy s (.failWorkerJobTerminated workerId signal exitCode pick now)).job id =
          s.job id) ∨
      ∃ job error, job ∈ s.activeJobsOf workerId ∧ ∀ id,
        (step policy s (.failWorkerJobTerminated workerId signal exitCode pick now)).job id =
          (s.job id).map (Store.rowUpdate (fun r => r.id = job.id && r.status.isActive)
            fun r => r.failTerminated now error) := by
  simp only [step, failWorkerJobTerminated]
  cases hpicked : (s.activeJobsOf workerId)[pick % (s.activeJobsOf workerId).length]? with
  | none =>
      refine .inl ⟨?_, fun id => rfl⟩
      rw [List.getElem?_eq_none_iff] at hpicked
      by_contra hne
      exact absurd (Nat.mod_lt pick (List.length_pos_iff.mpr hne)) (Nat.not_lt.mpr hpicked)
  | some job =>
      exact .inr ⟨job, _, List.mem_of_getElem? hpicked, fun id => Store.job_updateJobs _ _ _ id⟩

theorem worker_failWorkerJobTerminated {w : WorkerSnapshot}
    (h : (step policy s (.failWorkerJobTerminated workerId signal exitCode pick now)).worker
      workerId = some w) : w.currentJobId = none := by
  have hreleased : ∀ t : Store, (t.updateWorkers (fun w => w.id = workerId)
      fun w => { releaseWorker w with lastSeenAt := now }).worker workerId = some w →
      w.currentJobId = none := by
    intro t hw
    rw [Store.worker_updateWorkers] at hw
    obtain ⟨old, hold, rfl⟩ := Option.map_eq_some_iff.mp hw
    simp [Store.worker_id hold, releaseWorker]
  simp only [step, failWorkerJobTerminated] at h
  split at h
  · exact hreleased _ h
  · exact hreleased _ h

theorem leavesNothingRunning_iff :
    LeavesNothingRunning s
        (step policy s (.failWorkerJobTerminated workerId signal exitCode pick now)) workerId ↔
      HoldsAtMostOne s workerId := by
  have hothers : ∀ id r, s.job id = some r → r.workerId ≠ some workerId →
      (step policy s (.failWorkerJobTerminated workerId signal exitCode pick now)).job id =
        some r := by
    intro id r hr hother
    rcases job_failWorkerJobTerminated policy s workerId signal exitCode pick now with
      ⟨-, hjobs⟩ | ⟨job, error, hjob, hjobs⟩
    · rw [hjobs, hr]
    · obtain ⟨hfound, howner, -⟩ := mem_activeJobsOf.mp hjob
      have hne : r.id ≠ job.id := fun h =>
        hother (Store.job_unique hr h hfound ▸ howner)
      rw [hjobs, hr, Option.map_some, Store.rowUpdate]
      simp [hne]
  constructor
  · intro h a b ra rb hra hrb hactivea hactiveb hownera hownerb
    -- A held job whose id is not the picked one stays as it was.
    rcases job_failWorkerJobTerminated policy s workerId signal exitCode pick now with
      ⟨hnone, hjobs⟩ | ⟨job, error, hjob, hjobs⟩
    · exact absurd hownera (h.ended a ra ((hjobs a).trans hra) hactivea)
    · have hpicked : ∀ id r, s.job id = some r → r.status.isActive = true →
          r.workerId = some workerId → id = job.id := by
        intro id r hr hactive howner
        by_contra hne
        refine h.ended id r ?_ hactive howner
        rw [hjobs, hr, Option.map_some, Store.rowUpdate]
        simp [Store.job_id hr, hne]
      exact (hpicked a ra hra hactivea hownera).trans (hpicked b rb hrb hactiveb hownerb).symm
  · intro hone
    refine ⟨fun id r hr hactive howner => ?_,
      fun w => worker_failWorkerJobTerminated policy s workerId signal exitCode pick now, hothers⟩
    rcases job_failWorkerJobTerminated policy s workerId signal exitCode pick now with
      ⟨hnone, hjobs⟩ | ⟨job, error, hjob, hjobs⟩
    · rw [hjobs] at hr
      have hheld : r ∈ s.activeJobsOf workerId :=
        mem_activeJobsOf.mpr ⟨(Store.job_id hr).symm ▸ hr, howner, hactive⟩
      rw [hnone] at hheld
      cases hheld
    · rw [hjobs] at hr
      obtain ⟨old, hold, rfl⟩ := Option.map_eq_some_iff.mp hr
      obtain ⟨hfound, hjobowner, hjobactive⟩ := mem_activeJobsOf.mp hjob
      by_cases hpicked : (decide (old.id = job.id) && old.status.isActive) = true
      · rw [Store.rowUpdate, if_pos hpicked] at hactive
        cases hactive
      · rw [Store.rowUpdate, if_neg hpicked] at hactive howner
        have hid := hone id job.id old job hold hfound hactive hjobactive howner hjobowner
        simp [Store.job_id hold, hid, hactive] at hpicked

/-- The promise of one operation, where it is a death report. -/
def DeathReported (s : Store) : Op → Prop
  | .failWorkerJobTerminated workerId signal exitCode pick now =>
      LeavesNothingRunning s
        (step policy s (.failWorkerJobTerminated workerId signal exitCode pick now)) workerId
  | _ => True

def DeadHeldAtMostOne (s : Store) : Op → Prop
  | .failWorkerJobTerminated workerId _ _ _ _ => HoldsAtMostOne s workerId
  | _ => True

theorem deathReported_iff (s : Store) (op : Op) :
    DeathReported policy s op ↔ DeadHeldAtMostOne s op := by
  cases op with
  | failWorkerJobTerminated workerId signal exitCode pick now =>
      exact leavesNothingRunning_iff policy s workerId signal exitCode pick now
  | _ => exact Iff.rfl

end Report

/-- In any state a reported death leaves nothing running on the worker exactly when it
held at most one active job; so every death report of a run does exactly when each finds
its worker so. -/
theorem reported_death_leaves_nothing_iff (policy : RoutingPolicy) :
    (∀ s workerId signal exitCode pick now,
      LeavesNothingRunning s
          (step policy s (.failWorkerJobTerminated workerId signal exitCode pick now)) workerId ↔
        HoldsAtMostOne s workerId) ∧
      ∀ ops, Run.Along (step policy) (DeathReported policy) Store.empty ops ↔
        Run.Along (step policy) DeadHeldAtMostOne Store.empty ops :=
  ⟨leavesNothingRunning_iff policy, fun _ => Run.along_congr (deathReported_iff policy)⟩

def downloadRequest : CreateJob :=
  { placeholderRequest none [] with jobType := .modelDownload }

def downloadWorker (workerId gpuId : String) : RegisterWorker :=
  { placeholderWorker workerId gpuId with capabilities := [.gpu, .modelDownload] }

/-- A worker claims two downloads and dies: one of them stays preparing on it. -/
theorem second_download_survives_death_report :
    let s := exec emptyTables Store.empty
      [.createJob downloadRequest "first" none none 0,
        .createJob downloadRequest "second" none none 1,
        .registerWorker (downloadWorker "worker" "gpu-0") 2,
        .claimNextJob "worker" false 3,
        .claimNextJob "worker" false 4]
    ¬ LeavesNothingRunning s
      (step emptyTables s (.failWorkerJobTerminated "worker" (some 9) none 0 5)) "worker" := by
  intro s h
  exact h.ended "second" _ rfl rfl rfl

end SceneWorks.JobsStore
