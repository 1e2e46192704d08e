import SceneWorks.Library.Table
import SceneWorks.JobsStore.ClaimFacts

/-!
The two tables of the jobs store, the row trigger, and the request and error types of
its public operations.

A payload or result column is its decoded document: `dumps` sorts every object before
it writes, so two documents have one text exactly when they are equal. Timestamps are
the instants their texts denote. Every operation of the store runs in one immediate
transaction; `Except` is its outcome, and an error leaves the store as it was.
-/

namespace SceneWorks.JobsStore

/-- A reported floating-point figure; the store refuses the ones that are not finite. -/
inductive F64 where
  | finite (value : ℚ)
  | nonFinite
  deriving DecidableEq

structure JobRow where
  id : String
  jobType : JobType
  status : JobStatus
  queueRank : Nat
  projectId : Option String
  projectName : Option String
  payload : JsonObject
  result : JsonObject
  requestedGpu : String
  assignedGpu : Option String
  workerId : Option String
  progress : ℚ
  stage : ProgressStage
  message : String
  error : Option String
  etaSeconds : Option ℚ
  attempts : Nat
  sourceJobId : Option String
  duplicateOfJobId : Option String
  cancelRequested : Bool
  createdAt : Timestamp
  updatedAt : Timestamp
  startedAt : Option Timestamp
  completedAt : Option Timestamp
  canceledAt : Option Timestamp
  lastHeartbeatAt : Option Timestamp
  modelProvenance : Option Json
  downloadBinding : Option Json
  claim : ClaimColumns
  peakGpuMemoryPct : Option ℚ
  peakGpuLoadPct : Option ℚ
  backend : Option String
  revision : Nat
  payloadRevision : Nat
  sideEffectsPending : Bool
  sideEffectsRetryCount : Nat
  sideEffectsRetryAt : Int
  clearedAt : Option Timestamp
  deriving DecidableEq

abbrev JobsTable := Table JobRow String JobRow.id

abbrev WorkersTable := Table WorkerSnapshot String WorkerSnapshot.id

structure Store where
  jobs : JobsTable
  workers : WorkersTable

namespace JobRow

/-- The `jobs_revision_after_update` trigger: `old` is the row before the statement,
`new` the row it wrote. No statement writes the primary key. -/
def afterUpdate (old new : JobRow) : JobRow :=
  { new with
    id := old.id
    revision := if new.revision = old.revision then old.revision + 1 else new.revision
    payloadRevision :=
      if new.revision = old.revision ∧ new.payload ≠ old.payload then old.payloadRevision + 1
      else new.payloadRevision }

end JobRow

namespace Store

def empty : Store := ⟨Table.empty, Table.empty⟩

def job (s : Store) (id : String) : Option JobRow := s.jobs.find id

def worker (s : Store) (id : String) : Option WorkerSnapshot := s.workers.find id

/-- One `update jobs set … where p` statement, with the trigger it fires. -/
def updateJobs (s : Store) (p : JobRow → Bool) (f : JobRow → JobRow) : Store where
  jobs := s.jobs.update p (fun r => r.afterUpdate (f r)) fun _ => rfl
  workers := s.workers

/-- One `update workers set … where p` statement. -/
def updateWorkers (s : Store) (p : WorkerSnapshot → Bool) (f : WorkerSnapshot → WorkerSnapshot) :
    Store where
  jobs := s.jobs
  workers := s.workers.update p (fun w => { f w with id := w.id }) fun _ => rfl

/-- The effect of an update statement on one row. -/
def rowUpdate (p : JobRow → Bool) (f : JobRow → JobRow) (r : JobRow) : JobRow :=
  if p r then r.afterUpdate (f r) else r

@[simp] theorem job_updateJobs (s : Store) (p : JobRow → Bool) (f : JobRow → JobRow)
    (id : String) : (s.updateJobs p f).job id = (s.job id).map (rowUpdate p f) :=
  Table.find_update s.jobs p (fun r => r.afterUpdate (f r)) (fun _ => rfl) id

@[simp] theorem worker_updateJobs (s : Store) (p : JobRow → Bool) (f : JobRow → JobRow)
    (id : String) : (s.updateJobs p f).worker id = s.worker id :=
  rfl

@[simp] theorem job_updateWorkers (s : Store) (p : WorkerSnapshot → Bool)
    (f : WorkerSnapshot → WorkerSnapshot) (id : String) :
    (s.updateWorkers p f).job id = s.job id :=
  rfl

@[simp] theorem worker_updateWorkers (s : Store) (p : WorkerSnapshot → Bool)
    (f : WorkerSnapshot → WorkerSnapshot) (id : String) :
    (s.updateWorkers p f).worker id =
      (s.worker id).map fun w => if p w then { f w with id := w.id } else w := by
  simp only [worker, updateWorkers, Table.find_update]

theorem job_id {s : Store} {id : String} {r : JobRow} (h : s.job id = some r) : r.id = id :=
  Table.find_key h

/-- Two lookups that meet in one id return one row. -/
theorem job_unique {s : Store} {k id : String} {r r' : JobRow} (hr : s.job k = some r)
    (hid : r.id = id) (hr' : s.job id = some r') : r = r' := by
  have hk := job_id hr
  rw [← hk, hid, hr'] at hr
  exact (Option.some.inj hr).symm

theorem worker_id {s : Store} {id : String} {w : WorkerSnapshot} (h : s.worker id = some w) :
    w.id = id :=
  Table.find_key h

theorem mem_jobs_iff {s : Store} {r : JobRow} : r ∈ s.jobs.rows ↔ s.job r.id = some r :=
  Table.mem_rows_iff

end Store

section Requests

inductive StoreError where
  | sqlite
  | notFound (id : String)
  | invalidStatus (status : String)
  | invalidNumber (field : String)
  | invalidRequestedGpu (detail : String)
  | retryLimit (maxAttempts : Nat)
  | terminalJobImmutable (jobId status : String)
  | notJobOwner (jobId : String)
  | staleClaimRoutingFacts (jobId : String) (storedVersion expectedVersion : Int)
      (payloadRevision factsPayloadRevision : Nat)
  | claimRoutingFactsMismatch (jobId : String) (version : Int)
  | invalidInitialStatus (status : String)
  deriving DecidableEq

structure CreateJob where
  jobType : JobType
  projectId : Option String
  projectName : Option String
  payload : JsonObject
  requestedGpu : String
  sourceJobId : Option String
  duplicateOfJobId : Option String
  attempts : Nat
  initialStatus : Option JobStatus

structure DuplicateJob where
  payloadChanges : JsonObject
  requestedGpu : Option String

structure RegisterWorker where
  workerId : String
  gpuId : String
  gpuName : Option String
  capabilities : List WorkerCapability
  loadedModels : List String
  utilization : Option WorkerUtilizationSnapshot

structure WorkerHeartbeat where
  workerId : String
  status : WorkerStatus
  currentJobId : Option String
  loadedModels : List String
  utilization : Option WorkerUtilizationSnapshot
  statusReason : Option String

structure ProgressUpdate where
  status : JobStatus
  stage : ProgressStage
  progress : F64
  message : String
  error : Option String
  result : Option JsonObject
  etaSeconds : Option F64
  peakGpuMemoryPct : Option F64
  peakGpuLoadPct : Option F64
  backend : Option String
  workerId : Option String

end Requests

end SceneWorks.JobsStore
