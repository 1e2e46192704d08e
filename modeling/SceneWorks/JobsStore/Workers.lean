import SceneWorks.Time
import SceneWorks.JobsStore.Lifecycle

/-!
The operations driven by the worker fleet: registration, heartbeats, the sweeps that
reclaim or fail jobs, and the recovery an API restart performs.
-/

namespace SceneWorks.JobsStore

namespace JobRow

variable (now : Timestamp)

/-- The rewrite shared by every reclaim of an active job. -/
def reclaim (status : JobStatus) (stage : ProgressStage) (message error : String) (r : JobRow) :
    JobRow :=
  { r with
    status := status
    stage := stage
    message := message
    error := some error
    completedAt := some now
    updatedAt := now
    workerId := none }

def interruptOnStartup (r : JobRow) : JobRow :=
  r.reclaim now .interrupted .interrupted "Job was interrupted by a backend restart."
    "The backend restarted before this job finished."

def interruptOnIdleHeartbeat (r : JobRow) : JobRow :=
  r.reclaim now .interrupted .interrupted "Job was interrupted after its worker restarted."
    "Worker heartbeat no longer referenced the active job."

def failTerminated (error : String) (r : JobRow) : JobRow :=
  r.reclaim now .failed .failed "Worker process terminated unexpectedly." error

def failQueued (message error : String) (r : JobRow) : JobRow :=
  r.reclaim now .failed .failed message error

def touchHeartbeat (r : JobRow) : JobRow :=
  { r with
    lastHeartbeatAt := some now
    updatedAt := now }

end JobRow

/-- How every sweep releases a worker it declares gone. -/
def releaseWorker (w : WorkerSnapshot) : WorkerSnapshot :=
  { w with
    status := .offline
    currentJobId := none
    statusReason := none }

section Startup

/-- `workers.id = jobs.worker_id and workers.status = 'busy' and
workers.current_job_id = jobs.id`. -/
def Store.startupOwnerAlive (s : Store) (r : JobRow) : Bool :=
  s.workers.rows.any fun w =>
    r.workerId = some w.id && w.status = .busy && w.currentJobId = some r.id

/-- `jobs.worker_id = workers.id and jobs.id = workers.current_job_id and
jobs.status in (active)`. -/
def Store.holdsActiveJob (s : Store) (w : WorkerSnapshot) : Bool :=
  s.jobs.rows.any fun r =>
    r.workerId = some w.id && w.currentJobId = some r.id && r.status.isActive

def markInterruptedOnStartup (s : Store) (now : Timestamp) :
    Except StoreError (Store × List JobRow) :=
  let stranded := fun r : JobRow => r.status.isActive && !s.startupOwnerAlive r
  let pendingCaption := fun r : JobRow => decide (r.status = .pendingCaption)
  let s1 := s.updateJobs stranded (fun r => r.interruptOnStartup now)
  let s2 := s1.updateJobs pendingCaption (fun r => r.promoteToQueued now)
  let s3 := s2.updateWorkers (fun w => w.status ≠ .offline && !s2.holdsActiveJob w)
    (fun w => releaseWorker w)
  let newestFirst := fun a b : JobRow => b.createdAt ≤ a.createdAt
  let ids := ((s.jobs.rows.filter stranded).insertionSort newestFirst ++
    (s.jobs.rows.filter pendingCaption).insertionSort newestFirst).map JobRow.id
  .ok (s3, ids.filterMap s3.job)

end Startup

section Register

def registerWorker (s : Store) (request : RegisterWorker) (now : Timestamp) :
    Except StoreError (Store × WorkerSnapshot) :=
  let fresh : WorkerSnapshot :=
    { id := request.workerId
      gpuId := request.gpuId
      gpuName := request.gpuName
      status := .idle
      currentJobId := none
      capabilities := request.capabilities
      loadedModels := request.loadedModels
      utilization := request.utilization
      statusReason := none
      registeredAt := now
      lastSeenAt := now }
  let s' : Store :=
    match s.workers.insert fresh with
    | some workers => { s with workers := workers }
    | none =>
        s.updateWorkers (fun w => w.id = request.workerId) fun w =>
          { w with
            gpuId := request.gpuId
            gpuName := request.gpuName
            status := if w.currentJobId = none then .idle else w.status
            statusReason := none
            capabilities := request.capabilities
            loadedModels := request.loadedModels
            utilization := request.utilization
            lastSeenAt := now }
  match s'.worker request.workerId with
  | none => .error (.notFound request.workerId)
  | some w => .ok (s', w)

end Register

section Heartbeat

/-- The first half of `heartbeat_worker`: an idle heartbeat follows the worker row's
stored job. `none` as the second component means no job was interrupted. -/
def interruptPreviousJob (s : Store) (worker : WorkerSnapshot) (request : WorkerHeartbeat)
    (now : Timestamp) : Except StoreError (Store × Option String) :=
  match request.currentJobId, worker.currentJobId with
  | none, some previousJobId =>
      match s.job previousJobId with
      | none => .error (.notFound previousJobId)
      | some previousJob =>
          if previousJob.status.isActive && previousJob.lastHeartbeatAt.isSome then
            .ok (s.updateJobs (fun r => r.id = previousJobId)
              (fun r => r.interruptOnIdleHeartbeat now), some previousJobId)
          else .ok (s, none)
  | _, _ => .ok (s, none)

def heartbeatWorkerRow (request : WorkerHeartbeat) (now : Timestamp) (w : WorkerSnapshot) :
    WorkerSnapshot :=
  { w with
    status := request.status
    currentJobId := request.currentJobId
    loadedModels := request.loadedModels
    utilization := request.utilization
    statusReason := request.statusReason
    lastSeenAt := now }

/-- The second half: the liveness refresh is scoped to the reporting worker's rows. -/
def refreshLiveness (s : Store) (request : WorkerHeartbeat) (now : Timestamp) : Store :=
  match request.currentJobId with
  | none => s
  | some jobId =>
      s.updateJobs (fun r => r.id = jobId && r.workerId = some request.workerId)
        (fun r => r.touchHeartbeat now)

def heartbeatWorker (s : Store) (request : WorkerHeartbeat) (now : Timestamp) :
    Except StoreError (Store × WorkerSnapshot × Option JobRow) :=
  match s.worker request.workerId with
  | none => .error (.notFound request.workerId)
  | some worker =>
      match interruptPreviousJob s worker request now with
      | .error e => .error e
      | .ok (s1, interrupted) =>
          let s2 := s1.updateWorkers (fun w => w.id = request.workerId)
            (fun w => heartbeatWorkerRow request now w)
          .ok (refreshLiveness s2 request now, heartbeatWorkerRow request now worker,
            interrupted.bind s1.job)

end Heartbeat

section StaleSweep

/-- The cutoff of a timeout or grace window; a zero window counts as one second. -/
def sweepCutoff (now : Timestamp) (seconds : Nat) : Timestamp :=
  now - max seconds 1

def staleWorker (cutoff : Timestamp) (w : WorkerSnapshot) : Bool :=
  w.status ≠ .offline && w.lastSeenAt < cutoff

/-- The two wordings of a stale interruption: the worker was last seen before this
process started, or it went quiet while the process ran. -/
def staleWording (sessionStartedAt : Option Timestamp) (timeoutSeconds : Nat)
    (owner : Option WorkerSnapshot) : String × String :=
  match owner, sessionStartedAt with
  | some w, some started =>
      if w.lastSeenAt < started then
        ("SceneWorks stopped while this job was running.",
          "SceneWorks stopped or restarted while this job was running, and its worker never " ++
          "reconnected. The last heartbeat was at " ++ formatUnixSeconds w.lastSeenAt ++
          " (UTC). The app, the worker, or the GPU driver may have crashed, or the app was " ++
          "closed; the app logs usually end at that moment, so check the operating system's " ++
          "logs from that time. You can retry the job.")
      else lostContact
  | _, _ => lostContact
where
  lostContact : String × String :=
    ("Lost contact with the worker.",
      "No heartbeat from the worker for " ++ Nat.repr timeoutSeconds ++ "s. The worker may have " ++
      "crashed, hung, or lost its connection to the app. If it reconnects you can retry the " ++
      "job; if this keeps happening, check System → Logs.")

def markStaleWorkersInterrupted (s : Store) (sessionStartedAt : Option Timestamp)
    (timeoutSeconds : Nat) (now : Timestamp) :
    Except StoreError (Store × List WorkerSnapshot × List JobRow) :=
  let cutoff := sweepCutoff now timeoutSeconds
  let stale := s.workers.rows.filter (staleWorker cutoff)
  if stale.isEmpty then .ok (s, [], [])
  else
    let staleIds := stale.map WorkerSnapshot.id
    let ownedByStale := fun r : JobRow =>
      (r.workerId.any fun owner => staleIds.contains owner) && r.status.isActive
    let s1 := s.updateJobs ownedByStale fun r =>
      let wording := staleWording sessionStartedAt timeoutSeconds (r.workerId.bind s.worker)
      r.reclaim now .interrupted .interrupted wording.1 wording.2
    let s2 := s1.updateWorkers (fun w => staleIds.contains w.id)
      (fun w => { releaseWorker w with lastSeenAt := now })
    .ok (s2, staleIds.filterMap s2.worker,
      ((s.jobs.rows.filter ownedByStale).map JobRow.id).filterMap s2.job)

end StaleSweep

section TerminationReport

variable (policy : RoutingPolicy)

def Store.activeJobsOf (s : Store) (workerId : String) : List JobRow :=
  s.jobs.rows.filter fun r => r.workerId = some workerId && r.status.isActive

/-- `fail_worker_job_terminated`. The statement that lists the worker's active jobs
has no `order by`, so which of several it fails is open: `pick` chooses. -/
def failWorkerJobTerminated (s : Store) (workerId : String) (signal exitCode : Option Int)
    (pick : Nat) (now : Timestamp) : Except StoreError (Store × Option JobRow) :=
  let active := s.activeJobsOf workerId
  let release := fun s' : Store => s'.updateWorkers (fun w => w.id = workerId)
    (fun w => { releaseWorker w with lastSeenAt := now })
  match active[pick % active.length]? with
  | none => .ok (release s, none)
  | some job =>
      let error := policy.terminationFailureError signal exitCode job.jobType
      let s1 := s.updateJobs (fun r => r.id = job.id && r.status.isActive)
        (fun r => r.failTerminated now error)
      .ok (release s1, s1.job job.id)

end TerminationReport

section FailSweeps

variable (policy : RoutingPolicy)

/-- `fail_queued_jobs`: the guarded write of every candidate, and the ids it changed. -/
def failQueuedJobs (now : Timestamp) : List (String × String × String) → Store →
    Store × List String
  | [], s => (s, [])
  | (id, message, error) :: rest, s =>
      let (s', failedIds) := failQueuedJobs now rest
        (s.updateJobs (isJobIn id .queued) (fun r => r.failQueued now message error))
      (s', if s.jobIsIn id .queued then id :: failedIds else failedIds)

/-- The queued rows in enqueue order. -/
def Store.queuedByAge (s : Store) : List JobRow :=
  (s.jobs.rows.filter fun r => r.status = .queued).insertionSort fun a b =>
    a.createdAt ≤ b.createdAt

/-- A sweep: the candidates a judgement picks from the queued rows are failed. -/
def sweepQueued (s : Store) (now : Timestamp)
    (judge : JobRow → Option (String × String)) : Except StoreError (Store × List JobRow) :=
  let candidates := s.queuedByAge.filterMap fun r => (judge r).map fun words => (r.id, words)
  let (s', failedIds) := failQueuedJobs now candidates s
  .ok (s', failedIds.filterMap s'.job)

def payloadModel (r : JobRow) : String :=
  (getStr r.payload "model").getD "(unknown)"

def mlxUnavailableError (r : JobRow) (graceSeconds : Nat) : String :=
  "mlx_unavailable: the MLX GPU worker is required on macOS but no live worker claimed this " ++
  "job within " ++ Nat.repr graceSeconds ++ "s (model=" ++ payloadModel r ++ ", type=" ++
  r.jobType.asStr ++ "). There is no fallback worker on Mac — check System → Logs and " ++
  "confirm the MLX worker is running."

def failStrandedMlxJobs (s : Store) (mlxRequired : Bool) (graceSeconds : Nat) (now : Timestamp) :
    Except StoreError (Store × List JobRow) :=
  let cutoff := sweepCutoff now graceSeconds
  if !mlxRequired then .ok (s, [])
  else if s.workers.rows.any fun w =>
      w.gpuId = "mlx" && w.status ≠ .offline && cutoff ≤ w.lastSeenAt then .ok (s, [])
  else sweepQueued s now fun r =>
    if r.createdAt < cutoff && jobIsAnyMlxEligible policy r.jobType r.payload then
      some ("MLX worker unavailable.", mlxUnavailableError r graceSeconds)
    else none

def failUnsupportedMlxJobs (s : Store) (mlxRequired enforce : Bool) (now : Timestamp) :
    Except StoreError (Store × List JobRow) :=
  if !mlxRequired || !enforce then .ok (s, [])
  else sweepQueued s now fun r =>
    (policy.macRustUnsupported r.jobType r.payload).map fun reason =>
      ("Not supported by the MLX flow on macOS.", reason)

def candleUnavailableError (r : JobRow) (graceSeconds : Nat) : String :=
  "candle_unavailable: the candle GPU worker is required off-Mac but no live worker claimed " ++
  "this job within " ++ Nat.repr graceSeconds ++ "s (model=" ++ payloadModel r ++ ", type=" ++
  r.jobType.asStr ++ "). There is no fallback worker on this deployment — check System → " ++
  "Logs and confirm the candle worker is running."

def failStrandedCandleJobs (s : Store) (candleRequired : Bool) (graceSeconds : Nat)
    (now : Timestamp) : Except StoreError (Store × List JobRow) :=
  let cutoff := sweepCutoff now graceSeconds
  if !candleRequired then .ok (s, [])
  else if s.workers.rows.any fun w =>
      w.status ≠ .offline && cutoff ≤ w.lastSeenAt && workerIsCandle w then .ok (s, [])
  else sweepQueued s now fun r =>
    if r.createdAt < cutoff && jobIsAnyCandleEligible policy r.jobType r.payload then
      some ("Candle worker unavailable.", candleUnavailableError r graceSeconds)
    else none

def platformUnreachableError (r : JobRow) (os : String) : String :=
  let mode := (getStr r.payload "mode").getD r.jobType.asStr
  "platform_unreachable: " ++ payloadModel r ++ " cannot render the \"" ++ mode ++
  "\" mode on " ++ os ++ " — that combination runs only on the macOS MLX backend, and no " ++
  "worker that will ever claim it can register on this host (model=" ++ payloadModel r ++
  ", type=" ++ r.jobType.asStr ++ "). Choose a mode this model serves here, or a model that " ++
  "serves this mode on Windows/Linux."

def isMacOs (hostOs : String) : Bool := hostOs = "macos" || hostOs = "darwin"

def videoRequestIsClaimableOnPlatform (jobType : JobType) (payload : JsonObject) (os : String) :
    Bool :=
  isMacOs os || videoRequestIsCandleEligible policy.toVideoPolicy jobType payload

def failPlatformUnreachableJobs (s : Store) (hostOs : String) (now : Timestamp) :
    Except StoreError (Store × List JobRow) :=
  if isMacOs hostOs then .ok (s, [])
  else sweepQueued s now fun r =>
    if isVideoClaimType r.jobType && !r.claim.candleEligible &&
        r.claim.factsVersion = claimRoutingFactsVersion &&
        r.claim.payloadRevision = r.payloadRevision &&
        !videoRequestIsClaimableOnPlatform policy r.jobType r.payload hostOs then
      some ("This mode has no backend on this platform.", platformUnreachableError r hostOs)
    else none

def failUnsupportedCandleJobs (s : Store) (candleRequired enforce : Bool) (now : Timestamp) :
    Except StoreError (Store × List JobRow) :=
  if !candleRequired || !enforce then .ok (s, [])
  else sweepQueued s now fun r =>
    (policy.candleUnsupported r.jobType r.payload).map fun reason =>
      ("Not supported by the candle/CUDA flow off-Mac.", reason)

end FailSweeps

end SceneWorks.JobsStore
