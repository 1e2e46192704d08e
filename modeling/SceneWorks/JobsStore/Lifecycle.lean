import SceneWorks.JobsStore.Rows

/-!
The operations that create, promote, cancel, reorder, replay, hide and remove job
rows, in the order of `jobs_store.rs`. A row rewrite that a statement performs is a
definition of its own on `JobRow`; the operation applies it under the statement's
`where` clause.

Fresh ids come from the operating system's generator and are an argument here. Where
an operation reads the clock, the instant is the argument `now`.
-/

namespace SceneWorks.JobsStore

namespace JobRow

variable (now : Timestamp)

/-- Back to the worker queue: the caption promotion without a payload, and the
recovery of a stranded caption job at startup. -/
def promoteToQueued (r : JobRow) : JobRow :=
  { r with
    status := .queued
    stage := .queued
    message := "Waiting for an available worker."
    updatedAt := now }

/-- A replaced payload together with the projection of that payload, bound to the
revision the trigger is expected to reach. -/
def rewritePayload (facts : ClaimRoutingFacts) (payload : JsonObject) (r : JobRow) : JobRow :=
  { r with
    payload := payload
    updatedAt := now
    claim := facts.columns (r.payloadRevision + 1) }

def promoteWithPayload (facts : ClaimRoutingFacts) (payload : JsonObject) (r : JobRow) : JobRow :=
  (r.rewritePayload now facts payload).promoteToQueued now

def queueWorkflow (r : JobRow) : JobRow :=
  { r with
    status := .queued
    stage := .queued
    message := "Source image ready. Waiting for an available vector worker."
    updatedAt := now }

def terminateWorkflow (status : JobStatus) (stage : ProgressStage) (message : String)
    (error : Option String) (r : JobRow) : JobRow :=
  { r with
    status := status
    stage := stage
    progress := 1
    message := message
    error := error
    completedAt := some now
    canceledAt := if status = .canceled then some now else r.canceledAt
    updatedAt := now }

def cancelBeforeStart (r : JobRow) : JobRow :=
  { r with
    status := .canceled
    stage := .canceled
    progress := 1
    cancelRequested := true
    message := "Canceled before a worker started."
    canceledAt := some now
    completedAt := some now
    updatedAt := now }

def requestCancel (r : JobRow) : JobRow :=
  { r with
    cancelRequested := true
    message := "Cancellation requested. Waiting for worker acknowledgement."
    updatedAt := now }

def setQueueRank (rank : Nat) (r : JobRow) : JobRow :=
  { r with
    queueRank := rank
    updatedAt := now }

def markCleared (r : JobRow) : JobRow :=
  { r with clearedAt := some now }

def persistClaimRoutingFacts (facts : ClaimRoutingFacts) (r : JobRow) : JobRow :=
  { r with claim := facts.columns r.payloadRevision }

def setDownloadBinding (binding : Json) (r : JobRow) : JobRow :=
  { r with downloadBinding := some binding }

/-- The projection names the current version, the row's payload revision and the
facts of its payload. -/
def FactsFresh (policy : RoutingPolicy) (r : JobRow) : Prop :=
  r.claim.factsVersion = claimRoutingFactsVersion ∧
    r.claim.payloadRevision = r.payloadRevision ∧
    r.claim.facts r.jobType = ClaimRoutingFacts.fromParts policy r.jobType r.payload

instance (policy : RoutingPolicy) (r : JobRow) : Decidable (r.FactsFresh policy) :=
  inferInstanceAs (Decidable (_ ∧ _ ∧ _))

end JobRow

section Reads

/-- `get_job_on_connection` at the end of a transaction: the row the caller is
handed back. -/
def Store.readBack (s : Store) (id : String) : Except StoreError (Store × JobRow) :=
  match s.job id with
  | none => .error (.notFound id)
  | some r => .ok (s, r)

/-- `select coalesce(max(queue_rank), 0) from jobs`. -/
def Store.maxQueueRank (s : Store) : Nat :=
  (s.jobs.rows.map JobRow.queueRank).foldr max 0

/-- The state a finished transaction leaves: an error rolls it back. -/
def Store.commit {α : Type} (s : Store) : Except StoreError (Store × α) → Store
  | .ok (s', _) => s'
  | .error _ => s

@[simp] theorem Store.commit_ok {α : Type} (s s' : Store) (a : α) :
    s.commit (.ok (s', a)) = s' := rfl

@[simp] theorem Store.commit_error {α : Type} (s : Store) (e : StoreError) :
    s.commit (.error e : Except StoreError (Store × α)) = s := rfl

end Reads

section Initialize

variable (policy : RoutingPolicy)

/-- `backfill_claim_routing_facts`: rows of an older projection, or with a payload
revision the projection does not name, are projected again. -/
def backfillClaimRoutingFacts (s : Store) : Store :=
  s.updateJobs
    (fun r => r.claim.factsVersion ≠ claimRoutingFactsVersion ∨
      r.claim.payloadRevision ≠ r.payloadRevision)
    (fun r => r.persistClaimRoutingFacts (ClaimRoutingFacts.fromParts policy r.jobType r.payload))

def initializeStore (s : Store) : Except StoreError (Store × Unit) :=
  .ok (backfillClaimRoutingFacts policy s, ())

end Initialize

section Purge

/-- The retention predicate of `purge_terminal_jobs_completed_before`. -/
def purgeable (cutoff : Timestamp) (r : JobRow) : Bool :=
  r.status.isTerminal && r.completedAt.any fun completedAt => completedAt < cutoff

def purgeTerminalJobsCompletedBefore (s : Store) (cutoff : Timestamp) :
    Except StoreError (Store × Nat) :=
  .ok ({ s with jobs := s.jobs.delete (purgeable cutoff) },
    (s.jobs.rows.filter (purgeable cutoff)).length)

def purgeTerminalJobsOlderThan (s : Store) (retentionDays : Nat) (now : Timestamp) :
    Except StoreError (Store × Nat) :=
  if retentionDays = 0 then .ok (s, 0)
  else purgeTerminalJobsCompletedBefore s (now - retentionDays * 86400)

end Purge

section Create

variable (policy : RoutingPolicy)

def normalizeRequestedGpu (value : String) : String :=
  let trimmed := Text.trim value
  if trimmed = "" then "auto"
  else if Text.eqIgnoreAsciiCase trimmed "auto" || Text.eqIgnoreAsciiCase trimmed "cpu" then
    Text.asciiLower trimmed
  else trimmed

def jobTypeAutomaticallyJumpsQueue (jobType : JobType) : Bool :=
  jobType = .promptRefine

/-- `initial_status_str`, with the stage and the waiting message that go with it. -/
def CreateJob.initialState (request : CreateJob) :
    Except StoreError (JobStatus × ProgressStage × String) :=
  match request.initialStatus with
  | none | some .queued => .ok (.queued, .queued, "Waiting for an available worker.")
  | some .pendingCaption =>
      .ok (.pendingCaption, .pendingCaption, "Preparing the prompt before dispatch.")
  | some .pendingWorkflow =>
      .ok (.pendingWorkflow, .pendingWorkflow, "Creating the source image before vectorization.")
  | some other => .error (.invalidInitialStatus other.asStr)

/-- The row the `insert into jobs` statement writes; every column it does not name
takes its schema default. -/
def CreateJob.newRow (request : CreateJob) (rank : Nat) (id requestedGpu : String)
    (status : JobStatus) (stage : ProgressStage) (message : String) (provenance : Option Json)
    (now : Timestamp) : JobRow where
  id := id
  jobType := request.jobType
  status := status
  queueRank := rank
  projectId := request.projectId
  projectName := request.projectName
  payload := request.payload
  result := []
  requestedGpu := requestedGpu
  assignedGpu := none
  workerId := none
  progress := 0
  stage := stage
  message := message
  error := none
  etaSeconds := none
  attempts := request.attempts
  sourceJobId := request.sourceJobId
  duplicateOfJobId := request.duplicateOfJobId
  cancelRequested := false
  createdAt := now
  updatedAt := now
  startedAt := none
  completedAt := none
  canceledAt := none
  lastHeartbeatAt := none
  modelProvenance := provenance
  downloadBinding := none
  claim := (ClaimRoutingFacts.fromParts policy request.jobType request.payload).columns 0
  peakGpuMemoryPct := none
  peakGpuLoadPct := none
  backend := none
  revision := 0
  payloadRevision := 0
  sideEffectsPending := false
  sideEffectsRetryCount := 0
  sideEffectsRetryAt := 0
  clearedAt := none

def createJobOnConnection (s : Store) (request : CreateJob) (id : String)
    (provenance : Option Json) (now : Timestamp) : Except StoreError (Store × JobRow) :=
  let requestedGpu := normalizeRequestedGpu request.requestedGpu
  if jobRequiresGpu request.jobType && requestedGpu = "cpu" then
    .error (.invalidRequestedGpu
      (request.jobType.asStr ++ " jobs cannot target CPU workers. Choose auto or a GPU id."))
  else
    match request.initialState with
    | .error e => .error e
    | .ok (status, stage, message) =>
        let rank :=
          if jobTypeAutomaticallyJumpsQueue request.jobType then s.maxQueueRank + 1 else 0
        let row := request.newRow policy rank id requestedGpu status stage message provenance now
        match s.jobs.insert row with
        | none => .error .sqlite
        | some jobs => .ok ({ s with jobs := jobs }, row)

/-- `write_download_binding`, then the row as it stood when it was created. -/
def writeDownloadBinding (s : Store) (row : JobRow) (binding : Option Json) : Store × JobRow :=
  match binding with
  | none => (s, row)
  | some binding =>
      (s.updateJobs (fun r => r.id = row.id) (fun r => r.setDownloadBinding binding), row)

/-- `create_job_with_download_binding`, which every other `create_job` form calls. -/
def createJob (s : Store) (request : CreateJob) (id : String) (provenance binding : Option Json)
    (now : Timestamp) : Except StoreError (Store × JobRow) :=
  match createJobOnConnection policy s request id provenance now with
  | .error e => .error e
  | .ok (s', row) => .ok (writeDownloadBinding s' row binding)

def maxJobAttempts : Nat := 5

def downloadBindingMatchesPayload (binding : Json) (payload : JsonObject) : Bool :=
  match (binding.get "payload").bind Json.asObject with
  | none => false
  | some saved =>
      JsonObject.remove saved "downloadAction" = JsonObject.remove payload "downloadAction"

/-- The source binding a replay keeps: the caller's, or the row's own when the replay
does not name another model. -/
def replayProvenance (job : JobRow) (changes : JsonObject) (provenance : Option Json) :
    Option Json :=
  provenance.or
    (if !JsonObject.containsKey changes "model" &&
        !JsonObject.containsKey changes "modelManifestEntry" then job.modelProvenance else none)

/-- The replay both `retry_job` and `duplicate_job` are built from. -/
def replayJob (s : Store) (job : JobRow) (request : CreateJob) (id : String)
    (changes : JsonObject) (provenance binding : Option Json) (now : Timestamp) :
    Except StoreError (Store × JobRow) :=
  if binding.any fun binding =>
      !downloadBindingMatchesPayload binding (JsonObject.extend job.payload changes) then
    .error (.invalidStatus "Download binding changed during replay")
  else createJob policy s request id (replayProvenance job changes provenance) binding now

def retryJob (s : Store) (jobId : String) (changes : JsonObject) (id : String)
    (provenance binding : Option Json) (now : Timestamp) : Except StoreError (Store × JobRow) :=
  match s.job jobId with
  | none => .error (.notFound jobId)
  | some job =>
      if maxJobAttempts ≤ job.attempts then .error (.retryLimit maxJobAttempts)
      else
        replayJob policy s job
          { jobType := job.jobType
            projectId := job.projectId
            projectName := job.projectName
            payload := JsonObject.extend job.payload changes
            requestedGpu := job.requestedGpu
            sourceJobId := some job.id
            duplicateOfJobId := none
            attempts := job.attempts + 1
            initialStatus := none } id changes provenance binding now

def duplicateJob (s : Store) (jobId : String) (request : DuplicateJob) (id : String)
    (provenance binding : Option Json) (now : Timestamp) : Except StoreError (Store × JobRow) :=
  match s.job jobId with
  | none => .error (.notFound jobId)
  | some job =>
      replayJob policy s job
        { jobType := job.jobType
          projectId := job.projectId
          projectName := job.projectName
          payload := policy.yue2RefreshBlockForDuplicate
            (JsonObject.extend job.payload request.payloadChanges)
          requestedGpu := request.requestedGpu.getD job.requestedGpu
          sourceJobId := none
          duplicateOfJobId := some job.id
          attempts := 1
          initialStatus := none } id request.payloadChanges provenance binding now

end Create

section Promote

variable (policy : RoutingPolicy)

/-- The row a guarded statement `where id = ?1 and status = ?2` matches. -/
def isJobIn (id : String) (status : JobStatus) (r : JobRow) : Bool :=
  r.id = id && r.status = status

/-- Whether a guarded statement for this job and status matches a row. -/
def Store.jobIsIn (s : Store) (id : String) (status : JobStatus) : Bool :=
  (s.job id).any fun r => r.status = status

def promotePendingCaptionJob (s : Store) (id : String) (newPayload : Option JsonObject)
    (now : Timestamp) : Except StoreError (Store × Bool × JobRow) :=
  match s.job id with
  | none => .error (.notFound id)
  | some current =>
      let s' :=
        match newPayload with
        | some payload =>
            let facts := ClaimRoutingFacts.fromParts policy current.jobType payload
            s.updateJobs (isJobIn id .pendingCaption)
              (fun r => r.promoteWithPayload now facts payload)
        | none =>
            s.updateJobs (isJobIn id .pendingCaption) (fun r => r.promoteToQueued now)
      (s'.readBack id).map fun (s', job) => (s', s.jobIsIn id .pendingCaption, job)

def updatePendingWorkflowPayload (s : Store) (id : String) (payload : JsonObject)
    (now : Timestamp) : Except StoreError (Store × Bool × JobRow) :=
  match s.job id with
  | none => .error (.notFound id)
  | some current =>
      let facts := ClaimRoutingFacts.fromParts policy current.jobType payload
      let s' := s.updateJobs (isJobIn id .pendingWorkflow)
        (fun r => r.rewritePayload now facts payload)
      (s'.readBack id).map fun (s', job) => (s', s.jobIsIn id .pendingWorkflow, job)

/-- The second transaction of `promote_pending_workflow_job`. The store's lock is
released between the two, so other operations may run in between. -/
def queuePendingWorkflow (s : Store) (id : String) (now : Timestamp) :
    Except StoreError (Store × Bool × JobRow) :=
  let s' := s.updateJobs (isJobIn id .pendingWorkflow) (fun r => r.queueWorkflow now)
  (s'.readBack id).map fun (s', job) => (s', s.jobIsIn id .pendingWorkflow, job)

/-- `promote_pending_workflow_job` when nothing runs between its two transactions. -/
def promotePendingWorkflowJob (s : Store) (id : String) (payload : JsonObject)
    (now : Timestamp) : Except StoreError (Store × Bool × JobRow) :=
  match updatePendingWorkflowPayload policy s id payload now with
  | .error e => .error e
  | .ok (s', false, job) => .ok (s', false, job)
  | .ok (s', true, _) => queuePendingWorkflow s' id now

/-- The stage text a workflow termination writes is its status text. -/
def workflowTerminationStage : JobStatus → Option ProgressStage
  | .failed => some .failed
  | .canceled => some .canceled
  | .interrupted => some .interrupted
  | _ => none

def terminatePendingWorkflowJob (s : Store) (id : String) (status : JobStatus) (message : String)
    (error : Option String) (now : Timestamp) : Except StoreError (Store × Bool × JobRow) :=
  match workflowTerminationStage status with
  | none => .error (.invalidStatus status.asStr)
  | some stage =>
      let s' := s.updateJobs (isJobIn id .pendingWorkflow)
        (fun r => r.terminateWorkflow now status stage message error)
      (s'.readBack id).map fun (s', job) => (s', s.jobIsIn id .pendingWorkflow, job)

end Promote

section Cancel

def cancelJob (s : Store) (id : String) (now : Timestamp) : Except StoreError (Store × JobRow) :=
  match s.job id with
  | none => .error (.notFound id)
  | some job =>
      if job.status.isTerminal then .ok (s, job)
      else if job.status.isPending then
        (s.updateJobs (fun r => r.id = id) (fun r => r.cancelBeforeStart now)).readBack id
      else (s.updateJobs (fun r => r.id = id) (fun r => r.requestCancel now)).readBack id

/-- The pending rows of the project the caller filters on, or of every project. -/
def pendingInProject (projectId : Option String) (r : JobRow) : Bool :=
  r.status.isPending && projectId.all fun project => r.projectId = some project

def cancelPendingJobs (s : Store) (projectId : Option String) (now : Timestamp) :
    Except StoreError (Store × List JobRow) :=
  let s' := s.updateJobs (pendingInProject projectId) (fun r => r.cancelBeforeStart now)
  let ids := ((s.jobs.rows.filter (pendingInProject projectId)).insertionSort
    fun a b => b.createdAt ≤ a.createdAt).map JobRow.id
  .ok (s', ids.filterMap s'.job)

end Cancel

section Prioritize

/-- `order by queue_rank desc, created_at asc, id asc`. -/
def schedulesBefore (a b : JobRow) : Prop :=
  b.queueRank < a.queueRank ∨ a.queueRank = b.queueRank ∧
    (a.createdAt < b.createdAt ∨ a.createdAt = b.createdAt ∧ a.id ≤ b.id)

instance : DecidableRel schedulesBefore := fun _ _ => inferInstanceAs (Decidable (_ ∨ _ ∧ _))

/-- The ranking loop: the first selected job takes the highest new rank. -/
def assignRanks (now : Timestamp) (top : Nat) : List JobRow → Store → Store
  | [], s => s
  | job :: rest, s =>
      assignRanks now top rest
        (s.updateJobs (fun r => r.id = job.id && r.status.isPending)
          (fun r => r.setQueueRank now (top + (rest.length + 1))))

def prioritizeJobs (s : Store) (ids : List String) (now : Timestamp) :
    Except StoreError (Store × List JobRow) :=
  let selected :=
    (s.jobs.rows.filter fun r => ids.contains r.id && r.status.isPending).insertionSort
    schedulesBefore
  let s' := assignRanks now s.maxQueueRank selected s
  .ok (s', (selected.map JobRow.id).filterMap s'.job)

end Prioritize

section Clear

def clearable (projectId : Option String) (r : JobRow) : Bool :=
  r.status.isTerminal && r.clearedAt.isNone && projectId.all fun project =>
    r.projectId = some project

def clearTerminalJobs (s : Store) (projectId : Option String) (now : Timestamp) :
    Except StoreError (Store × List String) :=
  .ok (s.updateJobs (clearable projectId) (fun r => r.markCleared now),
    ((s.jobs.rows.filter (clearable projectId)).insertionSort
      fun a b => b.createdAt ≤ a.createdAt).map JobRow.id)

def clearJob (s : Store) (id : String) (now : Timestamp) : Except StoreError (Store × JobRow) :=
  match s.job id with
  | none => .error (.notFound id)
  | some job =>
      if !job.status.isTerminal then
        .error (.invalidStatus ("job " ++ id ++ " is " ++ job.status.asStr ++
          " — only completed, failed, canceled, or interrupted jobs can be cleared"))
      else
        (s.updateJobs (fun r => r.id = id && r.clearedAt.isNone)
          (fun r => r.markCleared now)).readBack id

end Clear

end SceneWorks.JobsStore
