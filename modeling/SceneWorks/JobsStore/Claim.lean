import SceneWorks.JobsStore.Workers

/-!
The claim path: the header scan that selects a job, the deferrals that may yield it
to another worker, and `claim_next_job_routed` itself.
-/

namespace SceneWorks.JobsStore

section GpuBusy

def isAppleUnifiedGpuId (gpuId : String) : Bool :=
  Text.eqIgnoreAsciiCase gpuId "mlx" || Text.eqIgnoreAsciiCase gpuId "mps"

/-- Whether an assigned GPU id names the GPU of a worker: the two Apple aliases are
one device in any ASCII case, every other id is compared as it is. -/
def sameGpu (assigned gpuId : String) : Bool :=
  if isAppleUnifiedGpuId gpuId then isAppleUnifiedGpuId assigned else assigned = gpuId

def occupiesGpu (gpuId : String) (r : JobRow) : Bool :=
  (r.assignedGpu.any fun assigned => sameGpu assigned gpuId) && r.status.isActive &&
    !isNonGpuJobType r.jobType

def activeGpuJobExists (s : Store) (gpuId : String) : Bool :=
  s.jobs.rows.any (occupiesGpu gpuId)

end GpuBusy

section Dispatch

variable (policy : RoutingPolicy)

structure DispatchScore where
  hasUtilization : Bool
  freeMemoryMb : ℚ
  memoryUsagePercent : ℚ
  gpuLoadPercent : ℚ
  warmModel : Bool
  deriving DecidableEq

def routingModelKeysMatchLoaded (keys : List String) (worker : WorkerSnapshot) : Bool :=
  worker.loadedModels.any fun loaded => keys.any fun key => key = loaded

def jobMatchesLoadedModel (job : JobRow) (worker : WorkerSnapshot) : Bool :=
  if job.requestedGpu ≠ "auto" || isNonGpuJobType job.jobType || worker.loadedModels.isEmpty then
    false
  else routingModelKeysMatchLoaded (desiredModelKeys job.payload) worker

/-- `u64::checked_sub`. -/
def checkedSub (total used : Nat) : Option Nat :=
  if used ≤ total then some (total - used) else none

def dispatchScore (job : JobRow) (worker : WorkerSnapshot) : DispatchScore :=
  let total := worker.utilization.bind WorkerUtilizationSnapshot.memoryTotalMb
  let used := worker.utilization.bind WorkerUtilizationSnapshot.memoryUsedMb
  let gpuLoad := worker.utilization.bind WorkerUtilizationSnapshot.gpuLoadPercent
  let free := (worker.utilization.bind WorkerUtilizationSnapshot.memoryFreeMb).or
    (match total, used with
      | some total, some used => checkedSub total used
      | _, _ => none)
  let memoryUsagePercent : ℚ :=
    match total, used with
    | some total, some used => if 0 < total then (used : ℚ) / (total : ℚ) * 100 else 0
    | _, _ => 0
  { hasUtilization := free.isSome || gpuLoad.isSome || total.isSome
    freeMemoryMb := (free.getD 0 : Nat)
    memoryUsagePercent := memoryUsagePercent
    gpuLoadPercent := gpuLoad.getD 0
    warmModel := jobMatchesLoadedModel job worker }

def candidateIsNotWorse (candidate current : DispatchScore) : Bool :=
  current.freeMemoryMb ≤ candidate.freeMemoryMb + 512 &&
    candidate.gpuLoadPercent ≤ current.gpuLoadPercent + 10 &&
    candidate.memoryUsagePercent ≤ current.memoryUsagePercent + 10

def candidateRelief (candidate current : DispatchScore) : Bool :=
  1024 ≤ candidate.freeMemoryMb - current.freeMemoryMb ||
    15 ≤ current.gpuLoadPercent - candidate.gpuLoadPercent ||
    10 ≤ current.memoryUsagePercent - candidate.memoryUsagePercent

/-- The three low-to-recovered rescues, which no tolerance band guards. -/
def thresholdRescue (candidate current : DispatchScore) : Bool :=
  (current.freeMemoryMb < 2048 && 4096 ≤ candidate.freeMemoryMb) ||
    (85 ≤ current.gpuLoadPercent && candidate.gpuLoadPercent ≤ 75) ||
    (90 ≤ current.memoryUsagePercent && candidate.memoryUsagePercent ≤ 80)

def dispatchScoreIsBetter (candidate current : DispatchScore) : Bool :=
  if !candidate.hasUtilization || !current.hasUtilization then false
  else if candidateIsNotWorse candidate current && candidateRelief candidate current then true
  else if candidateIsNotWorse candidate current && candidate.warmModel && !current.warmModel then
    true
  else thresholdRescue candidate current

/-- `order by gpu_id, id`. -/
def workersByGpu (a b : WorkerSnapshot) : Prop :=
  a.gpuId < b.gpuId ∨ a.gpuId = b.gpuId ∧ a.id ≤ b.id

instance : DecidableRel workersByGpu := fun _ _ => inferInstanceAs (Decidable (_ ∨ _ ∧ _))

def autoGpuCandidates (s : Store) (worker : WorkerSnapshot) : List WorkerSnapshot :=
  (s.workers.rows.filter fun w =>
    w.id ≠ worker.id && w.gpuId ≠ "cpu" && w.status = .idle).insertionSort workersByGpu

def shouldDeferAutoGpuClaim (s : Store) (job : JobRow) (worker : WorkerSnapshot) : Bool :=
  if job.requestedGpu ≠ "auto" || isNonGpuJobType job.jobType || worker.gpuId = "cpu" then false
  else if workerIsMlx worker then false
  else
    let currentScore := dispatchScore job worker
    if !currentScore.hasUtilization then false
    else
      (autoGpuCandidates s worker).any fun candidate =>
        workerSupportsJob policy candidate job.jobType job.payload &&
          !activeGpuJobExists s candidate.gpuId &&
          dispatchScoreIsBetter (dispatchScore job candidate) currentScore

/-- `idle_mlx_worker_can_claim`. -/
def idleMlxWorkerCanClaim (s : Store) (job : JobRow) (worker : WorkerSnapshot) : Bool :=
  let candidates := (s.workers.rows.filter fun w =>
    w.id ≠ worker.id && w.gpuId = "mlx" && w.status = .idle).insertionSort fun a b => a.id ≤ b.id
  match candidates.find? fun c => workerSupportsJob policy c job.jobType job.payload with
  | none => false
  | some candidate => !activeGpuJobExists s candidate.gpuId

/-- The five `should_defer_*_to_mlx_worker` functions share this body and differ only
in the lane predicate `eligible`. -/
def shouldDeferToMlxWorker (eligible : Bool) (s : Store) (job : JobRow) (worker : WorkerSnapshot)
    (mlxRequired : Bool) : Bool :=
  if workerIsMlx worker || !eligible then false
  else if mlxRequired then true
  else if job.requestedGpu ≠ "auto" then false
  else idleMlxWorkerCanClaim policy s job worker

def shouldDeferImageToMlxWorker (s : Store) (job : JobRow) : WorkerSnapshot → Bool → Bool :=
  shouldDeferToMlxWorker policy (jobIsMlxEligible policy job.jobType job.payload) s job

def shouldDeferVideoToMlxWorker (s : Store) (job : JobRow) : WorkerSnapshot → Bool → Bool :=
  shouldDeferToMlxWorker policy
    (videoRequestIsMlxEligible policy.toVideoPolicy job.jobType job.payload) s job

def shouldDeferTrainingToMlxWorker (s : Store) (job : JobRow) : WorkerSnapshot → Bool → Bool :=
  shouldDeferToMlxWorker policy (trainingJobIsMlxEligible policy job.jobType job.payload) s job

def shouldDeferCaptionToMlxWorker (s : Store) (job : JobRow) : WorkerSnapshot → Bool → Bool :=
  shouldDeferToMlxWorker policy (captionJobIsMlxEligible job.jobType job.payload) s job

def shouldDeferUnderstandingToMlxWorker (s : Store) (job : JobRow) :
    WorkerSnapshot → Bool → Bool :=
  shouldDeferToMlxWorker policy (understandingJobIsMlxEligible job.jobType job.payload) s job

end Dispatch

section Selection

variable (policy : RoutingPolicy)

structure ClaimCandidate where
  id : String
  jobType : JobType
  queueRank : Nat
  requestedGpu : String
  facts : ClaimRoutingFacts
  deriving DecidableEq

def rowToClaimCandidate (r : JobRow) : ClaimCandidate where
  id := r.id
  jobType := r.jobType
  queueRank := r.queueRank
  requestedGpu := r.requestedGpu
  facts := r.claim.facts r.jobType

/-- `order by queue_rank desc, created_at asc, rowid asc`: rows are stored in rowid
order and the sort is stable. -/
def claimOrder (a b : JobRow) : Prop :=
  b.queueRank < a.queueRank ∨ a.queueRank = b.queueRank ∧ a.createdAt ≤ b.createdAt

instance : DecidableRel claimOrder := fun _ _ => inferInstanceAs (Decidable (_ ∨ _ ∧ _))

def headerIsFresh (r : JobRow) : Bool :=
  r.claim.factsVersion = claimRoutingFactsVersion && r.claim.payloadRevision = r.payloadRevision

/-- The first queued row, in claim order, whose projection is out of date. -/
def staleQueuedRow (s : Store) : Option JobRow :=
  ((s.jobs.rows.filter fun r => r.status = .queued && !headerIsFresh r).insertionSort
    claimOrder).head?

/-- Whether the claim query shows a queued row to the worker. -/
def visibleToWorker (worker : WorkerSnapshot) (gpuBusy : Bool) (r : JobRow) : Bool :=
  (isNonGpuJobType r.jobType || r.requestedGpu = "auto" || r.requestedGpu = worker.gpuId) &&
    (!gpuBusy || isNonGpuJobType r.jobType)

def claimCandidates (s : Store) (worker : WorkerSnapshot) (gpuBusy : Bool) :
    List ClaimCandidate :=
  ((s.jobs.rows.filter fun r =>
    r.status = .queued && visibleToWorker worker gpuBusy r && headerIsFresh r).insertionSort
      claimOrder).map rowToClaimCandidate

def workerMaySupportClaimCandidate (worker : WorkerSnapshot) (candidate : ClaimCandidate) : Bool :=
  workerSupportsClaimRoutingFacts worker candidate.facts

/-- The header scan: it stops at the first rank below the first compatible one. -/
def scanCompatible (worker : WorkerSnapshot) : Option Nat → List ClaimCandidate →
    List ClaimCandidate
  | _, [] => []
  | highestCompatibleRank, candidate :: rest =>
      if highestCompatibleRank.any fun rank => candidate.queueRank < rank then []
      else if !workerMaySupportClaimCandidate worker candidate then
        scanCompatible worker highestCompatibleRank rest
      else
        candidate ::
          scanCompatible worker (some (highestCompatibleRank.getD candidate.queueRank)) rest

def namesExplicitGpu (candidate : ClaimCandidate) : Bool :=
  !isNonGpuJobType candidate.jobType && candidate.requestedGpu ≠ "auto"

def candidateMatchesLoadedModel (candidate : ClaimCandidate) (worker : WorkerSnapshot) : Bool :=
  candidate.requestedGpu = "auto" && !isNonGpuJobType candidate.jobType &&
    routingModelKeysMatchLoaded candidate.facts.modelKeys worker

def chooseClaimableCandidate (compatible : List ClaimCandidate) (worker : WorkerSnapshot) :
    Option ClaimCandidate :=
  match compatible with
  | [] => none
  | first :: rest =>
      if isNonGpuJobType first.jobType || first.requestedGpu ≠ "auto" then some first
      else
        ((first :: rest).find? namesExplicitGpu).or
          (((first :: rest).find? fun candidate =>
            candidateMatchesLoadedModel candidate worker).or (some first))

def chooseClaimableJobFromCandidates (s : Store) (candidates : List ClaimCandidate)
    (worker : WorkerSnapshot) : Except StoreError (Option JobRow) :=
  match chooseClaimableCandidate (scanCompatible worker none candidates) worker with
  | none => .ok none
  | some selected =>
      match (s.job selected.id).filter fun r => r.status = .queued with
      | none => .error .sqlite
      | some job =>
          if selected.facts ≠ ClaimRoutingFacts.fromParts policy job.jobType job.payload then
            .error (.claimRoutingFactsMismatch job.id claimRoutingFactsVersion)
          else .ok (some job)

end Selection

section RouteDecision

variable (policy : RoutingPolicy)

inductive RouteLabel where
  | deferredToMlx | claimedByMlx | claimedByCandle | claimedByGpu | explicitGpu
  deriving DecidableEq

structure RouteDecision where
  jobId : String
  jobType : String
  model : Option String
  requestedGpu : String
  workerId : String
  gpuId : String
  decision : RouteLabel
  deriving DecidableEq

def RouteDecision.of (job : JobRow) (worker : WorkerSnapshot) (decision : RouteLabel) :
    RouteDecision where
  jobId := job.id
  jobType := job.jobType.asStr
  model := getStr job.payload "model"
  requestedGpu := job.requestedGpu
  workerId := worker.id
  gpuId := worker.gpuId
  decision := decision

def routeDecisionForClaim (job : JobRow) (worker : WorkerSnapshot) : Option RouteDecision :=
  if !jobIsAnyMlxEligible policy job.jobType job.payload then none
  else if workerIsMlx worker then some (.of job worker .claimedByMlx)
  else if job.requestedGpu ≠ "auto" then some (.of job worker .explicitGpu)
  else if workerIsCandle worker then some (.of job worker .claimedByCandle)
  else some (.of job worker .claimedByGpu)

end RouteDecision

namespace JobRow

variable (now : Timestamp)

/-- The stamp a claim persists before it hands the job out. -/
def stampPayload (payload : JsonObject) (r : JobRow) : JobRow :=
  { r with
    payload := payload
    claim := { r.claim with payloadRevision := r.payloadRevision + 1 } }

def claimBy (workerId assignedGpu : String) (r : JobRow) : JobRow :=
  { r with
    status := .preparing
    assignedGpu := some assignedGpu
    workerId := some workerId
    stage := .preparing
    message := "Worker claimed job."
    startedAt := r.startedAt.or (some now)
    updatedAt := now }

end JobRow

section ClaimNextJob

variable (policy : RoutingPolicy)

def claimWorkerRow (jobId : String) (now : Timestamp) (w : WorkerSnapshot) : WorkerSnapshot :=
  { w with
    status := .busy
    currentJobId := some jobId
    lastSeenAt := now }

/-- The stamp transaction step of a claim, for the four video job types. -/
def stampClaimedJob (s : Store) (queued : JobRow) : Store :=
  if isVideoClaimType queued.jobType then
    match stampClaimedReferenceImageResizeMode policy.toVideoPolicy queued.payload with
    | none => s
    | some payload => s.updateJobs (isJobIn queued.id .queued) (fun r => r.stampPayload payload)
  else s

def assignedGpuFor (queued : JobRow) (worker : WorkerSnapshot) : String :=
  if isNonGpuJobType queued.jobType then "cpu" else worker.gpuId

/-- The writes of a claim that was not deferred. -/
def takeClaim (s : Store) (queued : JobRow) (worker : WorkerSnapshot) (now : Timestamp) : Store :=
  let s1 := stampClaimedJob policy s queued
  let s2 := s1.updateJobs (isJobIn queued.id .queued)
    (fun r => r.claimBy now worker.id (assignedGpuFor queued worker))
  s2.updateWorkers (fun w => w.id = worker.id) (fun w => claimWorkerRow queued.id now w)

def shouldDeferToSomeMlxWorker (s : Store) (queued : JobRow) (worker : WorkerSnapshot)
    (mlxRequired : Bool) : Bool :=
  shouldDeferImageToMlxWorker policy s queued worker mlxRequired ||
    shouldDeferVideoToMlxWorker policy s queued worker mlxRequired ||
    shouldDeferTrainingToMlxWorker policy s queued worker mlxRequired ||
    shouldDeferCaptionToMlxWorker policy s queued worker mlxRequired ||
    shouldDeferUnderstandingToMlxWorker policy s queued worker mlxRequired

def claimNextJobRouted (s : Store) (workerId : String) (mlxRequired : Bool) (now : Timestamp) :
    Except StoreError (Store × Option JobRow × Option RouteDecision) :=
  match s.worker workerId with
  | none => .error (.notFound workerId)
  | some worker =>
      match staleQueuedRow s with
      | some r =>
          .error (.staleClaimRoutingFacts r.id r.claim.factsVersion claimRoutingFactsVersion
            r.payloadRevision r.claim.payloadRevision)
      | none =>
          let gpuBusy := activeGpuJobExists s worker.gpuId
          match chooseClaimableJobFromCandidates policy s (claimCandidates s worker gpuBusy)
              worker with
          | .error e => .error e
          | .ok none => .ok (s, none, none)
          | .ok (some queued) =>
              if shouldDeferAutoGpuClaim policy s queued worker then .ok (s, none, none)
              else if shouldDeferToSomeMlxWorker policy s queued worker mlxRequired then
                .ok (s, none, some (.of queued worker .deferredToMlx))
              else
                let s' := takeClaim policy s queued worker now
                (s'.readBack queued.id).map fun (s', job) =>
                  (s', some job, routeDecisionForClaim policy queued worker)

end ClaimNextJob

end SceneWorks.JobsStore
