import Mathlib.Algebra.Order.Ring.Rat
import SceneWorks.JobsStore.Claim

/-!
Progress reports and the handoff of terminal side effects: acceptance, the due set,
deferral, and the guarded result replacement that ends the handoff.
-/

namespace SceneWorks.JobsStore

section ResultMerge

variable (policy : RoutingPolicy)

def progressResultAccumulationKeys : List String :=
  ["assetWrites", "generationSet", "prefixKvCache", "assets", "assetIds"]

def modelProvenanceKey : String := "modelProvenance"

/-- Keep the stored value of each listed key the incoming result omits. -/
def keepOmitted (existing : JsonObject) (keys : List String) (incoming : JsonObject) :
    JsonObject :=
  keys.foldl (fun acc key =>
    if JsonObject.containsKey acc key then acc
    else
      match JsonObject.get existing key with
      | none => acc
      | some value => JsonObject.insert acc key value) incoming

def trainingSampleKey (sample : Json) (fallbackIndex : Nat) : String :=
  match sample.asObject with
  | none => "sample:" ++ Nat.repr fallbackIndex
  | some object =>
      let named := ["relativePath", "path", "url"].findSome? fun key =>
        (getStr object key).bind fun value =>
          if value = "" then none else some (key ++ ":" ++ value)
      named.getD
        ("step:" ++ ((JsonObject.get object "step").map policy.jsonText).getD "unknown" ++
          ":prompt:" ++ (getStr object "prompt").getD "" ++ ":index:" ++ Nat.repr fallbackIndex)

/-- `append_training_samples`: samples with a key already seen are dropped. -/
def appendTrainingSamples (acc : List Json × List String) (value : Option Json) :
    List Json × List String :=
  ((value.bind Json.asArray).getD []).foldl (fun acc sample =>
    let key := trainingSampleKey policy sample acc.1.length
    if acc.2.contains key then acc else (acc.1 ++ [sample], key :: acc.2)) acc

def mergeTrainingSampleHistory (existing incoming : JsonObject) : JsonObject :=
  let incoming := keepOmitted existing ["resumeCheckpointStep", "trainingSamples"] incoming
  if (getArray incoming "trainingSamples").isNone &&
      (getArray incoming "latestTrainingSamples").isNone then incoming
  else
    let seen := appendTrainingSamples policy ([], []) (JsonObject.get existing "trainingSamples")
    let seen := appendTrainingSamples policy seen (JsonObject.get incoming "trainingSamples")
    let seen := appendTrainingSamples policy seen (JsonObject.get incoming "latestTrainingSamples")
    if seen.1.isEmpty then incoming
    else JsonObject.insert incoming "trainingSamples" (.arr seen.1)

def mergeProgressResult (current : JobRow) (incoming : JsonObject) : JsonObject :=
  let merged := mergeTrainingSampleHistory policy current.result incoming
  let merged := keepOmitted current.result progressResultAccumulationKeys merged
  let merged := JsonObject.remove merged modelProvenanceKey
  match current.modelProvenance with
  | none => merged
  | some provenance => JsonObject.insert merged modelProvenanceKey provenance

end ResultMerge

section ProgressUpdate

variable (policy : RoutingPolicy)

/-- A progress report whose figures passed the finiteness checks. -/
structure CheckedProgress where
  progress : ℚ
  etaSeconds : Option ℚ
  peakGpuMemoryPct : Option ℚ
  peakGpuLoadPct : Option ℚ

def finiteOpt (field : String) : Option F64 → Except StoreError (Option ℚ)
  | none => .ok none
  | some (.finite value) => .ok (some value)
  | some .nonFinite => .error (.invalidNumber field)

/-- The checks `update_job_progress_internal` makes before it opens a transaction. -/
def ProgressUpdate.check (update : ProgressUpdate) : Except StoreError CheckedProgress :=
  if !JobStatus.knownValues.contains update.status.asStr then
    .error (.invalidStatus update.status.asStr)
  else
    match update.progress, finiteOpt "etaSeconds" update.etaSeconds,
        finiteOpt "peakGpuMemoryPct" update.peakGpuMemoryPct,
        finiteOpt "peakGpuLoadPct" update.peakGpuLoadPct with
    | .nonFinite, _, _, _ => .error (.invalidNumber "progress")
    | .finite _, .error e, _, _ => .error e
    | .finite _, .ok _, .error e, _ => .error e
    | .finite _, .ok _, .ok _, .error e => .error e
    | .finite progress, .ok eta, .ok memory, .ok load => .ok ⟨progress, eta, memory, load⟩

def clampTo (low high value : ℚ) : ℚ := max low (min value high)

/-- The running maximum a peak column keeps. -/
def peakMax (stored reported : Option ℚ) : Option ℚ :=
  match reported with
  | none => stored
  | some value => some (max (stored.getD 0) (clampTo 0 100 value))

/-- Both ids are present and equal. -/
def reporterOwns (reporter owner : Option String) : Bool :=
  reporter.isSome && reporter = owner

def JobRow.applyProgress (now : Timestamp) (update : ProgressUpdate) (checked : CheckedProgress)
    (result : Option JsonObject) (sideEffectsPending : Bool) (r : JobRow) : JobRow :=
  { r with
    status := update.status
    stage := update.stage
    progress := clampTo 0 1 checked.progress
    message := update.message
    error := update.error
    result := result.getD r.result
    etaSeconds := checked.etaSeconds
    completedAt := if update.status.isTerminal then some now else r.completedAt
    canceledAt := if update.status = .canceled then some now else r.canceledAt
    updatedAt := now
    peakGpuMemoryPct := peakMax r.peakGpuMemoryPct checked.peakGpuMemoryPct
    peakGpuLoadPct := peakMax r.peakGpuLoadPct checked.peakGpuLoadPct
    backend := r.backend.or update.backend
    sideEffectsPending := sideEffectsPending
    sideEffectsRetryCount := 0
    sideEffectsRetryAt := 0 }

structure ProgressUpdateOutcome where
  job : JobRow
  previousStatus : JobStatus
  applied : Bool
  sideEffectsPending : Bool

def idleWorkerRow (now : Timestamp) (w : WorkerSnapshot) : WorkerSnapshot :=
  { w with
    status := .idle
    currentJobId := none
    lastSeenAt := now }

/-- The writes of an accepted report: the row, and for a terminal status the release
of the worker the row names. -/
def acceptProgress (s : Store) (current : JobRow) (update : ProgressUpdate)
    (checked : CheckedProgress) (sideEffectsPending : Bool) (now : Timestamp) : Store :=
  let result := update.result.map (mergeProgressResult policy current)
  let s1 := s.updateJobs (fun r => r.id = current.id)
    (fun r => r.applyProgress now update checked result sideEffectsPending)
  if update.status.isTerminal then
    s1.updateWorkers (fun w => current.workerId = some w.id) (fun w => idleWorkerRow now w)
  else s1

def updateJobProgressInternal (s : Store) (jobId : String) (update : ProgressUpdate)
    (trackTerminalSideEffects : Bool) (now : Timestamp) :
    Except StoreError (Store × ProgressUpdateOutcome) :=
  match update.check with
  | .error e => .error e
  | .ok checked =>
      match s.job jobId with
      | none => .error (.notFound jobId)
      | some current =>
          if current.status.isTerminal then
            if current.status = update.status then
              if reporterOwns update.workerId current.workerId then
                .ok (s, ⟨current, current.status, false, current.sideEffectsPending⟩)
              else .error (.notJobOwner jobId)
            else .error (.terminalJobImmutable jobId current.status.asStr)
          else if reporterOwns update.workerId current.workerId then
            let pending := trackTerminalSideEffects && update.status.isTerminal
            let s' := acceptProgress policy s current update checked pending now
            (s'.readBack jobId).map fun (s', job) => (s', ⟨job, current.status, true, pending⟩)
          else .error (.notJobOwner jobId)

def updateJobProgress (s : Store) (jobId : String) (update : ProgressUpdate) (now : Timestamp) :
    Except StoreError (Store × ProgressUpdateOutcome) :=
  updateJobProgressInternal policy s jobId update false now

def updateJobProgressWithOutcome (s : Store) (jobId : String) (update : ProgressUpdate)
    (now : Timestamp) : Except StoreError (Store × ProgressUpdateOutcome) :=
  updateJobProgressInternal policy s jobId update true now

end ProgressUpdate

section SideEffectHandoff

/-- `order by progress_side_effects_retry_at asc, updated_at asc, id asc`. -/
def dueBefore (a b : JobRow) : Prop :=
  a.sideEffectsRetryAt < b.sideEffectsRetryAt ∨ a.sideEffectsRetryAt = b.sideEffectsRetryAt ∧
    (a.updatedAt < b.updatedAt ∨ a.updatedAt = b.updatedAt ∧ a.id ≤ b.id)

instance : DecidableRel dueBefore := fun _ _ => inferInstanceAs (Decidable (_ ∨ _ ∧ _))

def sideEffectsDue (asOf : Int) (r : JobRow) : Bool :=
  r.sideEffectsPending && r.status.isTerminal && r.sideEffectsRetryAt ≤ asOf

def pendingTerminalProgressSideEffectJobIdsAsOf (s : Store) (asOf : Int) (limit : Nat) :
    List String :=
  (((s.jobs.rows.filter (sideEffectsDue asOf)).insertionSort dueBefore).map JobRow.id).take limit

def pendingTerminalProgressSideEffects (s : Store) (jobId : String) (workerId : Option String)
    (status : JobStatus) : Except StoreError (Option JobRow) :=
  match s.job jobId with
  | none => .error (.notFound jobId)
  | some current =>
      if current.status ≠ status || !current.sideEffectsPending then .ok none
      else if reporterOwns workerId current.workerId then .ok (some current)
      else .error (.notJobOwner jobId)

/-- The bounded exponential backoff of a deferral. -/
def sideEffectRetryDelay (retryCount : Nat) : Int :=
  min (5 * 2 ^ min retryCount 16) 300

def JobRow.deferSideEffects (now : Timestamp) (r : JobRow) : JobRow :=
  { r with
    sideEffectsRetryCount := r.sideEffectsRetryCount + 1
    sideEffectsRetryAt := now + sideEffectRetryDelay r.sideEffectsRetryCount }

def deferPendingTerminalProgressSideEffects (s : Store) (jobId : String) (now : Timestamp) :
    Except StoreError (Store × Bool) :=
  .ok (s.updateJobs (fun r => r.id = jobId && r.sideEffectsPending)
      (fun r => r.deferSideEffects now),
    (s.job jobId).any JobRow.sideEffectsPending)

def JobRow.replaceResult (now : Timestamp) (result : JsonObject) (clear : Bool) (r : JobRow) :
    JobRow :=
  { r with
    result := result
    updatedAt := now
    sideEffectsPending := if clear then false else r.sideEffectsPending
    sideEffectsRetryCount := if clear then 0 else r.sideEffectsRetryCount
    sideEffectsRetryAt := if clear then 0 else r.sideEffectsRetryAt }

/-- The compare half of the guarded replacement. -/
def resultCasMatches (current : JobRow) (workerId : Option String) (status : JobStatus)
    (expectedResult : JsonObject) : Bool :=
  current.workerId = workerId && current.status = status && current.result = expectedResult

def replaceJobResultAfterProgress (s : Store) (jobId : String) (workerId : Option String)
    (status : JobStatus) (expectedResult result : JsonObject) (clearTerminalSideEffects : Bool)
    (now : Timestamp) : Except StoreError (Store × JobRow) :=
  match s.job jobId with
  | none => .error (.notFound jobId)
  | some current =>
      if !resultCasMatches current workerId status expectedResult then .ok (s, current)
      else
        (s.updateJobs (fun r => r.id = jobId)
          (fun r => r.replaceResult now result clearTerminalSideEffects)).readBack jobId

end SideEffectHandoff

end SceneWorks.JobsStore
