import SceneWorks.Library.Run
import SceneWorks.JobsStore.Progress

/-!
The store as a machine. An `Op` is one committed transaction of the public interface,
with the clock readings, fresh ids and unspecified choices it consumed; `step` applies
it. `step_job` is the inversion every invariant is derived from: it says, for one job
id, everything a step can do to that row.
-/

namespace SceneWorks.JobsStore

inductive Op where
  | initializeStore
  | purgeTerminalJobsCompletedBefore (cutoff : Timestamp)
  | purgeTerminalJobsOlderThan (retentionDays : Nat) (now : Timestamp)
  | markInterruptedOnStartup (now : Timestamp)
  | createJob (request : CreateJob) (id : String) (provenance binding : Option Json)
      (now : Timestamp)
  | promotePendingCaptionJob (id : String) (newPayload : Option JsonObject) (now : Timestamp)
  | updatePendingWorkflowPayload (id : String) (payload : JsonObject) (now : Timestamp)
  | queuePendingWorkflow (id : String) (now : Timestamp)
  | promotePendingWorkflowJob (id : String) (payload : JsonObject) (now : Timestamp)
  | terminatePendingWorkflowJob (id : String) (status : JobStatus) (message : String)
      (error : Option String) (now : Timestamp)
  | cancelJob (id : String) (now : Timestamp)
  | cancelPendingJobs (projectId : Option String) (now : Timestamp)
  | prioritizeJobs (ids : List String) (now : Timestamp)
  | retryJob (jobId : String) (changes : JsonObject) (id : String)
      (provenance binding : Option Json) (now : Timestamp)
  | duplicateJob (jobId : String) (request : DuplicateJob) (id : String)
      (provenance binding : Option Json) (now : Timestamp)
  | clearTerminalJobs (projectId : Option String) (now : Timestamp)
  | clearJob (id : String) (now : Timestamp)
  | registerWorker (request : RegisterWorker) (now : Timestamp)
  | heartbeatWorker (request : WorkerHeartbeat) (now : Timestamp)
  | markStaleWorkersInterrupted (sessionStartedAt : Option Timestamp) (timeoutSeconds : Nat)
      (now : Timestamp)
  | failWorkerJobTerminated (workerId : String) (signal exitCode : Option Int) (pick : Nat)
      (now : Timestamp)
  | failStrandedMlxJobs (mlxRequired : Bool) (graceSeconds : Nat) (now : Timestamp)
  | failUnsupportedMlxJobs (mlxRequired enforce : Bool) (now : Timestamp)
  | failStrandedCandleJobs (candleRequired : Bool) (graceSeconds : Nat) (now : Timestamp)
  | failPlatformUnreachableJobs (hostOs : String) (now : Timestamp)
  | failUnsupportedCandleJobs (candleRequired enforce : Bool) (now : Timestamp)
  | claimNextJob (workerId : String) (mlxRequired : Bool) (now : Timestamp)
  | updateJobProgress (jobId : String) (update : ProgressUpdate)
      (trackTerminalSideEffects : Bool) (now : Timestamp)
  | deferPendingTerminalProgressSideEffects (jobId : String) (now : Timestamp)
  | replaceJobResultAfterProgress (jobId : String) (workerId : Option String)
      (status : JobStatus) (expectedResult result : JsonObject) (clearTerminalSideEffects : Bool)
      (now : Timestamp)

variable (policy : RoutingPolicy)

def step (s : Store) : Op → Store
  | .initializeStore => s.commit (initializeStore policy s)
  | .purgeTerminalJobsCompletedBefore cutoff =>
      s.commit (purgeTerminalJobsCompletedBefore s cutoff)
  | .purgeTerminalJobsOlderThan days now => s.commit (purgeTerminalJobsOlderThan s days now)
  | .markInterruptedOnStartup now => s.commit (markInterruptedOnStartup s now)
  | .createJob request id provenance binding now =>
      s.commit (createJob policy s request id provenance binding now)
  | .promotePendingCaptionJob id newPayload now =>
      s.commit (promotePendingCaptionJob policy s id newPayload now)
  | .updatePendingWorkflowPayload id payload now =>
      s.commit (updatePendingWorkflowPayload policy s id payload now)
  | .queuePendingWorkflow id now => s.commit (queuePendingWorkflow s id now)
  | .promotePendingWorkflowJob id payload now =>
      s.commit (promotePendingWorkflowJob policy s id payload now)
  | .terminatePendingWorkflowJob id status message error now =>
      s.commit (terminatePendingWorkflowJob s id status message error now)
  | .cancelJob id now => s.commit (cancelJob s id now)
  | .cancelPendingJobs projectId now => s.commit (cancelPendingJobs s projectId now)
  | .prioritizeJobs ids now => s.commit (prioritizeJobs s ids now)
  | .retryJob jobId changes id provenance binding now =>
      s.commit (retryJob policy s jobId changes id provenance binding now)
  | .duplicateJob jobId request id provenance binding now =>
      s.commit (duplicateJob policy s jobId request id provenance binding now)
  | .clearTerminalJobs projectId now => s.commit (clearTerminalJobs s projectId now)
  | .clearJob id now => s.commit (clearJob s id now)
  | .registerWorker request now => s.commit (registerWorker s request now)
  | .heartbeatWorker request now => s.commit (heartbeatWorker s request now)
  | .markStaleWorkersInterrupted started timeout now =>
      s.commit (markStaleWorkersInterrupted s started timeout now)
  | .failWorkerJobTerminated workerId signal exitCode pick now =>
      s.commit (failWorkerJobTerminated policy s workerId signal exitCode pick now)
  | .failStrandedMlxJobs required grace now =>
      s.commit (failStrandedMlxJobs policy s required grace now)
  | .failUnsupportedMlxJobs required enforce now =>
      s.commit (failUnsupportedMlxJobs policy s required enforce now)
  | .failStrandedCandleJobs required grace now =>
      s.commit (failStrandedCandleJobs policy s required grace now)
  | .failPlatformUnreachableJobs hostOs now =>
      s.commit (failPlatformUnreachableJobs policy s hostOs now)
  | .failUnsupportedCandleJobs required enforce now =>
      s.commit (failUnsupportedCandleJobs policy s required enforce now)
  | .claimNextJob workerId mlxRequired now =>
      s.commit (claimNextJobRouted policy s workerId mlxRequired now)
  | .updateJobProgress jobId update track now =>
      s.commit (updateJobProgressInternal policy s jobId update track now)
  | .deferPendingTerminalProgressSideEffects jobId now =>
      s.commit (deferPendingTerminalProgressSideEffects s jobId now)
  | .replaceJobResultAfterProgress jobId workerId status expected result clear now =>
      s.commit (replaceJobResultAfterProgress s jobId workerId status expected result clear now)

/-- The state after a run of operations. -/
abbrev exec (s : Store) (ops : List Op) : Store :=
  Run.exec (step policy) s ops

/-- The cutoff of an operation that removes rows. -/
def Op.purgeCutoff : Op → Option Timestamp
  | .purgeTerminalJobsCompletedBefore cutoff => some cutoff
  | .purgeTerminalJobsOlderThan days now => if days = 0 then none else some (now - days * 86400)
  | _ => none

/-- A statement that only keeps books: the columns named here may move, every other
one is as it was. -/
def SameCore (r r' : JobRow) : Prop :=
  r' =
    { r with
      message := r'.message
      queueRank := r'.queueRank
      updatedAt := r'.updatedAt
      cancelRequested := r'.cancelRequested
      clearedAt := r'.clearedAt
      downloadBinding := r'.downloadBinding
      lastHeartbeatAt := r'.lastHeartbeatAt
      revision := r'.revision }

theorem SameCore.refl (r : JobRow) : SameCore r r := rfl

theorem SameCore.trans {r r' r'' : JobRow} (h : SameCore r r') (h' : SameCore r' r'') :
    SameCore r r'' := by
  unfold SameCore at h h' ⊢
  rw [h', h]

/-- The row a claim leaves behind. -/
def claimedRow (worker : WorkerSnapshot) (now : Timestamp) (r : JobRow) : JobRow :=
  let stamped :=
    if isVideoClaimType r.jobType then
      match stampClaimedReferenceImageResizeMode policy.toVideoPolicy r.payload with
      | none => r
      | some payload => r.afterUpdate (r.stampPayload payload)
    else r
  stamped.afterUpdate (stamped.claimBy now worker.id (assignedGpuFor r worker))

/-- What a workflow promotion does to a row when nothing intervenes. -/
def promotedWorkflowRow (now : Timestamp) (payload : JsonObject) (r : JobRow) : JobRow :=
  let rewritten := r.afterUpdate
    (r.rewritePayload now (ClaimRoutingFacts.fromParts policy r.jobType payload) payload)
  rewritten.afterUpdate (rewritten.queueWorkflow now)

/-- Everything one operation can do to a row it keeps. -/
inductive JobStep (s : Store) (op : Op) : JobRow → JobRow → Prop
  | bookkept {r r' : JobRow} (h : SameCore r r') : JobStep s op r r'
  | backfilled {r : JobRow} (hop : op = .initializeStore) :
      JobStep s op r (r.afterUpdate
        (r.persistClaimRoutingFacts (ClaimRoutingFacts.fromParts policy r.jobType r.payload)))
  | queuedCaption {r : JobRow} (now : Timestamp)
      (hop : op = .promotePendingCaptionJob r.id none now ∨ op = .markInterruptedOnStartup now)
      (h : r.status = .pendingCaption) :
      JobStep s op r (r.afterUpdate (r.promoteToQueued now))
  | promotedCaption {r : JobRow} (payload : JsonObject) (now : Timestamp)
      (hop : op = .promotePendingCaptionJob r.id (some payload) now)
      (h : r.status = .pendingCaption) :
      JobStep s op r (r.afterUpdate
        (r.promoteWithPayload now (ClaimRoutingFacts.fromParts policy r.jobType payload) payload))
  | rewroteWorkflow {r : JobRow} (payload : JsonObject) (now : Timestamp)
      (hop : op = .updatePendingWorkflowPayload r.id payload now)
      (h : r.status = .pendingWorkflow) :
      JobStep s op r (r.afterUpdate
        (r.rewritePayload now (ClaimRoutingFacts.fromParts policy r.jobType payload) payload))
  | queuedWorkflow {r : JobRow} (now : Timestamp) (hop : op = .queuePendingWorkflow r.id now)
      (h : r.status = .pendingWorkflow) : JobStep s op r (r.afterUpdate (r.queueWorkflow now))
  | promotedWorkflow {r : JobRow} (payload : JsonObject) (now : Timestamp)
      (hop : op = .promotePendingWorkflowJob r.id payload now)
      (h : r.status = .pendingWorkflow) :
      JobStep s op r (promotedWorkflowRow policy now payload r)
  | ended {r r' : JobRow} (h : r.status.isTerminal = false) (h' : r'.status.isTerminal = true)
      (hid : r'.id = r.id) : JobStep s op r r'
  | claimed {r : JobRow} (workerId : String) (mlxRequired : Bool) (now : Timestamp)
      (worker : WorkerSnapshot) (hop : op = .claimNextJob workerId mlxRequired now)
      (hworker : s.worker workerId = some worker)
      (hselected : chooseClaimableJobFromCandidates policy s
        (claimCandidates s worker (activeGpuJobExists s worker.gpuId)) worker = .ok (some r)) :
      JobStep s op r (claimedRow policy worker now r)
  | progressed {r : JobRow} (update : ProgressUpdate) (track : Bool) (now : Timestamp)
      (checked : CheckedProgress) (hop : op = .updateJobProgress r.id update track now)
      (hcheck : update.check = .ok checked) (hlive : r.status.isTerminal = false)
      (howner : reporterOwns update.workerId r.workerId = true) :
      JobStep s op r (r.afterUpdate (r.applyProgress now update checked
        (update.result.map (mergeProgressResult policy r)) (track && update.status.isTerminal)))
  | deferred {r : JobRow} (now : Timestamp)
      (hop : op = .deferPendingTerminalProgressSideEffects r.id now)
      (h : r.sideEffectsPending = true) : JobStep s op r (r.afterUpdate (r.deferSideEffects now))
  | resultReplaced {r : JobRow} (workerId : Option String) (status : JobStatus)
      (expected result : JsonObject) (clear : Bool) (now : Timestamp)
      (hop : op = .replaceJobResultAfterProgress r.id workerId status expected result clear now)
      (hcas : resultCasMatches r workerId status expected = true) :
      JobStep s op r (r.afterUpdate (r.replaceResult now result clear))

/-- A row as an insertion leaves it. -/
structure NewRow (r : JobRow) : Prop where
  isPending : r.status.isPending = true
  workerId : r.workerId = none
  assignedGpu : r.assignedGpu = none
  factsFresh : r.FactsFresh policy
  sideEffectsPending : r.sideEffectsPending = false

/-- Everything one operation can do to the lookup of one job id. -/
inductive JobMove (s : Store) (op : Op) : Option JobRow → Option JobRow → Prop
  | absent : JobMove s op none none
  | created {r : JobRow} (h : NewRow policy r) : JobMove s op none (some r)
  | moved {r r' : JobRow} (h : JobStep policy s op r r') : JobMove s op (some r) (some r')
  | purged {r : JobRow} (cutoff : Timestamp) (hop : op.purgeCutoff = some cutoff)
      (h : purgeable cutoff r = true) : JobMove s op (some r) none

section Inversion

variable {policy} {s : Store} {op : Op}

theorem JobMove.refl (o : Option JobRow) : JobMove policy s op o o := by
  cases o with
  | none => exact .absent
  | some r => exact .moved (.bookkept (.refl r))

/-- A statement acts row by row, so it suffices to know what it does to each row. -/
theorem JobMove.of_map {g : JobRow → JobRow} (id : String)
    (h : ∀ r, s.job id = some r → JobStep policy s op r (g r)) :
    JobMove policy s op (s.job id) ((s.job id).map g) := by
  cases hjob : s.job id with
  | none => exact .absent
  | some r => exact .moved (h r hjob)

theorem JobMove.of_update {p : JobRow → Bool} {f : JobRow → JobRow}
    (id : String)
    (h : ∀ r, s.job id = some r → p r = true → JobStep policy s op r (r.afterUpdate (f r))) :
    JobMove policy s op (s.job id) ((s.updateJobs p f).job id) := by
  rw [Store.job_updateJobs]
  refine .of_map id fun r hr => ?_
  unfold Store.rowUpdate
  split
  · next hp => exact h r hr hp
  · exact .bookkept (.refl r)

theorem JobMove.of_sameCore {p : JobRow → Bool} {f : JobRow → JobRow} (id : String)
    (h : ∀ r, SameCore r (r.afterUpdate (f r))) :
    JobMove policy s op (s.job id) ((s.updateJobs p f).job id) :=
  .of_update id fun r _ _ => .bookkept (h r)

theorem commit_readBack {α : Type} {s' : Store} {id : String} (g : Store × JobRow → α)
    (h : (s'.job id).isSome = true) :
    s.commit ((s'.readBack id).map fun p => (p.1, g p)) = s' := by
  obtain ⟨r, hr⟩ := Option.isSome_iff_exists.mp h
  simp [Store.readBack, hr, Except.map]

theorem commit_readBack_absent {α : Type} {s' : Store} {id : String} (g : Store × JobRow → α)
    (h : s'.job id = none) :
    s.commit ((s'.readBack id).map fun p => (p.1, g p)) = s := by
  simp [Store.readBack, h, Except.map]

/-- A transaction that ends by reading one job back either commits its update or,
when the job is missing, changes nothing. -/
theorem JobMove.of_readBack {α : Type} {p : JobRow → Bool} {f : JobRow → JobRow}
    {jobId : String} (g : Store × JobRow → α) (id : String)
    (h : ∀ r, s.job id = some r → p r = true → JobStep policy s op r (r.afterUpdate (f r))) :
    JobMove policy s op (s.job id)
      ((s.commit (((s.updateJobs p f).readBack jobId).map fun q => (q.1, g q))).job id) := by
  cases hjob : (s.updateJobs p f).job jobId with
  | none =>
      rw [commit_readBack_absent g hjob]
      exact .refl _
  | some r =>
      rw [commit_readBack g (by simp [hjob])]
      exact .of_update id h

theorem JobMove.of_readBack_self {p : JobRow → Bool} {f : JobRow → JobRow}
    {jobId : String} (id : String)
    (h : ∀ r, s.job id = some r → p r = true → JobStep policy s op r (r.afterUpdate (f r))) :
    JobMove policy s op (s.job id) ((s.commit ((s.updateJobs p f).readBack jobId)).job id) := by
  have hmap : (s.updateJobs p f).readBack jobId =
      ((s.updateJobs p f).readBack jobId).map fun q => (q.1, q.2) := by
    cases (s.updateJobs p f).readBack jobId <;> rfl
  rw [hmap]
  exact .of_readBack (fun q => q.2) id h

theorem initialState_isPending {request : CreateJob} {status : JobStatus} {stage : ProgressStage}
    {message : String} (h : request.initialState = .ok (status, stage, message)) :
    status.isPending = true := by
  unfold CreateJob.initialState at h
  split at h
  · cases h; rfl
  · cases h; rfl
  · cases h; rfl
  · cases h; rfl
  · cases h

theorem newRow_isNew (request : CreateJob) (rank : Nat) (id gpu : String) {status : JobStatus}
    (stage : ProgressStage) (message : String) (provenance : Option Json) (now : Timestamp)
    (h : status.isPending = true) :
    NewRow policy (request.newRow policy rank id gpu status stage message provenance now) where
  isPending := h
  workerId := rfl
  assignedGpu := rfl
  factsFresh := ⟨rfl, rfl, columns_facts_fromParts policy request.jobType request.payload 0⟩
  sideEffectsPending := rfl

theorem createJobOnConnection_ok {s' : Store} {row : JobRow} {request : CreateJob} {id : String}
    {provenance : Option Json} {now : Timestamp}
    (h : createJobOnConnection policy s request id provenance now = .ok (s', row)) :
    row.id = id ∧ NewRow policy row ∧ s.job id = none ∧
      (∀ k, s'.job k = if id = k then some row else s.job k) ∧ s'.workers = s.workers := by
  unfold createJobOnConnection at h
  dsimp only at h
  split at h
  · cases h
  · split at h
    · cases h
    · next status stage message hstate =>
        split at h
        · cases h
        · next jobs hinsert =>
            cases h
            exact ⟨rfl, newRow_isNew _ _ _ _ _ _ _ _ (initialState_isPending hstate),
              (Table.insert_eq_some_iff hinsert).1, Table.find_insert hinsert, rfl⟩

theorem sameCore_setDownloadBinding (binding : Json) (r : JobRow) :
    SameCore r (r.afterUpdate (r.setDownloadBinding binding)) := by
  simp [SameCore, JobRow.afterUpdate, JobRow.setDownloadBinding]

theorem NewRow.setDownloadBinding {r : JobRow} (h : NewRow policy r) (binding : Json) :
    NewRow policy (r.afterUpdate (r.setDownloadBinding binding)) := by
  obtain ⟨hpending, hworker, hgpu, hfresh, hside⟩ := h
  refine ⟨hpending, hworker, hgpu, ?_, hside⟩
  simpa [JobRow.FactsFresh, JobRow.afterUpdate, JobRow.setDownloadBinding] using hfresh

theorem createJob_move (request : CreateJob) (id : String) (provenance binding : Option Json)
    (now : Timestamp) (k : String) :
    JobMove policy s op (s.job k)
      ((s.commit (createJob policy s request id provenance binding now)).job k) := by
  unfold createJob
  cases hcreate : createJobOnConnection policy s request id provenance now with
  | error e => exact .refl _
  | ok created =>
      obtain ⟨s', row⟩ := created
      obtain ⟨hid, hnew, hfresh, hjob, -⟩ := createJobOnConnection_ok hcreate
      cases binding with
      | none =>
          simp only [writeDownloadBinding, Store.commit_ok, hjob]
          by_cases hk : id = k
          · subst hk
            rw [hfresh, if_pos rfl]
            exact .created hnew
          · rw [if_neg hk]
            exact .refl _
      | some binding =>
          simp only [writeDownloadBinding, Store.commit_ok, Store.job_updateJobs, hjob]
          by_cases hk : id = k
          · subst hk
            simp only [hfresh, if_pos, Option.map_some, Store.rowUpdate, decide_true]
            exact .created (hnew.setDownloadBinding binding)
          · rw [if_neg hk]
            refine .of_map k fun r _ => .bookkept ?_
            unfold Store.rowUpdate
            split
            · exact sameCore_setDownloadBinding binding r
            · exact .refl r

theorem replayJob_move (job : JobRow) (request : CreateJob) (id : String) (changes : JsonObject)
    (provenance binding : Option Json) (now : Timestamp) (k : String) :
    JobMove policy s op (s.job k)
      ((s.commit (replayJob policy s job request id changes provenance binding now)).job k) := by
  unfold replayJob
  split
  · exact .refl _
  · exact createJob_move request id _ binding now k

theorem retryJob_move (jobId : String) (changes : JsonObject) (id : String)
    (provenance binding : Option Json) (now : Timestamp) (k : String) :
    JobMove policy s op (s.job k)
      ((s.commit (retryJob policy s jobId changes id provenance binding now)).job k) := by
  unfold retryJob
  split
  · exact .refl _
  · split
    · exact .refl _
    · exact replayJob_move _ _ id changes provenance binding now k

theorem duplicateJob_move (jobId : String) (request : DuplicateJob) (id : String)
    (provenance binding : Option Json) (now : Timestamp) (k : String) :
    JobMove policy s op (s.job k)
      ((s.commit (duplicateJob policy s jobId request id provenance binding now)).job k) := by
  unfold duplicateJob
  split
  · exact .refl _
  · exact replayJob_move _ _ id request.payloadChanges provenance binding now k

theorem purge_move (cutoff : Timestamp) (hop : op.purgeCutoff = some cutoff) (k : String) :
    JobMove policy s op (s.job k)
      ((s.commit (purgeTerminalJobsCompletedBefore s cutoff)).job k) := by
  simp only [purgeTerminalJobsCompletedBefore, Store.commit_ok, Store.job, Table.find_delete]
  cases hjob : s.jobs.find k with
  | none => exact .absent
  | some r =>
      cases hpurge : purgeable cutoff r with
      | true => simpa [Option.filter, hpurge] using .purged cutoff hop hpurge
      | false => simpa [Option.filter, hpurge] using .refl (some r)

theorem isJobIn_iff {id : String} {status : JobStatus} {r : JobRow} :
    isJobIn id status r = true ↔ r.id = id ∧ r.status = status := by
  simp [isJobIn]

theorem promotePendingCaptionJob_move (id : String) (newPayload : Option JsonObject)
    (now : Timestamp) (hop : op = .promotePendingCaptionJob id newPayload now) (k : String) :
    JobMove policy s op (s.job k)
      ((s.commit (promotePendingCaptionJob policy s id newPayload now)).job k) := by
  unfold promotePendingCaptionJob
  cases hjob : s.job id with
  | none => exact .refl _
  | some current =>
      cases newPayload with
      | none =>
          refine .of_readBack (fun q => (s.jobIsIn id .pendingCaption, q.2)) k fun r _ hp => ?_
          obtain ⟨rfl, hstatus⟩ := isJobIn_iff.mp hp
          exact .queuedCaption now (.inl hop) hstatus
      | some payload =>
          refine .of_readBack (fun q => (s.jobIsIn id .pendingCaption, q.2)) k fun r hr hp => ?_
          obtain ⟨rfl, hstatus⟩ := isJobIn_iff.mp hp
          obtain rfl := Store.job_unique hr rfl hjob
          exact .promotedCaption payload now hop hstatus

theorem updatePendingWorkflowPayload_move (id : String) (payload : JsonObject) (now : Timestamp)
    (hop : op = .updatePendingWorkflowPayload id payload now) (k : String) :
    JobMove policy s op (s.job k)
      ((s.commit (updatePendingWorkflowPayload policy s id payload now)).job k) := by
  unfold updatePendingWorkflowPayload
  cases hjob : s.job id with
  | none => exact .refl _
  | some current =>
      refine .of_readBack (fun q => (s.jobIsIn id .pendingWorkflow, q.2)) k fun r hr hp => ?_
      obtain ⟨rfl, hstatus⟩ := isJobIn_iff.mp hp
      obtain rfl := Store.job_unique hr rfl hjob
      exact .rewroteWorkflow payload now hop hstatus

theorem queuePendingWorkflow_move (id : String) (now : Timestamp)
    (hop : op = .queuePendingWorkflow id now) (k : String) :
    JobMove policy s op (s.job k) ((s.commit (queuePendingWorkflow s id now)).job k) := by
  refine .of_readBack (fun q => (s.jobIsIn id .pendingWorkflow, q.2)) k fun r _ hp => ?_
  obtain ⟨rfl, hstatus⟩ := isJobIn_iff.mp hp
  exact .queuedWorkflow now hop hstatus

/-- The two transactions of a promotion, one row at a time. -/
theorem job_promotePendingWorkflowJob (policy : RoutingPolicy) {s : Store} {id : String}
    {current : JobRow} (payload : JsonObject) (now : Timestamp) (hjob : s.job id = some current)
    (k : String) :
    (s.commit (promotePendingWorkflowJob policy s id payload now)).job k =
      (s.job k).map fun r =>
        if isJobIn id .pendingWorkflow r then promotedWorkflowRow policy now payload r else r := by
  simp only [promotePendingWorkflowJob, updatePendingWorkflowPayload, hjob]
  simp only [Store.readBack, Store.job_updateJobs, hjob, Option.map_some, Except.map]
  cases hin : s.jobIsIn id .pendingWorkflow with
  | false =>
      have hstatus : current.status ≠ .pendingWorkflow := by simpa [Store.jobIsIn, hjob] using hin
      simp only [Store.commit_ok, Store.job_updateJobs]
      cases hk : s.job k with
      | none => rfl
      | some r =>
          have hnot : isJobIn id .pendingWorkflow r = false := by
            by_cases hid : r.id = id
            · rw [Store.job_unique hk hid hjob]
              simp [isJobIn, hstatus]
            · simp [isJobIn, hid]
          simp [Store.rowUpdate, hnot]
  | true =>
      have hstatus : current.status = .pendingWorkflow := by simpa [Store.jobIsIn, hjob] using hin
      simp only [queuePendingWorkflow]
      rw [commit_readBack _ (by simp [hjob])]
      simp only [Store.job_updateJobs, Option.map_map]
      cases hk : s.job k with
      | none => rfl
      | some r =>
          by_cases hid : r.id = id
          · obtain rfl := Store.job_unique hk hid hjob
            simp [Store.rowUpdate, isJobIn, hid, hstatus, promotedWorkflowRow, JobRow.afterUpdate,
              JobRow.rewritePayload]
          · simp [Store.rowUpdate, isJobIn, hid]

theorem promotePendingWorkflowJob_move (id : String) (payload : JsonObject) (now : Timestamp)
    (hop : op = .promotePendingWorkflowJob id payload now) (k : String) :
    JobMove policy s op (s.job k)
      ((s.commit (promotePendingWorkflowJob policy s id payload now)).job k) := by
  cases hjob : s.job id with
  | none =>
      simp only [promotePendingWorkflowJob, updatePendingWorkflowPayload, hjob]
      exact .refl _
  | some current =>
      rw [job_promotePendingWorkflowJob policy payload now hjob k]
      refine .of_map k fun r _ => ?_
      split
      · next hp =>
          obtain ⟨rfl, hstatus⟩ := isJobIn_iff.mp hp
          exact .promotedWorkflow payload now hop hstatus
      · exact .bookkept (.refl r)

theorem terminatePendingWorkflowJob_move (id : String) (status : JobStatus) (message : String)
    (error : Option String) (now : Timestamp) (k : String) :
    JobMove policy s op (s.job k)
      ((s.commit (terminatePendingWorkflowJob s id status message error now)).job k) := by
  unfold terminatePendingWorkflowJob
  cases hstage : workflowTerminationStage status with
  | none => exact .refl _
  | some stage =>
      have hterminal : status.isTerminal = true := by
        cases status <;> simp_all [workflowTerminationStage, JobStatus.isTerminal,
          JobStatus.terminalStatuses]
      refine .of_readBack (fun q => (s.jobIsIn id .pendingWorkflow, q.2)) k fun r _ hp => ?_
      obtain ⟨-, hstatus⟩ := isJobIn_iff.mp hp
      exact .ended (by rw [hstatus]; rfl) hterminal rfl

theorem cancelJob_move (id : String) (now : Timestamp) (k : String) :
    JobMove policy s op (s.job k) ((s.commit (cancelJob s id now)).job k) := by
  unfold cancelJob
  cases hjob : s.job id with
  | none => exact .refl _
  | some job =>
      dsimp only
      split
      · exact .refl _
      · next hlive =>
          split
          · refine .of_readBack_self k fun r hr hp => ?_
            have hid : r.id = id := by simpa using hp
            obtain rfl := Store.job_unique hr hid hjob
            exact .ended (by simpa using hlive) rfl rfl
          · refine .of_readBack_self k fun r _ _ => .bookkept ?_
            simp [SameCore, JobRow.afterUpdate, JobRow.requestCancel]

theorem cancelPendingJobs_move (projectId : Option String) (now : Timestamp) (k : String) :
    JobMove policy s op (s.job k) ((s.commit (cancelPendingJobs s projectId now)).job k) := by
  simp only [cancelPendingJobs, Store.commit_ok]
  refine .of_update k fun r _ hp => ?_
  have hpending : r.status.isPending = true := by
    have := hp
    simp only [pendingInProject, Bool.and_eq_true] at this
    exact this.1
  refine .ended ?_ rfl rfl
  cases hterminal : r.status.isTerminal with
  | false => rfl
  | true => simp [JobStatus.isPending_eq_false_of_isTerminal hterminal] at hpending

/-- `s'` arises from `s` by rewriting rows in place, each as `R` allows. -/
def RowWise (R : JobRow → JobRow → Prop) (s s' : Store) : Prop :=
  ∃ g : JobRow → JobRow, (∀ k, s'.job k = (s.job k).map g) ∧ ∀ r, R r (g r)

theorem RowWise.refl {R : JobRow → JobRow → Prop} (hR : ∀ r, R r r) (s : Store) :
    RowWise R s s :=
  ⟨id, fun k => by simp, hR⟩

theorem RowWise.trans {R : JobRow → JobRow → Prop} {s s' s'' : Store}
    (hR : ∀ r r' r'', R r r' → R r' r'' → R r r'') (h : RowWise R s s') (h' : RowWise R s' s'') :
    RowWise R s s'' := by
  obtain ⟨g, hg, hrow⟩ := h
  obtain ⟨g', hg', hrow'⟩ := h'
  refine ⟨g' ∘ g, fun k => ?_, fun r => hR _ _ _ (hrow r) (hrow' (g r))⟩
  rw [hg', hg, Option.map_map]

theorem RowWise.update {R : JobRow → JobRow → Prop} (s : Store) {p : JobRow → Bool}
    {f : JobRow → JobRow} (hR : ∀ r, R r r) (h : ∀ r, p r = true → R r (r.afterUpdate (f r))) :
    RowWise R s (s.updateJobs p f) := by
  refine ⟨Store.rowUpdate p f, Store.job_updateJobs s p f, fun r => ?_⟩
  unfold Store.rowUpdate
  split
  · next hp => exact h r hp
  · exact hR r

theorem JobMove.of_rowWise {R : JobRow → JobRow → Prop} {s' : Store} (h : RowWise R s s')
    (hstep : ∀ r r', R r r' → JobStep policy s op r r') (k : String) :
    JobMove policy s op (s.job k) (s'.job k) := by
  obtain ⟨g, hg, hrow⟩ := h
  rw [hg]
  exact .of_map k fun r _ => hstep r (g r) (hrow r)

theorem rowWise_assignRanks (now : Timestamp) (top : Nat) (selected : List JobRow) (s : Store) :
    RowWise SameCore s (assignRanks now top selected s) := by
  induction selected generalizing s with
  | nil => exact .refl SameCore.refl s
  | cons job rest ih =>
      refine RowWise.trans (fun _ _ _ => SameCore.trans) ?_ (ih _)
      refine .update s SameCore.refl fun r _ => ?_
      simp [SameCore, JobRow.afterUpdate, JobRow.setQueueRank]

theorem prioritizeJobs_move (ids : List String) (now : Timestamp) (k : String) :
    JobMove policy s op (s.job k) ((s.commit (prioritizeJobs s ids now)).job k) :=
  .of_rowWise (rowWise_assignRanks now _ _ s) (fun _ _ h => .bookkept h) k

theorem sameCore_markCleared (now : Timestamp) (r : JobRow) :
    SameCore r (r.afterUpdate (r.markCleared now)) := by
  simp [SameCore, JobRow.afterUpdate, JobRow.markCleared]

theorem clearTerminalJobs_move (projectId : Option String) (now : Timestamp) (k : String) :
    JobMove policy s op (s.job k) ((s.commit (clearTerminalJobs s projectId now)).job k) :=
  .of_sameCore k (sameCore_markCleared now)

theorem clearJob_move (id : String) (now : Timestamp) (k : String) :
    JobMove policy s op (s.job k) ((s.commit (clearJob s id now)).job k) := by
  unfold clearJob
  split
  · exact .refl _
  · split
    · exact .refl _
    · exact .of_readBack_self k fun r _ _ => .bookkept (sameCore_markCleared now r)

theorem initializeStore_move (hop : op = .initializeStore) (k : String) :
    JobMove policy s op (s.job k) ((s.commit (initializeStore policy s)).job k) :=
  .of_update k fun _ _ _ => .backfilled hop

theorem markInterruptedOnStartup_move (now : Timestamp)
    (hop : op = .markInterruptedOnStartup now) (k : String) :
    JobMove policy s op (s.job k) ((s.commit (markInterruptedOnStartup s now)).job k) := by
  simp only [markInterruptedOnStartup, Store.commit_ok, Store.job_updateWorkers,
    Store.job_updateJobs, Option.map_map]
  refine .of_map k fun r _ => ?_
  simp only [Function.comp_apply, Store.rowUpdate]
  cases hactive : r.status.isActive && !s.startupOwnerAlive r with
  | true =>
      have hr : r.status.isActive = true := (Bool.and_eq_true_iff.mp hactive).1
      refine .ended (JobStatus.isTerminal_eq_false_of_isActive hr) ?_ ?_
      · simp [JobRow.afterUpdate, JobRow.interruptOnStartup, JobRow.reclaim, JobStatus.isTerminal,
          JobStatus.terminalStatuses]
      · simp [JobRow.afterUpdate, JobRow.interruptOnStartup, JobRow.reclaim]
  | false =>
      by_cases hcaption : r.status = .pendingCaption
      · simpa [hcaption] using .queuedCaption now (.inr hop) hcaption
      · simpa [hcaption] using .bookkept (.refl r)

theorem job_registerWorker (request : RegisterWorker) (now : Timestamp) (k : String) :
    (s.commit (registerWorker s request now)).job k = s.job k := by
  simp only [registerWorker]
  cases s.workers.insert _ with
  | none =>
      split
      · rfl
      · next h => rfl
  | some workers =>
      split
      · rfl
      · rfl

theorem sameCore_touchHeartbeat (now : Timestamp) (r : JobRow) :
    SameCore r (r.afterUpdate (r.touchHeartbeat now)) := by
  simp [SameCore, JobRow.afterUpdate, JobRow.touchHeartbeat]

/-- The interrupting half of a heartbeat, for the job it may interrupt. -/
theorem interruptPreviousJob_cases {worker : WorkerSnapshot} {request : WorkerHeartbeat}
    {now : Timestamp} {s1 : Store} {interrupted : Option String}
    (h : interruptPreviousJob s worker request now = .ok (s1, interrupted)) :
    s1 = s ∨ ∃ previousId previous, request.currentJobId = none ∧
      worker.currentJobId = some previousId ∧ s.job previousId = some previous ∧
      previous.status.isActive = true ∧ previous.lastHeartbeatAt.isSome = true ∧
      s1 = s.updateJobs (fun r => r.id = previousId) (fun r => r.interruptOnIdleHeartbeat now) := by
  unfold interruptPreviousJob at h
  split at h
  · next previousId hrequest hworker =>
      split at h
      · cases h
      · next previous hprevious =>
          split at h
          · next hlive =>
              obtain ⟨hactive, hbeat⟩ := Bool.and_eq_true_iff.mp hlive
              cases h
              exact .inr ⟨previousId, previous, hrequest, hworker, hprevious, hactive, hbeat, rfl⟩
          · cases h
            exact .inl rfl
  · cases h
    exact .inl rfl

theorem heartbeatWorker_move (request : WorkerHeartbeat) (now : Timestamp) (k : String) :
    JobMove policy s op (s.job k) ((s.commit (heartbeatWorker s request now)).job k) := by
  unfold heartbeatWorker
  cases hworker : s.worker request.workerId with
  | none => exact .refl _
  | some worker =>
      cases hinterrupt : interruptPreviousJob s worker request now with
      | error e => simpa [hinterrupt] using .refl _
      | ok outcome =>
          obtain ⟨s1, interrupted⟩ := outcome
          simp only [hinterrupt, Store.commit_ok]
          obtain rfl | ⟨previousId, previous, hnone, -, hjob, hactive, -, rfl⟩ :=
            interruptPreviousJob_cases hinterrupt
          · cases hcurrent : request.currentJobId with
            | none =>
                simp only [refreshLiveness, hcurrent, Store.job_updateWorkers]
                exact .refl _
            | some jobId =>
                simp only [refreshLiveness, hcurrent, Store.job_updateJobs,
                  Store.job_updateWorkers]
                refine .of_map k fun r _ => .bookkept ?_
                unfold Store.rowUpdate
                split
                · exact sameCore_touchHeartbeat now r
                · exact .refl r
          · simp only [refreshLiveness, hnone, Store.job_updateWorkers]
            refine .of_update k fun r hr hp => ?_
            have hid : r.id = previousId := by simpa using hp
            obtain rfl := Store.job_unique hr hid hjob
            exact .ended (JobStatus.isTerminal_eq_false_of_isActive hactive) rfl rfl

theorem markStaleWorkersInterrupted_move (started : Option Timestamp) (timeout : Nat)
    (now : Timestamp) (k : String) :
    JobMove policy s op (s.job k)
      ((s.commit (markStaleWorkersInterrupted s started timeout now)).job k) := by
  simp only [markStaleWorkersInterrupted]
  split
  · exact .refl _
  · simp only [Store.commit_ok, Store.job_updateWorkers]
    refine .of_update k fun r _ hp => ?_
    have hactive : r.status.isActive = true := (Bool.and_eq_true_iff.mp hp).2
    exact .ended (JobStatus.isTerminal_eq_false_of_isActive hactive) rfl rfl

theorem failWorkerJobTerminated_move (workerId : String) (signal exitCode : Option Int)
    (pick : Nat) (now : Timestamp) (k : String) :
    JobMove policy s op (s.job k)
      ((s.commit (failWorkerJobTerminated policy s workerId signal exitCode pick now)).job k) := by
  simp only [failWorkerJobTerminated]
  split
  · exact .refl _
  · simp only [Store.commit_ok, Store.job_updateWorkers]
    refine .of_update k fun r _ hp => ?_
    have hactive : r.status.isActive = true := (Bool.and_eq_true_iff.mp hp).2
    exact .ended (JobStatus.isTerminal_eq_false_of_isActive hactive) rfl rfl

/-- What the guarded write of a sweep can do to a row. -/
def SweptRow (r r' : JobRow) : Prop :=
  r' = r ∨ r.status = .queued ∧ r'.status.isTerminal = true ∧ r'.id = r.id

theorem SweptRow.trans {r r' r'' : JobRow} (h : SweptRow r r') (h' : SweptRow r' r'') :
    SweptRow r r'' := by
  obtain rfl | ⟨hqueued, hterminal, hid⟩ := h
  · exact h'
  · obtain rfl | ⟨hqueued', -, -⟩ := h'
    · exact .inr ⟨hqueued, hterminal, hid⟩
    · rw [hqueued'] at hterminal
      cases hterminal

theorem rowWise_failQueuedJobs (now : Timestamp) (candidates : List (String × String × String))
    (s : Store) : RowWise SweptRow s (failQueuedJobs now candidates s).1 := by
  induction candidates generalizing s with
  | nil => exact .refl (fun _ => .inl rfl) s
  | cons candidate rest ih =>
      obtain ⟨id, message, error⟩ := candidate
      refine RowWise.trans (fun _ _ _ => SweptRow.trans) ?_ (ih _)
      refine .update s (fun _ => .inl rfl) fun r hp => .inr ⟨(isJobIn_iff.mp hp).2, rfl, rfl⟩

theorem sweepQueued_move (now : Timestamp) (judge : JobRow → Option (String × String))
    (k : String) :
    JobMove policy s op (s.job k) ((s.commit (sweepQueued s now judge)).job k) := by
  refine .of_rowWise (rowWise_failQueuedJobs now _ s) (fun r r' h => ?_) k
  obtain rfl | ⟨hqueued, hterminal, hid⟩ := h
  · exact .bookkept (.refl _)
  · exact .ended (by rw [hqueued]; rfl) hterminal hid

theorem scanCompatible_subset (worker : WorkerSnapshot) (rank : Option Nat)
    (candidates : List ClaimCandidate) :
    ∀ c ∈ scanCompatible worker rank candidates, c ∈ candidates := by
  induction candidates generalizing rank with
  | nil => simp [scanCompatible]
  | cons candidate rest ih =>
      intro c hc
      unfold scanCompatible at hc
      split at hc
      · simp at hc
      · split at hc
        · exact List.mem_cons_of_mem _ (ih _ c hc)
        · obtain rfl | hrest := List.mem_cons.mp hc
          · exact List.mem_cons_self
          · exact List.mem_cons_of_mem _ (ih _ c hrest)

theorem chooseClaimableCandidate_mem {compatible : List ClaimCandidate} {worker : WorkerSnapshot}
    {selected : ClaimCandidate}
    (h : chooseClaimableCandidate compatible worker = some selected) : selected ∈ compatible := by
  unfold chooseClaimableCandidate at h
  split at h
  · simp at h
  · next first rest =>
      split at h
      · obtain rfl := Option.some.inj h
        exact List.mem_cons_self
      · obtain hexplicit | ⟨-, hwarm⟩ := Option.or_eq_some_iff.mp h
        · exact List.mem_of_find?_eq_some hexplicit
        · obtain hwarm | ⟨-, hfirst⟩ := Option.or_eq_some_iff.mp hwarm
          · exact List.mem_of_find?_eq_some hwarm
          · obtain rfl := Option.some.inj hfirst
            exact List.mem_cons_self

/-- The job a claim selects: a queued row of the store that the worker is shown. -/
theorem selectedJob_spec {worker : WorkerSnapshot} {gpuBusy : Bool} {r : JobRow}
    (h : chooseClaimableJobFromCandidates policy s (claimCandidates s worker gpuBusy) worker =
      .ok (some r)) :
    s.job r.id = some r ∧ r.status = .queued ∧ visibleToWorker worker gpuBusy r = true := by
  unfold chooseClaimableJobFromCandidates at h
  split at h
  · cases h
  · next selected hselected =>
      have hmem := scanCompatible_subset _ _ _ _ (chooseClaimableCandidate_mem hselected)
      simp only [claimCandidates, List.mem_map, List.mem_insertionSort, List.mem_filter] at hmem
      obtain ⟨row, ⟨hrow, hrowp⟩, hcandidate⟩ := hmem
      have hid : row.id = selected.id := congrArg ClaimCandidate.id hcandidate
      split at h
      · cases h
      · next job hjob =>
          split at h
          · cases h
          · obtain rfl : job = r := by simpa using h
            obtain ⟨hfind, hqueued⟩ := Option.filter_eq_some_iff.mp hjob
            have hjobrow : job = row := by
              have hrow' := Store.mem_jobs_iff.mp hrow
              rw [hid, hfind] at hrow'
              exact Option.some.inj hrow'
            subst hjobrow
            refine ⟨Store.mem_jobs_iff.mp hrow, by simpa using hqueued, ?_⟩
            simp only [Bool.and_eq_true] at hrowp
            exact hrowp.1.2

theorem job_takeClaim {worker : WorkerSnapshot} {queued : JobRow} (now : Timestamp)
    (hjob : s.job queued.id = some queued) (hstatus : queued.status = .queued) (k : String) :
    (takeClaim policy s queued worker now).job k =
      (s.job k).map fun r =>
        if isJobIn queued.id .queued r then claimedRow policy worker now r else r := by
  simp only [takeClaim, stampClaimedJob, Store.job_updateWorkers, Store.job_updateJobs]
  cases hk : s.job k with
  | none =>
      split
      · split <;> simp [hk]
      · simp [hk]
  | some r =>
      by_cases hid : r.id = queued.id
      · obtain rfl := Store.job_unique hk hid hjob
        have hin : isJobIn r.id .queued r = true := isJobIn_iff.mpr ⟨rfl, hstatus⟩
        cases hvideo : isVideoClaimType r.jobType with
        | false =>
            simp [hk, Store.rowUpdate, hin, claimedRow, hvideo]
        | true =>
            cases hstamp : stampClaimedReferenceImageResizeMode policy.toVideoPolicy r.payload with
            | none => simp [hk, Store.rowUpdate, hin, claimedRow, hvideo, hstamp]
            | some payload =>
                have hin' : isJobIn r.id .queued (r.afterUpdate (r.stampPayload payload)) = true :=
                  isJobIn_iff.mpr ⟨rfl, hstatus⟩
                simp [hk, Store.rowUpdate, hin, hin', claimedRow, hvideo, hstamp]
      · have hnot : isJobIn queued.id .queued r = false := by simp [isJobIn, hid]
        split
        · split <;> simp [hk, Store.rowUpdate, hnot]
        · simp [hk, Store.rowUpdate, hnot]

/-- The conditions under which a claim hands a job out: no stale header stops it, the
scan selects the job, and neither deferral yields it. -/
structure HandsOut (policy : RoutingPolicy) (s : Store) (workerId : String) (mlxRequired : Bool)
    (worker : WorkerSnapshot) (queued : JobRow) : Prop where
  known : s.worker workerId = some worker
  headersFresh : staleQueuedRow s = none
  selected : chooseClaimableJobFromCandidates policy s
    (claimCandidates s worker (activeGpuJobExists s worker.gpuId)) worker = .ok (some queued)
  notDeferred : shouldDeferAutoGpuClaim policy s queued worker = false
  notDeferredToMlx : shouldDeferToSomeMlxWorker policy s queued worker mlxRequired = false

theorem HandsOut.step_eq {workerId : String} {mlxRequired : Bool} {worker : WorkerSnapshot}
    {queued : JobRow} (h : HandsOut policy s workerId mlxRequired worker queued) (now : Timestamp) :
    s.commit (claimNextJobRouted policy s workerId mlxRequired now) =
      takeClaim policy s queued worker now := by
  obtain ⟨hjob, hstatus, -⟩ := selectedJob_spec h.selected
  simp only [claimNextJobRouted, h.known, h.headersFresh, h.selected, h.notDeferred,
    h.notDeferredToMlx, Bool.false_eq_true, if_false]
  exact commit_readBack (fun q => (some q.2, routeDecisionForClaim policy queued worker))
    (by simp [job_takeClaim now hjob hstatus, hjob])

/-- A claim changes nothing, or hands the selected job to the worker. -/
theorem claimNextJob_cases (policy : RoutingPolicy) (s : Store) (workerId : String)
    (mlxRequired : Bool) (now : Timestamp) :
    s.commit (claimNextJobRouted policy s workerId mlxRequired now) = s ∨
      ∃ worker queued, HandsOut policy s workerId mlxRequired worker queued := by
  unfold claimNextJobRouted
  cases hworker : s.worker workerId with
  | none => exact .inl rfl
  | some worker =>
      cases hstale : staleQueuedRow s with
      | some r => exact .inl rfl
      | none =>
          cases hselected : chooseClaimableJobFromCandidates policy s
              (claimCandidates s worker (activeGpuJobExists s worker.gpuId)) worker with
          | error e => left; simp [hselected]
          | ok selected =>
              cases selected with
              | none => left; simp [hselected]
              | some queued =>
                  simp only [hselected]
                  cases hauto : shouldDeferAutoGpuClaim policy s queued worker with
                  | true => left; simp
                  | false =>
                      cases hmlx : shouldDeferToSomeMlxWorker policy s queued worker
                          mlxRequired with
                      | true => left; simp
                      | false =>
                          exact .inr ⟨worker, queued, hworker, hstale, hselected, hauto, hmlx⟩

theorem claimNextJob_move (workerId : String) (mlxRequired : Bool) (now : Timestamp)
    (hop : op = .claimNextJob workerId mlxRequired now) (k : String) :
    JobMove policy s op (s.job k)
      ((s.commit (claimNextJobRouted policy s workerId mlxRequired now)).job k) := by
  obtain heq | ⟨worker, queued, hout⟩ := claimNextJob_cases policy s workerId mlxRequired now
  · rw [heq]
    exact .refl _
  · obtain ⟨hjob, hstatus, -⟩ := selectedJob_spec hout.selected
    rw [hout.step_eq now, job_takeClaim now hjob hstatus]
    refine .of_map k fun r hr => ?_
    split
    · next hin =>
        obtain rfl := Store.job_unique hr (isJobIn_iff.mp hin).1 hjob
        exact .claimed workerId mlxRequired now worker hop hout.known hout.selected
    · exact .bookkept (.refl r)

/-- A progress report changes nothing, or is accepted from the row's owner. -/
theorem updateJobProgress_cases (policy : RoutingPolicy) (s : Store) (jobId : String)
    (update : ProgressUpdate) (track : Bool) (now : Timestamp) :
    s.commit (updateJobProgressInternal policy s jobId update track now) = s ∨
      ∃ checked current, update.check = .ok checked ∧ s.job jobId = some current ∧
        current.status.isTerminal = false ∧
        reporterOwns update.workerId current.workerId = true ∧
        s.commit (updateJobProgressInternal policy s jobId update track now) =
          acceptProgress policy s current update checked (track && update.status.isTerminal)
            now := by
  unfold updateJobProgressInternal
  cases hcheck : update.check with
  | error e => exact .inl rfl
  | ok checked =>
      cases hjob : s.job jobId with
      | none => exact .inl rfl
      | some current =>
          dsimp only
          split
          · left
            split
            · split <;> rfl
            · rfl
          · next hlive =>
              split
              · next howner =>
                  right
                  refine ⟨checked, current, rfl, rfl, by simpa using hlive, howner, ?_⟩
                  refine commit_readBack (fun q => (⟨q.2, current.status, true,
                    track && update.status.isTerminal⟩ : ProgressUpdateOutcome)) ?_
                  unfold acceptProgress
                  split <;> simp [hjob]
              · exact .inl rfl

theorem job_acceptProgress (current : JobRow) (update : ProgressUpdate)
    (checked : CheckedProgress) (pending : Bool) (now : Timestamp) (k : String) :
    (acceptProgress policy s current update checked pending now).job k =
      (s.job k).map (Store.rowUpdate (fun r => r.id = current.id) fun r =>
        r.applyProgress now update checked (update.result.map (mergeProgressResult policy current))
          pending) := by
  unfold acceptProgress
  split <;> simp

theorem updateJobProgress_move (jobId : String) (update : ProgressUpdate) (track : Bool)
    (now : Timestamp) (hop : op = .updateJobProgress jobId update track now) (k : String) :
    JobMove policy s op (s.job k)
      ((s.commit (updateJobProgressInternal policy s jobId update track now)).job k) := by
  obtain heq | ⟨checked, current, hcheck, hjob, hlive, howner, heq⟩ :=
    updateJobProgress_cases policy s jobId update track now
  · rw [heq]
    exact .refl _
  · have hid : current.id = jobId := Store.job_id hjob
    rw [heq, job_acceptProgress]
    refine .of_map k fun r hr => ?_
    unfold Store.rowUpdate
    split
    · next hp =>
        have hr' : r.id = jobId := by simpa [hid] using hp
        obtain rfl := Store.job_unique hr hr' hjob
        subst hr'
        exact .progressed update track now checked hop hcheck hlive howner
    · exact .bookkept (.refl r)

theorem deferSideEffects_move (jobId : String) (now : Timestamp)
    (hop : op = .deferPendingTerminalProgressSideEffects jobId now) (k : String) :
    JobMove policy s op (s.job k)
      ((s.commit (deferPendingTerminalProgressSideEffects s jobId now)).job k) := by
  simp only [deferPendingTerminalProgressSideEffects, Store.commit_ok]
  refine .of_update k fun r _ hp => ?_
  obtain ⟨rfl, hpending⟩ : r.id = jobId ∧ r.sideEffectsPending = true := by simpa using hp
  exact .deferred now hop hpending

theorem replaceJobResult_move (jobId : String) (workerId : Option String) (status : JobStatus)
    (expected result : JsonObject) (clear : Bool) (now : Timestamp)
    (hop : op = .replaceJobResultAfterProgress jobId workerId status expected result clear now)
    (k : String) :
    JobMove policy s op (s.job k)
      ((s.commit (replaceJobResultAfterProgress s jobId workerId status expected result clear
        now)).job k) := by
  unfold replaceJobResultAfterProgress
  cases hjob : s.job jobId with
  | none => exact .refl _
  | some current =>
      dsimp only
      split
      · exact .refl _
      · next hcas =>
          refine .of_readBack_self k fun r hr hp => ?_
          have hid : r.id = jobId := by simpa using hp
          obtain rfl := Store.job_unique hr hid hjob
          subst hid
          exact .resultReplaced workerId status expected result clear now hop (by simpa using hcas)

/-- Everything a step can do to the lookup of one job id. -/
theorem step_job (s : Store) (op : Op) (k : String) :
    JobMove policy s op (s.job k) ((step policy s op).job k) := by
  cases op with
  | initializeStore => exact initializeStore_move rfl k
  | purgeTerminalJobsCompletedBefore cutoff => exact purge_move cutoff rfl k
  | purgeTerminalJobsOlderThan days now =>
      simp only [step, purgeTerminalJobsOlderThan]
      split
      · exact .refl _
      · next hdays =>
          exact purge_move (now - days * 86400) (by simp [Op.purgeCutoff, hdays]) k
  | markInterruptedOnStartup now => exact markInterruptedOnStartup_move now rfl k
  | createJob request id provenance binding now =>
      exact createJob_move request id provenance binding now k
  | promotePendingCaptionJob id newPayload now =>
      exact promotePendingCaptionJob_move id newPayload now rfl k
  | updatePendingWorkflowPayload id payload now =>
      exact updatePendingWorkflowPayload_move id payload now rfl k
  | queuePendingWorkflow id now => exact queuePendingWorkflow_move id now rfl k
  | promotePendingWorkflowJob id payload now =>
      exact promotePendingWorkflowJob_move id payload now rfl k
  | terminatePendingWorkflowJob id status message error now =>
      exact terminatePendingWorkflowJob_move id status message error now k
  | cancelJob id now => exact cancelJob_move id now k
  | cancelPendingJobs projectId now => exact cancelPendingJobs_move projectId now k
  | prioritizeJobs ids now => exact prioritizeJobs_move ids now k
  | retryJob jobId changes id provenance binding now =>
      exact retryJob_move jobId changes id provenance binding now k
  | duplicateJob jobId request id provenance binding now =>
      exact duplicateJob_move jobId request id provenance binding now k
  | clearTerminalJobs projectId now => exact clearTerminalJobs_move projectId now k
  | clearJob id now => exact clearJob_move id now k
  | registerWorker request now =>
      simp only [step, job_registerWorker]
      exact .refl _
  | heartbeatWorker request now => exact heartbeatWorker_move request now k
  | markStaleWorkersInterrupted started timeout now =>
      exact markStaleWorkersInterrupted_move started timeout now k
  | failWorkerJobTerminated workerId signal exitCode pick now =>
      exact failWorkerJobTerminated_move workerId signal exitCode pick now k
  | failStrandedMlxJobs required grace now =>
      simp only [step, failStrandedMlxJobs]
      split
      · exact .refl _
      · split
        · exact .refl _
        · exact sweepQueued_move now _ k
  | failUnsupportedMlxJobs required enforce now =>
      simp only [step, failUnsupportedMlxJobs]
      split
      · exact .refl _
      · exact sweepQueued_move now _ k
  | failStrandedCandleJobs required grace now =>
      simp only [step, failStrandedCandleJobs]
      split
      · exact .refl _
      · split
        · exact .refl _
        · exact sweepQueued_move now _ k
  | failPlatformUnreachableJobs hostOs now =>
      simp only [step, failPlatformUnreachableJobs]
      split
      · exact .refl _
      · exact sweepQueued_move now _ k
  | failUnsupportedCandleJobs required enforce now =>
      simp only [step, failUnsupportedCandleJobs]
      split
      · exact .refl _
      · exact sweepQueued_move now _ k
  | claimNextJob workerId mlxRequired now => exact claimNextJob_move workerId mlxRequired now rfl k
  | updateJobProgress jobId update track now =>
      exact updateJobProgress_move jobId update track now rfl k
  | deferPendingTerminalProgressSideEffects jobId now => exact deferSideEffects_move jobId now rfl k
  | replaceJobResultAfterProgress jobId workerId status expected result clear now =>
      exact replaceJobResult_move jobId workerId status expected result clear now rfl k

/-- A property of single rows that new rows have and that every rewrite keeps is kept
by the step. -/
theorem step_everyJob {R : JobRow → Prop} (hnew : ∀ r, NewRow policy r → R r)
    (hstep : ∀ r r', s.job r.id = some r → JobStep policy s op r r' → R r → R r')
    (h : ∀ id r, s.job id = some r → R r) :
    ∀ id r, (step policy s op).job id = some r → R r := by
  intro id r' hr'
  have hmove : JobMove policy s op (s.job id) ((step policy s op).job id) := step_job s op id
  rw [hr'] at hmove
  generalize hbefore : s.job id = before at hmove
  cases hmove with
  | created hfresh => exact hnew r' hfresh
  | moved hmoved =>
      have hr := h id _ hbefore
      have hid := Store.job_id hbefore
      exact hstep _ r' (hid ▸ hbefore) hmoved hr

end Inversion

section PlaceholderFleet

/-- Routing tables without entries. No table is read for a placeholder job, so the
concrete runs of this development do not depend on the shipped ones. -/
def emptyTables : RoutingPolicy where
  isMinimaxH3Model _ := false
  lorasContainLtxIcLora _ := false
  imageRequestMlxEligible _ _ := false
  imageRequestCandleEligible _ _ := false
  imageRequestCandlePoseReject _ _ := false
  loraTrainPlanMlxEligible _ := false
  trainingPlanCandleEligible _ _ := false
  flux3RequiredWorkerCapability _ := none
  macRustUnsupported _ _ := none
  candleUnsupported _ _ := none
  terminationFailureError _ _ _ := ""
  jsonText _ := ""
  yue2RefreshBlockForDuplicate payload := payload

def placeholderRequest (initialStatus : Option JobStatus) (payload : JsonObject) : CreateJob where
  jobType := .placeholder
  projectId := none
  projectName := none
  payload := payload
  requestedGpu := "auto"
  sourceJobId := none
  duplicateOfJobId := none
  attempts := 1
  initialStatus := initialStatus

def placeholderWorker (workerId gpuId : String) : RegisterWorker where
  workerId := workerId
  gpuId := gpuId
  gpuName := none
  capabilities := [.gpu, .placeholder]
  loadedModels := []
  utilization := none

def placeholderHeartbeat (workerId : String) (status : WorkerStatus)
    (currentJobId : Option String) : WorkerHeartbeat where
  workerId := workerId
  status := status
  currentJobId := currentJobId
  loadedModels := []
  utilization := none
  statusReason := none

def placeholderReport (workerId : String) (status : JobStatus) (stage : ProgressStage) :
    ProgressUpdate where
  status := status
  stage := stage
  progress := .finite 0
  message := ""
  error := none
  result := none
  etaSeconds := none
  peakGpuMemoryPct := none
  peakGpuLoadPct := none
  backend := none
  workerId := some workerId

end PlaceholderFleet

end SceneWorks.JobsStore
