import SceneWorks.JobsStore.Heartbeat

/-!
The worker side of a step. Seven operations write worker rows; for each there is one
equation that says what it does to the lookup of one worker id, and every other
operation leaves the workers table as it was.
-/

namespace SceneWorks.JobsStore

/-- The operations with an `update workers` or `insert into workers` statement. -/
def Op.writesWorkers : Op → Bool
  | .markInterruptedOnStartup _ | .registerWorker .. | .heartbeatWorker ..
  | .markStaleWorkersInterrupted .. | .failWorkerJobTerminated .. | .claimNextJob ..
  | .updateJobProgress .. => true
  | _ => false

section JobsOnly

variable {policy : RoutingPolicy} {s : Store}

theorem workers_readBack {α : Type} {s' : Store} {id : String} (g : Store × JobRow → α)
    (h : s'.workers = s.workers) :
    (s.commit ((s'.readBack id).map fun q => (q.1, g q))).workers = s.workers := by
  cases hjob : s'.job id with
  | none => rw [commit_readBack_absent g hjob]
  | some r => rw [commit_readBack g (by simp [hjob]), h]

theorem workers_readBack_self {s' : Store} {id : String} (h : s'.workers = s.workers) :
    (s.commit (s'.readBack id)).workers = s.workers := by
  unfold Store.readBack
  split
  · rfl
  · exact h

theorem workers_createJob (request : CreateJob) (id : String) (provenance binding : Option Json)
    (now : Timestamp) :
    (s.commit (createJob policy s request id provenance binding now)).workers = s.workers := by
  unfold createJob
  cases hcreate : createJobOnConnection policy s request id provenance now with
  | error e => rfl
  | ok created =>
      obtain ⟨s', row⟩ := created
      obtain ⟨-, -, -, -, hworkers⟩ := createJobOnConnection_ok hcreate
      cases binding <;> exact hworkers

theorem workers_replayJob (job : JobRow) (request : CreateJob) (id : String) (changes : JsonObject)
    (provenance binding : Option Json) (now : Timestamp) :
    (s.commit (replayJob policy s job request id changes provenance binding now)).workers =
      s.workers := by
  unfold replayJob
  split
  · rfl
  · exact workers_createJob request id _ binding now

theorem workers_updatePendingWorkflowPayload (policy : RoutingPolicy) (s : Store) (id : String)
    (payload : JsonObject) (now : Timestamp) :
    (s.commit (updatePendingWorkflowPayload policy s id payload now)).workers = s.workers := by
  unfold updatePendingWorkflowPayload
  split
  · rfl
  · exact workers_readBack (fun q => (s.jobIsIn id .pendingWorkflow, q.2)) rfl

theorem workers_promotePendingWorkflowJob (id : String) (payload : JsonObject) (now : Timestamp) :
    (s.commit (promotePendingWorkflowJob policy s id payload now)).workers = s.workers := by
  have hrewrite := workers_updatePendingWorkflowPayload policy s id payload now
  unfold promotePendingWorkflowJob
  split
  · rfl
  · next heq => rw [heq] at hrewrite; exact hrewrite
  · next s' _ heq =>
      rw [heq] at hrewrite
      simp only [Store.commit_ok] at hrewrite
      exact workers_readBack (fun q => (s'.jobIsIn id .pendingWorkflow, q.2)) hrewrite

theorem workers_assignRanks (now : Timestamp) (top : Nat) (selected : List JobRow) (s : Store) :
    (assignRanks now top selected s).workers = s.workers := by
  induction selected generalizing s with
  | nil => rfl
  | cons job rest ih => exact ih _

theorem workers_failQueuedJobs (now : Timestamp) (candidates : List (String × String × String))
    (s : Store) : (failQueuedJobs now candidates s).1.workers = s.workers := by
  induction candidates generalizing s with
  | nil => rfl
  | cons candidate rest ih => exact ih _

theorem workers_sweepQueued (now : Timestamp) (judge : JobRow → Option (String × String)) :
    (s.commit (sweepQueued s now judge)).workers = s.workers :=
  workers_failQueuedJobs now _ s

/-- Every operation outside `writesWorkers` leaves the workers table as it was. -/
theorem step_workers (policy : RoutingPolicy) (s : Store) {op : Op}
    (h : op.writesWorkers = false) : (step policy s op).workers = s.workers := by
  cases op with
  | initializeStore => rfl
  | purgeTerminalJobsCompletedBefore cutoff => rfl
  | purgeTerminalJobsOlderThan days now =>
      simp only [step, purgeTerminalJobsOlderThan]
      split <;> rfl
  | createJob request id provenance binding now =>
      exact workers_createJob request id provenance binding now
  | promotePendingCaptionJob id newPayload now =>
      simp only [step, promotePendingCaptionJob]
      split
      · rfl
      · exact workers_readBack (fun q => (s.jobIsIn id .pendingCaption, q.2))
          (by cases newPayload <;> rfl)
  | updatePendingWorkflowPayload id payload now =>
      exact workers_updatePendingWorkflowPayload policy s id payload now
  | queuePendingWorkflow id now =>
      exact workers_readBack (fun q => (s.jobIsIn id .pendingWorkflow, q.2)) rfl
  | promotePendingWorkflowJob id payload now =>
      exact workers_promotePendingWorkflowJob id payload now
  | terminatePendingWorkflowJob id status message error now =>
      simp only [step, terminatePendingWorkflowJob]
      split
      · rfl
      · exact workers_readBack (fun q => (s.jobIsIn id .pendingWorkflow, q.2)) rfl
  | cancelJob id now =>
      simp only [step, cancelJob]
      split
      · rfl
      · split
        · rfl
        · split
          · exact workers_readBack_self rfl
          · exact workers_readBack_self rfl
  | cancelPendingJobs projectId now => rfl
  | prioritizeJobs ids now => exact workers_assignRanks now _ _ s
  | retryJob jobId changes id provenance binding now =>
      simp only [step, retryJob]
      split
      · rfl
      · split
        · rfl
        · exact workers_replayJob _ _ id changes provenance binding now
  | duplicateJob jobId request id provenance binding now =>
      simp only [step, duplicateJob]
      split
      · rfl
      · exact workers_replayJob _ _ id request.payloadChanges provenance binding now
  | clearTerminalJobs projectId now => rfl
  | clearJob id now =>
      simp only [step, clearJob]
      split
      · rfl
      · split
        · rfl
        · exact workers_readBack_self rfl
  | failStrandedMlxJobs required grace now =>
      simp only [step, failStrandedMlxJobs]
      split
      · rfl
      · split
        · rfl
        · exact workers_sweepQueued now _
  | failUnsupportedMlxJobs required enforce now =>
      simp only [step, failUnsupportedMlxJobs]
      split
      · rfl
      · exact workers_sweepQueued now _
  | failStrandedCandleJobs required grace now =>
      simp only [step, failStrandedCandleJobs]
      split
      · rfl
      · split
        · rfl
        · exact workers_sweepQueued now _
  | failPlatformUnreachableJobs hostOs now =>
      simp only [step, failPlatformUnreachableJobs]
      split
      · rfl
      · exact workers_sweepQueued now _
  | failUnsupportedCandleJobs required enforce now =>
      simp only [step, failUnsupportedCandleJobs]
      split
      · rfl
      · exact workers_sweepQueued now _
  | deferPendingTerminalProgressSideEffects jobId now => rfl
  | replaceJobResultAfterProgress jobId workerId status expected result clear now =>
      simp only [step, replaceJobResultAfterProgress]
      split
      · rfl
      · split
        · rfl
        · exact workers_readBack_self rfl
  | _ => cases h

end JobsOnly

section Writers

variable {s : Store}

/-- The effect of an `update workers` statement on one row. -/
def workerUpdate (p : WorkerSnapshot → Bool) (f : WorkerSnapshot → WorkerSnapshot)
    (w : WorkerSnapshot) : WorkerSnapshot :=
  if p w then { f w with id := w.id } else w

theorem worker_updateWorkers_eq (p : WorkerSnapshot → Bool) (f : WorkerSnapshot → WorkerSnapshot)
    (k : String) : (s.updateWorkers p f).worker k = (s.worker k).map (workerUpdate p f) :=
  Store.worker_updateWorkers s p f k

/-- The row an existing worker gets when it registers again. -/
def reregister (request : RegisterWorker) (now : Timestamp) (w : WorkerSnapshot) :
    WorkerSnapshot :=
  { w with
    gpuId := request.gpuId
    gpuName := request.gpuName
    status := if w.currentJobId = none then .idle else w.status
    statusReason := none
    capabilities := request.capabilities
    loadedModels := request.loadedModels
    utilization := request.utilization
    lastSeenAt := now }

theorem worker_registerWorker (policy : RoutingPolicy) (request : RegisterWorker)
    (now : Timestamp) {k : String} {w : WorkerSnapshot} (hw : s.worker k = some w) :
    (step policy s (.registerWorker request now)).worker k =
      some (if k = request.workerId then reregister request now w else w) := by
  have hid : w.id = k := Store.worker_id hw
  simp only [step, registerWorker]
  cases hinsert : s.workers.insert _ with
  | some workers =>
      obtain ⟨hfresh, -⟩ := Table.insert_eq_some_iff hinsert
      have hne : k ≠ request.workerId := by
        intro hk
        have hnone : s.worker k = none := by rw [hk]; exact hfresh
        rw [hw] at hnone
        cases hnone
      rw [if_neg hne]
      have hfind := Table.find_insert hinsert k
      rw [if_neg (Ne.symm hne)] at hfind
      simp only
      split
      · exact hw
      · exact hfind.trans hw
  | none =>
      simp only [worker_updateWorkers_eq]
      by_cases hk : k = request.workerId
      · subst hk
        simp [hw, workerUpdate, hid, reregister]
      · rw [if_neg hk]
        cases hself : s.worker request.workerId with
        | none => simpa using hw
        | some other => simp [hw, workerUpdate, hid, hk]

/-- A heartbeat of a known worker that is not rejected for a missing job. -/
theorem worker_heartbeat (policy : RoutingPolicy) {request : WorkerHeartbeat} (now : Timestamp)
    {worker : WorkerSnapshot} (hworker : s.worker request.workerId = some worker)
    (hjob : ∀ e, interruptPreviousJob s worker request now ≠ .error e) (k : String) :
    (step policy s (.heartbeatWorker request now)).worker k =
      (s.worker k).map
        (workerUpdate (fun w => w.id = request.workerId) (heartbeatWorkerRow request now)) := by
  have hrefresh : ∀ s' : Store, (refreshLiveness s' request now).worker k = s'.worker k := by
    intro s'
    unfold refreshLiveness
    split <;> rfl
  simp only [step, heartbeatWorker, hworker]
  obtain ⟨e, herror, -⟩ | ⟨-, hok⟩ | ⟨target, -, hok⟩ := interruptPreviousJob_eq now hworker
  · exact absurd herror (hjob e)
  · simp only [hok, Store.commit_ok, hrefresh, worker_updateWorkers_eq]
  · simp only [hok, Store.commit_ok, hrefresh, worker_updateWorkers_eq, Store.worker_updateJobs]

theorem worker_takeClaim (policy : RoutingPolicy) (queued : JobRow) (worker : WorkerSnapshot)
    (now : Timestamp) (k : String) :
    (takeClaim policy s queued worker now).worker k =
      (s.worker k).map
        (workerUpdate (fun w => w.id = worker.id) (claimWorkerRow queued.id now)) := by
  have hstamp : (stampClaimedJob policy s queued).worker k = s.worker k := by
    unfold stampClaimedJob
    split
    · split <;> rfl
    · rfl
  simp only [takeClaim, worker_updateWorkers_eq, Store.worker_updateJobs, hstamp]

theorem worker_acceptProgress (policy : RoutingPolicy) (current : JobRow)
    (update : ProgressUpdate) (checked : CheckedProgress) (pending : Bool) (now : Timestamp)
    (k : String) :
    (acceptProgress policy s current update checked pending now).worker k =
      if update.status.isTerminal then
        (s.worker k).map
          (workerUpdate (fun w => current.workerId = some w.id) (idleWorkerRow now))
      else s.worker k := by
  unfold acceptProgress
  split
  · simp only [worker_updateWorkers_eq, Store.worker_updateJobs]
  · rfl

end Writers

end SceneWorks.JobsStore
