import SceneWorks.JobsStore.Fleet
import SceneWorks.JobsStore.Ownership

/-!
The link between a running job and its worker. The idle-heartbeat interrupt follows
`current_job_id` and the stale sweep reads the workers that are not offline, so an
active job can be reclaimed only while its owner's row points back at it.

Heartbeats, claims and progress reports can break the link; the sweeps, the startup
recovery and registration cannot. `KeepsLink` is the exact condition on one operation.
-/

namespace SceneWorks.JobsStore

/-- The worker's row holds the job, and the stale sweep still looks at it. -/
def PointsTo (s : Store) (w jobId : String) : Prop :=
  ∃ worker, s.worker w = some worker ∧ worker.status ≠ .offline ∧
    worker.currentJobId = some jobId

/-- Every active job is owned by a worker whose row points back at it. -/
def Reclaimable (s : Store) : Prop :=
  ∀ id r, s.job id = some r → r.status.isActive = true →
    ∃ w, r.workerId = some w ∧ PointsTo s w id

/-- An operation that leaves the link of every active job in place. A heartbeat of a
worker that holds a job names that job and is not an offline one, or it is idle and the
job has been heard of, so that the job is interrupted. A claim hands a job only to a
worker that holds none. A report on a job that is not active turns it active only for a
worker that points to it, and ends it only for a worker that holds no other. -/
def KeepsLink (policy : RoutingPolicy) (s : Store) : Op → Prop
  | .heartbeatWorker request _ =>
      ∀ id r, s.job id = some r → r.status.isActive = true →
        r.workerId = some request.workerId →
          request.currentJobId = some id ∧ request.status ≠ .offline ∨
            request.currentJobId = none ∧ r.lastHeartbeatAt.isSome = true
  | .claimNextJob workerId mlxRequired _ =>
      (∃ worker queued, HandsOut policy s workerId mlxRequired worker queued) →
        ∀ id, ¬ HeldBy s id workerId
  | .updateJobProgress jobId update _ _ =>
      progressAccepted s jobId update = true →
        ∀ r w, s.job jobId = some r → r.workerId = some w → r.status.isActive = false →
          (update.status.isActive = true → PointsTo s w jobId) ∧
            (update.status.isTerminal = true → ∀ id, ¬ HeldBy s id w)
  | _ => True

section Link

variable {policy : RoutingPolicy} {s : Store} {id w : String}

theorem PointsTo.unique {id' : String} (h : PointsTo s w id) (h' : PointsTo s w id') :
    id = id' := by
  obtain ⟨worker, hworker, -, hcurrent⟩ := h
  obtain ⟨worker', hworker', -, hcurrent'⟩ := h'
  obtain rfl : worker = worker' := Option.some.inj (hworker.symm.trans hworker')
  exact Option.some.inj (hcurrent.symm.trans hcurrent')

theorem Reclaimable.pointsTo (h : Reclaimable s) (hheld : HeldBy s id w) : PointsTo s w id := by
  obtain ⟨r, hr, hactive, hrw⟩ := hheld
  obtain ⟨w', hrw', hpoints⟩ := h id r hr hactive
  obtain rfl : w = w' := Option.some.inj (hrw.symm.trans hrw')
  exact hpoints

theorem Reclaimable.heldBy_unique {id' : String} (h : Reclaimable s) (hheld : HeldBy s id w)
    (hheld' : HeldBy s id' w) : id = id' :=
  (h.pointsTo hheld).unique (h.pointsTo hheld')

theorem PointsTo.of_worker_eq {s' : Store} (h : PointsTo s w id)
    (hworker : s'.worker w = s.worker w) : PointsTo s' w id := by
  obtain ⟨worker, hw, hstatus, hcurrent⟩ := h
  exact ⟨worker, hworker.trans hw, hstatus, hcurrent⟩

theorem PointsTo.of_update {s' : Store} {p : WorkerSnapshot → Bool}
    {f : WorkerSnapshot → WorkerSnapshot} (h : PointsTo s w id)
    (hs' : s'.worker w = (s.worker w).map (workerUpdate p f))
    (hp : ∀ worker, s.worker w = some worker → p worker = false) : PointsTo s' w id := by
  obtain ⟨worker, hw, hstatus, hcurrent⟩ := h
  refine ⟨worker, ?_, hstatus, hcurrent⟩
  rw [hs', hw]
  simp [workerUpdate, hp worker hw]

theorem holdsActiveJob_of_heldBy (worker : WorkerSnapshot) (hheld : HeldBy s id worker.id)
    (hcurrent : worker.currentJobId = some id) : s.holdsActiveJob worker = true := by
  obtain ⟨r, hr, hactive, hrw⟩ := hheld
  have hid : r.id = id := Store.job_id hr
  refine List.any_eq_true.mpr ⟨r, Table.find_mem hr, ?_⟩
  simp [hrw, hcurrent, hid, hactive]

theorem pointsTo_startup (now : Timestamp) (h : PointsTo s w id)
    (hheld : HeldBy (step policy s (.markInterruptedOnStartup now)) id w) :
    PointsTo (step policy s (.markInterruptedOnStartup now)) w id := by
  refine h.of_update (worker_updateWorkers_eq _ _ w) ?_
  intro worker hworker
  obtain ⟨worker', hworker', -, hcurrent⟩ := h
  obtain rfl : worker = worker' := Option.some.inj (hworker.symm.trans hworker')
  obtain rfl : worker.id = w := Store.worker_id hworker'
  -- The job is still active and still the worker's, so the worker is not released.
  have hholds := holdsActiveJob_of_heldBy worker hheld hcurrent
  rw [Bool.and_eq_false_iff]
  right
  rw [Bool.not_eq_false']
  exact hholds

theorem pointsTo_register (request : RegisterWorker) (now : Timestamp) (h : PointsTo s w id) :
    PointsTo (step policy s (.registerWorker request now)) w id := by
  obtain ⟨worker, hworker, hstatus, hcurrent⟩ := h
  refine ⟨_, worker_registerWorker policy request now hworker, ?_, ?_⟩
  · split
    · simpa [reregister, hcurrent] using hstatus
    · exact hstatus
  · split
    · exact hcurrent
    · exact hcurrent

theorem pointsTo_heartbeat (request : WorkerHeartbeat) (now : Timestamp) (h : PointsTo s w id)
    (hsender : request.workerId = w → request.currentJobId = some id ∧ request.status ≠ .offline) :
    PointsTo (step policy s (.heartbeatWorker request now)) w id := by
  cases hknown : s.worker request.workerId with
  | none =>
      have heq : step policy s (.heartbeatWorker request now) = s := by
        simp [step, heartbeatWorker, hknown]
      rw [heq]
      exact h
  | some sender =>
      by_cases hrejected : ∃ e, interruptPreviousJob s sender request now = .error e
      · obtain ⟨e, herror⟩ := hrejected
        have heq : step policy s (.heartbeatWorker request now) = s := by
          simp [step, heartbeatWorker, hknown, herror]
        rw [heq]
        exact h
      · have hrow := worker_heartbeat policy now hknown (fun e he => hrejected ⟨e, he⟩) w
        by_cases hw : request.workerId = w
        · obtain ⟨hcurrent, hstatus⟩ := hsender hw
          obtain ⟨worker, hworker, -, -⟩ := h
          refine ⟨_, by rw [hrow, hworker]; rfl, ?_, ?_⟩
          · simp [workerUpdate, Store.worker_id hworker, hw, heartbeatWorkerRow, hstatus]
          · simp [workerUpdate, Store.worker_id hworker, hw, heartbeatWorkerRow, hcurrent]
        · refine h.of_update hrow ?_
          intro worker hworker
          simp [Store.worker_id hworker, Ne.symm hw]

/-- A job still held after the stale sweep has an owner the sweep did not match. -/
theorem pointsTo_stale (started : Option Timestamp) (timeout : Nat) (now : Timestamp)
    (h : PointsTo s w id) (hbefore : HeldBy s id w)
    (hheld : HeldBy (step policy s (.markStaleWorkersInterrupted started timeout now)) id w) :
    PointsTo (step policy s (.markStaleWorkersInterrupted started timeout now)) w id := by
  obtain ⟨r, hr, hactive, hrw⟩ := hbefore
  obtain ⟨r', hr', hactive', -⟩ := hheld
  simp only [step, markStaleWorkersInterrupted] at hr' ⊢
  split at hr'
  · next hempty =>
      rw [if_pos hempty]
      exact h
  · next hsome =>
      rw [if_neg hsome]
      refine h.of_update (worker_updateWorkers_eq _ _ w) ?_
      intro worker hworker
      have hwid : worker.id = w := Store.worker_id hworker
      rw [hwid]
      by_contra hstale
      rw [Bool.not_eq_false] at hstale
      simp only [Store.commit_ok, Store.job_updateWorkers, Store.job_updateJobs, hr,
        Option.map_some, Option.some.injEq] at hr'
      have hinterrupted : r'.status = .interrupted := by
        rw [← hr']
        simp only [Store.rowUpdate, hrw, Option.any_some, hstale, hactive, Bool.and_self, if_true]
        rfl
      rw [hinterrupted] at hactive'
      cases hactive'

/-- The termination report fails a job of the worker it names, and that worker holds no
other; a job still held is another worker's. -/
theorem pointsTo_terminated (workerId : String) (signal exitCode : Option Int) (pick : Nat)
    (now : Timestamp) (hlink : Reclaimable s) (hbefore : HeldBy s id w)
    (hheld : HeldBy (step policy s (.failWorkerJobTerminated workerId signal exitCode pick now)) id
      w) :
    PointsTo (step policy s (.failWorkerJobTerminated workerId signal exitCode pick now)) w id := by
  have h : PointsTo s w id := hlink.pointsTo hbefore
  have hother : w ≠ workerId := by
    rintro rfl
    obtain ⟨r, hr, hactive, hrw⟩ := hbefore
    have hmem : r ∈ s.activeJobsOf w := by
      simp [Store.activeJobsOf, Table.find_mem hr, hrw, hactive]
    have hlength : 0 < (s.activeJobsOf w).length := List.length_pos_of_mem hmem
    obtain ⟨job, hjob⟩ : ∃ job, (s.activeJobsOf w)[pick % (s.activeJobsOf w).length]? = some job :=
      ⟨_, List.getElem?_eq_getElem (Nat.mod_lt pick hlength)⟩
    have hjobmem : job ∈ s.jobs.rows ∧ job.workerId = some w ∧ job.status.isActive = true := by
      simpa [Store.activeJobsOf] using List.mem_of_getElem? hjob
    have hjobheld : HeldBy s job.id w :=
      ⟨job, Store.mem_jobs_iff.mp hjobmem.1, hjobmem.2.2, hjobmem.2.1⟩
    have hid : job.id = id := hlink.heldBy_unique hjobheld ⟨r, hr, hactive, hrw⟩
    obtain ⟨r', hr', hactive', -⟩ := hheld
    have hrid : r.id = id := Store.job_id hr
    simp only [step, failWorkerJobTerminated, hjob, Store.commit_ok, Store.job_updateWorkers,
      Store.job_updateJobs, hr, Option.map_some, Option.some.injEq] at hr'
    have hfailed : r'.status = .failed := by
      rw [← hr']
      simp only [Store.rowUpdate, hrid, hid, hactive, decide_true, Bool.and_self, if_true]
      rfl
    rw [hfailed] at hactive'
    cases hactive'
  have hp : ∀ worker, s.worker w = some worker → decide (worker.id = workerId) = false := by
    intro worker hworker
    rw [Store.worker_id hworker]
    simpa using hother
  simp only [step, failWorkerJobTerminated]
  split
  · exact h.of_update (worker_updateWorkers_eq _ _ w) hp
  · exact h.of_update (worker_updateWorkers_eq _ _ w) hp

theorem pointsTo_claim (workerId : String) (mlxRequired : Bool) (now : Timestamp)
    (h : PointsTo s w id) (hbefore : HeldBy s id w)
    (hop : KeepsLink policy s (.claimNextJob workerId mlxRequired now)) :
    PointsTo (step policy s (.claimNextJob workerId mlxRequired now)) w id := by
  obtain heq | ⟨worker, queued, hout⟩ := claimNextJob_cases policy s workerId mlxRequired now
  · simp only [step, heq]
    exact h
  · have hother : w ≠ workerId := by
      rintro rfl
      exact hop ⟨worker, queued, hout⟩ id hbefore
    simp only [step, hout.step_eq now]
    refine h.of_update (worker_takeClaim policy queued worker now w) ?_
    intro owner howner
    rw [Store.worker_id howner, Store.worker_id hout.known]
    simpa using hother

/-- A terminal report releases its reporter. The reporter holds only the reported job,
so a job still held is another worker's. -/
theorem pointsTo_progress (jobId : String) (update : ProgressUpdate) (track : Bool)
    (now : Timestamp) (hlink : Reclaimable s) (hbefore : HeldBy s id w)
    (hop : KeepsLink policy s (.updateJobProgress jobId update track now))
    (hheld : HeldBy (step policy s (.updateJobProgress jobId update track now)) id w) :
    PointsTo (step policy s (.updateJobProgress jobId update track now)) w id := by
  have h : PointsTo s w id := hlink.pointsTo hbefore
  obtain heq | ⟨checked, current, hcheck, hjob, hlive, hreporter, heq⟩ :=
    updateJobProgress_cases policy s jobId update track now
  · simp only [step, heq]
    exact h
  · obtain ⟨owner, hw, howner⟩ := reporterOwns_iff.mp hreporter
    simp only [step, heq] at hheld ⊢
    cases hterminal : update.status.isTerminal with
    | false =>
        refine h.of_worker_eq ?_
        rw [worker_acceptProgress, hterminal]
        rfl
    | true =>
        have hother : owner ≠ w := by
          rintro rfl
          cases hactive : current.status.isActive with
          | false =>
              have haccepted : progressAccepted s jobId update = true :=
                progressAccepted_iff.mpr ⟨checked, current, owner, hcheck, hjob, hlive, hw, howner⟩
              exact (hop haccepted current owner hjob howner hactive).2 hterminal id hbefore
          | true =>
              have hid : jobId = id :=
                hlink.heldBy_unique ⟨current, hjob, hactive, howner⟩ hbefore
              obtain ⟨r', hr', hactive', -⟩ := hheld
              rw [job_acceptProgress, ← hid, hjob] at hr'
              have hstatus : r'.status = update.status := by
                rw [← Option.some.inj hr']
                simp [Store.rowUpdate, JobRow.afterUpdate, JobRow.applyProgress]
              rw [hstatus, JobStatus.isActive_eq_false_of_isTerminal hterminal] at hactive'
              cases hactive'
        have hrow := worker_acceptProgress (s := s) policy current update checked
          (track && update.status.isTerminal) now w
        rw [hterminal, if_pos rfl] at hrow
        refine h.of_update hrow ?_
        intro worker hworker
        rw [howner, Store.worker_id hworker]
        simpa using hother

theorem pointsTo_step {op : Op} (hlink : Reclaimable s) (hop : KeepsLink policy s op)
    (hbefore : HeldBy s id w) (hheld : HeldBy (step policy s op) id w) :
    PointsTo (step policy s op) w id := by
  have h : PointsTo s w id := hlink.pointsTo hbefore
  cases hwrites : op.writesWorkers with
  | false =>
      refine h.of_worker_eq ?_
      exact congrArg (fun workers => Table.find workers w) (step_workers policy s hwrites)
  | true =>
      cases op with
      | markInterruptedOnStartup now => exact pointsTo_startup now h hheld
      | registerWorker request now => exact pointsTo_register request now h
      | heartbeatWorker request now =>
          refine pointsTo_heartbeat request now h ?_
          rintro rfl
          obtain ⟨r, hr, hactive, hrw⟩ := hbefore
          obtain hnames | ⟨hidle, hbeat⟩ := hop id r hr hactive hrw
          · exact hnames
          · -- An idle heartbeat interrupts the job its worker points to.
            obtain ⟨worker, hworker, -, hcurrent⟩ := h
            have htarget : interruptTarget s request = some r :=
              interruptTarget_eq_some_iff.mpr
                ⟨hidle, worker, id, hworker, hcurrent, hr, hactive, hbeat⟩
            obtain ⟨r', hr', hactive', -⟩ := hheld
            rw [job_heartbeat, hr, Option.map_some, Option.some.injEq] at hr'
            have hinterrupted : r'.status = .interrupted := by
              rw [← hr']
              simp [heartbeatRow, htarget, JobRow.afterUpdate, JobRow.interruptOnIdleHeartbeat,
                JobRow.reclaim]
            rw [hinterrupted] at hactive'
            cases hactive'
      | markStaleWorkersInterrupted started timeout now =>
          exact pointsTo_stale started timeout now h hbefore hheld
      | failWorkerJobTerminated workerId signal exitCode pick now =>
          exact pointsTo_terminated workerId signal exitCode pick now hlink hbefore hheld
      | claimNextJob workerId mlxRequired now =>
          exact pointsTo_claim workerId mlxRequired now h hbefore hop
      | updateJobProgress jobId update track now =>
          exact pointsTo_progress jobId update track now hlink hbefore hop hheld
      | _ => cases hwrites

theorem pointsTo_handed {workerId : String} {mlxRequired : Bool} {worker : WorkerSnapshot}
    {queued : JobRow} (now : Timestamp)
    (h : HandsOut policy s workerId mlxRequired worker queued) :
    PointsTo (step policy s (.claimNextJob workerId mlxRequired now)) workerId queued.id := by
  have hrow := worker_takeClaim (s := s) policy queued worker now workerId
  rw [h.known, Option.map_some] at hrow
  simp only [step, h.step_eq now]
  refine ⟨_, hrow, ?_, ?_⟩
  · simp [workerUpdate, claimWorkerRow]
  · simp [workerUpdate, claimWorkerRow]

theorem reclaimable_step {op : Op} (h : Reclaimable s) (hop : KeepsLink policy s op) :
    Reclaimable (step policy s op) := by
  intro id r' hr' hactive
  cases active_step hr' hactive with
  | was r hr hwas _ howner _ =>
      obtain ⟨w, hrw, -⟩ := h id r hr hwas
      have hrw' : r'.workerId = some w := howner.trans hrw
      exact ⟨w, hrw', pointsTo_step h hop ⟨r, hr, hwas, hrw⟩ ⟨r', hr', hactive, hrw'⟩⟩
  | claimed workerId mlxRequired now worker r heq hworker hselected hr _ howner _ =>
      subst heq
      refine ⟨workerId, howner, ?_⟩
      obtain hsame | ⟨worker', queued, hout⟩ :=
        claimNextJob_cases policy s workerId mlxRequired now
      · -- A claim that changes nothing makes no row active.
        obtain ⟨-, hqueued, -⟩ := selectedJob_spec hselected
        simp only [step, hsame, hr, Option.some.injEq] at hr'
        rw [← hr', hqueued] at hactive
        cases hactive
      · obtain rfl : worker = worker' := Option.some.inj (hworker.symm.trans hout.known)
        obtain rfl : r = queued := by simpa [hselected] using hout.selected
        rw [← Store.job_id hr]
        exact pointsTo_handed now hout
  | reported update track now r w heq hcheck hr hlive hidle hreporter hrw hstatus howner =>
      subst heq
      have hupdate : update.status.isActive = true := by rw [← hstatus]; exact hactive
      obtain ⟨checked, hchecked⟩ : ∃ checked, update.check = .ok checked := by
        cases hcases : update.check with
        | error e => rw [hcases] at hcheck; cases hcheck
        | ok checked => exact ⟨checked, rfl⟩
      have haccepted : progressAccepted s id update = true :=
        progressAccepted_iff.mpr ⟨checked, r, w, hchecked, hr, hlive, hreporter, hrw⟩
      have hpoints := (hop haccepted r w hr hrw hidle).1 hupdate
      refine ⟨w, howner, hpoints.of_worker_eq ?_⟩
      rw [step_progressAccepted policy track now hchecked hr hlive hreporter hrw,
        worker_acceptProgress, JobStatus.isTerminal_eq_false_of_isActive hupdate]
      rfl

end Link

section Converse

variable {policy : RoutingPolicy} {s : Store}

/-- A row that an operation keeps active for its owner forces the owner to point to it. -/
theorem Reclaimable.pointsTo_of_job {s' : Store} {id w : String} {r : JobRow} (h : Reclaimable s')
    (hr : s'.job id = some r) (hactive : r.status.isActive = true) (hrw : r.workerId = some w) :
    PointsTo s' w id :=
  h.pointsTo ⟨r, hr, hactive, hrw⟩

theorem keepsLink_heartbeat {request : WorkerHeartbeat} {now : Timestamp} (h : Reclaimable s)
    (hafter : Reclaimable (step policy s (.heartbeatWorker request now))) :
    KeepsLink policy s (.heartbeatWorker request now) := by
  intro id r hr hactive hrw
  obtain ⟨worker, hworker, -, hcurrent⟩ := h.pointsTo ⟨r, hr, hactive, hrw⟩
  have hjob := job_heartbeat policy s request now id
  rw [hr, Option.map_some] at hjob
  -- The heartbeat is not rejected: the job its worker points to exists.
  have hrow := worker_heartbeat policy now hworker (by
    intro e herror
    unfold interruptPreviousJob at herror
    split at herror
    · next previousJobId _ hprevious =>
        obtain rfl : id = previousJobId := Option.some.inj (hcurrent.symm.trans hprevious)
        rw [hr] at herror
        dsimp only at herror
        split at herror <;> cases herror
    · cases herror) request.workerId
  rw [hworker, Option.map_some] at hrow
  cases htarget : interruptTarget s request with
  | some target =>
      obtain ⟨hidle, worker', previousJobId, hworker', hcurrent', htjob, -, hbeat⟩ :=
        interruptTarget_eq_some_iff.mp htarget
      obtain rfl : worker = worker' := Option.some.inj (hworker.symm.trans hworker')
      obtain rfl : id = previousJobId := Option.some.inj (hcurrent.symm.trans hcurrent')
      obtain rfl : r = target := Option.some.inj (hr.symm.trans htjob)
      exact .inr ⟨hidle, hbeat⟩
  | none =>
      left
      have hkept : (heartbeatRow s request now r).status = r.status ∧
          (heartbeatRow s request now r).workerId = r.workerId := by
        unfold heartbeatRow
        rw [htarget]
        dsimp only
        split
        · exact ⟨rfl, rfl⟩
        · exact ⟨rfl, rfl⟩
      obtain ⟨worker', hworker', hstatus', hcurrent'⟩ :=
        hafter.pointsTo_of_job hjob (by rw [hkept.1]; exact hactive) (by rw [hkept.2]; exact hrw)
      rw [hrow, Option.some.injEq] at hworker'
      subst hworker'
      have hwid : worker.id = request.workerId := Store.worker_id hworker
      simp only [workerUpdate, hwid, decide_true, if_true, heartbeatWorkerRow] at hstatus' hcurrent'
      exact ⟨hcurrent', hstatus'⟩

theorem keepsLink_claim {workerId : String} {mlxRequired : Bool} {now : Timestamp}
    (hafter : Reclaimable (step policy s (.claimNextJob workerId mlxRequired now))) :
    KeepsLink policy s (.claimNextJob workerId mlxRequired now) := by
  rintro ⟨worker, queued, hout⟩ id ⟨r, hr, hactive, hrw⟩
  obtain ⟨hqjob, hqueued, -⟩ := selectedJob_spec hout.selected
  have hne : id ≠ queued.id := by
    rintro rfl
    obtain rfl : r = queued := Option.some.inj (hr.symm.trans hqjob)
    rw [hqueued] at hactive
    cases hactive
  have hjob : (step policy s (.claimNextJob workerId mlxRequired now)).job id = some r := by
    have hin : isJobIn queued.id .queued r = false := by
      simp [isJobIn, Store.job_id hr, hne]
    simp only [step, hout.step_eq now, job_takeClaim now hqjob hqueued, hr, Option.map_some, hin,
      Bool.false_eq_true, if_false]
  exact hne ((hafter.pointsTo_of_job hjob hactive hrw).unique (pointsTo_handed now hout))

theorem keepsLink_progress {jobId : String} {update : ProgressUpdate} {track : Bool}
    {now : Timestamp}
    (hafter : Reclaimable (step policy s (.updateJobProgress jobId update track now))) :
    KeepsLink policy s (.updateJobProgress jobId update track now) := by
  intro haccepted r w hr hrw hidle
  obtain ⟨checked, r₀, w₀, hcheck, hr₀, hlive, hw, hrw₀⟩ := progressAccepted_iff.mp haccepted
  obtain rfl : r = r₀ := Option.some.inj (hr.symm.trans hr₀)
  obtain rfl : w = w₀ := Option.some.inj (hrw.symm.trans hrw₀)
  have hstep := step_progressAccepted policy track now hcheck hr hlive hw hrw
  refine ⟨?_, ?_⟩
  · intro hactive
    obtain ⟨r', w', checked', hr', -, hjob⟩ := job_step_progressAccepted policy track now haccepted
    obtain rfl : r = r' := Option.some.inj (hr.symm.trans hr')
    have hpoints := hafter.pointsTo_of_job hjob hactive hrw
    rw [hstep] at hpoints
    refine hpoints.of_worker_eq ?_
    rw [worker_acceptProgress, JobStatus.isTerminal_eq_false_of_isActive hactive]
    rfl
  · rintro hterminal id ⟨q, hq, hqactive, hqw⟩
    have hne : q.id ≠ r.id := by
      intro hid
      have hrow : q = r := Store.job_unique hq (hid.trans (Store.job_id hr)) hr
      rw [hrow, hidle] at hqactive
      cases hqactive
    have hjob : (acceptProgress policy s r update checked
        (track && update.status.isTerminal) now).job id = some q := by
      rw [job_acceptProgress, hq]
      simp [Store.rowUpdate, hne]
    rw [hstep] at hafter
    -- The reporter's row was released, so it no longer points to the job it still holds.
    obtain ⟨worker, hworker, -, hcurrent⟩ := hafter.pointsTo_of_job hjob hqactive hqw
    rw [worker_acceptProgress, hterminal, if_pos rfl] at hworker
    obtain ⟨before, hbefore, hrow⟩ := Option.map_eq_some_iff.mp hworker
    have hbid : before.id = w := Store.worker_id hbefore
    rw [← hrow] at hcurrent
    simp [workerUpdate, hrw, hbid, idleWorkerRow] at hcurrent

theorem keepsLink_of_reclaimable {op : Op} (h : Reclaimable s)
    (hafter : Reclaimable (step policy s op)) : KeepsLink policy s op := by
  cases op with
  | heartbeatWorker request now => exact keepsLink_heartbeat h hafter
  | claimNextJob workerId mlxRequired now => exact keepsLink_claim hafter
  | updateJobProgress jobId update track now => exact keepsLink_progress hafter
  | _ => trivial

end Converse

/-- Through every state of a run each active job is owned by a worker that is not
offline and points back at it, exactly when every operation of the run keeps the link. -/
theorem running_jobs_reclaimable_iff (policy : RoutingPolicy) (ops : List Op) :
    Run.Throughout (step policy) Reclaimable Store.empty ops ↔
      Run.Along (step policy) (KeepsLink policy) Store.empty ops := by
  have hempty : Reclaimable Store.empty := by
    intro id r hr
    cases hr
  exact Run.throughout_iff_along Reclaimable (fun _ _ => reclaimable_step) (fun _ h => h)
    (fun _ _ => keepsLink_of_reclaimable) hempty

/-- An idle heartbeat that races the claim: the job has not been heard of, so it is not
interrupted, and its worker no longer points to it. -/
theorem early_idle_heartbeat_strands_job :
    ¬ Reclaimable (exec emptyTables Store.empty
      [.createJob (placeholderRequest none []) "job" none none 0,
        .registerWorker (placeholderWorker "worker" "gpu-0") 1,
        .claimNextJob "worker" false 2,
        .heartbeatWorker (placeholderHeartbeat "worker" .idle none) 3]) := by
  intro h
  obtain ⟨w, hw, worker, hworker, -, hcurrent⟩ := h "job" _ rfl rfl
  obtain rfl : "worker" = w := Option.some.inj hw
  cases hworker
  cases hcurrent

end SceneWorks.JobsStore
