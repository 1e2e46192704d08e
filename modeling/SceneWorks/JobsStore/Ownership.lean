import SceneWorks.JobsStore.Steps

/-!
Who owns a job. `OwnerStep` is the view of a step that keeps only status, owner and
GPU; from it follows when the coupling of status and owner is kept, and that the owner
of an active job is the worker whose claim took it from the queue.

A progress report takes its target status from the reporter. A report that names a
pending status is accepted from the owner and leaves a pending row with an owner;
`ownership_follows_status_iff` says that no other operation breaks the coupling.
-/

namespace SceneWorks.JobsStore

/-- What a step does to status, type, owner and GPU of a row. -/
inductive OwnerStep (policy : RoutingPolicy) (s : Store) (op : Op) (r r' : JobRow) : Prop
  | kept (hstatus : r'.status = r.status) (htype : r'.jobType = r.jobType)
      (howner : r'.workerId = r.workerId) (hgpu : r'.assignedGpu = r.assignedGpu)
  | queued (h : r.status.isPending = true) (h' : r'.status = .queued)
      (howner : r'.workerId = r.workerId)
  | ended (h' : r'.status.isTerminal = true)
  | claimed (workerId : String) (mlxRequired : Bool) (now : Timestamp) (worker : WorkerSnapshot)
      (hop : op = .claimNextJob workerId mlxRequired now)
      (hworker : s.worker workerId = some worker)
      (hselected : chooseClaimableJobFromCandidates policy s
        (claimCandidates s worker (activeGpuJobExists s worker.gpuId)) worker = .ok (some r))
      (hstatus : r'.status = .preparing) (htype : r'.jobType = r.jobType)
      (howner : r'.workerId = some workerId)
      (hgpu : r'.assignedGpu = some (assignedGpuFor r worker))
  | progressed (update : ProgressUpdate) (track : Bool) (now : Timestamp)
      (hop : op = .updateJobProgress r.id update track now) (hcheck : update.check.isOk = true)
      (hlive : r.status.isTerminal = false)
      (hreporter : reporterOwns update.workerId r.workerId = true)
      (hstatus : r'.status = update.status) (htype : r'.jobType = r.jobType)
      (howner : r'.workerId = r.workerId) (hgpu : r'.assignedGpu = r.assignedGpu)

section View

variable {policy : RoutingPolicy} {s : Store} {op : Op}

theorem reporterOwns_iff {reporter owner : Option String} :
    reporterOwns reporter owner = true ↔ ∃ w, reporter = some w ∧ owner = some w := by
  cases reporter with
  | none => simp [reporterOwns]
  | some w => simp [reporterOwns, eq_comm]

theorem claimedRow_jobType (worker : WorkerSnapshot) (now : Timestamp) (r : JobRow) :
    (claimedRow policy worker now r).jobType = r.jobType := by
  simp only [claimedRow]
  split
  · split <;> rfl
  · rfl

theorem JobStep.ownerStep {r r' : JobRow} (h : JobStep policy s op r r') :
    OwnerStep policy s op r r' := by
  cases h with
  | bookkept hcore =>
      have hrow : r' = _ := hcore
      rw [hrow]
      exact .kept rfl rfl rfl rfl
  | backfilled hop => exact .kept rfl rfl rfl rfl
  | queuedCaption now hop h => exact .queued (by rw [h]; rfl) rfl rfl
  | promotedCaption payload now hop h => exact .queued (by rw [h]; rfl) rfl rfl
  | rewroteWorkflow payload now hop h => exact .kept rfl rfl rfl rfl
  | queuedWorkflow now hop h => exact .queued (by rw [h]; rfl) rfl rfl
  | promotedWorkflow payload now hop h => exact .queued (by rw [h]; rfl) rfl rfl
  | ended h h' hid => exact .ended h'
  | claimed workerId mlxRequired now worker hop hworker hselected =>
      have hid : worker.id = workerId := Store.worker_id hworker
      exact .claimed workerId mlxRequired now worker hop hworker hselected rfl
        (claimedRow_jobType worker now r) (by rw [← hid]; rfl) rfl
  | progressed update track now checked hop hcheck hlive howner =>
      exact .progressed update track now hop (by rw [hcheck]; rfl) hlive howner rfl rfl rfl rfl
  | deferred now hop h => exact .kept rfl rfl rfl rfl
  | resultReplaced workerId status expected result clear now hop hcas =>
      exact .kept rfl rfl rfl rfl

/-- Where an active row comes from: it was active with the same owner and GPU, a claim
took it from the queue, or its owner reported it active. -/
inductive ActiveOrigin (policy : RoutingPolicy) (s : Store) (op : Op) (k : String)
    (r' : JobRow) : Prop
  | was (r : JobRow) (hr : s.job k = some r) (hactive : r.status.isActive = true)
      (htype : r'.jobType = r.jobType) (howner : r'.workerId = r.workerId)
      (hgpu : r'.assignedGpu = r.assignedGpu)
  | claimed (workerId : String) (mlxRequired : Bool) (now : Timestamp) (worker : WorkerSnapshot)
      (r : JobRow) (hop : op = .claimNextJob workerId mlxRequired now)
      (hworker : s.worker workerId = some worker)
      (hselected : chooseClaimableJobFromCandidates policy s
        (claimCandidates s worker (activeGpuJobExists s worker.gpuId)) worker = .ok (some r))
      (hr : s.job k = some r) (htype : r'.jobType = r.jobType)
      (howner : r'.workerId = some workerId)
      (hgpu : r'.assignedGpu = some (assignedGpuFor r worker))
  | reported (update : ProgressUpdate) (track : Bool) (now : Timestamp) (r : JobRow) (w : String)
      (hop : op = .updateJobProgress k update track now) (hcheck : update.check.isOk = true)
      (hr : s.job k = some r) (hlive : r.status.isTerminal = false)
      (hidle : r.status.isActive = false) (hreporter : update.workerId = some w)
      (hrw : r.workerId = some w) (hstatus : r'.status = update.status)
      (howner : r'.workerId = some w)

theorem active_step {k : String} {r' : JobRow} (hr' : (step policy s op).job k = some r')
    (hactive : r'.status.isActive = true) : ActiveOrigin policy s op k r' := by
  have hmove : JobMove policy s op (s.job k) ((step policy s op).job k) := step_job s op k
  rw [hr'] at hmove
  generalize hbefore : s.job k = before at hmove
  cases hmove with
  | created hnew =>
      have hpending := hnew.isPending
      rw [JobStatus.isPending_eq_false_of_isActive hactive] at hpending
      cases hpending
  | @moved r _ hstep =>
      cases hstep.ownerStep with
      | kept hstatus htype howner hgpu =>
          exact .was r hbefore (by rw [← hstatus]; exact hactive) htype howner hgpu
      | queued _ hqueued _ =>
          rw [hqueued] at hactive
          cases hactive
      | ended hterminal =>
          rw [JobStatus.isActive_eq_false_of_isTerminal hterminal] at hactive
          cases hactive
      | claimed workerId mlxRequired now worker hop hworker hselected _ htype howner hgpu =>
          exact .claimed workerId mlxRequired now worker r hop hworker hselected hbefore htype
            howner hgpu
      | progressed update track now hop hcheck hlive hreporter hstatus htype howner hgpu =>
          obtain ⟨w, hw, hrw⟩ := reporterOwns_iff.mp hreporter
          cases hwas : r.status.isActive with
          | true => exact .was r hbefore hwas htype howner hgpu
          | false =>
              have hid : r.id = k := Store.job_id hbefore
              exact .reported update track now r w (hid ▸ hop) hcheck hbefore hlive hwas hw hrw
                hstatus (howner.trans hrw)

end View

section Acceptance

/-- The checks a progress report has to pass: a declared status and finite figures, a
live job, and a reporter that owns it. -/
def progressAccepted (s : Store) (jobId : String) (update : ProgressUpdate) : Bool :=
  update.check.isOk && (s.job jobId).any fun r =>
    !r.status.isTerminal && reporterOwns update.workerId r.workerId

theorem progressAccepted_iff {s : Store} {jobId : String} {update : ProgressUpdate} :
    progressAccepted s jobId update = true ↔
      ∃ checked r w, update.check = .ok checked ∧ s.job jobId = some r ∧
        r.status.isTerminal = false ∧ update.workerId = some w ∧ r.workerId = some w := by
  constructor
  · intro h
    obtain ⟨hcheck, hjob⟩ := Bool.and_eq_true_iff.mp h
    cases hchecked : update.check with
    | error e => rw [hchecked] at hcheck; cases hcheck
    | ok checked =>
        cases hr : s.job jobId with
        | none => simp [hr] at hjob
        | some r =>
            have hrow :
                (!r.status.isTerminal && reporterOwns update.workerId r.workerId) = true := by
              simpa only [hr, Option.any_some] using hjob
            obtain ⟨hlive, howner⟩ := Bool.and_eq_true_iff.mp hrow
            obtain ⟨w, hw, hrw⟩ := reporterOwns_iff.mp howner
            exact ⟨checked, r, w, rfl, rfl, by simpa using hlive, hw, hrw⟩
  · rintro ⟨checked, r, w, hcheck, hr, hlive, hw, hrw⟩
    simp [progressAccepted, hcheck, hr, hlive, reporterOwns, hw, hrw, Except.isOk, Except.toBool]

theorem check_isOk_known {update : ProgressUpdate} (h : update.check.isOk = true) :
    update.status.asStr ∈ JobStatus.knownValues := by
  by_contra hunknown
  have hcheck : update.check = .error (.invalidStatus update.status.asStr) := by
    simp [ProgressUpdate.check, hunknown]
  rw [hcheck] at h
  cases h

theorem step_progressAccepted (policy : RoutingPolicy) {s : Store} {jobId : String}
    {update : ProgressUpdate} {checked : CheckedProgress} {r : JobRow} {w : String} (track : Bool)
    (now : Timestamp) (hcheck : update.check = .ok checked) (hr : s.job jobId = some r)
    (hlive : r.status.isTerminal = false) (hw : update.workerId = some w)
    (hrw : r.workerId = some w) :
    step policy s (.updateJobProgress jobId update track now) =
      acceptProgress policy s r update checked (track && update.status.isTerminal) now := by
  have howner : reporterOwns update.workerId r.workerId = true :=
    reporterOwns_iff.mpr ⟨w, hw, hrw⟩
  simp only [step, updateJobProgressInternal, hcheck, hr, hlive, howner, if_true,
    Bool.false_eq_true, if_false]
  refine commit_readBack (fun q => (⟨q.2, r.status, true, track && update.status.isTerminal⟩ :
    ProgressUpdateOutcome)) ?_
  simp [job_acceptProgress, hr]

def reportedRow (policy : RoutingPolicy) (update : ProgressUpdate) (checked : CheckedProgress)
    (track : Bool) (now : Timestamp) (r : JobRow) : JobRow :=
  r.afterUpdate (r.applyProgress now update checked
    (update.result.map (mergeProgressResult policy r)) (track && update.status.isTerminal))

theorem job_step_progressAccepted (policy : RoutingPolicy) {s : Store} {jobId : String}
    {update : ProgressUpdate} (track : Bool) (now : Timestamp)
    (h : progressAccepted s jobId update = true) :
    ∃ r w checked, s.job jobId = some r ∧ r.workerId = some w ∧
      (step policy s (.updateJobProgress jobId update track now)).job jobId =
        some (reportedRow policy update checked track now r) := by
  obtain ⟨checked, r, w, hcheck, hr, hlive, hw, hrw⟩ := progressAccepted_iff.mp h
  refine ⟨r, w, checked, hr, hrw, ?_⟩
  rw [step_progressAccepted policy track now hcheck hr hlive hw hrw, job_acceptProgress, hr]
  simp [Store.rowUpdate, reportedRow]

end Acceptance

section Coupling

/-- A pending job has no owner, an active one has. -/
def OwnershipFollowsStatus (s : Store) : Prop :=
  ∀ id r, s.job id = some r →
    (r.status.isPending = true → r.workerId = none) ∧
    (r.status.isActive = true → r.workerId.isSome = true)

/-- A report that the store accepts names an active or a terminal status. -/
def ReportsLive (s : Store) : Op → Prop
  | .updateJobProgress jobId update _ _ =>
      progressAccepted s jobId update = true →
        update.status.isActive = true ∨ update.status.isTerminal = true
  | _ => True

/-- The coupling on one row, with the fact that its status is a declared one. -/
structure Owned (r : JobRow) : Prop where
  known : r.status.asStr ∈ JobStatus.knownValues
  pending : r.status.isPending = true → r.workerId = none
  active : r.status.isActive = true → r.workerId.isSome = true

def OwnerInv (s : Store) : Prop :=
  ∀ id r, s.job id = some r → Owned r

variable {policy : RoutingPolicy} {s : Store} {op : Op}

theorem ownerInv_empty : OwnerInv Store.empty := by
  intro id r hr
  cases hr

theorem OwnerInv.follows (h : OwnerInv s) : OwnershipFollowsStatus s := by
  intro id r hr
  exact ⟨(h id r hr).pending, (h id r hr).active⟩

theorem Owned.of_terminal {r : JobRow} (h : r.status.isTerminal = true) : Owned r where
  known := (JobStatus.known_iff_class _).mpr (.inr (.inr h))
  pending hpending := by
    rw [JobStatus.isPending_eq_false_of_isTerminal h] at hpending
    cases hpending
  active hactive := by
    rw [JobStatus.isActive_eq_false_of_isTerminal h] at hactive
    cases hactive

theorem Owned.of_active {r : JobRow} (h : r.status.isActive = true)
    (howner : r.workerId.isSome = true) : Owned r where
  known := (JobStatus.known_iff_class _).mpr (.inr (.inl h))
  pending hpending := by
    rw [JobStatus.isPending_eq_false_of_isActive h] at hpending
    cases hpending
  active _ := howner

theorem Owned.of_pending {r : JobRow} (h : r.status.isPending = true) (howner : r.workerId = none) :
    Owned r where
  known := (JobStatus.known_iff_class _).mpr (.inl h)
  pending _ := howner
  active hactive := by
    rw [JobStatus.isPending_eq_false_of_isActive hactive] at h
    cases h

/-- An owned live row is active: the class that is left when it is neither pending
nor terminal. -/
theorem Owned.isActive {r : JobRow} {w : String} (h : Owned r) (hlive : r.status.isTerminal = false)
    (howner : r.workerId = some w) : r.status.isActive = true := by
  obtain hpending | hactive | hterminal := (JobStatus.known_iff_class r.status).mp h.known
  · rw [h.pending hpending] at howner
    cases howner
  · exact hactive
  · rw [hlive] at hterminal
    cases hterminal

theorem ReportsLive.of_progressed {r : JobRow} {update : ProgressUpdate} {track : Bool}
    {now : Timestamp} (h : ReportsLive s op) (hop : op = .updateJobProgress r.id update track now)
    (hjob : s.job r.id = some r) (hcheck : update.check.isOk = true)
    (hlive : r.status.isTerminal = false)
    (hreporter : reporterOwns update.workerId r.workerId = true) :
    update.status.isActive = true ∨ update.status.isTerminal = true := by
  subst hop
  refine h ?_
  simp [progressAccepted, hcheck, hjob, hlive, hreporter]

theorem ownerInv_step (h : OwnerInv s) (hop : ReportsLive s op) :
    OwnerInv (step policy s op) := by
  refine step_everyJob (fun r hnew => .of_pending hnew.isPending hnew.workerId) ?_ h
  intro r r' hjob hstep hr
  cases hstep.ownerStep with
  | kept hstatus htype howner hgpu =>
      refine ⟨?_, ?_, ?_⟩
      · rw [hstatus]; exact hr.known
      · rw [hstatus, howner]; exact hr.pending
      · rw [hstatus, howner]; exact hr.active
  | queued hpending hqueued howner =>
      refine .of_pending (by rw [hqueued]; rfl) ?_
      rw [howner]
      exact hr.pending hpending
  | ended hterminal => exact .of_terminal hterminal
  | claimed workerId mlxRequired now worker _ _ _ hstatus _ howner _ =>
      exact .of_active (by rw [hstatus]; rfl) (by rw [howner]; rfl)
  | progressed update track now hop' hcheck hlive hreporter hstatus htype howner hgpu =>
      obtain ⟨w, -, hrw⟩ := reporterOwns_iff.mp hreporter
      obtain hactive | hterminal := hop.of_progressed hop' hjob hcheck hlive hreporter
      · exact .of_active (by rw [hstatus]; exact hactive) (by rw [howner, hrw]; rfl)
      · exact .of_terminal (by rw [hstatus]; exact hterminal)

theorem reportsLive_of_follows (h : OwnershipFollowsStatus (step policy s op)) :
    ReportsLive s op := by
  cases op with
  | updateJobProgress jobId update track now =>
      intro haccepted
      obtain ⟨r, w, checked, -, hrw, hr'⟩ := job_step_progressAccepted policy track now haccepted
      have hcheck : update.check.isOk = true := (Bool.and_eq_true_iff.mp haccepted).1
      obtain hpending | hlive := (JobStatus.known_iff_class _).mp (check_isOk_known hcheck)
      · have hnone : r.workerId = none := (h jobId _ hr').1 hpending
        rw [hrw] at hnone
        cases hnone
      · exact hlive
  | _ => trivial

end Coupling

section Owner

variable (policy : RoutingPolicy)

/-- The job is active and `w` owns it. -/
def HeldBy (s : Store) (jobId w : String) : Prop :=
  ∃ r, s.job jobId = some r ∧ r.status.isActive = true ∧ r.workerId = some w

/-- Somewhere in the run `w` claimed the job from the queue, and has held it in every
state since. -/
def ClaimedSince (ops : List Op) (jobId w : String) : Prop :=
  ∃ front mlxRequired now back, ops = front ++ .claimNextJob w mlxRequired now :: back ∧
    (∃ r, (exec policy Store.empty front).job jobId = some r ∧ r.status = .queued) ∧
    ∀ mid rest, back = mid ++ rest →
      HeldBy (exec policy Store.empty (front ++ .claimNextJob w mlxRequired now :: mid)) jobId w

variable {policy} {s : Store} {op : Op} {ops : List Op} {jobId w : String}

theorem heldBy_step (h : OwnerInv s) (hheld : HeldBy (step policy s op) jobId w) :
    HeldBy s jobId w ∨ ∃ mlxRequired now r, op = .claimNextJob w mlxRequired now ∧
      s.job jobId = some r ∧ r.status = .queued := by
  obtain ⟨r', hr', hactive, howner'⟩ := hheld
  cases active_step hr' hactive with
  | was r hr hwas _ howner _ => exact .inl ⟨r, hr, hwas, by rw [← howner]; exact howner'⟩
  | claimed workerId mlxRequired now worker r hop _ hselected hr _ howner _ =>
      obtain ⟨-, hqueued, -⟩ := selectedJob_spec hselected
      obtain rfl : workerId = w := by
        rw [howner] at howner'
        exact Option.some.inj howner'
      exact .inr ⟨mlxRequired, now, r, hop, hr, hqueued⟩
  | reported update track now r w' hop _ hr hlive hidle _ hrw _ _ =>
      have hwas := (h jobId r hr).isActive hlive hrw
      rw [hidle] at hwas
      cases hwas

theorem ClaimedSince.snoc (h : ClaimedSince policy ops jobId w)
    (hheld : HeldBy (exec policy Store.empty (ops ++ [op])) jobId w) :
    ClaimedSince policy (ops ++ [op]) jobId w := by
  obtain ⟨front, mlxRequired, now, back, rfl, hqueued, hsince⟩ := h
  refine ⟨front, mlxRequired, now, back ++ [op], by simp, hqueued, ?_⟩
  intro mid rest hback
  obtain rfl | ⟨rest', last, rfl⟩ := rest.eq_nil_or_concat
  · have hmid : mid = back ++ [op] := by simpa using hback.symm
    rw [hmid]
    simpa using hheld
  · have hsplit : back ++ [op] = (mid ++ rest') ++ [last] := by simpa using hback
    obtain ⟨hrest, -⟩ := List.append_inj' hsplit rfl
    exact hsince mid rest' hrest

/-- The owner of an active job is the worker that claimed it since it was last queued. -/
theorem claimedSince_of_heldBy (hops : Run.Along (step policy) ReportsLive Store.empty ops)
    (hheld : HeldBy (exec policy Store.empty ops) jobId w) : ClaimedSince policy ops jobId w := by
  induction ops using List.reverseRecOn with
  | nil =>
      obtain ⟨r, hr, -⟩ := hheld
      cases hr
  | append_singleton ops op ih =>
      obtain ⟨hfront, -⟩ := Run.along_append.mp hops
      have hinv : OwnerInv (exec policy Store.empty ops) :=
        Run.exec_invariant (fun s op => ownerInv_step) ownerInv_empty hfront
      have hstep : exec policy Store.empty (ops ++ [op]) =
          step policy (exec policy Store.empty ops) op := Run.exec_append (step policy) _ ops [op]
      obtain hbefore | ⟨mlxRequired, now, r, rfl, hr, hqueued⟩ :=
        heldBy_step hinv (hstep ▸ hheld)
      · exact (ih hfront hbefore).snoc hheld
      · refine ⟨ops, mlxRequired, now, [], rfl, ⟨r, hr, hqueued⟩, ?_⟩
        intro mid rest hnil
        obtain ⟨rfl, -⟩ := List.append_eq_nil_iff.mp hnil.symm
        exact hheld

/-- The reporter of an accepted report is the owner, and the owner claimed the job. -/
theorem reporter_claimed (hops : Run.Along (step policy) ReportsLive Store.empty ops)
    {update : ProgressUpdate}
    (h : progressAccepted (exec policy Store.empty ops) jobId update = true) :
    ∃ w, update.workerId = some w ∧ ClaimedSince policy ops jobId w ∧
      ∀ other, progressAccepted (exec policy Store.empty ops) jobId other = true →
        other.workerId = some w := by
  obtain ⟨-, r, w, -, hr, hlive, hw, hrw⟩ := progressAccepted_iff.mp h
  have hinv : OwnerInv (exec policy Store.empty ops) :=
    Run.exec_invariant (fun s op => ownerInv_step) ownerInv_empty hops
  refine ⟨w, hw, claimedSince_of_heldBy hops ⟨r, hr, (hinv jobId r hr).isActive hlive hrw, hrw⟩, ?_⟩
  intro other hother
  obtain ⟨-, r', w', -, hr', -, hw', hrw'⟩ := progressAccepted_iff.mp hother
  obtain rfl : r = r' := Option.some.inj (hr.symm.trans hr')
  rw [hw', ← hrw', hrw]

end Owner

/-- Status and owner stay coupled through a run, and with them the rule that only the
claimant reports, exactly when no accepted report of the run names a pending status. -/
theorem ownership_follows_status_iff (policy : RoutingPolicy) (ops : List Op) :
    (Run.Throughout (step policy) OwnershipFollowsStatus Store.empty ops ∧
      ∀ front back, ops = front ++ back → ∀ jobId update,
        progressAccepted (exec policy Store.empty front) jobId update = true →
          ∃ w, update.workerId = some w ∧ ClaimedSince policy front jobId w ∧
            ∀ other, progressAccepted (exec policy Store.empty front) jobId other = true →
              other.workerId = some w) ↔
      Run.Along (step policy) ReportsLive Store.empty ops := by
  have hexact : Run.Throughout (step policy) OwnershipFollowsStatus Store.empty ops ↔
      Run.Along (step policy) ReportsLive Store.empty ops :=
    Run.throughout_iff_along OwnerInv (fun _ _ => ownerInv_step) (fun _ => OwnerInv.follows)
      (fun _ _ _ => reportsLive_of_follows) ownerInv_empty
  constructor
  · rintro ⟨hfollows, -⟩
    exact hexact.mp hfollows
  · intro halong
    refine ⟨hexact.mpr halong, ?_⟩
    rintro front back rfl jobId update haccepted
    exact reporter_claimed (Run.along_append.mp halong).1 haccepted

/-- A worker that claimed a job reports it queued: the row is pending and still owned. -/
theorem queued_report_keeps_owner :
    ¬ OwnershipFollowsStatus (exec emptyTables Store.empty
      [.createJob (placeholderRequest none []) "job" none none 0,
        .registerWorker (placeholderWorker "worker" "gpu-0") 1,
        .claimNextJob "worker" false 2,
        .updateJobProgress "job" (placeholderReport "worker" .queued .queued) true 3]) := by
  intro h
  have hnone := (h "job" _ rfl).1 rfl
  cases hnone

end SceneWorks.JobsStore
