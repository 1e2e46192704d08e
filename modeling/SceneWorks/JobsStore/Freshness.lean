import SceneWorks.JobsStore.Ownership
import SceneWorks.JobsStore.Terminal

/-!
Freshness of the claim projection. Every writer of a payload binds the projection to
`payload_revision + 1`, while the trigger moves `payload_revision` only when the
payload really changes. A rewrite with the payload that is already stored therefore
leaves a projection that is one revision ahead, and one such row in the queue makes
every claim fail.

Version and facts are right on every live row. `QueuesFresh` is the exact condition
under which the revision is right as well on every row that enters the queue.
-/

namespace SceneWorks.JobsStore

namespace JobRow

variable (policy : RoutingPolicy)

/-- The projection names the current version and the facts of the row's payload. -/
structure Projected (r : JobRow) : Prop where
  version : r.claim.factsVersion = claimRoutingFactsVersion
  facts : r.claim.facts r.jobType = ClaimRoutingFacts.fromParts policy r.jobType r.payload

/-- The projection is bound to the revision of the row's payload. -/
def RevisionFresh (r : JobRow) : Prop :=
  r.claim.payloadRevision = r.payloadRevision

theorem factsFresh_iff {r : JobRow} :
    r.FactsFresh policy ↔ r.Projected policy ∧ r.RevisionFresh := by
  constructor
  · rintro ⟨hversion, hrevision, hfacts⟩
    exact ⟨⟨hversion, hfacts⟩, hrevision⟩
  · rintro ⟨⟨hversion, hfacts⟩, hrevision⟩
    exact ⟨hversion, hrevision, hfacts⟩

theorem projected_columns (r : JobRow) (revision : Nat)
    (h : r.claim = (ClaimRoutingFacts.fromParts policy r.jobType r.payload).columns revision) :
    r.Projected policy := by
  refine ⟨?_, ?_⟩
  · rw [h]; rfl
  · rw [h]; exact columns_facts_fromParts policy r.jobType r.payload revision

/-- The trigger follows a payload write exactly when the payload differs. -/
theorem revisionFresh_afterUpdate_iff {old new : JobRow} (hrevision : new.revision = old.revision)
    (hpayload : new.payloadRevision = old.payloadRevision)
    (hclaim : new.claim.payloadRevision = old.payloadRevision + 1) :
    (old.afterUpdate new).RevisionFresh ↔ new.payload ≠ old.payload := by
  by_cases hsame : new.payload = old.payload
  · simp [RevisionFresh, afterUpdate, hsame, hpayload, hclaim]
  · simp [RevisionFresh, afterUpdate, hsame, hrevision, hclaim]

theorem revisionFresh_afterUpdate_of_same {old new : JobRow} (hpayload : new.payload = old.payload)
    (hrev : new.payloadRevision = old.payloadRevision) (hclaim : new.claim = old.claim) :
    (old.afterUpdate new).RevisionFresh ↔ old.RevisionFresh := by
  simp [RevisionFresh, afterUpdate, hpayload, hrev, hclaim]

theorem projected_of_same {r r' : JobRow} (h : r.Projected policy) (htype : r'.jobType = r.jobType)
    (hpayload : r'.payload = r.payload) (hclaim : r'.claim = r.claim) : r'.Projected policy := by
  refine ⟨?_, ?_⟩
  · rw [hclaim]; exact h.version
  · rw [hclaim, htype, hpayload]; exact h.facts

end JobRow

section Claimed

variable {policy : RoutingPolicy}

theorem projected_claimedRow {worker : WorkerSnapshot} {now : Timestamp} {r : JobRow}
    (h : r.Projected policy) : (claimedRow policy worker now r).Projected policy := by
  simp only [claimedRow]
  split
  · next hvideo =>
      split
      · exact JobRow.projected_of_same policy h rfl rfl rfl
      · next stamped hstamp =>
          refine ⟨h.version, ?_⟩
          have hfacts := fromParts_eq_of_stampClaimed hvideo hstamp
          exact h.facts.trans hfacts.symm
  · exact JobRow.projected_of_same policy h rfl rfl rfl

end Claimed

section Invariant

variable (policy : RoutingPolicy)

/-- Every queued row carries the projection of its own payload and revision. -/
def QueuedFactsFresh (s : Store) : Prop :=
  ∀ id r, s.job id = some r → r.status = .queued → r.FactsFresh policy

/-- A row enters the queue with a fresh revision: a promotion that writes a payload
writes a different one, and an entry without a payload finds the revision fresh. -/
def QueuesFresh (s : Store) : Op → Prop
  | .promotePendingCaptionJob id (some payload) _ =>
      ∀ r, s.job id = some r → r.status = .pendingCaption → payload ≠ r.payload
  | .promotePendingCaptionJob id none _ =>
      ∀ r, s.job id = some r → r.status = .pendingCaption → r.RevisionFresh
  | .markInterruptedOnStartup _ =>
      ∀ id r, s.job id = some r → r.status = .pendingCaption → r.RevisionFresh
  | .queuePendingWorkflow id _ =>
      ∀ r, s.job id = some r → r.status = .pendingWorkflow → r.RevisionFresh
  | .promotePendingWorkflowJob id payload _ =>
      ∀ r, s.job id = some r → r.status = .pendingWorkflow → payload ≠ r.payload
  | .updateJobProgress jobId update _ _ =>
      progressAccepted s jobId update = true → update.status = .queued →
        ∀ r, s.job jobId = some r → r.RevisionFresh
  | _ => True

/-- What every live row keeps: the projection, and the revision once it is queued. -/
structure LiveFacts (r : JobRow) : Prop where
  projected : r.Projected policy
  queued : r.status = .queued → r.RevisionFresh

def FactsInv (s : Store) : Prop :=
  ∀ id r, s.job id = some r → r.status.isTerminal = false → LiveFacts policy r

variable {policy} {s : Store} {op : Op}

theorem factsInv_empty : FactsInv policy Store.empty := by
  intro id r hr
  cases hr

theorem FactsInv.queuedFactsFresh (h : FactsInv policy s) : QueuedFactsFresh policy s := by
  intro id r hr hqueued
  have hlive : r.status.isTerminal = false := by rw [hqueued]; rfl
  have hfacts := h id r hr hlive
  exact (JobRow.factsFresh_iff policy).mpr ⟨hfacts.projected, hfacts.queued hqueued⟩

theorem revisionFresh_rewritePayload_iff (now : Timestamp) (facts : ClaimRoutingFacts)
    (payload : JsonObject) (r : JobRow) :
    (r.afterUpdate (r.rewritePayload now facts payload)).RevisionFresh ↔ payload ≠ r.payload :=
  JobRow.revisionFresh_afterUpdate_iff rfl rfl rfl

theorem revisionFresh_promoteWithPayload_iff {now : Timestamp} {facts : ClaimRoutingFacts}
    {payload : JsonObject} {r : JobRow} :
    (r.afterUpdate (r.promoteWithPayload now facts payload)).RevisionFresh ↔ payload ≠ r.payload :=
  JobRow.revisionFresh_afterUpdate_iff rfl rfl rfl

theorem revisionFresh_promotedWorkflowRow_iff {now : Timestamp} {payload : JsonObject}
    {r : JobRow} :
    (promotedWorkflowRow policy now payload r).RevisionFresh ↔ payload ≠ r.payload := by
  rw [← revisionFresh_rewritePayload_iff now (ClaimRoutingFacts.fromParts policy r.jobType payload)
    payload r]
  exact JobRow.revisionFresh_afterUpdate_of_same rfl rfl rfl

theorem liveFacts_step {r r' : JobRow} (hjob : s.job r.id = some r)
    (hstep : JobStep policy s op r r') (hop : QueuesFresh s op) (hr : LiveFacts policy r)
    (hlive' : r'.status.isTerminal = false) : LiveFacts policy r' := by
  have hsame : ∀ {new : JobRow}, new.jobType = r.jobType → new.payload = r.payload →
      new.claim = r.claim → (r.afterUpdate new).Projected policy := by
    intro new htype hpayload hclaim
    exact JobRow.projected_of_same policy hr.projected htype hpayload hclaim
  cases hstep with
  | bookkept hcore =>
      have hrow : r' = _ := hcore
      rw [hrow]
      exact ⟨JobRow.projected_of_same policy hr.projected rfl rfl rfl, hr.queued⟩
  | backfilled hop' =>
      refine ⟨JobRow.projected_columns policy _ r.payloadRevision rfl, fun _ => ?_⟩
      simp [JobRow.RevisionFresh, JobRow.afterUpdate, JobRow.persistClaimRoutingFacts,
        ClaimRoutingFacts.columns]
  | queuedCaption now hop' h =>
      refine ⟨hsame rfl rfl rfl, fun _ => ?_⟩
      refine (JobRow.revisionFresh_afterUpdate_of_same rfl rfl rfl).mpr ?_
      obtain rfl | rfl := hop'
      · exact hop r hjob h
      · exact hop r.id r hjob h
  | promotedCaption payload now hop' h =>
      subst hop'
      refine ⟨JobRow.projected_columns policy _ (r.payloadRevision + 1) rfl, fun _ => ?_⟩
      exact revisionFresh_promoteWithPayload_iff.mpr (hop r hjob h)
  | rewroteWorkflow payload now hop' h =>
      refine ⟨JobRow.projected_columns policy _ (r.payloadRevision + 1) rfl, fun hqueued => ?_⟩
      have hstatus : r.status = .queued := hqueued
      rw [h] at hstatus
      cases hstatus
  | queuedWorkflow now hop' h =>
      subst hop'
      refine ⟨hsame rfl rfl rfl, fun _ => ?_⟩
      exact (JobRow.revisionFresh_afterUpdate_of_same rfl rfl rfl).mpr (hop r hjob h)
  | promotedWorkflow payload now hop' h =>
      subst hop'
      refine ⟨JobRow.projected_columns policy _ (r.payloadRevision + 1) rfl, fun _ => ?_⟩
      exact revisionFresh_promotedWorkflowRow_iff.mpr (hop r hjob h)
  | ended h h' hid =>
      rw [hlive'] at h'
      cases h'
  | claimed workerId mlxRequired now worker hop' hworker hselected =>
      refine ⟨projected_claimedRow hr.projected, fun hqueued => ?_⟩
      have hstatus : JobStatus.preparing = .queued := hqueued
      cases hstatus
  | progressed update track now checked hop' hcheck hlive howner =>
      subst hop'
      refine ⟨hsame rfl rfl rfl, fun hqueued => ?_⟩
      refine (JobRow.revisionFresh_afterUpdate_of_same rfl rfl rfl).mpr ?_
      refine hop ?_ hqueued r hjob
      simp [progressAccepted, hcheck, Except.isOk, Except.toBool, hjob, hlive, howner]
  | deferred now hop' h =>
      refine ⟨hsame rfl rfl rfl, fun hqueued => ?_⟩
      exact (JobRow.revisionFresh_afterUpdate_of_same rfl rfl rfl).mpr (hr.queued hqueued)
  | resultReplaced workerId status expected result clear now hop' hcas =>
      refine ⟨hsame rfl rfl rfl, fun hqueued => ?_⟩
      exact (JobRow.revisionFresh_afterUpdate_of_same rfl rfl rfl).mpr (hr.queued hqueued)

theorem factsInv_step (h : FactsInv policy s) (hop : QueuesFresh s op) :
    FactsInv policy (step policy s op) := by
  refine step_everyJob (R := fun r => r.status.isTerminal = false → LiveFacts policy r) ?_ ?_ h
  · intro r hnew _
    have hfresh := (JobRow.factsFresh_iff policy).mp hnew.factsFresh
    exact ⟨hfresh.1, fun _ => hfresh.2⟩
  · intro r r' hjob hstep hr hlive'
    refine liveFacts_step hjob hstep hop (hr ?_) hlive'
    -- A terminal row stays terminal, so a live one was live.
    by_contra hterminal
    have hsame := hstep.sameOutcome (by simpa using hterminal)
    rw [hsame.status] at hlive'
    exact hterminal hlive'

end Invariant

section Converse

variable {policy : RoutingPolicy} {s : Store} {id : String} {r : JobRow}

/-- A guarded statement that ends by reading its job back, for the job it matches. -/
theorem job_commit_readBack {α : Type} {p : JobRow → Bool} {f : JobRow → JobRow}
    (g : Store × JobRow → α) (hr : s.job id = some r) (hp : p r = true) :
    (s.commit (((s.updateJobs p f).readBack id).map fun q => (q.1, g q))).job id =
      some (r.afterUpdate (f r)) := by
  rw [commit_readBack g (by simp [hr]), Store.job_updateJobs, hr]
  simp [Store.rowUpdate, hp]

theorem isJobIn_of_job {status : JobStatus} (hr : s.job id = some r) (h : r.status = status) :
    isJobIn id status r = true :=
  isJobIn_iff.mpr ⟨Store.job_id hr, h⟩

theorem job_promoteCaption_some (policy : RoutingPolicy) (payload : JsonObject) (now : Timestamp)
    (hr : s.job id = some r) (h : r.status = .pendingCaption) :
    (step policy s (.promotePendingCaptionJob id (some payload) now)).job id =
      some (r.afterUpdate
        (r.promoteWithPayload now (ClaimRoutingFacts.fromParts policy r.jobType payload)
          payload)) := by
  simp only [step, promotePendingCaptionJob, hr]
  exact job_commit_readBack (fun q => (s.jobIsIn id .pendingCaption, q.2)) hr (isJobIn_of_job hr h)

theorem job_promoteCaption_none (now : Timestamp) (hr : s.job id = some r)
    (h : r.status = .pendingCaption) :
    (step policy s (.promotePendingCaptionJob id none now)).job id =
      some (r.afterUpdate (r.promoteToQueued now)) := by
  simp only [step, promotePendingCaptionJob, hr]
  exact job_commit_readBack (fun q => (s.jobIsIn id .pendingCaption, q.2)) hr (isJobIn_of_job hr h)

theorem job_startup_caption (now : Timestamp) (hr : s.job id = some r)
    (h : r.status = .pendingCaption) :
    (step policy s (.markInterruptedOnStartup now)).job id =
      some (r.afterUpdate (r.promoteToQueued now)) := by
  have hactive : r.status.isActive = false := by rw [h]; rfl
  simp only [step, markInterruptedOnStartup, Store.commit_ok, Store.job_updateWorkers,
    Store.job_updateJobs, hr, Option.map_some, Store.rowUpdate, hactive, Bool.false_and,
    Bool.false_eq_true, if_false]
  rw [if_pos (decide_eq_true h)]

theorem job_queueWorkflow (now : Timestamp) (hr : s.job id = some r)
    (h : r.status = .pendingWorkflow) :
    (step policy s (.queuePendingWorkflow id now)).job id =
      some (r.afterUpdate (r.queueWorkflow now)) := by
  simp only [step, queuePendingWorkflow]
  exact job_commit_readBack (fun q => (s.jobIsIn id .pendingWorkflow, q.2)) hr
    (isJobIn_of_job hr h)

/-- A fresh queued row after a step that wrote neither payload nor projection was fresh. -/
theorem QueuedFactsFresh.revisionFresh {s' : Store} {new : JobRow} (h : QueuedFactsFresh policy s')
    (hjob : s'.job id = some (r.afterUpdate new)) (hqueued : new.status = .queued)
    (hpayload : new.payload = r.payload) (hrev : new.payloadRevision = r.payloadRevision)
    (hclaim : new.claim = r.claim) : r.RevisionFresh := by
  have hfresh := ((JobRow.factsFresh_iff policy).mp (h id _ hjob hqueued)).2
  exact (JobRow.revisionFresh_afterUpdate_of_same hpayload hrev hclaim).mp hfresh

theorem queuesFresh_of_queuedFactsFresh {op : Op}
    (h : QueuedFactsFresh policy (step policy s op)) : QueuesFresh s op := by
  cases op with
  | promotePendingCaptionJob id newPayload now =>
      cases newPayload with
      | some payload =>
          intro r hr hstatus
          have hjob := job_promoteCaption_some policy payload now hr hstatus
          have hfresh := ((JobRow.factsFresh_iff policy).mp (h id _ hjob rfl)).2
          exact revisionFresh_promoteWithPayload_iff.mp hfresh
      | none =>
          intro r hr hstatus
          exact h.revisionFresh (job_promoteCaption_none now hr hstatus) rfl rfl rfl rfl
  | markInterruptedOnStartup now =>
      intro id r hr hstatus
      exact h.revisionFresh (job_startup_caption now hr hstatus) rfl rfl rfl rfl
  | queuePendingWorkflow id now =>
      intro r hr hstatus
      exact h.revisionFresh (job_queueWorkflow now hr hstatus) rfl rfl rfl rfl
  | promotePendingWorkflowJob id payload now =>
      intro r hr hstatus
      have hjob := job_promotePendingWorkflowJob policy payload now hr id
      rw [hr, Option.map_some, if_pos (isJobIn_of_job hr hstatus)] at hjob
      have hfresh := ((JobRow.factsFresh_iff policy).mp (h id _ hjob rfl)).2
      exact revisionFresh_promotedWorkflowRow_iff.mp hfresh
  | updateJobProgress jobId update track now =>
      intro haccepted hqueued r hr
      obtain ⟨r', w, checked, hr', -, hjob⟩ := job_step_progressAccepted policy track now haccepted
      obtain rfl : r = r' := Option.some.inj (hr.symm.trans hr')
      exact h.revisionFresh hjob hqueued rfl rfl rfl
  | _ => trivial

end Converse

section ClaimErrors

variable {policy : RoutingPolicy} {s : Store}

/-- The two errors a claim raises on a projection it cannot trust. -/
def StoreError.isClaimFactsError : StoreError → Bool
  | .staleClaimRoutingFacts .. | .claimRoutingFactsMismatch .. => true
  | _ => false

theorem staleQueuedRow_eq_none (h : QueuedFactsFresh policy s) : staleQueuedRow s = none := by
  unfold staleQueuedRow
  rw [List.head?_eq_none_iff, ← List.length_eq_zero_iff, List.length_insertionSort,
    List.length_eq_zero_iff, List.filter_eq_nil_iff]
  intro r hr hstale
  obtain ⟨hqueued, hheader⟩ : r.status = .queued ∧ headerIsFresh r = false := by simpa using hstale
  have hfresh := h r.id r (Store.mem_jobs_iff.mp hr) hqueued
  simp [headerIsFresh, hfresh.1, hfresh.2.1] at hheader

/-- The selected header belongs to a queued row, and that row's projection is right. -/
theorem choose_no_mismatch (h : QueuedFactsFresh policy s) {worker : WorkerSnapshot}
    {gpuBusy : Bool} {e : StoreError}
    (he : chooseClaimableJobFromCandidates policy s (claimCandidates s worker gpuBusy) worker =
      .error e) : e.isClaimFactsError = false := by
  unfold chooseClaimableJobFromCandidates at he
  split at he
  · cases he
  · next selected hselected =>
      have hmem := scanCompatible_subset _ _ _ _ (chooseClaimableCandidate_mem hselected)
      simp only [claimCandidates, List.mem_map, List.mem_insertionSort, List.mem_filter] at hmem
      obtain ⟨row, ⟨hrow, hrowp⟩, hcandidate⟩ := hmem
      have hid : row.id = selected.id := congrArg ClaimCandidate.id hcandidate
      split at he
      · cases he
        rfl
      · next job hjob =>
          split at he
          · next hne =>
              obtain ⟨hfind, hqueued⟩ := Option.filter_eq_some_iff.mp hjob
              have hjobrow : job = row :=
                Option.some.inj (hfind.symm.trans (hid ▸ Store.mem_jobs_iff.mp hrow))
              have hfresh := h selected.id job hfind (by simpa using hqueued)
              refine absurd ?_ hne
              rw [← hcandidate, ← hjobrow]
              exact hfresh.2.2
          · cases he

theorem claim_no_factsError (h : QueuedFactsFresh policy s) (workerId : String)
    (mlxRequired : Bool) (now : Timestamp) {e : StoreError}
    (he : claimNextJobRouted policy s workerId mlxRequired now = .error e) :
    e.isClaimFactsError = false := by
  unfold claimNextJobRouted at he
  split at he
  · cases he
    rfl
  · next worker _ =>
      rw [staleQueuedRow_eq_none h] at he
      dsimp only at he
      split at he
      · next hchoose =>
          cases he
          exact choose_no_mismatch h hchoose
      · cases he
      · split at he
        · cases he
        · split at he
          · cases he
          · unfold Store.readBack at he
            split at he
            · cases he
              rfl
            · cases he

end ClaimErrors

/-- Through every state of a run all queued rows carry fresh facts, and so no claim fails
on a stale or mismatched projection, exactly when every row the run lets into the queue
enters it with a fresh revision. -/
theorem queued_facts_fresh_iff (policy : RoutingPolicy) (ops : List Op) :
    (Run.Throughout (step policy) (QueuedFactsFresh policy) Store.empty ops ∧
      ∀ front back, ops = front ++ back → ∀ workerId mlxRequired now e,
        claimNextJobRouted policy (exec policy Store.empty front) workerId mlxRequired now =
          .error e → e.isClaimFactsError = false) ↔
      Run.Along (step policy) QueuesFresh Store.empty ops := by
  have hexact : Run.Throughout (step policy) (QueuedFactsFresh policy) Store.empty ops ↔
      Run.Along (step policy) QueuesFresh Store.empty ops :=
    Run.throughout_iff_along (FactsInv policy) (fun _ _ => factsInv_step)
      (fun _ => FactsInv.queuedFactsFresh) (fun _ _ _ => queuesFresh_of_queuedFactsFresh)
      factsInv_empty
  constructor
  · rintro ⟨hfresh, -⟩
    exact hexact.mp hfresh
  · intro halong
    have hfresh := hexact.mpr halong
    refine ⟨hfresh, ?_⟩
    intro front back hops workerId mlxRequired now e he
    exact claim_no_factsError (Run.throughout_iff_exec.mp hfresh front back hops) workerId
      mlxRequired now he

/-- A caption promotion with the payload the job was created with: the queued row is
stale, and the next claim of any worker fails on it. -/
theorem unchanged_promotion_queues_stale_facts :
    let s := exec emptyTables Store.empty
      [.createJob (placeholderRequest (some .pendingCaption) []) "job" none none 0,
        .promotePendingCaptionJob "job" (some []) 1,
        .registerWorker (placeholderWorker "worker" "gpu-0") 2]
    ¬ QueuedFactsFresh emptyTables s ∧
      ∃ e, claimNextJobRouted emptyTables s "worker" false 3 = .error e ∧
        e.isClaimFactsError = true := by
  intro s
  refine ⟨?_, _, rfl, rfl⟩
  intro h
  have hfresh := (h "job" _ rfl rfl).2.1
  cases hfresh

end SceneWorks.JobsStore
