import SceneWorks.JobsStore.Steps

/-!
What a heartbeat touches. The liveness refresh is scoped to the sender's own rows; the
interrupt of an idle heartbeat is not, it follows the job id the worker row happens to
hold. `heartbeat_frame_iff` says exactly when the two agree.
-/

namespace SceneWorks.JobsStore

section Effect

variable (s : Store) (request : WorkerHeartbeat) (now : Timestamp)

/-- The job an idle heartbeat interrupts: the one its worker row holds, when that is
active and has been heard of. -/
def interruptTarget : Option JobRow :=
  if request.currentJobId = none then
    ((s.worker request.workerId).bind WorkerSnapshot.currentJobId).bind fun previousJobId =>
      (s.job previousJobId).filter fun r => r.status.isActive && r.lastHeartbeatAt.isSome
  else none

def heartbeatRow (r : JobRow) : JobRow :=
  match interruptTarget s request with
  | some target =>
      if r.id = target.id then r.afterUpdate (r.interruptOnIdleHeartbeat now) else r
  | none =>
      if (s.worker request.workerId).isSome ∧ request.currentJobId = some r.id ∧
          r.workerId = some request.workerId then
        r.afterUpdate (r.touchHeartbeat now)
      else r

variable {s request}

theorem interruptTarget_eq_some_iff {target : JobRow} :
    interruptTarget s request = some target ↔
      request.currentJobId = none ∧ ∃ worker previousJobId,
        s.worker request.workerId = some worker ∧ worker.currentJobId = some previousJobId ∧
        s.job previousJobId = some target ∧ target.status.isActive = true ∧
        target.lastHeartbeatAt.isSome = true := by
  unfold interruptTarget
  by_cases hidle : request.currentJobId = none
  · rw [if_pos hidle]
    simp only [Option.bind_eq_some_iff, Option.filter_eq_some_iff, Bool.and_eq_true]
    constructor
    · rintro ⟨previousJobId, ⟨worker, hworker, hcurrent⟩, hjob, hactive, hbeat⟩
      exact ⟨hidle, worker, previousJobId, hworker, hcurrent, hjob, hactive, hbeat⟩
    · rintro ⟨-, worker, previousJobId, hworker, hcurrent, hjob, hactive, hbeat⟩
      exact ⟨previousJobId, ⟨worker, hworker, hcurrent⟩, hjob, hactive, hbeat⟩
  · rw [if_neg hidle]
    constructor
    · intro h
      cases h
    · rintro ⟨hnone, -⟩
      exact absurd hnone hidle

/-- The first half of a heartbeat, in terms of its target. -/
theorem interruptPreviousJob_eq {worker : WorkerSnapshot}
    (hworker : s.worker request.workerId = some worker) :
    (∃ e, interruptPreviousJob s worker request now = .error e ∧
        interruptTarget s request = none ∧ request.currentJobId = none) ∨
      (interruptTarget s request = none ∧
        interruptPreviousJob s worker request now = .ok (s, none)) ∨
      ∃ target, interruptTarget s request = some target ∧
        interruptPreviousJob s worker request now =
          .ok (s.updateJobs (fun r => r.id = target.id) (fun r => r.interruptOnIdleHeartbeat now),
            some target.id) := by
  unfold interruptPreviousJob interruptTarget
  cases hidle : request.currentJobId with
  | some jobId =>
      refine .inr (.inl ⟨?_, rfl⟩)
      rw [if_neg (by simp)]
  | none =>
      cases hcurrent : worker.currentJobId with
      | none => exact .inr (.inl ⟨by simp [hworker, hcurrent], rfl⟩)
      | some previousJobId =>
          cases hjob : s.job previousJobId with
          | none =>
              exact .inl ⟨.notFound previousJobId, by simp [hjob],
                by simp [hworker, hcurrent, hjob], rfl⟩
          | some previous =>
              have hid : previous.id = previousJobId := Store.job_id hjob
              simp only [if_true, hworker, Option.bind_some, hcurrent, hjob, Option.filter_some]
              cases hlive : previous.status.isActive && previous.lastHeartbeatAt.isSome with
              | true =>
                  refine .inr (.inr ⟨previous, ?_, ?_⟩)
                  · rw [if_pos rfl]
                  · rw [if_pos rfl, hid]
              | false =>
                  refine .inr (.inl ⟨?_, ?_⟩)
                  · rw [if_neg Bool.false_ne_true]
                  · rw [if_neg Bool.false_ne_true]

theorem job_refreshLiveness (k : String) :
    (refreshLiveness s request now).job k = (s.job k).map fun r =>
      if request.currentJobId = some r.id ∧ r.workerId = some request.workerId then
        r.afterUpdate (r.touchHeartbeat now)
      else r := by
  unfold refreshLiveness
  cases hcurrent : request.currentJobId with
  | none => simp
  | some jobId =>
      simp only [Store.job_updateJobs]
      congr 1
      funext r
      by_cases hid : r.id = jobId
      · subst hid
        simp [Store.rowUpdate]
      · simp [Store.rowUpdate, hid, Ne.symm hid]

theorem job_heartbeat (policy : RoutingPolicy) (s : Store) (request : WorkerHeartbeat)
    (now : Timestamp) (k : String) :
    (step policy s (.heartbeatWorker request now)).job k =
      (s.job k).map (heartbeatRow s request now) := by
  simp only [step, heartbeatWorker]
  cases hworker : s.worker request.workerId with
  | none =>
      have htarget : interruptTarget s request = none := by simp [interruptTarget, hworker]
      have hrow : heartbeatRow s request now = id := by
        funext r
        simp [heartbeatRow, htarget, hworker]
      rw [hrow]
      exact Option.map_id_apply.symm
  | some worker =>
      obtain ⟨e, herror, htarget, hidle⟩ | ⟨htarget, hok⟩ | ⟨target, htarget, hok⟩ :=
        interruptPreviousJob_eq now hworker
      · have hrow : heartbeatRow s request now = id := by
          funext r
          simp [heartbeatRow, htarget, hidle]
        simp only [herror, Store.commit_error]
        rw [hrow]
        exact Option.map_id_apply.symm
      · simp only [hok, Store.commit_ok, job_refreshLiveness, Store.job_updateWorkers]
        congr 1
        funext r
        simp [heartbeatRow, htarget, hworker]
      · have hidle : request.currentJobId = none := (interruptTarget_eq_some_iff.mp htarget).1
        simp only [hok, Store.commit_ok, refreshLiveness, hidle, Store.job_updateWorkers,
          Store.job_updateJobs]
        congr 1
        funext r
        simp [heartbeatRow, htarget, Store.rowUpdate]

end Effect

section Frame

variable (policy : RoutingPolicy)

/-- The heartbeat leaves every row the sender does not own exactly as it was. -/
def LeavesForeignRows (s : Store) (request : WorkerHeartbeat) (now : Timestamp) : Prop :=
  ∀ id r, s.job id = some r → r.workerId ≠ some request.workerId →
    (step policy s (.heartbeatWorker request now)).job id = some r

/-- An idle heartbeat whose worker row holds another worker's job, active and heard of. -/
def HoldsForeignJob (s : Store) (request : WorkerHeartbeat) : Prop :=
  request.currentJobId = none ∧ ∃ worker previousJobId r,
    s.worker request.workerId = some worker ∧ worker.currentJobId = some previousJobId ∧
    s.job previousJobId = some r ∧ r.status.isActive = true ∧
    r.lastHeartbeatAt.isSome = true ∧ r.workerId ≠ some request.workerId

theorem leavesForeignRows_iff (s : Store) (request : WorkerHeartbeat) (now : Timestamp) :
    LeavesForeignRows policy s request now ↔ ¬ HoldsForeignJob s request := by
  constructor
  · rintro hleaves ⟨hidle, worker, previousJobId, r, hworker, hcurrent, hjob, hactive, hbeat, hne⟩
    have htarget : interruptTarget s request = some r :=
      interruptTarget_eq_some_iff.mpr
        ⟨hidle, worker, previousJobId, hworker, hcurrent, hjob, hactive, hbeat⟩
    have hafter := hleaves previousJobId r hjob hne
    rw [job_heartbeat, hjob, Option.map_some, Option.some.injEq] at hafter
    -- The interrupted row has left the active statuses, so it is not the row it was.
    have hstatus : (heartbeatRow s request now r).status = .interrupted := by
      simp [heartbeatRow, htarget, JobRow.afterUpdate, JobRow.interruptOnIdleHeartbeat,
        JobRow.reclaim]
    rw [hafter] at hstatus
    rw [hstatus] at hactive
    cases hactive
  · intro hforeign id r hjob hne
    rw [job_heartbeat, hjob, Option.map_some, Option.some.injEq]
    cases htarget : interruptTarget s request with
    | none => simp [heartbeatRow, htarget, hne]
    | some target =>
        obtain ⟨hidle, worker, previousJobId, hworker, hcurrent, htjob, hactive, hbeat⟩ :=
          interruptTarget_eq_some_iff.mp htarget
        have howner : target.workerId = some request.workerId := by
          by_contra hother
          exact hforeign ⟨hidle, worker, previousJobId, target, hworker, hcurrent, htjob, hactive,
            hbeat, hother⟩
        have hid : r.id ≠ target.id := by
          intro hid
          have hrow : r = target :=
            Store.job_unique hjob (hid.trans (Store.job_id htjob)) htjob
          exact hne (hrow ▸ howner)
        simp [heartbeatRow, htarget, hid]

def HeartbeatFrame (s : Store) : Op → Prop
  | .heartbeatWorker request now => LeavesForeignRows policy s request now
  | _ => True

def NoForeignHold (s : Store) : Op → Prop
  | .heartbeatWorker request _ => ¬ HoldsForeignJob s request
  | _ => True

theorem heartbeatFrame_iff (s : Store) (op : Op) :
    HeartbeatFrame policy s op ↔ NoForeignHold s op := by
  cases op with
  | heartbeatWorker request now => exact leavesForeignRows_iff policy s request now
  | _ => exact Iff.rfl

end Frame

/-- In any state a heartbeat leaves the rows of other workers alone exactly when it is
not an idle one whose worker row holds another worker's job that is active and heard
of; so every heartbeat of a run does exactly when none of them is such. -/
theorem heartbeat_frame_iff (policy : RoutingPolicy) :
    (∀ s request now, LeavesForeignRows policy s request now ↔ ¬ HoldsForeignJob s request) ∧
      ∀ ops, Run.Along (step policy) (HeartbeatFrame policy) Store.empty ops ↔
        Run.Along (step policy) NoForeignHold Store.empty ops := by
  refine ⟨leavesForeignRows_iff policy, fun ops => ?_⟩
  exact Run.along_congr (heartbeatFrame_iff policy)

theorem idle_heartbeat_interrupts_foreign_job :
    let s := exec emptyTables Store.empty
      [.createJob (placeholderRequest none []) "job" none none 0,
        .registerWorker (placeholderWorker "owner" "gpu-0") 1,
        .registerWorker (placeholderWorker "other" "gpu-1") 2,
        .claimNextJob "owner" false 3,
        .heartbeatWorker (placeholderHeartbeat "owner" .busy (some "job")) 4,
        .heartbeatWorker (placeholderHeartbeat "other" .busy (some "job")) 5]
    ¬ LeavesForeignRows emptyTables s (placeholderHeartbeat "other" .idle none) 6 := by
  intro s h
  have hafter := h "job" _ rfl (by decide)
  have hstatus := congrArg (Option.map JobRow.status) hafter
  cases hstatus

end SceneWorks.JobsStore
