import SceneWorks.JobsStore.Ownership
import SceneWorks.JobsStore.Terminal

/-!
The handoff of terminal side effects. The acceptance of a terminal report sets the
pending bit of the row; the bit is meant to stay until the guarded result replacement
clears it. Every operation keeps it except retention: a purge removes the row by its
completion time alone. `handoff_durable_iff` is the exact statement.
-/

namespace SceneWorks.JobsStore

/-- The job's side effects are pending, and its id is due from the retry deadline on. -/
def HandoffPending (jobId : String) (s : Store) : Prop :=
  ∃ r, s.job jobId = some r ∧ r.sideEffectsPending = true ∧ r.status.isTerminal = true ∧
    ∀ asOf limit, r.sideEffectsRetryAt ≤ asOf → s.jobs.rows.length ≤ limit →
      jobId ∈ pendingTerminalProgressSideEffectJobIdsAsOf s asOf limit

/-- The replacement that ends the handoff: it clears, and worker, status and result it
expects are the row's own. -/
def ClearsHandoff (jobId : String) (s : Store) : Op → Prop
  | .replaceJobResultAfterProgress id workerId status expected _ clear _ =>
      id = jobId ∧ clear = true ∧
        ∃ r, s.job jobId = some r ∧ resultCasMatches r workerId status expected = true
  | _ => False

def PurgesNothingFrom (t : Timestamp) (op : Op) : Prop :=
  ∀ cutoff, op.purgeCutoff = some cutoff → cutoff ≤ t

section Due

variable {s : Store} {jobId : String} {r : JobRow}

theorem mem_pendingTerminal {asOf : Int} {limit : Nat} (hr : s.job jobId = some r)
    (hdue : sideEffectsDue asOf r = true) (hlimit : s.jobs.rows.length ≤ limit) :
    jobId ∈ pendingTerminalProgressSideEffectJobIdsAsOf s asOf limit := by
  have hlength : (((s.jobs.rows.filter (sideEffectsDue asOf)).insertionSort dueBefore).map
      JobRow.id).length ≤ limit := by
    rw [List.length_map, List.length_insertionSort]
    exact (List.length_filter_le _ _).trans hlimit
  unfold pendingTerminalProgressSideEffectJobIdsAsOf
  rw [List.take_of_length_le hlength, List.mem_map]
  refine ⟨r, ?_, Store.job_id hr⟩
  rw [List.mem_insertionSort, List.mem_filter]
  exact ⟨Table.find_mem hr, hdue⟩

end Due

section Kept

variable {policy : RoutingPolicy} {s : Store} {op : Op} {jobId : String} {t : Timestamp}

def PendingSince (jobId : String) (t : Timestamp) (s : Store) : Prop :=
  ∃ r, s.job jobId = some r ∧ r.status.isTerminal = true ∧ r.sideEffectsPending = true ∧
    r.completedAt = some t

theorem PendingSince.handoffPending (h : PendingSince jobId t s) : HandoffPending jobId s := by
  obtain ⟨r, hr, hterminal, hpending, -⟩ := h
  refine ⟨r, hr, hpending, hterminal, ?_⟩
  intro asOf limit hdue hlimit
  refine mem_pendingTerminal hr ?_ hlimit
  simp [sideEffectsDue, hpending, hterminal, hdue]

theorem JobStep.keeps_pending {r r' : JobRow} (h : JobStep policy s op r r')
    (hjob : s.job r.id = some r) (hterminal : r.status.isTerminal = true)
    (hpending : r.sideEffectsPending = true) (hclear : ¬ ClearsHandoff r.id s op) :
    r'.sideEffectsPending = true := by
  have hlive : ∀ {p : Prop}, r.status.isPending = true → p := by
    intro p hp
    exact absurd hterminal (not_isTerminal_of_isPending hp)
  cases h with
  | bookkept hcore =>
      have hrow : r' = _ := hcore
      rw [hrow]
      exact hpending
  | backfilled hop => exact hpending
  | queuedCaption now hop h | promotedCaption payload now hop h => exact hlive (by rw [h]; rfl)
  | rewroteWorkflow payload now hop h | queuedWorkflow now hop h
  | promotedWorkflow payload now hop h => exact hlive (by rw [h]; rfl)
  | ended h h' hid => simp [h] at hterminal
  | claimed workerId mlxRequired now worker hop hworker hselected =>
      obtain ⟨-, hqueued, -⟩ := selectedJob_spec hselected
      exact hlive (by rw [hqueued]; rfl)
  | progressed update track now checked hop hcheck hnot howner => simp [hnot] at hterminal
  | deferred now hop h => exact hpending
  | resultReplaced workerId status expected result clear now hop hcas =>
      cases clear with
      | true =>
          subst hop
          exact absurd ⟨rfl, rfl, r, hjob, hcas⟩ hclear
      | false => simpa [JobRow.afterUpdate, JobRow.replaceResult] using hpending

theorem pendingSince_step (h : PendingSince jobId t s) (hop : PurgesNothingFrom t op)
    (hclear : ¬ ClearsHandoff jobId s op) : PendingSince jobId t (step policy s op) := by
  obtain ⟨r, hr, hterminal, hpending, hcompleted⟩ := h
  obtain rfl : r.id = jobId := Store.job_id hr
  have hmove : JobMove policy s op (s.job r.id) ((step policy s op).job r.id) := step_job s op _
  rw [hr] at hmove
  generalize hafter : (step policy s op).job r.id = after at hmove
  cases hmove with
  | @moved _ r' hstep =>
      have hsame := hstep.sameOutcome hterminal
      refine ⟨r', hafter, ?_, hstep.keeps_pending hr hterminal hpending hclear, ?_⟩
      · rw [hsame.status]; exact hterminal
      · rw [hsame.completedAt]; exact hcompleted
  | purged cutoff hcutoff hpurgeable =>
      have hle := hop cutoff hcutoff
      have hlt : t < cutoff := by simpa [purgeable, hterminal, hcompleted] using hpurgeable
      exact absurd hle (not_le.mpr hlt)

theorem job_purge {cutoff : Timestamp} {k : String} (hop : op.purgeCutoff = some cutoff) :
    (step policy s op).job k = (s.job k).filter fun r => !purgeable cutoff r := by
  cases op with
  | purgeTerminalJobsCompletedBefore c =>
      obtain rfl : c = cutoff := Option.some.inj hop
      exact Table.find_delete _ _ _
  | purgeTerminalJobsOlderThan days now =>
      simp only [Op.purgeCutoff] at hop
      split at hop
      · cases hop
      · next hdays =>
          obtain rfl := Option.some.inj hop
          simp only [step, purgeTerminalJobsOlderThan, if_neg hdays]
          exact Table.find_delete _ _ _
  | _ => cases hop

/-- A purge with a later cutoff takes the row, so a step that keeps it is not one. -/
theorem purgesNothing_of_pending (h : PendingSince jobId t s)
    (hafter : HandoffPending jobId (step policy s op)) : PurgesNothingFrom t op := by
  intro cutoff hcutoff
  by_contra hlt
  obtain ⟨r, hr, hterminal, -, hcompleted⟩ := h
  obtain ⟨r', hr', -⟩ := hafter
  have hpurge : purgeable cutoff r = true := by
    simp [purgeable, hterminal, hcompleted, not_le.mp hlt]
  rw [job_purge hcutoff, hr] at hr'
  simp [Option.filter, hpurge] at hr'

theorem purgesNothing_of_clears (h : ClearsHandoff jobId s op) : PurgesNothingFrom t op := by
  cases op with
  | replaceJobResultAfterProgress id workerId status expected result clear now =>
      intro cutoff hcutoff
      cases hcutoff
  | _ => cases h

theorem pendingSince_accepted {update : ProgressUpdate} {now : Timestamp}
    (haccepted : progressAccepted s jobId update = true)
    (hterminal : update.status.isTerminal = true) :
    PendingSince jobId now (step policy s (.updateJobProgress jobId update true now)) := by
  obtain ⟨r, w, checked, -, -, hjob⟩ := job_step_progressAccepted policy true now haccepted
  refine ⟨_, hjob, hterminal, ?_, ?_⟩
  · simp [reportedRow, JobRow.afterUpdate, JobRow.applyProgress, hterminal]
  · simp [reportedRow, JobRow.afterUpdate, JobRow.applyProgress, hterminal]

end Kept

/-- After an accepted terminal report at `now`, whatever the run does, the handoff is
pending in every state up to the replacement that clears it, exactly when no purge up to
there has a cutoff after `now`. -/
theorem handoff_durable_iff (policy : RoutingPolicy) (s : Store) (jobId : String)
    (update : ProgressUpdate) (now : Timestamp) (ops : List Op)
    (haccepted : progressAccepted s jobId update = true)
    (hterminal : update.status.isTerminal = true) :
    Run.ThroughoutUntil (step policy) (ClearsHandoff jobId) (HandoffPending jobId)
        (step policy s (.updateJobProgress jobId update true now)) ops ↔
      Run.AlongUntil (step policy) (ClearsHandoff jobId) (fun _ op => PurgesNothingFrom now op)
        (step policy s (.updateJobProgress jobId update true now)) ops :=
  Run.throughoutUntil_iff_alongUntil (PendingSince jobId now)
    (fun _ _ => pendingSince_step) (fun _ => PendingSince.handoffPending)
    (fun _ _ h _ => purgesNothing_of_pending h) (fun _ _ => purgesNothing_of_clears)
    (pendingSince_accepted haccepted hterminal)

section Instance

def claimedStore : Store :=
  exec emptyTables Store.empty
    [.createJob (placeholderRequest none []) "job" none none 0,
      .registerWorker (placeholderWorker "worker" "gpu-0") 1,
      .claimNextJob "worker" false 2]

def completedReport : ProgressUpdate :=
  placeholderReport "worker" .completed .completed

/-- A deferral, a clear of the queue view and a purge of older rows leave it pending. -/
theorem handoff_survives_defer_and_clear :
    Run.ThroughoutUntil (step emptyTables) (ClearsHandoff "job") (HandoffPending "job")
      (step emptyTables claimedStore (.updateJobProgress "job" completedReport true 3))
      [.deferPendingTerminalProgressSideEffects "job" 4, .clearTerminalJobs none 5,
        .purgeTerminalJobsCompletedBefore 3] := by
  refine (handoff_durable_iff emptyTables claimedStore "job" completedReport 3 _ rfl rfl).mpr ?_
  refine ⟨?_, fun _ => ⟨?_, fun _ => ⟨?_, fun _ => trivial⟩⟩⟩
  · intro cutoff hcutoff
    cases hcutoff
  · intro cutoff hcutoff
    cases hcutoff
  · intro cutoff hcutoff
    cases hcutoff
    exact le_refl _

theorem purge_drops_pending_handoff :
    ¬ Run.ThroughoutUntil (step emptyTables) (ClearsHandoff "job") (HandoffPending "job")
      (step emptyTables claimedStore (.updateJobProgress "job" completedReport true 3))
      [.purgeTerminalJobsOlderThan 30 (3 + 31 * 86400)] := by
  rintro ⟨-, hrest⟩
  obtain ⟨r, hr, -⟩ := (hrest id).start
  cases hr

end Instance

end SceneWorks.JobsStore
