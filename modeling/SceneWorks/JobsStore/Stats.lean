import SceneWorks.JobsStore.Steps

/-!
Generation Stats across retention. Live metrics are listed through a join with their
job; the purge copies the joined rows of the jobs it removes into a history table, and
the listing reads both. Here the two tables stand beside the job store, the purge is its
four statements, and the listing is shown to lose, gain and change nothing.
-/

namespace SceneWorks.JobsStore

/-- The measured columns of `generation_metrics`; reported objects arrive as JSON text. -/
structure GenerationMetrics where
  model : Option String
  quantLabel : Option String
  quantBits : Option Nat
  sourceCodec : Option String
  executionRepresentation : Option String
  vedaExecutionJson : Option String
  sampler : Option String
  scheduler : Option String
  schedulerShift : Option ℚ
  steps : Option Nat
  imageCount : Option Nat
  guidanceScale : Option ℚ
  trueCfgScale : Option ℚ
  guidanceMethod : Option String
  usePid : Option Bool
  pidTarget : Option String
  width : Option Nat
  height : Option Nat
  seed : Option Int
  lorasJson : Option String
  loadMs : Option Nat
  sampleMs : Option Nat
  decodeMs : Option Nat
  totalMs : Option Nat
  peakMemoryBytes : Option Nat
  peakMemoryPct : Option ℚ
  peakGpuLoadPct : Option ℚ
  backend : Option String
  deriving DecidableEq

/-- `coalesce(excluded.c, generation_metrics.c)` for every measured column. -/
def GenerationMetrics.coalesce (excluded existing : GenerationMetrics) : GenerationMetrics where
  model := excluded.model.or existing.model
  quantLabel := excluded.quantLabel.or existing.quantLabel
  quantBits := excluded.quantBits.or existing.quantBits
  sourceCodec := excluded.sourceCodec.or existing.sourceCodec
  executionRepresentation := excluded.executionRepresentation.or existing.executionRepresentation
  vedaExecutionJson := excluded.vedaExecutionJson.or existing.vedaExecutionJson
  sampler := excluded.sampler.or existing.sampler
  scheduler := excluded.scheduler.or existing.scheduler
  schedulerShift := excluded.schedulerShift.or existing.schedulerShift
  steps := excluded.steps.or existing.steps
  imageCount := excluded.imageCount.or existing.imageCount
  guidanceScale := excluded.guidanceScale.or existing.guidanceScale
  trueCfgScale := excluded.trueCfgScale.or existing.trueCfgScale
  guidanceMethod := excluded.guidanceMethod.or existing.guidanceMethod
  usePid := excluded.usePid.or existing.usePid
  pidTarget := excluded.pidTarget.or existing.pidTarget
  width := excluded.width.or existing.width
  height := excluded.height.or existing.height
  seed := excluded.seed.or existing.seed
  lorasJson := excluded.lorasJson.or existing.lorasJson
  loadMs := excluded.loadMs.or existing.loadMs
  sampleMs := excluded.sampleMs.or existing.sampleMs
  decodeMs := excluded.decodeMs.or existing.decodeMs
  totalMs := excluded.totalMs.or existing.totalMs
  peakMemoryBytes := excluded.peakMemoryBytes.or existing.peakMemoryBytes
  peakMemoryPct := excluded.peakMemoryPct.or existing.peakMemoryPct
  peakGpuLoadPct := excluded.peakGpuLoadPct.or existing.peakGpuLoadPct
  backend := excluded.backend.or existing.backend

structure MetricsRow extends GenerationMetrics where
  jobId : String
  updatedAt : Timestamp
  deriving DecidableEq

/-- A row of `generation_metrics_history`, and of the joined live side of the listing. -/
structure StatsRow extends MetricsRow where
  jType : JobType
  jStatus : JobStatus
  jProjectId : Option String
  jCreatedAt : Timestamp
  deriving DecidableEq

/-- `select m.…, j.type, j.status, j.project_id, j.created_at`. -/
def StatsRow.join (m : MetricsRow) (j : JobRow) : StatsRow where
  toMetricsRow := m
  jType := j.jobType
  jStatus := j.status
  jProjectId := j.projectId
  jCreatedAt := j.createdAt

structure StatsStore where
  store : Store
  metrics : Table MetricsRow String MetricsRow.jobId
  history : Table StatsRow String fun row => row.jobId

namespace StatsStore

def empty : StatsStore := ⟨Store.empty, Table.empty, Table.empty⟩

def upsertGenerationMetrics (t : StatsStore) (jobId : String) (metrics : GenerationMetrics)
    (now : Timestamp) : StatsStore :=
  match t.metrics.insert { metrics with jobId := jobId, updatedAt := now } with
  | some rows => { t with metrics := rows }
  | none =>
      { t with
        metrics := t.metrics.update (fun m => m.jobId = jobId)
          (fun m =>
          { metrics.coalesce m.toGenerationMetrics with jobId := m.jobId, updatedAt := now })
          fun _ => rfl }

section Listing

/-- The filters of the listing, all optional. -/
structure StatsFilter where
  jobType : Option String
  model : Option String
  quantLabel : Option String

def StatsFilter.accepts (f : StatsFilter) (row : StatsRow) : Bool :=
  (f.jobType.all fun value => row.jType.asStr = value) &&
    (f.model.all fun value => row.model = some value) &&
    f.quantLabel.all fun value => row.quantLabel = some value

variable (t : StatsStore)

/-- `generation_metrics m join jobs j on j.id = m.job_id where p`. -/
def joinedWhere (p : JobRow → Bool) : List StatsRow :=
  t.metrics.rows.filterMap fun m => ((t.store.job m.jobId).filter p).map (StatsRow.join m)

def stats : List StatsRow := t.joinedWhere (fun _ => true) ++ t.history.rows

def generationMetrics (f : StatsFilter) : List StatsRow :=
  (t.stats.filter f.accepts).insertionSort fun a b => b.jCreatedAt ≤ a.jCreatedAt

def listGenerationMetrics (f : StatsFilter) (limit : Nat) : List StatsRow :=
  (t.generationMetrics f).take (max 1 (min limit 5000))

end Listing

section Purge

variable (t : StatsStore) (cutoff : Timestamp)

/-- `insert or replace into generation_metrics_history … select …`. -/
def archive (rows : List StatsRow) : StatsStore :=
  { t with history := rows.foldl Table.put t.history }

def hasJobWhere (p : JobRow → Bool) (m : MetricsRow) : Bool :=
  t.store.jobs.rows.any fun j => p j && j.id = m.jobId

def deleteMetrics (p : MetricsRow → Bool) : StatsStore :=
  { t with metrics := t.metrics.delete p }

def purgeTerminalJobsCompletedBefore : StatsStore × Nat :=
  let t1 := t.archive (t.joinedWhere (purgeable cutoff))
  let t2 := t1.deleteMetrics (t1.hasJobWhere (purgeable cutoff))
  let t3 := t2.deleteMetrics fun m => !t2.hasJobWhere (fun _ => true) m
  ({ t3 with store := { t3.store with jobs := t3.store.jobs.delete (purgeable cutoff) } },
    (t3.store.jobs.rows.filter (purgeable cutoff)).length)

end Purge

section Preservation

/-- No history row names a job that is still in the queue: job ids are not used again. -/
def HistoryUnused (t : StatsStore) : Prop :=
  ∀ row ∈ t.history.rows, t.store.job row.jobId = none

variable {t : StatsStore} {cutoff : Timestamp} {p : JobRow → Bool}

theorem hasJobWhere_eq (m : MetricsRow) :
    t.hasJobWhere p m = ((t.store.job m.jobId).filter p).isSome := by
  rw [Bool.eq_iff_iff, hasJobWhere, List.any_eq_true, Option.isSome_iff_exists]
  simp only [Bool.and_eq_true, decide_eq_true_eq, Option.filter_eq_some_iff]
  constructor
  · rintro ⟨j, hj, hp, hid⟩
    exact ⟨j, hid ▸ Store.mem_jobs_iff.mp hj, hp⟩
  · rintro ⟨j, hj, hp⟩
    exact ⟨j, Table.find_mem hj, hp, Store.job_id hj⟩

theorem mem_joinedWhere {row : StatsRow} (h : row ∈ t.joinedWhere p) :
    ∃ j, t.store.job row.jobId = some j ∧ p j = true := by
  obtain ⟨m, -, hjoin⟩ := List.mem_filterMap.mp h
  obtain ⟨j, hj, rfl⟩ := Option.map_eq_some_iff.mp hjoin
  exact ⟨j, Option.filter_eq_some_iff.mp hj⟩

theorem joinedWhere_nodup : ((t.joinedWhere p).map fun row => row.jobId).Nodup := by
  have hids : ((t.joinedWhere p).map fun row => row.jobId).Sublist
      (t.metrics.rows.map MetricsRow.jobId) := by
    rw [joinedWhere]
    generalize t.metrics.rows = rows
    induction rows with
    | nil => exact List.Sublist.slnil
    | cons m rest ih =>
        rw [List.filterMap_cons]
        cases (t.store.job m.jobId).filter p with
        | none => exact ih.cons m.jobId
        | some j => exact ih.cons_cons m.jobId
  exact t.metrics.unique.sublist hids

theorem archived_rows (hunused : t.HistoryUnused) :
    (t.archive (t.joinedWhere p)).history.rows = t.history.rows ++ t.joinedWhere p := by
  refine Table.rows_foldl_put (fun row hrow => ?_) joinedWhere_nodup
  obtain ⟨j, hj, -⟩ := mem_joinedWhere hrow
  cases hfind : t.history.find row.jobId with
  | none => rfl
  | some old =>
      have hnone := hunused old (Table.find_mem hfind)
      rw [Table.find_key hfind, hj] at hnone
      cases hnone

theorem joinedWhere_split (t : StatsStore) (p : JobRow → Bool) :
    (t.joinedWhere p ++ t.joinedWhere fun j => !p j).Perm (t.joinedWhere fun _ => true) := by
  rw [joinedWhere, joinedWhere, joinedWhere]
  induction t.metrics.rows with
  | nil => exact List.Perm.refl _
  | cons m rest ih =>
      cases hjob : t.store.job m.jobId with
      | none => simpa [hjob] using ih
      | some j =>
          cases hp : p j with
          | true => simpa [hjob, hp] using ih
          | false => simpa [hjob, hp] using List.perm_middle.trans (ih.cons _)

theorem joinedWhere_purged (t : StatsStore) (cutoff : Timestamp) :
    (t.purgeTerminalJobsCompletedBefore cutoff).1.joinedWhere (fun _ => true) =
      t.joinedWhere fun j => !purgeable cutoff j := by
  have hmetrics : (t.purgeTerminalJobsCompletedBefore cutoff).1.metrics.rows =
      (t.metrics.rows.filter fun m => !t.hasJobWhere (purgeable cutoff) m).filter
        fun m => !!t.hasJobWhere (fun _ => true) m := rfl
  have hjobs : ∀ id, (t.purgeTerminalJobsCompletedBefore cutoff).1.store.job id =
      (t.store.job id).filter fun j => !purgeable cutoff j :=
    fun id => Table.find_delete t.store.jobs (purgeable cutoff) id
  rw [joinedWhere, joinedWhere, hmetrics, List.filter_filter, List.filterMap_filter]
  refine congrArg (fun f => List.filterMap f t.metrics.rows) (funext fun m => ?_)
  rw [hjobs, hasJobWhere_eq, hasJobWhere_eq]
  cases t.store.job m.jobId with
  | none => rfl
  | some j => cases hp : purgeable cutoff j <;> simp [hp, Option.filter]

theorem stats_perm (hunused : t.HistoryUnused) (cutoff : Timestamp) :
    (t.purgeTerminalJobsCompletedBefore cutoff).1.stats.Perm t.stats := by
  have hhistory : (t.purgeTerminalJobsCompletedBefore cutoff).1.history.rows =
      t.history.rows ++ t.joinedWhere (purgeable cutoff) := archived_rows hunused
  rw [stats, stats, joinedWhere_purged, hhistory]
  have hswap : (t.joinedWhere (fun j => !purgeable cutoff j) ++
      (t.history.rows ++ t.joinedWhere (purgeable cutoff))).Perm
      ((t.joinedWhere (purgeable cutoff) ++ t.joinedWhere fun j => !purgeable cutoff j) ++
        t.history.rows) := by
    rw [← List.append_assoc]
    exact List.perm_append_comm.trans (List.append_assoc _ _ _ ▸ List.Perm.refl _)
  exact hswap.trans ((joinedWhere_split t (purgeable cutoff)).append_right t.history.rows)

theorem generationMetrics_perm (hunused : t.HistoryUnused) (cutoff : Timestamp)
    (f : StatsFilter) :
    ((t.purgeTerminalJobsCompletedBefore cutoff).1.generationMetrics f).Perm
      (t.generationMetrics f) := by
  have hfiltered := (stats_perm hunused cutoff).filter f.accepts
  exact (List.perm_insertionSort _ _).trans (hfiltered.trans (List.perm_insertionSort _ _).symm)

theorem purgeable_iff {r : JobRow} : purgeable cutoff r = true ↔
    r.status.isTerminal = true ∧
      ∃ completedAt, r.completedAt = some completedAt ∧ completedAt < cutoff := by
  rw [purgeable, Bool.and_eq_true]
  refine and_congr_right fun _ => ?_
  cases r.completedAt <;> simp

theorem mem_purged_jobs {r : JobRow} :
    r ∈ (t.purgeTerminalJobsCompletedBefore cutoff).1.store.jobs.rows ↔
      r ∈ t.store.jobs.rows ∧ purgeable cutoff r = false := by
  change r ∈ t.store.jobs.rows.filter (fun r => !purgeable cutoff r) ↔ _
  rw [List.mem_filter, Bool.not_eq_true']

/-- Metrics that survive a purge belong to a job that survives it. -/
theorem metrics_purged {m : MetricsRow}
    (h : m ∈ (t.purgeTerminalJobsCompletedBefore cutoff).1.metrics.rows) :
    ∃ j, (t.purgeTerminalJobsCompletedBefore cutoff).1.store.job m.jobId = some j := by
  change m ∈ (t.metrics.rows.filter fun m => !t.hasJobWhere (purgeable cutoff) m).filter
    (fun m => !!t.hasJobWhere (fun _ => true) m) at h
  simp only [List.mem_filter, hasJobWhere_eq] at h
  change ∃ j, (t.store.jobs.delete (purgeable cutoff)).find m.jobId = some j
  rw [Table.find_delete]
  change ∃ j, (t.store.job m.jobId).filter _ = some j
  cases hjob : t.store.job m.jobId with
  | none => simp [hjob] at h
  | some j =>
      have hkept : purgeable cutoff j = false := by simpa [hjob, Option.filter] using h.1.2
      exact ⟨j, by simp [Option.filter, hkept]⟩

theorem purge_again {cutoff' : Timestamp} (hle : cutoff' ≤ cutoff) :
    (t.purgeTerminalJobsCompletedBefore cutoff).1.purgeTerminalJobsCompletedBefore cutoff' =
      ((t.purgeTerminalJobsCompletedBefore cutoff).1, 0) := by
  have hmetrics : ∀ m ∈ (t.purgeTerminalJobsCompletedBefore cutoff).1.metrics.rows,
      ∃ j, (t.purgeTerminalJobsCompletedBefore cutoff).1.store.job m.jobId = some j :=
    fun m hm => metrics_purged hm
  have hjobs : ∀ r ∈ (t.purgeTerminalJobsCompletedBefore cutoff).1.store.jobs.rows,
      purgeable cutoff' r = false := by
    intro r hr
    rw [Bool.eq_false_iff]
    intro hpurge
    obtain ⟨hterminal, completedAt, hcompleted, hlt⟩ := purgeable_iff.mp hpurge
    have hbefore := purgeable_iff.mpr ⟨hterminal, completedAt, hcompleted, hlt.trans_le hle⟩
    rw [(mem_purged_jobs.mp hr).2] at hbefore
    cases hbefore
  generalize (t.purgeTerminalJobsCompletedBefore cutoff).1 = u at hmetrics hjobs
  -- Nothing is joined, no metrics row is orphaned or due, and no job is due.
  have hdue : ∀ id, (u.store.job id).filter (purgeable cutoff') = none := by
    intro id
    cases hjob : u.store.job id with
    | none => rfl
    | some j => simp [Option.filter, hjobs j (Table.find_mem hjob)]
  have hjoined : u.joinedWhere (purgeable cutoff') = [] := by
    rw [joinedWhere, List.filterMap_eq_nil_iff]
    intro m _
    rw [hdue, Option.map_none]
  have hkept : u.metrics.delete (u.hasJobWhere (purgeable cutoff')) = u.metrics := by
    refine Table.delete_eq_self fun m _ => ?_
    rw [hasJobWhere_eq, hdue]
    rfl
  have howned : u.metrics.delete (fun m => !u.hasJobWhere (fun _ => true) m) = u.metrics := by
    refine Table.delete_eq_self fun m hm => ?_
    obtain ⟨j, hj⟩ := hmetrics m hm
    rw [hasJobWhere_eq, hj]
    rfl
  have hall : u.store.jobs.delete (purgeable cutoff') = u.store.jobs := Table.delete_eq_self hjobs
  have hcount : u.store.jobs.rows.filter (purgeable cutoff') = [] := by
    rw [List.filter_eq_nil_iff]
    intro r hr
    rw [hjobs r hr]
    decide
  have harchive : u.archive (u.joinedWhere (purgeable cutoff')) = u := by rw [hjoined]; rfl
  have hdelete : u.deleteMetrics (u.hasJobWhere (purgeable cutoff')) = u := by
    rw [deleteMetrics, hkept]
  have horphans : u.deleteMetrics (fun m => !u.hasJobWhere (fun _ => true) m) = u := by
    rw [deleteMetrics, howned]
  simp only [purgeTerminalJobsCompletedBefore, harchive, hdelete, horphans, hall, hcount,
    List.length_nil]

end Preservation

section Runs

variable (policy : RoutingPolicy)

inductive StatsOp where
  | jobs (op : Op)
  | upsertGenerationMetrics (jobId : String) (metrics : GenerationMetrics) (now : Timestamp)

/-- A job operation beside the two tables: one that removes rows takes their metrics
with it, any other leaves both tables alone. -/
def statsStep (t : StatsStore) : StatsOp → StatsStore
  | .jobs op =>
      match op.purgeCutoff with
      | some cutoff => (t.purgeTerminalJobsCompletedBefore cutoff).1
      | none => { t with store := step policy t.store op }
  | .upsertGenerationMetrics jobId metrics now => t.upsertGenerationMetrics jobId metrics now

/-- A job that appears has an id no history row names. -/
def NewIds (t : StatsStore) : StatsOp → Prop
  | .jobs op => ∀ row ∈ t.history.rows, t.store.job row.jobId = none →
      (step policy t.store op).job row.jobId = none
  | _ => True

theorem historyUnused_step (t : StatsStore) (op : StatsOp) (h : t.HistoryUnused)
    (hnew : NewIds policy t op) : (statsStep policy t op).HistoryUnused := by
  cases op with
  | jobs op =>
      simp only [statsStep]
      cases hcutoff : op.purgeCutoff with
      | none => exact fun row hrow => hnew row hrow (h row hrow)
      | some cutoff =>
          intro row hrow
          have hhistory : (t.purgeTerminalJobsCompletedBefore cutoff).1.history.rows =
              t.history.rows ++ t.joinedWhere (purgeable cutoff) := archived_rows h
          change (t.store.jobs.delete (purgeable cutoff)).find row.jobId = none
          rw [Table.find_delete]
          change (t.store.job row.jobId).filter _ = none
          rw [hhistory] at hrow
          rcases List.mem_append.mp hrow with hold | hmoved
          · rw [h row hold]
            rfl
          · obtain ⟨j, hj, hpurge⟩ := mem_joinedWhere hmoved
            simp [hj, Option.filter, hpurge]
  | upsertGenerationMetrics jobId metrics now =>
      have hstore : (t.upsertGenerationMetrics jobId metrics now).store = t.store ∧
          (t.upsertGenerationMetrics jobId metrics now).history = t.history := by
        rw [upsertGenerationMetrics]
        split <;> exact ⟨rfl, rfl⟩
      intro row hrow
      simp only [statsStep, hstore] at hrow ⊢
      exact h row hrow

/-- Where ids are never used again, no run brings a history row's job back. -/
theorem historyUnused_run {ops : List StatsOp}
    (h : Run.Along (statsStep policy) (NewIds policy) StatsStore.empty ops) :
    (Run.exec (statsStep policy) StatsStore.empty ops).HistoryUnused :=
  Run.exec_invariant (historyUnused_step policy) (fun _ hrow => absurd hrow List.not_mem_nil) h

end Runs

end StatsStore

/-- Where no history row names a live job, a purge removes exactly the terminal jobs
completed before the cutoff, the listing keeps every row with every field, and a further
purge with the same or an earlier cutoff changes nothing. -/
theorem retention_preserves_stats (t : StatsStore) (hunused : t.HistoryUnused)
    (cutoff : Timestamp) :
    (∀ r, r ∈ (t.purgeTerminalJobsCompletedBefore cutoff).1.store.jobs.rows ↔
        r ∈ t.store.jobs.rows ∧ ¬ (r.status.isTerminal = true ∧
          ∃ completedAt, r.completedAt = some completedAt ∧ completedAt < cutoff)) ∧
      (∀ f, ((t.purgeTerminalJobsCompletedBefore cutoff).1.generationMetrics f).Perm
        (t.generationMetrics f)) ∧
      ∀ cutoff' ≤ cutoff,
        (t.purgeTerminalJobsCompletedBefore cutoff).1.purgeTerminalJobsCompletedBefore cutoff' =
          ((t.purgeTerminalJobsCompletedBefore cutoff).1, 0) := by
  refine ⟨fun r => ?_, StatsStore.generationMetrics_perm hunused cutoff,
    fun _ => StatsStore.purge_again⟩
  rw [StatsStore.mem_purged_jobs, ← StatsStore.purgeable_iff, Bool.not_eq_true]

def stepsOnly : GenerationMetrics where
  model := none
  quantLabel := none
  quantBits := none
  sourceCodec := none
  executionRepresentation := none
  vedaExecutionJson := none
  sampler := none
  scheduler := none
  schedulerShift := none
  steps := some 20
  imageCount := none
  guidanceScale := none
  trueCfgScale := none
  guidanceMethod := none
  usePid := none
  pidTarget := none
  width := none
  height := none
  seed := none
  lorasJson := none
  loadMs := none
  sampleMs := none
  decodeMs := none
  totalMs := none
  peakMemoryBytes := none
  peakMemoryPct := none
  peakGpuLoadPct := none
  backend := none

/-- A canceled job with metrics, a queued one with metrics, and metrics without a job. -/
def canceledJobStats : StatsStore :=
  Run.exec (StatsStore.statsStep emptyTables) StatsStore.empty
    [.jobs (.createJob (placeholderRequest none []) "canceled" none none 0),
      .jobs (.createJob (placeholderRequest none []) "queued" none none 0),
      .jobs (.cancelJob "canceled" 1),
      .upsertGenerationMetrics "canceled" stepsOnly 2,
      .upsertGenerationMetrics "queued" stepsOnly 2,
      .upsertGenerationMetrics "gone" stepsOnly 2]

theorem retention_preserves_canceled_stats :
    canceledJobStats.HistoryUnused ∧
      ((canceledJobStats.purgeTerminalJobsCompletedBefore 5).1.history.rows.map
        fun row => row.jobId) = ["canceled"] ∧
      ((canceledJobStats.purgeTerminalJobsCompletedBefore 5).1.generationMetrics
        ⟨none, none, none⟩).Perm (canceledJobStats.generationMetrics ⟨none, none, none⟩) := by
  have hunused : canceledJobStats.HistoryUnused := fun _ hrow => absurd hrow List.not_mem_nil
  exact ⟨hunused, by decide +kernel, (retention_preserves_stats canceledJobStats hunused 5).2.1 _⟩

end SceneWorks.JobsStore
