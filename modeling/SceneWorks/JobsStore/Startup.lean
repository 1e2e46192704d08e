import Mathlib.Data.Set.Function
import SceneWorks.JobsStore.Steps

/-!
What an API restart makes of an arbitrary database. Three statements run one after the
other, each guarded by what the others' table says; afterwards active jobs and workers
that are not offline are matched one to one, and the list handed back for publication is
the list of the jobs whose status moved.
-/

namespace SceneWorks.JobsStore

section JobsByIds

/-- The requested rows in the requested order; a row is handed out once. -/
def takeRows (rows : List JobRow) : List String → Except StoreError (List JobRow)
  | [] => .ok []
  | id :: rest =>
      match rows.find? fun r => r.id = id with
      | none => .error (.notFound id)
      | some r => (takeRows (rows.eraseP fun r => r.id = id) rest).map (r :: ·)

def jobsByIds (s : Store) (ids : List String) : Except StoreError (List JobRow) :=
  takeRows (s.jobs.rows.filter fun r => ids.contains r.id) ids

theorem takeRows_eq {rows : List JobRow} {ids : List String} {row : String → Option JobRow}
    (hnodup : ids.Nodup)
    (hrows : ∀ id ∈ ids, rows.find? (fun r => r.id = id) = row id ∧ (row id).isSome = true) :
    takeRows rows ids = .ok (ids.filterMap row) := by
  induction ids generalizing rows with
  | nil => rfl
  | cons id rest ih =>
      obtain ⟨hfresh, hrest⟩ := List.nodup_cons.mp hnodup
      obtain ⟨hfind, hsome⟩ := hrows id List.mem_cons_self
      obtain ⟨r, hr⟩ := Option.isSome_iff_exists.mp hsome
      have hothers : ∀ other ∈ rest,
          (rows.eraseP fun r => r.id = id).find? (fun r => r.id = other) = row other ∧
            (row other).isSome = true := by
        intro other hother
        obtain ⟨hfound, hrow⟩ := hrows other (List.mem_cons_of_mem id hother)
        refine ⟨?_, hrow⟩
        have hne : id ≠ other := fun h => hfresh (h ▸ hother)
        -- Taking one row out does not hide the row of another id.
        rw [← hfound]
        clear hrows hfind hfound ih
        induction rows with
        | nil => rfl
        | cons first later ihrows =>
            by_cases hfirst : first.id = id
            · rw [List.eraseP_cons_of_pos (by simpa using hfirst)]
              simp [hfirst, hne]
            · rw [List.eraseP_cons_of_neg (by simpa using hfirst), List.find?_cons, List.find?_cons,
                ihrows]
      rw [takeRows, hfind, hr]
      simp only [ih hrest hothers, List.filterMap_cons, hr]
      rfl

/-- For distinct ids of present jobs `jobs_by_ids` finds every row. -/
theorem jobsByIds_eq {s : Store} {ids : List String} (hnodup : ids.Nodup)
    (hpresent : ∀ id ∈ ids, (s.job id).isSome = true) :
    jobsByIds s ids = .ok (ids.filterMap s.job) := by
  refine takeRows_eq hnodup fun id hid => ⟨?_, hpresent id hid⟩
  have hasked : (fun r : JobRow => decide (ids.contains r.id = true ∧ decide (r.id = id) = true)) =
      fun r => decide (r.id = id) := by
    funext r
    by_cases hr : r.id = id
    · simp [hr, hid]
    · simp [hr]
  rw [List.find?_filter, hasked]
  rfl

end JobsByIds

section Recovery

variable (s : Store) (now : Timestamp)

def isStranded (r : JobRow) : Bool := r.status.isActive && !s.startupOwnerAlive r

/-- One row across the two job statements. -/
def startupRow (r : JobRow) : JobRow :=
  if isStranded s r then r.afterUpdate (r.interruptOnStartup now)
  else if r.status = .pendingCaption then r.afterUpdate (r.promoteToQueued now)
  else r

def Store.recovered : Store := s.commit (markInterruptedOnStartup s now)

/-- The ids the recovery reads back: the stranded jobs, then the caption jobs. -/
def startupUpdatedIds : List String :=
  ((s.jobs.rows.filter (isStranded s)).insertionSort (fun a b => b.createdAt ≤ a.createdAt) ++
    (s.jobs.rows.filter fun r => decide (r.status = .pendingCaption)).insertionSort
      fun a b => b.createdAt ≤ a.createdAt).map JobRow.id

theorem markInterruptedOnStartup_eq : markInterruptedOnStartup s now =
    .ok (s.recovered now, (startupUpdatedIds s).filterMap (s.recovered now).job) := rfl

variable {s now} {id : String} {r r' : JobRow} {w : WorkerSnapshot}

theorem job_recovered : (s.recovered now).job id = (s.job id).map (startupRow s now) := by
  simp only [Store.recovered, markInterruptedOnStartup, Store.commit_ok, Store.job_updateWorkers,
    Store.job_updateJobs, Option.map_map]
  congr 1
  funext r
  simp only [Function.comp_apply, Store.rowUpdate, decide_eq_true_eq, startupRow, isStranded]
  by_cases hstranded : (r.status.isActive && !s.startupOwnerAlive r) = true
  · have hended : (r.afterUpdate (r.interruptOnStartup now)).status ≠ .pendingCaption := by
      simp [JobRow.afterUpdate, JobRow.interruptOnStartup, JobRow.reclaim]
    simp only [hstranded, if_true, if_neg hended]
  · simp only [hstranded, if_false, Bool.false_eq_true]

theorem startupOwnerAlive_iff : s.startupOwnerAlive r = true ↔
    ∃ owner w, r.workerId = some owner ∧ s.worker owner = some w ∧ w.status = .busy ∧
      w.currentJobId = some r.id := by
  rw [Store.startupOwnerAlive, List.any_eq_true]
  simp only [Bool.and_eq_true, decide_eq_true_eq]
  constructor
  · rintro ⟨w, hw, ⟨howner, hbusy⟩, hcurrent⟩
    exact ⟨w.id, w, howner, Table.mem_rows_iff.mp hw, hbusy, hcurrent⟩
  · rintro ⟨owner, w, howner, hw, hbusy, hcurrent⟩
    obtain rfl : w.id = owner := Store.worker_id hw
    exact ⟨w, Table.find_mem hw, ⟨howner, hbusy⟩, hcurrent⟩

/-- A row that is active after the recovery was active before, its owner alive. -/
theorem startupRow_active (h : (startupRow s now r).status.isActive = true) :
    startupRow s now r = r ∧ r.status.isActive = true ∧ s.startupOwnerAlive r = true := by
  unfold startupRow at h ⊢
  split at h
  · cases h
  · rename_i hstranded
    split at h
    · cases h
    · rename_i hcaption
      rw [if_neg hstranded, if_neg hcaption]
      refine ⟨rfl, h, ?_⟩
      simpa [isStranded, h] using hstranded

theorem worker_recovered : (s.recovered now).worker id =
    (s.worker id).map fun w =>
      if w.status ≠ .offline && !(s.recovered now).holdsActiveJob w
      then { releaseWorker w with id := w.id } else w :=
  Store.worker_updateWorkers _ _ _ id

theorem holdsActiveJob_iff {t : Store} : t.holdsActiveJob w = true ↔
    ∃ id r, t.job id = some r ∧ r.workerId = some w.id ∧ w.currentJobId = some id ∧
      r.status.isActive = true := by
  rw [Store.holdsActiveJob, List.any_eq_true]
  simp only [Bool.and_eq_true, decide_eq_true_eq, and_assoc]
  constructor
  · rintro ⟨r, hr, howner, hcurrent, hactive⟩
    exact ⟨r.id, r, Store.mem_jobs_iff.mp hr, howner, hcurrent, hactive⟩
  · rintro ⟨id, r, hr, howner, hcurrent, hactive⟩
    exact ⟨r, Table.find_mem hr, howner, (Store.job_id hr).symm ▸ hcurrent, hactive⟩

/-- The owner of a job that is active after the recovery: busy, and naming it. -/
theorem active_owner (hjob : (s.recovered now).job id = some r)
    (hactive : r.status.isActive = true) :
    ∃ owner w, r.workerId = some owner ∧ (s.recovered now).worker owner = some w ∧
      w.status = .busy ∧ w.currentJobId = some id := by
  have hbefore := hjob
  rw [job_recovered] at hbefore
  obtain ⟨old, hold, rfl⟩ := Option.map_eq_some_iff.mp hbefore
  obtain ⟨hsame, -, halive⟩ := startupRow_active hactive
  rw [hsame] at hjob hactive ⊢
  obtain ⟨owner, w, howner, hw, hbusy, hcurrent⟩ := startupOwnerAlive_iff.mp halive
  rw [Store.job_id hold] at hcurrent
  have hholds : (s.recovered now).holdsActiveJob w = true :=
    holdsActiveJob_iff.mpr ⟨id, old, hjob, (Store.worker_id hw).symm ▸ howner, hcurrent, hactive⟩
  refine ⟨owner, w, howner, ?_, hbusy, hcurrent⟩
  rw [worker_recovered, hw, Option.map_some, hholds]
  simp

/-- A worker that is not offline after the recovery names an active job it owns. -/
theorem live_worker (hworker : (s.recovered now).worker id = some w) (hlive : w.status ≠ .offline) :
    ∃ jobId r, w.currentJobId = some jobId ∧ (s.recovered now).job jobId = some r ∧
      r.workerId = some id ∧ r.status.isActive = true := by
  have hid := Store.worker_id hworker
  rw [worker_recovered] at hworker
  obtain ⟨old, hold, rfl⟩ := Option.map_eq_some_iff.mp hworker
  by_cases hreleased : (decide (old.status ≠ .offline) &&
      !(s.recovered now).holdsActiveJob old) = true
  · rw [if_pos hreleased] at hlive
    exact absurd rfl hlive
  · rw [if_neg hreleased] at hlive hid ⊢
    have hholds : (s.recovered now).holdsActiveJob old = true := by
      simpa [hlive] using hreleased
    obtain ⟨jobId, r, hjob, howner, hcurrent, hactive⟩ := holdsActiveJob_iff.mp hholds
    exact ⟨jobId, r, hcurrent, hjob, hid ▸ howner, hactive⟩

theorem startupRow_status_ne_iff :
    (startupRow s now r).status ≠ r.status ↔
      isStranded s r = true ∨ r.status = .pendingCaption := by
  unfold startupRow
  by_cases hstranded : isStranded s r = true
  · rw [if_pos hstranded]
    refine iff_of_true (fun h => ?_) (.inl hstranded)
    have hactive : r.status.isActive = true := (Bool.and_eq_true_iff.mp hstranded).1
    rw [← h] at hactive
    cases hactive
  · rw [if_neg hstranded]
    by_cases hcaption : r.status = .pendingCaption
    · rw [if_pos hcaption, hcaption]
      exact iff_of_true (fun h => by cases h) (.inr rfl)
    · rw [if_neg hcaption]
      exact iff_of_false (fun h => h rfl) (fun h => h.elim hstranded hcaption)

variable (now) in
theorem mem_startupUpdatedIds : id ∈ startupUpdatedIds s ↔
    ∃ r, s.job id = some r ∧ (startupRow s now r).status ≠ r.status := by
  simp only [startupUpdatedIds, List.mem_map, List.mem_append,
    (List.perm_insertionSort _ _).mem_iff, List.mem_filter, decide_eq_true_eq, ← and_or_left,
    startupRow_status_ne_iff]
  constructor
  · rintro ⟨r, ⟨hr, hmoved⟩, rfl⟩
    exact ⟨r, Store.mem_jobs_iff.mp hr, hmoved⟩
  · rintro ⟨r, hr, hmoved⟩
    exact ⟨r, ⟨Table.find_mem hr, hmoved⟩, Store.job_id hr⟩

theorem startupUpdatedIds_nodup : (startupUpdatedIds s).Nodup := by
  have hpart : ∀ p : JobRow → Bool, (((s.jobs.rows.filter p).insertionSort
      fun a b => b.createdAt ≤ a.createdAt).map JobRow.id).Nodup := by
    intro p
    refine (((List.perm_insertionSort _ _).map JobRow.id).nodup_iff).mpr ?_
    exact s.jobs.unique.sublist (List.filter_sublist.map JobRow.id)
  rw [startupUpdatedIds, List.map_append, List.nodup_append]
  refine ⟨hpart _, hpart _, ?_⟩
  rintro a ha b hb rfl
  simp only [List.mem_map, (List.perm_insertionSort _ _).mem_iff, List.mem_filter,
    decide_eq_true_eq] at ha hb
  obtain ⟨r, ⟨hr, hstranded⟩, rfl⟩ := ha
  obtain ⟨r', ⟨hr', hcaption⟩, hid⟩ := hb
  obtain rfl : r' = r := List.inj_on_of_nodup_map s.jobs.unique hr' hr hid
  have hactive : r'.status.isActive = true := (Bool.and_eq_true_iff.mp hstranded).1
  rw [hcaption] at hactive
  cases hactive

theorem job_recovered_isSome (h : id ∈ startupUpdatedIds s) :
    ((s.recovered now).job id).isSome = true := by
  obtain ⟨r, hr, -⟩ := (mem_startupUpdatedIds now).mp h
  rw [job_recovered, hr]
  rfl

/-- Active jobs and workers that are not offline, matched one to one by ownership. -/
structure OwnersMatched (t : Store) : Prop where
  owners : Set.BijOn JobRow.workerId {r | r ∈ t.jobs.rows ∧ r.status.isActive = true}
    {owner | ∃ w ∈ t.workers.rows, w.status ≠ .offline ∧ owner = some w.id}
  busy : ∀ id r, t.job id = some r → r.status.isActive = true →
    ∃ owner w, r.workerId = some owner ∧ t.worker owner = some w ∧ w.status = .busy ∧
      w.currentJobId = some id
  named : ∀ id w, t.worker id = some w → w.status ≠ .offline →
    ∃ jobId r, w.currentJobId = some jobId ∧ t.job jobId = some r ∧ r.workerId = some id ∧
      r.status.isActive = true

/-- The list holds the jobs whose status differs between the two stores, each once and
as the later store has it. -/
structure ReportsMoved (s t : Store) (reported : List JobRow) : Prop where
  once : (reported.map JobRow.id).Nodup
  moved : ∀ r', r' ∈ reported ↔
    t.job r'.id = some r' ∧ ∃ r, s.job r'.id = some r ∧ r'.status ≠ r.status

theorem ownersMatched_recovered : OwnersMatched (s.recovered now) := by
  refine ⟨⟨?_, ?_, ?_⟩, fun id r => active_owner, fun id w => live_worker⟩
  · rintro r ⟨hr, hactive⟩
    obtain ⟨owner, w, howner, hw, hbusy, -⟩ := active_owner (Store.mem_jobs_iff.mp hr) hactive
    refine ⟨w, Table.find_mem hw, ?_, (Store.worker_id hw).symm ▸ howner⟩
    rw [hbusy]
    decide
  · rintro r ⟨hr, hactive⟩ r' ⟨hr', hactive'⟩ hsame
    -- One owner names one current job.
    obtain ⟨owner, w, howner, hw, -, hcurrent⟩ := active_owner (Store.mem_jobs_iff.mp hr) hactive
    obtain ⟨owner', w', howner', hw', -, hcurrent'⟩ :=
      active_owner (Store.mem_jobs_iff.mp hr') hactive'
    obtain rfl : owner = owner' := Option.some.inj (howner.symm.trans (hsame.trans howner'))
    obtain rfl : w = w' := Option.some.inj (hw.symm.trans hw')
    have hid : r.id = r'.id := Option.some.inj (hcurrent.symm.trans hcurrent')
    exact List.inj_on_of_nodup_map (s.recovered now).jobs.unique hr hr' hid
  · rintro _ ⟨w, hw, hlive, rfl⟩
    obtain ⟨jobId, r, -, hjob, howner, hactive⟩ := live_worker (Table.mem_rows_iff.mp hw) hlive
    exact ⟨r, ⟨Table.find_mem hjob, hactive⟩, howner⟩

theorem reportsMoved_recovered :
    ReportsMoved s (s.recovered now) ((startupUpdatedIds s).filterMap (s.recovered now).job) := by
  constructor
  · have hids : ∀ ids : List String, (∀ id ∈ ids, ((s.recovered now).job id).isSome = true) →
        (ids.filterMap (s.recovered now).job).map JobRow.id = ids := by
      intro ids hpresent
      induction ids with
      | nil => rfl
      | cons id rest ih =>
          obtain ⟨hfirst, hrest⟩ := List.forall_mem_cons.mp hpresent
          obtain ⟨r, hr⟩ := Option.isSome_iff_exists.mp hfirst
          rw [List.filterMap_cons, hr]
          exact congrArg₂ List.cons (Store.job_id hr) (ih hrest)
    rw [hids _ fun id => job_recovered_isSome]
    exact startupUpdatedIds_nodup
  · intro r'
    rw [List.mem_filterMap]
    constructor
    · rintro ⟨id, hid, hr'⟩
      obtain rfl := Store.job_id hr'
      obtain ⟨r, hr, hmoved⟩ := (mem_startupUpdatedIds now).mp hid
      refine ⟨hr', r, hr, ?_⟩
      rw [job_recovered, hr, Option.map_some, Option.some.injEq] at hr'
      rwa [hr'] at hmoved
    · rintro ⟨hr', r, hr, hmoved⟩
      refine ⟨r'.id, (mem_startupUpdatedIds now).mpr ⟨r, hr, ?_⟩, hr'⟩
      rw [job_recovered, hr, Option.map_some, Option.some.injEq] at hr'
      rwa [hr']

end Recovery

/-- Over any database the recovery leaves active jobs and live workers matched one to
one, no caption job pending, every workflow, queued and terminal row as it was, and
hands back exactly the jobs whose status it changed. -/
theorem startup_recovery (s : Store) (now : Timestamp) :
    ∃ reported, markInterruptedOnStartup s now = .ok (s.recovered now, reported) ∧
      jobsByIds (s.recovered now) (startupUpdatedIds s) = .ok reported ∧
      OwnersMatched (s.recovered now) ∧
      (∀ id r, (s.recovered now).job id = some r → r.status ≠ .pendingCaption) ∧
      (∀ id r, s.job id = some r →
        r.status = .pendingWorkflow ∨ r.status = .queued ∨ r.status.isTerminal = true →
        (s.recovered now).job id = some r) ∧
      ReportsMoved s (s.recovered now) reported := by
  refine ⟨_, markInterruptedOnStartup_eq s now,
    jobsByIds_eq startupUpdatedIds_nodup fun id => job_recovered_isSome,
    ownersMatched_recovered, ?_, ?_, reportsMoved_recovered⟩
  · intro id r hr hcaption
    rw [job_recovered] at hr
    obtain ⟨old, -, rfl⟩ := Option.map_eq_some_iff.mp hr
    unfold startupRow at hcaption
    split at hcaption
    · cases hcaption
    · split at hcaption
      · cases hcaption
      · contradiction
  · intro id r hr hkind
    have hstill : isStranded s r = false ∧ r.status ≠ .pendingCaption := by
      rcases hkind with h | h | h
      · simp [isStranded, h, JobStatus.isActive, JobStatus.activeStatuses]
      · simp [isStranded, h, JobStatus.isActive, JobStatus.activeStatuses]
      · refine ⟨by rw [isStranded, JobStatus.isActive_eq_false_of_isTerminal h, Bool.false_and], ?_⟩
        rintro hcaption
        rw [hcaption] at h
        cases h
    rw [job_recovered, hr, Option.map_some, startupRow, hstill.1, if_neg hstill.2]
    rfl

end SceneWorks.JobsStore
