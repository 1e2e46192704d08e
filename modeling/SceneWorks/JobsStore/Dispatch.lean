import Mathlib.Tactic.Linarith
import Mathlib.Tactic.NormNum
import SceneWorks.JobsStore.Steps

/-!
Health-based dispatch of auto jobs. A worker yields an auto job to an idle rival whose
reported figures beat its own. `Beats` spells the comparison out on the figures; a
fleet makes progress exactly when one of its workers is beaten by no rival, and the
three rescue thresholds, which no tolerance band guards, let two workers beat each
other.
-/

namespace SceneWorks.JobsStore

section Figures

/-- Free memory as reported, or as total less used; nothing reported counts as zero. -/
def reportedFreeMb (w : WorkerSnapshot) : Option Nat :=
  (w.utilization.bind WorkerUtilizationSnapshot.memoryFreeMb).or
    (match w.utilization.bind WorkerUtilizationSnapshot.memoryTotalMb,
        w.utilization.bind WorkerUtilizationSnapshot.memoryUsedMb with
      | some total, some used => checkedSub total used
      | _, _ => none)

def reportedLoad (w : WorkerSnapshot) : Option ℚ :=
  w.utilization.bind WorkerUtilizationSnapshot.gpuLoadPercent

def reportedUsage (w : WorkerSnapshot) : ℚ :=
  match w.utilization.bind WorkerUtilizationSnapshot.memoryTotalMb,
      w.utilization.bind WorkerUtilizationSnapshot.memoryUsedMb with
  | some total, some used => if 0 < total then (used : ℚ) / (total : ℚ) * 100 else 0
  | _, _ => 0

/-- The worker reports a free figure, a load, or a memory total. -/
def Reports (w : WorkerSnapshot) : Prop :=
  (reportedFreeMb w).isSome = true ∨ (reportedLoad w).isSome = true ∨
    (w.utilization.bind WorkerUtilizationSnapshot.memoryTotalMb).isSome = true

def freeOf (w : WorkerSnapshot) : ℚ := ((reportedFreeMb w).getD 0 : Nat)

def loadOf (w : WorkerSnapshot) : ℚ := (reportedLoad w).getD 0

/-- The rival is no worse on any figure beyond its tolerance. -/
def WithinTolerance (rival w : WorkerSnapshot) : Prop :=
  freeOf w ≤ freeOf rival + 512 ∧ loadOf rival ≤ loadOf w + 10 ∧
    reportedUsage rival ≤ reportedUsage w + 10

/-- The rival gains a full relief step on some figure. -/
def Relieves (rival w : WorkerSnapshot) : Prop :=
  freeOf w + 1024 ≤ freeOf rival ∨ loadOf rival + 15 ≤ loadOf w ∨
    reportedUsage rival + 10 ≤ reportedUsage w

/-- One figure of the worker is critical and the rival's is healthy; the other figures
do not matter. -/
def Rescues (rival w : WorkerSnapshot) : Prop :=
  (freeOf w < 2048 ∧ 4096 ≤ freeOf rival) ∨ (85 ≤ loadOf w ∧ loadOf rival ≤ 75) ∨
    (90 ≤ reportedUsage w ∧ reportedUsage rival ≤ 80)

def Beats (job : JobRow) (rival w : WorkerSnapshot) : Prop :=
  Rescues rival w ∨ WithinTolerance rival w ∧
    (Relieves rival w ∨
      jobMatchesLoadedModel job rival = true ∧ jobMatchesLoadedModel job w = false)

variable (job : JobRow) (rival w : WorkerSnapshot)

theorem hasUtilization_iff : (dispatchScore job w).hasUtilization = true ↔ Reports w := by
  unfold Reports
  rw [← Bool.or_eq_true_iff, ← Bool.or_eq_true_iff, ← Bool.or_assoc]
  exact Iff.rfl

theorem candidateIsNotWorse_iff :
    candidateIsNotWorse (dispatchScore job rival) (dispatchScore job w) = true ↔
      WithinTolerance rival w := by
  unfold candidateIsNotWorse
  rw [Bool.and_eq_true_iff, Bool.and_eq_true_iff, decide_eq_true_iff, decide_eq_true_iff,
    decide_eq_true_iff, and_assoc]
  exact Iff.rfl

theorem candidateRelief_iff :
    candidateRelief (dispatchScore job rival) (dispatchScore job w) = true ↔ Relieves rival w := by
  unfold candidateRelief
  rw [Bool.or_eq_true_iff, Bool.or_eq_true_iff, decide_eq_true_iff, decide_eq_true_iff,
    decide_eq_true_iff, or_assoc]
  have hfree : 1024 ≤ freeOf rival - freeOf w ↔ freeOf w + 1024 ≤ freeOf rival := by
    constructor <;> intro h <;> linarith
  have hload : 15 ≤ loadOf w - loadOf rival ↔ loadOf rival + 15 ≤ loadOf w := by
    constructor <;> intro h <;> linarith
  have husage : 10 ≤ reportedUsage w - reportedUsage rival ↔
      reportedUsage rival + 10 ≤ reportedUsage w := by
    constructor <;> intro h <;> linarith
  exact or_congr hfree (or_congr hload husage)

theorem thresholdRescue_iff :
    thresholdRescue (dispatchScore job rival) (dispatchScore job w) = true ↔ Rescues rival w := by
  unfold thresholdRescue
  simp only [Bool.or_eq_true, Bool.and_eq_true, decide_eq_true_eq, or_assoc]
  exact Iff.rfl

theorem dispatchScoreIsBetter_iff :
    dispatchScoreIsBetter (dispatchScore job rival) (dispatchScore job w) = true ↔
      Reports rival ∧ Reports w ∧ Beats job rival w := by
  unfold dispatchScoreIsBetter Beats
  rw [← hasUtilization_iff job rival, ← hasUtilization_iff job w,
    ← candidateIsNotWorse_iff job rival w, ← candidateRelief_iff job rival w,
    ← thresholdRescue_iff job rival w]
  show _ ↔ _ ∧ _ ∧ (_ ∨ _ ∧ (_ ∨ (dispatchScore job rival).warmModel = true ∧
    (dispatchScore job w).warmModel = false))
  cases (dispatchScore job rival).hasUtilization <;> cases (dispatchScore job w).hasUtilization <;>
    simp
  cases candidateIsNotWorse (dispatchScore job rival) (dispatchScore job w) <;>
    cases candidateRelief (dispatchScore job rival) (dispatchScore job w) <;>
    cases thresholdRescue (dispatchScore job rival) (dispatchScore job w) <;> simp

end Figures

section Fleet

variable (policy : RoutingPolicy)

/-- The idle workers of the store that could take the job: on GPUs of their own, none of
them busy, none of them the CPU or the MLX worker. -/
structure IdleFleet (s : Store) (job : JobRow) (fleet : List WorkerSnapshot) : Prop where
  nonempty : fleet ≠ []
  rows : ∀ w ∈ fleet, w ∈ s.workers.rows
  idle : ∀ w ∈ fleet, w.status = .idle
  notCpu : ∀ w ∈ fleet, w.gpuId ≠ "cpu"
  notMlx : ∀ w ∈ fleet, workerIsMlx w = false
  supports : ∀ w ∈ fleet, workerSupportsJob policy w job.jobType job.payload = true
  gpuFree : ∀ w ∈ fleet, activeGpuJobExists s w.gpuId = false
  distinctGpus : fleet.Pairwise fun w w' => ¬ sameGpu w.gpuId w'.gpuId = true
  complete : ∀ w ∈ s.workers.rows, w.status = .idle → w.gpuId ≠ "cpu" →
    workerSupportsJob policy w job.jobType job.payload = true →
    activeGpuJobExists s w.gpuId = false → w ∈ fleet

/-- The worker reports no figures, or no rival that does beats it. -/
def Unbeaten (job : JobRow) (fleet : List WorkerSnapshot) (w : WorkerSnapshot) : Prop :=
  ¬ Reports w ∨ ∀ rival ∈ fleet, rival.id ≠ w.id → Reports rival → ¬ Beats job rival w

variable {policy} {s : Store} {job : JobRow} {fleet : List WorkerSnapshot}

theorem mem_autoGpuCandidates {w rival : WorkerSnapshot} :
    rival ∈ autoGpuCandidates s w ↔
      rival ∈ s.workers.rows ∧ rival.id ≠ w.id ∧ rival.gpuId ≠ "cpu" ∧ rival.status = .idle := by
  simp [autoGpuCandidates, List.mem_insertionSort, and_assoc]

theorem shouldDefer_eq_false_iff (hauto : job.requestedGpu = "auto")
    (htype : isNonGpuJobType job.jobType = false) (hfleet : IdleFleet policy s job fleet)
    {w : WorkerSnapshot} (hw : w ∈ fleet) :
    shouldDeferAutoGpuClaim policy s job w = false ↔ Unbeaten job fleet w := by
  have hgate : (decide (job.requestedGpu ≠ "auto") || isNonGpuJobType job.jobType ||
      decide (w.gpuId = "cpu")) = false := by
    simp [hauto, htype, hfleet.notCpu w hw]
  unfold shouldDeferAutoGpuClaim Unbeaten
  rw [hgate, if_neg Bool.false_ne_true, hfleet.notMlx w hw, if_neg Bool.false_ne_true]
  by_cases hreports : Reports w
  · have hscore := (hasUtilization_iff job w).mpr hreports
    simp only [hscore, Bool.not_true, Bool.false_eq_true, if_false, List.any_eq_false]
    constructor
    · intro h
      refine .inr fun rival hrival hne hrep hbeats => ?_
      refine h rival (mem_autoGpuCandidates.mpr ⟨hfleet.rows rival hrival, hne,
        hfleet.notCpu rival hrival, hfleet.idle rival hrival⟩) ?_
      have hbetter := (dispatchScoreIsBetter_iff job rival w).mpr ⟨hrep, hreports, hbeats⟩
      simp [hfleet.supports rival hrival, hfleet.gpuFree rival hrival, hbetter]
    · rintro (hnot | hunbeaten) rival hcandidate hbetter
      · exact hnot hreports
      · obtain ⟨hrow, hne, hcpu, hidle⟩ := mem_autoGpuCandidates.mp hcandidate
        obtain ⟨⟨hsupports, hfree⟩, hscore'⟩ : (workerSupportsJob policy rival job.jobType
            job.payload = true ∧ activeGpuJobExists s rival.gpuId = false) ∧
            dispatchScoreIsBetter (dispatchScore job rival) (dispatchScore job w) = true := by
          simpa using hbetter
        have hmem := hfleet.complete rival hrow hidle hcpu hsupports hfree
        obtain ⟨hrep, -, hbeats⟩ := (dispatchScoreIsBetter_iff job rival w).mp hscore'
        exact hunbeaten rival hmem hne hrep hbeats
  · have hscore : (dispatchScore job w).hasUtilization = false := by
      rw [← Bool.not_eq_true, hasUtilization_iff job w]
      exact hreports
    simp [hscore, hreports]

end Fleet

/-- An auto job finds a worker of the idle fleet that does not yield it exactly when the
figures of some worker are beaten by no rival's. -/
theorem auto_dispatch_progress_iff (policy : RoutingPolicy) (s : Store) (job : JobRow)
    (fleet : List WorkerSnapshot) (hauto : job.requestedGpu = "auto")
    (htype : isNonGpuJobType job.jobType = false) (hfleet : IdleFleet policy s job fleet) :
    (∃ w ∈ fleet, shouldDeferAutoGpuClaim policy s job w = false) ↔
      ∃ w ∈ fleet, Unbeaten job fleet w := by
  constructor
  · rintro ⟨w, hw, hkeeps⟩
    exact ⟨w, hw, (shouldDefer_eq_false_iff hauto htype hfleet hw).mp hkeeps⟩
  · rintro ⟨w, hw, hunbeaten⟩
    exact ⟨w, hw, (shouldDefer_eq_false_iff hauto htype hfleet hw).mpr hunbeaten⟩

section Instance

def loadedWorker (workerId gpuId : String) (free : Nat) (load : ℚ) : RegisterWorker :=
  { placeholderWorker workerId gpuId with
    utilization := some ⟨none, none, some free, some load⟩ }

/-- One queued auto job and two idle workers with the given figures. -/
def twoWorkerStore (free₀ : Nat) (load₀ : ℚ) (free₁ : Nat) (load₁ : ℚ) : Store :=
  exec emptyTables Store.empty
    [.createJob (placeholderRequest none []) "job" none none 0,
      .registerWorker (loadedWorker "left" "gpu-0" free₀ load₀) 1,
      .registerWorker (loadedWorker "right" "gpu-1" free₁ load₁) 2]

def twoWorkerJob : JobRow :=
  (placeholderRequest none []).newRow emptyTables 0 "job" "auto" .queued .queued
    "Waiting for an available worker." none 0

def steadyPair : Store := twoWorkerStore 8000 10 2500 60

def strainedPair : Store := twoWorkerStore 1000 70 5000 90

theorem pair_idleFleet : ∀ s ∈ [steadyPair, strainedPair],
    IdleFleet emptyTables s twoWorkerJob s.workers.rows := by
  intro s hs
  exact {
    nonempty := by revert s; decide +kernel
    rows := fun _ h => h
    idle := by revert s; decide +kernel
    notCpu := by revert s; decide +kernel
    notMlx := by revert s; decide +kernel
    supports := by revert s; decide +kernel
    gpuFree := by revert s; decide +kernel
    distinctGpus := by revert s; decide +kernel
    complete := fun _ h _ _ _ _ => h }

theorem steady_pair_progresses :
    steadyPair.job "job" = some twoWorkerJob ∧
      (∃ w ∈ steadyPair.workers.rows,
        shouldDeferAutoGpuClaim emptyTables steadyPair twoWorkerJob w = false) ∧
      ∃ w ∈ steadyPair.workers.rows, Unbeaten twoWorkerJob steadyPair.workers.rows w := by
  have hkeeps : ∃ w ∈ steadyPair.workers.rows,
      shouldDeferAutoGpuClaim emptyTables steadyPair twoWorkerJob w = false := by
    decide +kernel
  have hfleet := pair_idleFleet steadyPair (by simp)
  exact ⟨rfl, hkeeps, (auto_dispatch_progress_iff emptyTables steadyPair twoWorkerJob
    steadyPair.workers.rows (by decide +kernel) (by decide +kernel) hfleet).mp hkeeps⟩

/-- The left worker is short of memory and the right one is saturated, so each yields
the job to the other: the comparison has a cycle, and neither claim hands the job out. -/
theorem strained_pair_yields_forever :
    strainedPair.job "job" = some twoWorkerJob ∧
      IdleFleet emptyTables strainedPair twoWorkerJob strainedPair.workers.rows ∧
      (¬ ∃ w ∈ strainedPair.workers.rows,
        shouldDeferAutoGpuClaim emptyTables strainedPair twoWorkerJob w = false) ∧
      (∃ left ∈ strainedPair.workers.rows, ∃ right ∈ strainedPair.workers.rows,
        dispatchScoreIsBetter (dispatchScore twoWorkerJob left)
            (dispatchScore twoWorkerJob right) = true ∧
          dispatchScoreIsBetter (dispatchScore twoWorkerJob right)
            (dispatchScore twoWorkerJob left) = true) ∧
      (exec emptyTables strainedPair
        [.claimNextJob "left" false 3, .claimNextJob "right" false 4]).job "job" =
          some twoWorkerJob :=
  ⟨rfl, pair_idleFleet strainedPair (by simp), by decide +kernel, by decide +kernel,
    by decide +kernel⟩

end Instance

end SceneWorks.JobsStore
