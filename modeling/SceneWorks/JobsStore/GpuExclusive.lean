import SceneWorks.JobsStore.Ownership

/-!
No GPU is double-booked. Exclusivity is stored nowhere: a claim reads the active rows
of its GPU inside its own transaction, and no other operation makes a row active that
was not, as long as ownership follows status.
-/

namespace SceneWorks.JobsStore

section PhysicalGpu

/-- Two ids name one device: they are equal, or both are Apple aliases. -/
def SamePhysicalGpu (a b : String) : Prop :=
  a = b ∨ isAppleUnifiedGpuId a = true ∧ isAppleUnifiedGpuId b = true

theorem SamePhysicalGpu.symm {a b : String} (h : SamePhysicalGpu a b) : SamePhysicalGpu b a := by
  obtain rfl | ⟨ha, hb⟩ := h
  · exact .inl rfl
  · exact .inr ⟨hb, ha⟩

theorem SamePhysicalGpu.trans {a b c : String} (h : SamePhysicalGpu a b)
    (h' : SamePhysicalGpu b c) : SamePhysicalGpu a c := by
  obtain rfl | ⟨ha, hb⟩ := h
  · exact h'
  · obtain rfl | ⟨-, hc⟩ := h'
    · exact .inr ⟨ha, hb⟩
    · exact .inr ⟨ha, hc⟩

theorem sameGpu_iff {assigned gpuId : String} :
    sameGpu assigned gpuId = true ↔ SamePhysicalGpu assigned gpuId := by
  unfold sameGpu SamePhysicalGpu
  by_cases happle : isAppleUnifiedGpuId gpuId = true
  · rw [if_pos happle]
    constructor
    · intro h
      exact .inr ⟨h, happle⟩
    · rintro (rfl | ⟨h, -⟩)
      · exact happle
      · exact h
  · rw [if_neg happle]
    simp [happle]

def Occupies (r : JobRow) (gpuId : String) : Prop :=
  r.status.isActive = true ∧ isNonGpuJobType r.jobType = false ∧
    ∃ assigned, r.assignedGpu = some assigned ∧ SamePhysicalGpu assigned gpuId

theorem Occupies.of_same {r : JobRow} {a b : String} (h : Occupies r a)
    (hsame : SamePhysicalGpu a b) : Occupies r b := by
  obtain ⟨hactive, htype, assigned, hassigned, hgpu⟩ := h
  exact ⟨hactive, htype, assigned, hassigned, hgpu.trans hsame⟩

theorem activeGpuJobExists_of_occupies {s : Store} {id gpuId : String} {r : JobRow}
    (hr : s.job id = some r) (h : Occupies r gpuId) : activeGpuJobExists s gpuId = true := by
  obtain ⟨hactive, htype, assigned, hassigned, hgpu⟩ := h
  refine List.any_eq_true.mpr ⟨r, Table.find_mem hr, ?_⟩
  simp [occupiesGpu, hassigned, sameGpu_iff.mpr hgpu, hactive, htype]

end PhysicalGpu

section Exclusive

def GpuExclusive (s : Store) : Prop :=
  ∀ gpuId k k' r r', s.job k = some r → s.job k' = some r' → Occupies r gpuId →
    Occupies r' gpuId → k = k'

variable {policy : RoutingPolicy} {s : Store} {op : Op}

theorem gpu_free_of_visible {worker : WorkerSnapshot} {r : JobRow}
    (h : visibleToWorker worker (activeGpuJobExists s worker.gpuId) r = true)
    (htype : isNonGpuJobType r.jobType = false) : activeGpuJobExists s worker.gpuId = false := by
  simpa [visibleToWorker, htype] using (Bool.and_eq_true_iff.mp h).2

/-- An occupant after a step occupied the device before it, or the step is its claim
by a worker of that device, which had no occupant. -/
theorem occupies_step {k gpuId : String} {r' : JobRow} (h : OwnerInv s)
    (hr' : (step policy s op).job k = some r') (hoccupies : Occupies r' gpuId) :
    (∃ r, s.job k = some r ∧ Occupies r gpuId) ∨
      ∃ workerId mlxRequired now worker r, op = .claimNextJob workerId mlxRequired now ∧
        s.worker workerId = some worker ∧
        chooseClaimableJobFromCandidates policy s
          (claimCandidates s worker (activeGpuJobExists s worker.gpuId)) worker = .ok (some r) ∧
        s.job k = some r ∧ SamePhysicalGpu worker.gpuId gpuId ∧
        activeGpuJobExists s worker.gpuId = false := by
  obtain ⟨hactive, htype', assigned, hassigned, hgpu⟩ := hoccupies
  cases active_step hr' hactive with
  | was r hr hwas htype _ hkept =>
      refine .inl ⟨r, hr, hwas, ?_, assigned, ?_, hgpu⟩
      · rw [← htype]; exact htype'
      · rw [← hkept]; exact hassigned
  | claimed workerId mlxRequired now worker r hop hworker hselected hr htype _ hclaimed =>
      obtain ⟨-, -, hvisible⟩ := selectedJob_spec hselected
      have hnongpu : isNonGpuJobType r.jobType = false := by rw [← htype]; exact htype'
      have hgpuId : worker.gpuId = assigned := by
        rw [hclaimed] at hassigned
        simpa [assignedGpuFor, hnongpu] using hassigned
      refine .inr ⟨workerId, mlxRequired, now, worker, r, hop, hworker, hselected, hr, ?_,
        gpu_free_of_visible hvisible hnongpu⟩
      rw [hgpuId]
      exact hgpu
  | reported update track now r w _ _ hr hlive hidle _ hrw _ _ =>
      have hwas := (h k r hr).isActive hlive hrw
      rw [hidle] at hwas
      cases hwas

theorem gpuExclusive_step (h : OwnerInv s) (hexclusive : GpuExclusive s) :
    GpuExclusive (step policy s op) := by
  intro gpuId k k' r₁ r₂ hr₁ hr₂ hocc₁ hocc₂
  obtain ⟨q₁, hq₁, hq₁occ⟩ | ⟨w, mlx, now, worker, q₁, hop, hworker, hsel₁, hq₁, hsame, hfree⟩ :=
    occupies_step h hr₁ hocc₁
  · obtain ⟨q₂, hq₂, hq₂occ⟩ | ⟨w, mlx, now, worker, q₂, -, -, -, -, hsame, hfree⟩ :=
      occupies_step h hr₂ hocc₂
    · exact hexclusive gpuId k k' q₁ q₂ hq₁ hq₂ hq₁occ hq₂occ
    · have hbusy := activeGpuJobExists_of_occupies hq₁ (hq₁occ.of_same hsame.symm)
      rw [hfree] at hbusy
      cases hbusy
  · obtain ⟨q₂, hq₂, hq₂occ⟩ | ⟨w', mlx', now', worker', q₂, hop', hworker', hsel₂, hq₂, -, -⟩ :=
      occupies_step h hr₂ hocc₂
    · have hbusy := activeGpuJobExists_of_occupies hq₂ (hq₂occ.of_same hsame.symm)
      rw [hfree] at hbusy
      cases hbusy
    · -- Both rows were selected by one claim, which selects one row.
      obtain ⟨rfl, -, -⟩ : w = w' ∧ mlx = mlx' ∧ now = now' := by
        rw [hop] at hop'
        simpa using hop'
      obtain rfl : worker = worker' := Option.some.inj (hworker.symm.trans hworker')
      rw [hsel₁] at hsel₂
      obtain rfl : q₁ = q₂ := by simpa using hsel₂
      exact (Store.job_id hq₁).symm.trans (Store.job_id hq₂)

end Exclusive

/-- Over every run whose accepted progress reports name an active or a terminal status,
every state reached has at most one active GPU job on each device. -/
theorem gpu_never_double_booked (policy : RoutingPolicy) (ops : List Op)
    (hops : Run.Along (step policy) ReportsLive Store.empty ops) :
    Run.Throughout (step policy) GpuExclusive Store.empty ops := by
  have hstart : OwnerInv Store.empty ∧ GpuExclusive Store.empty := by
    refine ⟨ownerInv_empty, ?_⟩
    intro gpuId k k' r r' hr
    cases hr
  refine Run.throughout_of_invariant (fun s => OwnerInv s ∧ GpuExclusive s) ?_
    (fun s h => h.2) hstart hops
  rintro s op ⟨hinv, hexclusive⟩ hop
  exact ⟨ownerInv_step hinv hop, gpuExclusive_step hinv hexclusive⟩

/-- Two workers under the two Apple aliases and two jobs: the first claim is served, the
second finds the device busy. -/
theorem apple_aliases_share_one_gpu :
    let ops : List Op :=
      [.createJob (placeholderRequest none []) "first" none none 0,
        .createJob (placeholderRequest none []) "second" none none 1,
        .registerWorker (placeholderWorker "left" "mps") 2,
        .registerWorker (placeholderWorker "right" "MLX") 3,
        .claimNextJob "left" false 4,
        .claimNextJob "right" false 5,
        .updateJobProgress "first" (placeholderReport "left" .running .running) true 6]
    let s := exec emptyTables Store.empty ops
    (s.job "first").map JobRow.status = some .running ∧
      (s.job "second").map JobRow.status = some .queued ∧
      Run.Throughout (step emptyTables) GpuExclusive Store.empty ops := by
  intro ops s
  refine ⟨rfl, rfl, gpu_never_double_booked emptyTables ops ?_⟩
  exact ⟨trivial, trivial, trivial, trivial, trivial, trivial, fun _ => .inl rfl, trivial⟩

end SceneWorks.JobsStore
