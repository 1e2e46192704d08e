import SceneWorks.Library.StableSort
import SceneWorks.JobsStore.Freshness

/-!
Claim selection from persisted headers. The reference below is the policy stated on
the decoded jobs; the code scans scalar headers in claim order, stops early, and reads
one job. With fresh headers the two pick the same job.
-/

namespace SceneWorks.JobsStore

section Reference

variable (policy : RoutingPolicy)

/-- The queued rows shown to the worker that it supports. -/
def claimableRows (s : Store) (worker : WorkerSnapshot) (gpuBusy : Bool) : List JobRow :=
  s.jobs.rows.filter fun r =>
    r.status = .queued && visibleToWorker worker gpuBusy r &&
      workerSupportsJob policy worker r.jobType r.payload

def topRank (ranks : List Nat) : Nat := ranks.foldr max 0

/-- The rows of the highest rank, oldest first; rows of one age stay in rowid order. -/
def oldestOfTopRank (rows : List JobRow) : List JobRow :=
  (rows.filter fun r => r.queueRank = topRank (rows.map JobRow.queueRank)).insertionSort
    fun a b => a.createdAt ≤ b.createdAt

/-- The affinity order inside one rank. -/
def preferredRow (rows : List JobRow) (worker : WorkerSnapshot) : Option JobRow :=
  match rows with
  | [] => none
  | first :: rest =>
      if isNonGpuJobType first.jobType || first.requestedGpu ≠ "auto" then some first
      else
        ((first :: rest).find? fun r =>
          !isNonGpuJobType r.jobType && r.requestedGpu ≠ "auto").or
          (((first :: rest).find? fun r => jobMatchesLoadedModel r worker).or (some first))

/-- The policy on decoded jobs. -/
def referenceClaim (s : Store) (worker : WorkerSnapshot) (gpuBusy : Bool) : Option JobRow :=
  preferredRow (oldestOfTopRank (claimableRows policy s worker gpuBusy)) worker

end Reference

section TopRank

theorem le_topRank {ranks : List Nat} {n : Nat} (h : n ∈ ranks) : n ≤ topRank ranks := by
  induction ranks with
  | nil => cases h
  | cons m ranks ih =>
      obtain rfl | h := List.mem_cons.mp h
      · exact le_max_left _ _
      · exact (ih h).trans (le_max_right _ _)

theorem topRank_le {ranks : List Nat} {n : Nat} (h : ∀ m ∈ ranks, m ≤ n) : topRank ranks ≤ n := by
  induction ranks with
  | nil => exact Nat.zero_le n
  | cons m ranks ih =>
      refine max_le (h m List.mem_cons_self) (ih ?_)
      intro k hk
      exact h k (List.mem_cons_of_mem m hk)

theorem topRank_mem {ranks : List Nat} (h : ranks ≠ []) : topRank ranks ∈ ranks := by
  induction ranks with
  | nil => exact absurd rfl h
  | cons m ranks ih =>
      cases ranks with
      | nil => simp [topRank]
      | cons k ranks =>
          have hrest := ih (List.cons_ne_nil k ranks)
          obtain hmax | hmax := max_choice m (topRank (k :: ranks))
          · rw [show topRank (m :: k :: ranks) = m from hmax]
            exact List.mem_cons_self
          · rw [show topRank (m :: k :: ranks) = topRank (k :: ranks) from hmax]
            exact List.mem_cons_of_mem m hrest

theorem topRank_perm {ranks ranks' : List Nat} (h : ranks.Perm ranks') :
    topRank ranks = topRank ranks' := by
  apply le_antisymm
  · exact topRank_le fun n hn => le_topRank (h.mem_iff.mp hn)
  · exact topRank_le fun n hn => le_topRank (h.mem_iff.mpr hn)

end TopRank

section Scan

variable {worker : WorkerSnapshot}

def RankDescending (candidates : List ClaimCandidate) : Prop :=
  candidates.Pairwise fun a b => b.queueRank ≤ a.queueRank

/-- Past the first compatible header the scan keeps the compatible ones of its rank. -/
theorem scanCompatible_some {top : Nat} {candidates : List ClaimCandidate}
    (hsorted : RankDescending candidates) (hle : ∀ c ∈ candidates, c.queueRank ≤ top) :
    scanCompatible worker (some top) candidates =
      candidates.filter fun c =>
        workerMaySupportClaimCandidate worker c && decide (c.queueRank = top) := by
  induction candidates with
  | nil => rfl
  | cons c rest ih =>
      have hrest := ih hsorted.of_cons fun d hd => hle d (List.mem_cons_of_mem c hd)
      have hc : c.queueRank ≤ top := hle c List.mem_cons_self
      by_cases hlt : c.queueRank < top
      · -- The early exit: no later header reaches the rank either.
        have hnone : ∀ d ∈ c :: rest, ¬ (workerMaySupportClaimCandidate worker d &&
            decide (d.queueRank = top)) = true := by
          intro d hd htop
          have hd' : d.queueRank = top := by
            simpa using (Bool.and_eq_true_iff.mp htop).2
          obtain rfl | hd := List.mem_cons.mp hd
          · omega
          · have := List.rel_of_pairwise_cons hsorted hd
            omega
        rw [List.filter_eq_nil_iff.mpr hnone]
        simp [scanCompatible, hlt]
      · have heq : c.queueRank = top := by omega
        cases hsupports : workerMaySupportClaimCandidate worker c with
        | false => simp [scanCompatible, hsupports, hlt, hrest]
        | true => simp [scanCompatible, hsupports, hrest, heq]

/-- The whole scan: the compatible headers of the highest compatible rank. -/
theorem scanCompatible_none {candidates : List ClaimCandidate}
    (hsorted : RankDescending candidates) :
    scanCompatible worker none candidates =
      candidates.filter fun c =>
        workerMaySupportClaimCandidate worker c &&
          decide (c.queueRank = topRank ((candidates.filter
            (workerMaySupportClaimCandidate worker)).map ClaimCandidate.queueRank)) := by
  induction candidates with
  | nil => rfl
  | cons c rest ih =>
      cases hsupports : workerMaySupportClaimCandidate worker c with
      | false => simp [scanCompatible, hsupports, ih hsorted.of_cons]
      | true =>
          have hle : ∀ d ∈ rest, d.queueRank ≤ c.queueRank := by
            intro d hd
            exact List.rel_of_pairwise_cons hsorted hd
          have htop : topRank (((c :: rest).filter
              (workerMaySupportClaimCandidate worker)).map ClaimCandidate.queueRank) =
              c.queueRank := by
            apply le_antisymm
            · apply topRank_le
              intro n hn
              obtain ⟨d, hd, rfl⟩ := List.mem_map.mp hn
              obtain rfl | hd := List.mem_cons.mp (List.mem_of_mem_filter hd)
              · exact le_refl _
              · exact hle d hd
            · apply le_topRank
              rw [List.filter_cons_of_pos hsupports]
              exact List.mem_cons_self
          rw [htop]
          simp [scanCompatible, hsupports, scanCompatible_some hsorted.of_cons hle]

end Scan

section Order

instance : Std.Total claimOrder where
  total a b := by
    obtain hlt | heq | hlt := lt_trichotomy a.queueRank b.queueRank
    · exact .inr (.inl hlt)
    · obtain hle | hle := le_total a.createdAt b.createdAt
      · exact .inl (.inr ⟨heq, hle⟩)
      · exact .inr (.inr ⟨heq.symm, hle⟩)
    · exact .inl (.inl hlt)

instance : IsTrans JobRow claimOrder where
  trans a b c := by
    rintro (hab | ⟨hab, hage⟩) (hbc | ⟨hbc, hage'⟩)
    · exact .inl (hbc.trans hab)
    · exact .inl (hbc ▸ hab)
    · exact .inl (hab ▸ hbc)
    · exact .inr ⟨hab.trans hbc, hage.trans hage'⟩

/-- Inside one rank the claim order is the order of age. -/
theorem claimOrder_of_rank_eq {a b : JobRow} (h : a.queueRank = b.queueRank) :
    claimOrder a b ↔ a.createdAt ≤ b.createdAt := by
  simp [claimOrder, h]

theorem rankDescending_headers (rows : List JobRow) :
    RankDescending ((rows.insertionSort claimOrder).map rowToClaimCandidate) := by
  refine List.pairwise_map.mpr ((List.pairwise_insertionSort claimOrder rows).imp ?_)
  intro a b h
  show b.queueRank ≤ a.queueRank
  unfold claimOrder at h
  omega

end Order

section Headers

variable {policy : RoutingPolicy} {worker : WorkerSnapshot}

theorem workerMaySupport_header {r : JobRow} (h : r.FactsFresh policy) :
    workerMaySupportClaimCandidate worker (rowToClaimCandidate r) =
      workerSupportsJob policy worker r.jobType r.payload := by
  unfold workerMaySupportClaimCandidate workerSupportsJob
  rw [← h.2.2]
  rfl

theorem matchesLoaded_header {r : JobRow} (h : r.FactsFresh policy) :
    candidateMatchesLoadedModel (rowToClaimCandidate r) worker =
      jobMatchesLoadedModel r worker := by
  have hkeys : (rowToClaimCandidate r).facts.modelKeys = desiredModelKeys r.payload := by
    have hfacts : (rowToClaimCandidate r).facts = _ := h.2.2
    rw [hfacts]
    rfl
  unfold candidateMatchesLoadedModel jobMatchesLoadedModel
  rw [hkeys]
  cases hmodels : worker.loadedModels with
  | nil => simp [routingModelKeysMatchLoaded, hmodels]
  | cons model models =>
      by_cases hauto : r.requestedGpu = "auto"
      · cases htype : isNonGpuJobType r.jobType <;> simp [rowToClaimCandidate, hauto, htype]
      · simp [rowToClaimCandidate, hauto]

theorem find_headers {rows : List JobRow} (p : ClaimCandidate → Bool) (q : JobRow → Bool)
    (h : ∀ r ∈ rows, p (rowToClaimCandidate r) = q r) :
    (rows.map rowToClaimCandidate).find? p = (rows.find? q).map rowToClaimCandidate := by
  induction rows with
  | nil => rfl
  | cons r rows ih =>
      have hrest := ih fun r' hr' => h r' (List.mem_cons_of_mem r hr')
      simp only [List.map_cons, List.find?_cons, h r List.mem_cons_self]
      cases q r with
      | true => rfl
      | false => exact hrest

theorem chooseClaimableCandidate_headers {rows : List JobRow}
    (h : ∀ r ∈ rows, r.FactsFresh policy) :
    chooseClaimableCandidate (rows.map rowToClaimCandidate) worker =
      (preferredRow rows worker).map rowToClaimCandidate := by
  cases rows with
  | nil => rfl
  | cons first rest =>
      have hexplicit : ((first :: rest).map rowToClaimCandidate).find? namesExplicitGpu = _ :=
        find_headers _ (fun r => !isNonGpuJobType r.jobType && r.requestedGpu ≠ "auto")
          fun _ _ => rfl
      have hwarm : ((first :: rest).map rowToClaimCandidate).find?
          (fun c => candidateMatchesLoadedModel c worker) = _ :=
        find_headers _ (fun r => jobMatchesLoadedModel r worker)
          fun r hr => matchesLoaded_header (h r hr)
      simp only [List.map_cons] at hexplicit hwarm
      simp only [List.map_cons, chooseClaimableCandidate, preferredRow]
      rw [hexplicit, hwarm]
      show (if isNonGpuJobType first.jobType || first.requestedGpu ≠ "auto" then _ else _) = _
      split
      · rfl
      · cases (first :: rest).find? fun r =>
            !isNonGpuJobType r.jobType && r.requestedGpu ≠ "auto" with
        | some r => rfl
        | none =>
            cases (first :: rest).find? fun r => jobMatchesLoadedModel r worker with
            | some r => rfl
            | none => rfl

end Headers

section Refinement

variable {policy : RoutingPolicy} {s : Store} {worker : WorkerSnapshot} {gpuBusy : Bool}

def visibleRows (s : Store) (worker : WorkerSnapshot) (gpuBusy : Bool) : List JobRow :=
  s.jobs.rows.filter fun r => r.status = .queued && visibleToWorker worker gpuBusy r

theorem visibleRows_fresh (h : QueuedFactsFresh policy s) :
    ∀ r ∈ visibleRows s worker gpuBusy, r.FactsFresh policy := by
  intro r hr
  obtain ⟨hrow, hqueued, -⟩ : r ∈ s.jobs.rows ∧ r.status = .queued ∧
      visibleToWorker worker gpuBusy r = true := by
    simpa [visibleRows] using hr
  exact h r.id r (Store.mem_jobs_iff.mp hrow) hqueued

/-- With fresh headers the query's freshness clause drops nothing. -/
theorem claimCandidates_eq (h : QueuedFactsFresh policy s) :
    claimCandidates s worker gpuBusy =
      ((visibleRows s worker gpuBusy).insertionSort claimOrder).map rowToClaimCandidate := by
  unfold claimCandidates visibleRows
  congr 2
  refine List.filter_congr ?_
  intro r hr
  cases hqueued : decide (r.status = .queued) with
  | false => rfl
  | true =>
      have hfresh := h r.id r (Store.mem_jobs_iff.mp hr) (of_decide_eq_true hqueued)
      have hheader : headerIsFresh r = true := by simp [headerIsFresh, hfresh.1, hfresh.2.1]
      rw [hheader, Bool.and_true]

theorem claimableRows_eq :
    claimableRows policy s worker gpuBusy =
      (visibleRows s worker gpuBusy).filter fun r =>
        workerSupportsJob policy worker r.jobType r.payload := by
  unfold claimableRows visibleRows
  rw [List.filter_filter]
  refine List.filter_congr fun r _ => ?_
  exact Bool.and_comm _ _

theorem filter_headers (rows : List JobRow) (p : ClaimCandidate → Bool) (q : JobRow → Bool)
    (h : ∀ r ∈ rows, p (rowToClaimCandidate r) = q r) :
    (((rows.insertionSort claimOrder).map rowToClaimCandidate).filter p) =
      ((rows.filter q).insertionSort claimOrder).map rowToClaimCandidate := by
  rw [List.filter_map, ← StableSort.filter_insertionSort]
  congr 1
  refine List.filter_congr fun r hr => ?_
  exact h r ((List.mem_insertionSort claimOrder).mp hr)

theorem supported_headers (h : QueuedFactsFresh policy s) :
    (claimCandidates s worker gpuBusy).filter (workerMaySupportClaimCandidate worker) =
      ((claimableRows policy s worker gpuBusy).insertionSort claimOrder).map
        rowToClaimCandidate := by
  rw [claimCandidates_eq h, claimableRows_eq]
  exact filter_headers _ _ _ fun r hr => workerMaySupport_header (visibleRows_fresh h r hr)

theorem topRank_headers (h : QueuedFactsFresh policy s) :
    topRank (((claimCandidates s worker gpuBusy).filter
        (workerMaySupportClaimCandidate worker)).map ClaimCandidate.queueRank) =
      topRank ((claimableRows policy s worker gpuBusy).map JobRow.queueRank) := by
  rw [supported_headers h, List.map_map]
  apply topRank_perm
  exact (List.perm_insertionSort claimOrder _).map JobRow.queueRank

/-- The scan leaves the headers of the rows the reference keeps, in its order. -/
theorem scan_eq_oldestOfTopRank (h : QueuedFactsFresh policy s) :
    scanCompatible worker none (claimCandidates s worker gpuBusy) =
      (oldestOfTopRank (claimableRows policy s worker gpuBusy)).map rowToClaimCandidate := by
  have hsorted : RankDescending (claimCandidates s worker gpuBusy) := by
    rw [claimCandidates_eq h]
    exact rankDescending_headers _
  rw [scanCompatible_none hsorted, topRank_headers h, claimCandidates_eq h]
  generalize htop : topRank ((claimableRows policy s worker gpuBusy).map JobRow.queueRank) = top
  have hfilter := filter_headers (visibleRows s worker gpuBusy)
    (fun c => workerMaySupportClaimCandidate worker c && decide (c.queueRank = top))
    (fun r => decide (r.queueRank = top) && workerSupportsJob policy worker r.jobType r.payload)
    (by
      intro r hr
      rw [workerMaySupport_header (visibleRows_fresh h r hr), Bool.and_comm]
      rfl)
  rw [hfilter, ← List.filter_filter, ← claimableRows_eq]
  unfold oldestOfTopRank
  rw [htop]
  congr 1
  refine StableSort.insertionSort_congr claimOrder ?_
  intro a ha b hb
  have ha' : a.queueRank = top := by simpa using (List.mem_filter.mp ha).2
  have hb' : b.queueRank = top := by simpa using (List.mem_filter.mp hb).2
  exact claimOrder_of_rank_eq (ha'.trans hb'.symm)

theorem mem_oldestOfTopRank {rows : List JobRow} {r : JobRow} (h : r ∈ oldestOfTopRank rows) :
    r ∈ rows :=
  List.mem_of_mem_filter ((List.mem_insertionSort _).mp h)

theorem preferredRow_mem {rows : List JobRow} {r : JobRow}
    (h : preferredRow rows worker = some r) : r ∈ rows := by
  cases rows with
  | nil => cases h
  | cons first rest =>
      simp only [preferredRow] at h
      split at h
      · obtain rfl := Option.some.inj h
        exact List.mem_cons_self
      · obtain hexplicit | ⟨-, h⟩ := Option.or_eq_some_iff.mp h
        · exact List.mem_of_find?_eq_some hexplicit
        · obtain hwarm | ⟨-, h⟩ := Option.or_eq_some_iff.mp h
          · exact List.mem_of_find?_eq_some hwarm
          · obtain rfl := Option.some.inj h
            exact List.mem_cons_self

theorem preferredRow_eq_none_iff {rows : List JobRow} :
    preferredRow rows worker = none ↔ rows = [] := by
  cases rows with
  | nil => simp [preferredRow]
  | cons first rest =>
      simp only [preferredRow]
      split
      · simp
      · simp

theorem oldestOfTopRank_eq_nil_iff {rows : List JobRow} : oldestOfTopRank rows = [] ↔
    rows = [] := by
  constructor
  · intro h
    by_contra hrows
    have hmap : rows.map JobRow.queueRank ≠ [] := by simpa using hrows
    obtain ⟨r, hr, hrank⟩ := List.mem_map.mp (topRank_mem hmap)
    have hmem : r ∈ oldestOfTopRank rows := by
      refine (List.mem_insertionSort _).mpr (List.mem_filter.mpr ⟨hr, ?_⟩)
      simpa using hrank
    rw [h] at hmem
    cases hmem
  · rintro rfl
    rfl

theorem referenceClaim_eq_none_iff :
    referenceClaim policy s worker gpuBusy = none ↔
      ∀ id r, s.job id = some r → r.status = .queued → visibleToWorker worker gpuBusy r = true →
        workerSupportsJob policy worker r.jobType r.payload = false := by
  unfold referenceClaim
  rw [preferredRow_eq_none_iff, oldestOfTopRank_eq_nil_iff, claimableRows, List.filter_eq_nil_iff]
  constructor
  · intro h id r hr hqueued hvisible
    have hnot := h r (Table.find_mem hr)
    simpa [hqueued, hvisible] using hnot
  · intro h r hr hclaimable
    obtain ⟨⟨hqueued, hvisible⟩, hsupports⟩ : (r.status = .queued ∧
        visibleToWorker worker gpuBusy r = true) ∧
        workerSupportsJob policy worker r.jobType r.payload = true := by
      simpa using hclaimable
    rw [h r.id r (Store.mem_jobs_iff.mp hr) hqueued hvisible] at hsupports
    cases hsupports

end Refinement

/-- With fresh queued rows, for every worker and GPU situation, the header scan selects
the job the policy selects from the decoded rows, and none exactly when the worker
supports no row it is shown. -/
theorem selection_refines_reference (policy : RoutingPolicy) (s : Store) (worker : WorkerSnapshot)
    (gpuBusy : Bool) (h : QueuedFactsFresh policy s) :
    chooseClaimableJobFromCandidates policy s (claimCandidates s worker gpuBusy) worker =
        .ok (referenceClaim policy s worker gpuBusy) ∧
      (chooseClaimableJobFromCandidates policy s (claimCandidates s worker gpuBusy) worker =
          .ok none ↔
        ∀ id r, s.job id = some r → r.status = .queued →
          visibleToWorker worker gpuBusy r = true →
            workerSupportsJob policy worker r.jobType r.payload = false) := by
  have hrows : ∀ r ∈ oldestOfTopRank (claimableRows policy s worker gpuBusy),
      r ∈ s.jobs.rows ∧ r.status = .queued ∧ r.FactsFresh policy := by
    intro r hr
    have hclaimable := mem_oldestOfTopRank hr
    rw [claimableRows_eq] at hclaimable
    have hvisible := List.mem_of_mem_filter hclaimable
    obtain ⟨hrow, hqueued, -⟩ : r ∈ s.jobs.rows ∧ r.status = .queued ∧
        visibleToWorker worker gpuBusy r = true := by
      simpa [visibleRows] using hvisible
    exact ⟨hrow, hqueued, visibleRows_fresh h r hvisible⟩
  have hselected : chooseClaimableCandidate
      (scanCompatible worker none (claimCandidates s worker gpuBusy)) worker =
      (referenceClaim policy s worker gpuBusy).map rowToClaimCandidate := by
    rw [scan_eq_oldestOfTopRank h]
    exact chooseClaimableCandidate_headers fun r hr => (hrows r hr).2.2
  have hchoose : chooseClaimableJobFromCandidates policy s (claimCandidates s worker gpuBusy)
      worker = .ok (referenceClaim policy s worker gpuBusy) := by
    unfold chooseClaimableJobFromCandidates
    rw [hselected]
    cases hreference : referenceClaim policy s worker gpuBusy with
    | none => rfl
    | some r =>
        obtain ⟨hrow, hqueued, hfresh⟩ := hrows r (preferredRow_mem hreference)
        have hjob : s.job (rowToClaimCandidate r).id = some r := Store.mem_jobs_iff.mp hrow
        have hfacts : (rowToClaimCandidate r).facts =
            ClaimRoutingFacts.fromParts policy r.jobType r.payload := hfresh.2.2
        simp [hjob, Option.filter, hqueued, hfacts]
  refine ⟨hchoose, ?_⟩
  rw [hchoose, ← referenceClaim_eq_none_iff]
  simp

section Instance

/-- An older auto job, a job pinned to the worker's GPU and one pinned to another. -/
def pinnedQueue : Store :=
  exec emptyTables Store.empty
    [.createJob (placeholderRequest none []) "auto" none none 0,
      .createJob { placeholderRequest none [] with requestedGpu := "gpu-1" } "other" none none 1,
      .createJob { placeholderRequest none [] with requestedGpu := "gpu-0" } "pinned" none none 2,
      .registerWorker (placeholderWorker "worker" "gpu-0") 3]

def pinnedWorker : WorkerSnapshot :=
  { id := "worker", gpuId := "gpu-0", gpuName := none, status := .idle, currentJobId := none
    capabilities := [.gpu, .placeholder], loadedModels := [], utilization := none
    statusReason := none, registeredAt := 3, lastSeenAt := 3 }

theorem pinnedQueue_fresh : QueuedFactsFresh emptyTables pinnedQueue := by
  have hinv : FactsInv emptyTables pinnedQueue :=
    Run.exec_invariant (fun _ _ => factsInv_step) factsInv_empty
      ⟨trivial, trivial, trivial, trivial, trivial⟩
  exact hinv.queuedFactsFresh

/-- The pinned job goes before the older auto job at the head of the queue. -/
theorem selection_prefers_pinned_job :
    (referenceClaim emptyTables pinnedQueue pinnedWorker false).map JobRow.id = some "pinned" ∧
      (chooseClaimableJobFromCandidates emptyTables pinnedQueue
          (claimCandidates pinnedQueue pinnedWorker false) pinnedWorker =
        .ok (referenceClaim emptyTables pinnedQueue pinnedWorker false)) :=
  ⟨by decide +kernel,
    (selection_refines_reference emptyTables pinnedQueue pinnedWorker false pinnedQueue_fresh).1⟩

end Instance

end SceneWorks.JobsStore
