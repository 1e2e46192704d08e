import SceneWorks.JobsStore.Selection

/-!
Moving pending jobs to the front of the queue. Claims read the queue by rank, enqueue
time and row id; the selection that is ranked is read by rank, enqueue time and job id.
The two readings part only over jobs of one rank and one second, and there the group
comes out in the order of the ids.
-/

namespace SceneWorks.JobsStore

/-- The place of a job in insertion order, which `rowid asc` sorts by. -/
def Store.rowid (s : Store) (id : String) : Nat := (s.jobs.rows.map JobRow.id).idxOf id

section SchedulingOrder

/-- Job `a` stands before job `b` in `order by queue_rank desc, created_at asc, rowid asc`. -/
def Store.Precedes (s : Store) (a b : String) : Prop :=
  ∃ ra rb, s.job a = some ra ∧ s.job b = some rb ∧
    (rb.queueRank < ra.queueRank ∨ ra.queueRank = rb.queueRank ∧
      (ra.createdAt < rb.createdAt ∨ ra.createdAt = rb.createdAt ∧ s.rowid a < s.rowid b))

theorem rows_pairwise_rowid (s : Store) :
    s.jobs.rows.Pairwise fun a b => s.rowid a.id < s.rowid b.id := by
  rw [List.pairwise_iff_getElem]
  intro i j hi hj hij
  have hplace : ∀ k (hk : k < s.jobs.rows.length), s.rowid s.jobs.rows[k].id = k := by
    intro k hk
    have hplaces := s.jobs.unique.idxOf_getElem k (by rwa [List.length_map])
    rwa [List.getElem_map] at hplaces
  rw [hplace i hi, hplace j hj]
  exact hij

/-- The claim query lists its candidates in this order. -/
theorem claimCandidates_precedes (s : Store) (worker : WorkerSnapshot) (gpuBusy : Bool) :
    (claimCandidates s worker gpuBusy).Pairwise fun a b => s.Precedes a.id b.id := by
  rw [claimCandidates, List.pairwise_map]
  have hrows := (rows_pairwise_rowid s).sublist
    (List.filter_sublist (p := fun r => r.status = .queued && visibleToWorker worker gpuBusy r &&
      headerIsFresh r))
  refine (StableSort.pairwise_insertionSort_stable claimOrder hrows).imp_of_mem ?_
  intro a b ha hb hab
  have hfound : ∀ r ∈ (s.jobs.rows.filter fun r => r.status = .queued &&
      visibleToWorker worker gpuBusy r && headerIsFresh r).insertionSort claimOrder,
      s.job r.id = some r := by
    intro r hr
    exact Store.mem_jobs_iff.mp
      (List.mem_of_mem_filter ((List.perm_insertionSort claimOrder _).mem_iff.mp hr))
  refine ⟨a, b, hfound a ha, hfound b hb, ?_⟩
  obtain ⟨hle, htie⟩ := hab
  simp only [claimOrder] at hle htie
  rcases hle with hrank | ⟨hrank, hcreated⟩
  · exact .inl hrank
  · refine .inr ⟨hrank, ?_⟩
    rcases Int.lt_or_eq_of_le hcreated with hlt | heq
    · exact .inl hlt
    · exact .inr ⟨heq, htie (.inr ⟨hrank.symm, heq.ge⟩)⟩

variable {s : Store} {a b : String}

theorem Store.Precedes.asymm (h : s.Precedes a b) : ¬ s.Precedes b a := by
  obtain ⟨ra, rb, hra, hrb, horder⟩ := h
  rintro ⟨rb', ra', hrb', hra', horder'⟩
  obtain rfl : ra = ra' := Option.some.inj (hra.symm.trans hra')
  obtain rfl : rb = rb' := Option.some.inj (hrb.symm.trans hrb')
  rcases horder with h | ⟨h, hc | ⟨hc, hrow⟩⟩
  · rcases horder' with h' | ⟨h', -⟩
    · exact Nat.lt_asymm h h'
    · exact h.ne h'
  · rcases horder' with h' | ⟨-, hc' | ⟨hc', -⟩⟩
    · exact h'.ne h
    · exact lt_asymm hc hc'
    · exact hc.ne' hc'
  · rcases horder' with h' | ⟨-, hc' | ⟨-, hrow'⟩⟩
    · exact h'.ne h
    · exact hc'.ne' hc
    · exact Nat.lt_asymm hrow hrow'

theorem Store.precedes_of_rank {ra rb : JobRow} (hra : s.job a = some ra) (hrb : s.job b = some rb)
    (h : rb.queueRank < ra.queueRank) : s.Precedes a b :=
  ⟨ra, rb, hra, hrb, .inl h⟩

theorem Store.precedes_congr {s' : Store} (ha : s'.job a = s.job a) (hb : s'.job b = s.job b)
    (hrowid : ∀ id, s'.rowid id = s.rowid id) : s'.Precedes a b ↔ s.Precedes a b := by
  simp only [Store.Precedes, ha, hb, hrowid]

end SchedulingOrder

section Ranking

variable {now : Timestamp} {top : Nat} {selected : List JobRow} {s : Store} {id : String}

theorem rowid_assignRanks : (assignRanks now top selected s).rowid id = s.rowid id := by
  induction selected generalizing s with
  | nil => rfl
  | cons job rest ih =>
      rw [assignRanks, ih]
      simp only [Store.rowid, Store.updateJobs, Table.update, Table.modify, List.map_map]
      congr 1
      refine List.map_congr_left fun r _ => ?_
      simp only [Function.comp_apply]
      split <;> rfl

theorem job_assignRanks_of_not_mem (h : id ∉ selected.map JobRow.id) :
    (assignRanks now top selected s).job id = s.job id := by
  induction selected generalizing s with
  | nil => rfl
  | cons job rest ih =>
      obtain ⟨hne, hrest⟩ := List.ne_and_not_mem_of_not_mem_cons h
      rw [assignRanks, ih hrest, Store.job_updateJobs]
      cases hjob : s.job id with
      | none => rfl
      | some r =>
          have hid : r.id ≠ job.id := by rwa [Store.job_id hjob]
          simp [Store.rowUpdate, hid]

/-- The ranked rows: above `top`, in falling order, their enqueue times kept. -/
structure Ranked (top : Nat) (selected : List JobRow) (s' : Store) : Prop where
  row : ∀ job ∈ selected, ∃ r, s'.job job.id = some r ∧ r.createdAt = job.createdAt ∧
    top < r.queueRank ∧ r.queueRank ≤ top + selected.length
  falling : selected.Pairwise fun a b => ∀ ra rb, s'.job a.id = some ra → s'.job b.id = some rb →
    rb.queueRank < ra.queueRank

theorem ranked_assignRanks (hnodup : (selected.map JobRow.id).Nodup)
    (hrows : ∀ job ∈ selected, s.job job.id = some job ∧ job.status.isPending = true) :
    Ranked top selected (assignRanks now top selected s) := by
  induction selected generalizing s with
  | nil => exact ⟨fun job hjob => absurd hjob List.not_mem_nil, List.Pairwise.nil⟩
  | cons job rest ih =>
      obtain ⟨hfresh, hrest⟩ := List.nodup_cons.mp hnodup
      obtain ⟨hjob, hpending⟩ := hrows job List.mem_cons_self
      rw [assignRanks]
      have hset : (assignRanks now top rest (s.updateJobs
          (fun r => r.id = job.id && r.status.isPending)
          (fun r => r.setQueueRank now (top + (rest.length + 1))))).job job.id =
          some (job.afterUpdate (job.setQueueRank now (top + (rest.length + 1)))) := by
        rw [job_assignRanks_of_not_mem hfresh, Store.job_updateJobs, hjob]
        simp [Store.rowUpdate, hpending]
      have hkept : ∀ other ∈ rest, (s.updateJobs (fun r => r.id = job.id && r.status.isPending)
          (fun r => r.setQueueRank now (top + (rest.length + 1)))).job other.id = some other ∧
          other.status.isPending = true := by
        intro other hother
        obtain ⟨hfound, hwaits⟩ := hrows other (List.mem_cons_of_mem job hother)
        have hne : other.id ≠ job.id := fun h => hfresh (h ▸ List.mem_map_of_mem hother)
        rw [Store.job_updateJobs, hfound]
        simp [Store.rowUpdate, hne, hwaits]
      have hranked := ih hrest hkept
      refine ⟨?_, List.pairwise_cons.mpr ⟨?_, hranked.falling⟩⟩
      · intro other hother
        rcases List.mem_cons.mp hother with rfl | hin
        · exact ⟨_, hset, rfl, by simp [JobRow.afterUpdate, JobRow.setQueueRank],
            by simp [JobRow.afterUpdate, JobRow.setQueueRank]⟩
        · obtain ⟨r, hr, hcreated, hlow, hhigh⟩ := hranked.row other hin
          exact ⟨r, hr, hcreated, hlow, hhigh.trans (by simp)⟩
      · intro other hother ra rb hra hrb
        rw [hset, Option.some.injEq] at hra
        obtain ⟨r, hr, -, -, hhigh⟩ := hranked.row other hother
        rw [hr, Option.some.injEq] at hrb
        subst hra hrb
        simp only [JobRow.afterUpdate, JobRow.setQueueRank]
        omega

theorem queueRank_le_max {r : JobRow} (h : s.job id = some r) : r.queueRank ≤ s.maxQueueRank := by
  have hmem : r.queueRank ∈ s.jobs.rows.map JobRow.queueRank :=
    List.mem_map_of_mem (Table.find_mem h)
  rw [Store.maxQueueRank]
  generalize s.jobs.rows.map JobRow.queueRank = ranks at hmem
  induction ranks with
  | nil => cases hmem
  | cons rank rest ih =>
      rcases List.mem_cons.mp hmem with rfl | hrest
      · exact Nat.le_max_left _ _
      · exact (ih hrest).trans (Nat.le_max_right _ _)

end Ranking

section MoveToFront

instance : Std.Total schedulesBefore where
  total a b := by
    simp only [schedulesBefore]
    rcases Nat.lt_trichotomy a.queueRank b.queueRank with h | h | h
    · exact .inr (.inl h)
    · rcases Int.lt_trichotomy a.createdAt b.createdAt with hc | hc | hc
      · exact .inl (.inr ⟨h, .inl hc⟩)
      · exact (le_total a.id b.id).imp (fun hid => .inr ⟨h, .inr ⟨hc, hid⟩⟩)
          fun hid => .inr ⟨h.symm, .inr ⟨hc.symm, hid⟩⟩
      · exact .inr (.inr ⟨h.symm, .inl hc⟩)
    · exact .inl (.inl h)

instance : IsTrans JobRow schedulesBefore where
  trans a b c hab hbc := by
    simp only [schedulesBefore] at *
    rcases hab with h | ⟨h, hc⟩
    · rcases hbc with h' | ⟨h', -⟩
      · exact .inl (h'.trans h)
      · exact .inl (h' ▸ h)
    · rcases hbc with h' | ⟨h', hc'⟩
      · exact .inl (h ▸ h')
      · refine .inr ⟨h.trans h', ?_⟩
        rcases hc with hc | ⟨hc, hid⟩
        · exact .inl (hc'.elim hc.trans fun hc' => hc'.1 ▸ hc)
        · exact hc'.imp (fun hc' => hc ▸ hc') fun hc' => ⟨hc.trans hc'.1, hid.trans hc'.2⟩

def Store.Named (s : Store) (ids : List String) (id : String) : Prop :=
  id ∈ ids ∧ ∃ r, s.job id = some r ∧ r.status.isPending = true

def prioritySelection (s : Store) (ids : List String) : List JobRow :=
  (s.jobs.rows.filter fun r => ids.contains r.id && r.status.isPending).insertionSort
    schedulesBefore

variable {s : Store} {ids : List String}

theorem mem_prioritySelection {r : JobRow} : r ∈ prioritySelection s ids ↔
    s.job r.id = some r ∧ r.id ∈ ids ∧ r.status.isPending = true := by
  rw [prioritySelection, (List.perm_insertionSort schedulesBefore _).mem_iff, List.mem_filter,
    Store.mem_jobs_iff, Bool.and_eq_true, List.contains_iff_mem]

theorem mem_selection_of_named {id : String} (h : s.Named ids id) :
    ∃ r ∈ prioritySelection s ids, r.id = id := by
  obtain ⟨hid, r, hr, hpending⟩ := h
  have hrid := Store.job_id hr
  exact ⟨r, mem_prioritySelection.mpr ⟨hrid.symm ▸ hr, hrid.symm ▸ hid, hpending⟩, hrid⟩

theorem prioritySelection_nodup : ((prioritySelection s ids).map JobRow.id).Nodup := by
  have hperm := (List.perm_insertionSort schedulesBefore
    (s.jobs.rows.filter fun r => ids.contains r.id && r.status.isPending)).map JobRow.id
  exact hperm.nodup_iff.mpr (s.jobs.unique.sublist (List.filter_sublist.map JobRow.id))

theorem ranked_prioritizeJobs (s : Store) (ids : List String) (now : Timestamp) :
    Ranked s.maxQueueRank (prioritySelection s ids) (s.commit (prioritizeJobs s ids now)) :=
  ranked_assignRanks prioritySelection_nodup fun _ hjob =>
    ⟨(mem_prioritySelection.mp hjob).1, (mem_prioritySelection.mp hjob).2.2⟩

theorem job_prioritizeJobs_of_not_named (now : Timestamp) {id : String} (h : ¬ s.Named ids id) :
    (s.commit (prioritizeJobs s ids now)).job id = s.job id := by
  refine job_assignRanks_of_not_mem fun hmem => h ?_
  obtain ⟨r, hr, rfl⟩ := List.mem_map.mp hmem
  obtain ⟨hfound, hid, hpending⟩ := mem_prioritySelection.mp hr
  exact ⟨hid, r, hfound, hpending⟩

/-- Of two selected rows one stands before the other both in the selection query and in
the ranks it is given. -/
theorem selection_ranks (now : Timestamp) {ra rb : JobRow} (ha : ra ∈ prioritySelection s ids)
    (hb : rb ∈ prioritySelection s ids) (hne : ra ≠ rb) :
    schedulesBefore ra rb ∧ (s.commit (prioritizeJobs s ids now)).Precedes ra.id rb.id ∨
      schedulesBefore rb ra ∧ (s.commit (prioritizeJobs s ids now)).Precedes rb.id ra.id := by
  have hranked := ranked_prioritizeJobs s ids now
  have hpairs := (List.pairwise_insertionSort schedulesBefore
    (s.jobs.rows.filter fun r => ids.contains r.id && r.status.isPending)).and hranked.falling
  have hordered : ∀ a ∈ prioritySelection s ids, ∀ b ∈ prioritySelection s ids,
      (∀ ra rb, (s.commit (prioritizeJobs s ids now)).job a.id = some ra →
        (s.commit (prioritizeJobs s ids now)).job b.id = some rb → rb.queueRank < ra.queueRank) →
      (s.commit (prioritizeJobs s ids now)).Precedes a.id b.id := by
    intro a ha b hb hfalling
    obtain ⟨ra, hra, -⟩ := hranked.row a ha
    obtain ⟨rb, hrb, -⟩ := hranked.row b hb
    exact Store.precedes_of_rank hra hrb (hfalling ra rb hra hrb)
  rcases StableSort.either_of_pairwise hpairs ha hb hne with
    ⟨hbefore, hfalling⟩ | ⟨hbefore, hfalling⟩
  · exact .inl ⟨hbefore, hordered ra ha rb hb hfalling⟩
  · exact .inr ⟨hbefore, hordered rb hb ra ha hfalling⟩

/-- What moving the named jobs to the front is to do. -/
structure MovesToFront (s : Store) (ids : List String) (s' : Store) : Prop where
  front : ∀ a b rb, s.Named ids a → s.job b = some rb → rb.status.isPending = true →
    ¬ s.Named ids b → s'.Precedes a b
  named : ∀ a b, s.Named ids a → s.Named ids b → (s'.Precedes a b ↔ s.Precedes a b)
  others : ∀ a b, ¬ s.Named ids a → ¬ s.Named ids b → (s'.Precedes a b ↔ s.Precedes a b)
  unchanged : ∀ id r, s.job id = some r → r.status.isPending = false → s'.job id = some r

/-- Named jobs of one rank and one enqueue time were inserted in the order of their ids. -/
def TiesInRowOrder (s : Store) (ids : List String) : Prop :=
  ∀ ra rb, s.Named ids ra.id → s.Named ids rb.id → s.job ra.id = some ra → s.job rb.id = some rb →
    ra.queueRank = rb.queueRank → ra.createdAt = rb.createdAt → ra.id < rb.id →
    s.rowid ra.id < s.rowid rb.id

theorem precedes_of_schedulesBefore (hties : TiesInRowOrder s ids) {ra rb : JobRow}
    (ha : ra ∈ prioritySelection s ids) (hb : rb ∈ prioritySelection s ids) (hne : ra.id ≠ rb.id)
    (h : schedulesBefore ra rb) : s.Precedes ra.id rb.id := by
  obtain ⟨hra, hida, hwaita⟩ := mem_prioritySelection.mp ha
  obtain ⟨hrb, hidb, hwaitb⟩ := mem_prioritySelection.mp hb
  refine ⟨ra, rb, hra, hrb, ?_⟩
  rcases h with hrank | ⟨hrank, hcreated | ⟨hcreated, hid⟩⟩
  · exact .inl hrank
  · exact .inr ⟨hrank, .inl hcreated⟩
  · refine .inr ⟨hrank, .inr ⟨hcreated, ?_⟩⟩
    exact hties ra rb ⟨hida, ra, hra, hwaita⟩ ⟨hidb, rb, hrb, hwaitb⟩ hra hrb hrank hcreated
      (lt_of_le_of_ne hid hne)

theorem named_order_of_ties (hties : TiesInRowOrder s ids) (now : Timestamp) {a b : String}
    (ha : s.Named ids a) (hb : s.Named ids b) :
    (s.commit (prioritizeJobs s ids now)).Precedes a b ↔ s.Precedes a b := by
  by_cases hab : a = b
  · subst hab
    exact iff_of_false (fun h => h.asymm h) (fun h => h.asymm h)
  · obtain ⟨ra, hra, rfl⟩ := mem_selection_of_named ha
    obtain ⟨rb, hrb, rfl⟩ := mem_selection_of_named hb
    rcases selection_ranks now hra hrb fun h => hab (congrArg JobRow.id h) with
      ⟨hbefore, hafter⟩ | ⟨hbefore, hafter⟩
    · exact iff_of_true hafter (precedes_of_schedulesBefore hties hra hrb hab hbefore)
    · exact iff_of_false hafter.asymm
        (precedes_of_schedulesBefore hties hrb hra (Ne.symm hab) hbefore).asymm

/-- The named jobs keep their order only where ties follow the ids. -/
theorem ties_of_named_order {now : Timestamp}
    (h : ∀ a b, s.Named ids a → s.Named ids b →
      ((s.commit (prioritizeJobs s ids now)).Precedes a b ↔ s.Precedes a b)) :
    TiesInRowOrder s ids := by
  intro ra rb ha hb hra hrb hrank hcreated hid
  have hmema : ra ∈ prioritySelection s ids := by
    obtain ⟨hin, r, hr, hpending⟩ := ha
    obtain rfl : ra = r := Option.some.inj (hra.symm.trans hr)
    exact mem_prioritySelection.mpr ⟨hra, hin, hpending⟩
  have hmemb : rb ∈ prioritySelection s ids := by
    obtain ⟨hin, r, hr, hpending⟩ := hb
    obtain rfl : rb = r := Option.some.inj (hrb.symm.trans hr)
    exact mem_prioritySelection.mpr ⟨hrb, hin, hpending⟩
  rcases selection_ranks now hmema hmemb fun h => hid.ne (congrArg JobRow.id h) with
    ⟨-, hafter⟩ | ⟨hbefore, -⟩
  · obtain ⟨ra', rb', hra', hrb', horder⟩ := (h ra.id rb.id ha hb).mp hafter
    obtain rfl : ra = ra' := Option.some.inj (hra.symm.trans hra')
    obtain rfl : rb = rb' := Option.some.inj (hrb.symm.trans hrb')
    rcases horder with hlt | ⟨-, hlt | ⟨-, hrow⟩⟩
    · exact absurd hrank hlt.ne'
    · exact absurd hcreated hlt.ne
    · exact hrow
  · -- The query would have to put the larger id first.
    rcases hbefore with hlt | ⟨-, hlt | ⟨-, hle⟩⟩
    · exact absurd hrank hlt.ne
    · exact absurd hcreated hlt.ne'
    · exact absurd hid hle.not_gt

/-- Prioritizing moves the named pending jobs to the front in their order and leaves the
rest alone exactly when named jobs of one rank and one enqueue time were inserted in the
order of their ids. -/
theorem prioritize_moves_to_front_iff (s : Store) (ids : List String) (now : Timestamp) :
    MovesToFront s ids (s.commit (prioritizeJobs s ids now)) ↔ TiesInRowOrder s ids := by
  constructor
  · exact fun h => ties_of_named_order h.named
  · intro hties
    refine ⟨?_, fun a b => named_order_of_ties hties now, ?_, ?_⟩
    · intro a b rb ha hrb hpending hb
      obtain ⟨ra, hra, rfl⟩ := mem_selection_of_named ha
      obtain ⟨ra', hra', -, htop, -⟩ := (ranked_prioritizeJobs s ids now).row ra hra
      have hrb' := (job_prioritizeJobs_of_not_named now hb).trans hrb
      exact Store.precedes_of_rank hra' hrb' ((queueRank_le_max hrb).trans_lt htop)
    · intro a b ha hb
      exact Store.precedes_congr (job_prioritizeJobs_of_not_named now ha)
        (job_prioritizeJobs_of_not_named now hb) fun _ => rowid_assignRanks
    · intro id r hr hpending
      refine (job_prioritizeJobs_of_not_named now ?_).trans hr
      rintro ⟨-, r', hr', hpending'⟩
      obtain rfl : r = r' := Option.some.inj (hr.symm.trans hr')
      rw [hpending] at hpending'
      cases hpending'

/-- Two jobs of one second, the second with the smaller id: prioritizing both swaps them. -/
theorem prioritize_swaps_same_second_batch :
    let s := exec emptyTables Store.empty
      [.createJob (placeholderRequest none []) "job-b" none none 0,
        .createJob (placeholderRequest none []) "job-a" none none 0]
    ¬ MovesToFront s ["job-b", "job-a"] (s.commit (prioritizeJobs s ["job-b", "job-a"] 1)) := by
  intro s h
  have hbefore : s.Precedes "job-b" "job-a" :=
    ⟨_, _, rfl, rfl, .inr ⟨rfl, .inr ⟨rfl, by decide⟩⟩⟩
  have hafter : (s.commit (prioritizeJobs s ["job-b", "job-a"] 1)).Precedes "job-a" "job-b" :=
    Store.precedes_of_rank rfl rfl (by decide)
  have hnamed := h.named "job-b" "job-a" ⟨by decide, _, rfl, rfl⟩ ⟨by decide, _, rfl, rfl⟩
  exact hafter.asymm (hnamed.mpr hbefore)

end MoveToFront

end SceneWorks.JobsStore
