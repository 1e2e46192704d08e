import SceneWorks.JobsStore.Steps

/-!
Terminal rows are absorbing. A step keeps the outcome of a finished job or removes
the row by retention; a run therefore keeps the outcome until the purge that removes
the row, whatever else it does in between.
-/

namespace SceneWorks.JobsStore

structure SameOutcome (r r' : JobRow) : Prop where
  status : r'.status = r.status
  stage : r'.stage = r.stage
  payload : r'.payload = r.payload
  error : r'.error = r.error
  progress : r'.progress = r.progress
  completedAt : r'.completedAt = r.completedAt
  canceledAt : r'.canceledAt = r.canceledAt
  attempts : r'.attempts = r.attempts

theorem SameOutcome.refl (r : JobRow) : SameOutcome r r :=
  ⟨rfl, rfl, rfl, rfl, rfl, rfl, rfl, rfl⟩

theorem SameOutcome.trans {r r' r'' : JobRow} (h : SameOutcome r r') (h' : SameOutcome r' r'') :
    SameOutcome r r'' where
  status := h'.status.trans h.status
  stage := h'.stage.trans h.stage
  payload := h'.payload.trans h.payload
  error := h'.error.trans h.error
  progress := h'.progress.trans h.progress
  completedAt := h'.completedAt.trans h.completedAt
  canceledAt := h'.canceledAt.trans h.canceledAt
  attempts := h'.attempts.trans h.attempts

theorem SameCore.sameOutcome {r r' : JobRow} (h : SameCore r r') : SameOutcome r r' := by
  unfold SameCore at h
  rw [h]
  exact ⟨rfl, rfl, rfl, rfl, rfl, rfl, rfl, rfl⟩

section Step

variable {policy : RoutingPolicy} {s : Store} {op : Op}

theorem not_isTerminal_of_isPending {status : JobStatus} (h : status.isPending = true) :
    ¬ status.isTerminal = true := by
  intro hterminal
  rw [JobStatus.isPending_eq_false_of_isTerminal hterminal] at h
  cases h

/-- Every rewrite that needs a live row is ruled out; the others keep the outcome. -/
theorem JobStep.sameOutcome {r r' : JobRow} (h : JobStep policy s op r r')
    (hterminal : r.status.isTerminal = true) : SameOutcome r r' := by
  cases h with
  | bookkept hcore => exact hcore.sameOutcome
  | backfilled hop => exact ⟨rfl, rfl, rfl, rfl, rfl, rfl, rfl, rfl⟩
  | queuedCaption now hop h | promotedCaption payload now hop h =>
      exact absurd hterminal (not_isTerminal_of_isPending (by rw [h]; rfl))
  | rewroteWorkflow payload now hop h | queuedWorkflow now hop h
  | promotedWorkflow payload now hop h =>
      exact absurd hterminal (not_isTerminal_of_isPending (by rw [h]; rfl))
  | ended h h' hid => simp [h] at hterminal
  | claimed workerId mlxRequired now worker hop hworker hselected =>
      obtain ⟨-, hqueued, -⟩ := selectedJob_spec hselected
      exact absurd hterminal (not_isTerminal_of_isPending (by rw [hqueued]; rfl))
  | progressed update track now checked hop hcheck hlive howner => simp [hlive] at hterminal
  | deferred now hop h => exact ⟨rfl, rfl, rfl, rfl, rfl, rfl, rfl, rfl⟩
  | resultReplaced workerId status expected result clear now hop hcas =>
      exact ⟨rfl, rfl, rfl, rfl, rfl, rfl, rfl, rfl⟩

end Step

section Run

variable (policy : RoutingPolicy)

def KeepsOutcome (s : Store) (id : String) (r : JobRow) : Prop :=
  ∃ r', s.job id = some r' ∧ SameOutcome r r'

/-- The operation is a purge, and the row was old enough for it. -/
def PurgedBy (s : Store) (op : Op) (id : String) : Prop :=
  (step policy s op).job id = none ∧
    ∃ cutoff, op.purgeCutoff = some cutoff ∧ (s.job id).any (purgeable cutoff) = true

theorem step_terminal {s : Store} {id : String} {r : JobRow} (op : Op) (hjob : s.job id = some r)
    (hterminal : r.status.isTerminal = true) :
    KeepsOutcome (step policy s op) id r ∨ PurgedBy policy s op id := by
  have hmove : JobMove policy s op (s.job id) ((step policy s op).job id) := step_job s op id
  rw [hjob] at hmove
  generalize hafter : (step policy s op).job id = after at hmove
  cases hmove with
  | moved h => exact .inl ⟨_, hafter, h.sameOutcome hterminal⟩
  | purged cutoff hop h => exact .inr ⟨hafter, cutoff, hop, by simpa [hjob] using h⟩

/-- A finished job keeps its outcome along a run, up to the purge that removes it. -/
theorem exec_terminal {s : Store} {id : String} {r : JobRow} (ops : List Op)
    (hjob : s.job id = some r) (hterminal : r.status.isTerminal = true) :
    KeepsOutcome (exec policy s ops) id r ∨
      ∃ front op back, ops = front ++ op :: back ∧
        PurgedBy policy (exec policy s front) op id := by
  induction ops generalizing s r with
  | nil => exact .inl ⟨r, hjob, .refl r⟩
  | cons op ops ih =>
      obtain ⟨r', hjob', hsame⟩ | hpurged := step_terminal policy op hjob hterminal
      · have hterminal' : r'.status.isTerminal = true := by rw [hsame.status, hterminal]
        obtain ⟨r'', hjob'', hsame'⟩ | ⟨front, op', back, hops, hpurged⟩ := ih hjob' hterminal'
        · exact .inl ⟨r'', hjob'', hsame.trans hsame'⟩
        · exact .inr ⟨op :: front, op', back, by rw [hops]; rfl, hpurged⟩
      · exact .inr ⟨[], op, ops, rfl, hpurged⟩

/-- One operation on any state keeps the outcome of a finished job or purges its row,
and so does any run: until a purge takes the row it is neither pending nor active. -/
theorem terminal_rows_absorbing (s : Store) (id : String) (r : JobRow)
    (hjob : s.job id = some r) (hterminal : r.status.isTerminal = true) :
    (∀ op, KeepsOutcome (step policy s op) id r ∨ PurgedBy policy s op id) ∧
      ∀ ops,
        (∃ r', (exec policy s ops).job id = some r' ∧ SameOutcome r r' ∧
          r'.status.isPending = false ∧ r'.status.isActive = false) ∨
        ∃ front op back, ops = front ++ op :: back ∧
          PurgedBy policy (exec policy s front) op id := by
  refine ⟨fun op => step_terminal policy op hjob hterminal, fun ops => ?_⟩
  obtain ⟨r', hjob', hsame⟩ | hpurged := exec_terminal policy ops hjob hterminal
  · have hterminal' : r'.status.isTerminal = true := by rw [hsame.status, hterminal]
    exact .inl ⟨r', hjob', hsame, JobStatus.isPending_eq_false_of_isTerminal hterminal',
      JobStatus.isActive_eq_false_of_isTerminal hterminal'⟩
  · exact .inr hpurged

theorem canceled_row_stays_canceled :
    let s := exec emptyTables Store.empty
      [.createJob (placeholderRequest none []) "job" none none 0, .cancelJob "job" 1]
    ∃ r, s.job "job" = some r ∧ r.status = .canceled ∧
      ((∀ op, KeepsOutcome (step emptyTables s op) "job" r ∨ PurgedBy emptyTables s op "job") ∧
        ∀ ops,
          (∃ r', (exec emptyTables s ops).job "job" = some r' ∧ SameOutcome r r' ∧
            r'.status.isPending = false ∧ r'.status.isActive = false) ∨
          ∃ front op back, ops = front ++ op :: back ∧
            PurgedBy emptyTables (exec emptyTables s front) op "job") :=
  ⟨_, rfl, rfl, terminal_rows_absorbing emptyTables _ _ _ rfl rfl⟩

end Run

end SceneWorks.JobsStore
