import SceneWorks.FilmRun.Dispatch

/-!
Every part of a controller keeps the dispatch invariant: watching and settling an attempt,
reading back what an earlier controller left, working a shot under the cap, speaking lines,
assembling and exporting, and settling what a cancel leaves.
-/

namespace SceneWorks
namespace FilmRun

open Crash ShotRunRecord Controller

variable {plan : Plan} {runId : String} {start : List ShotRunRecord}

theorem keeps_memoryOverBudget (P : RunRecord → Prop) (memory : Option Nat) :
    Keeps (With (Held plan runId start) P) (Loose plan runId start)
      (memoryOverBudget plan memory) :=
  Keeps.ite (Keeps.bind (keeps_halt _ _ _ _) fun _ => Keeps.pure _) (Keeps.pure _)

theorem keeps_memoryOverBudgetHeld (memory : Option Nat) :
    Keeps (Held plan runId start) (Loose plan runId start) (memoryOverBudget plan memory) :=
  Keeps.ite (Keeps.bind (keeps_haltHeld _ _ _) fun _ => Keeps.pure _) (Keeps.pure _)

theorem keeps_mayKeepDispatching (view : JobView) (memory : Option Nat) (stop : PollStop) :
    Keeps (Held plan runId start) (Loose plan runId start)
      (mayKeepDispatching plan view memory stop) := by
  cases stop with
  | terminal => exact Keeps.bind (keeps_memoryOverBudgetHeld memory) fun _ => Keeps.pure _
  | shotBudget =>
      apply Keeps.ite
      · exact Keeps.bind (keeps_memoryOverBudgetHeld memory) fun _ => Keeps.pure _
      · exact Keeps.bind (keeps_haltHeld _ _ _) fun _ => Keeps.pure _
  | runBudget | operator | assetsUnsettled =>
      exact Keeps.bind (keeps_haltHeld _ _ _) fun _ => Keeps.pure _

/-- Settling an unfinished attempt: a take makes it completed, and is selected only when
nothing was. -/
theorem shotStep_settleAttempt {cap : Nat} {shot : ShotRunRecord} {j : Nat}
    {attempt : AttemptRecord} (hattempt : shot.attempts[j]? = some attempt)
    (hopen : attempt.isUnfinished = true) {status : String} {take : Option TakeRecord}
    (htake : take.isSome → status = "completed") :
    ShotStep runId cap shot (settleAttempt shot j status take) := by
  simp only [settleAttempt, modify_of_getElem? hattempt]
  refine .rewrite shot j attempt { attempt with status, take } _ hattempt hopen
    ⟨rfl, rfl, rfl, rfl⟩ htake ?_
  cases hselect : take.isSome && shot.selectedAttempt.isNone with
  | false => exact .inl rfl
  | true =>
      obtain ⟨hsome, hnone⟩ := Bool.and_eq_true_iff.mp hselect
      exact .inr ⟨Option.isNone_iff_eq_none.mp hnone, hsome, by simp [hattempt]⟩

theorem shotStep_adoptSettled {cap : Nat} {shot : ShotRunRecord} {j : Nat}
    {attempt : AttemptRecord} (hattempt : shot.attempts[j]? = some attempt)
    (hopen : attempt.isUnfinished = true) (id : JobId) {status : String}
    {take : Option TakeRecord} (htake : take.isSome → status = "completed") :
    ShotStep runId cap shot (adoptSettled shot j id status take) := by
  have hj : j < shot.attempts.length := (List.getElem?_eq_some_iff.mp hattempt).1
  have hset : (shot.attempts.set j (adoptJob id status attempt))[j]? =
      some (adoptJob id status attempt) := by simp [hj]
  simp only [adoptSettled, settleAttempt, modify_of_getElem? hattempt, modify_of_getElem? hset,
    List.set_set, hset, Option.map_some]
  refine .rewrite shot j attempt { adoptJob id status attempt with status, take } _ hattempt hopen
    ⟨rfl, rfl, rfl, rfl⟩ htake ?_
  cases hselect : take.isSome && shot.selectedAttempt.isNone with
  | false => exact .inl rfl
  | true =>
      obtain ⟨hsome, hnone⟩ := Bool.and_eq_true_iff.mp hselect
      exact .inr ⟨Option.isNone_iff_eq_none.mp hnone, hsome, rfl⟩

theorem map_attempt_settleAttempt (shot : ShotRunRecord) (j : Nat) (status : String)
    (take : Option TakeRecord) :
    (settleAttempt shot j status take).attempts.map (·.attempt) = shot.attempts.map (·.attempt) :=
  map_attempt_modify fun _ => rfl

theorem Held.settled {s : Session} (h : Held plan runId start s) {i j : Nat}
    (hopen : ∃ attempt, At i j attempt s.record ∧ attempt.isUnfinished = true) {status : String}
    {take : Option TakeRecord} (htake : take.isSome → status = "completed") :
    Held plan runId start
      { s with record := s.record.modifyShot i fun shot => settleAttempt shot j status take } := by
  apply h.modifyShot
  intro shot hi
  obtain ⟨attempt, ⟨shot', hi', hattempt⟩, hunfinished⟩ := hopen
  obtain rfl := Option.some.inj (hi.symm.trans hi')
  exact ⟨Relation.ReflTransGen.single (shotStep_settleAttempt hattempt hunfinished htake),
    map_attempt_settleAttempt shot j status take⟩

theorem modifyAttempt_at {record : RunRecord} {i j : Nat} {attempt : AttemptRecord}
    (h : At i j attempt record) (f : AttemptRecord → AttemptRecord) :
    At i j (f attempt) (record.modifyAttempt i j f) := by
  obtain ⟨shot, hi, hattempt⟩ := h
  exact ⟨{ shot with attempts := shot.attempts.modify j f },
    by simp [RunRecord.modifyAttempt, RunRecord.modifyShot, hi], by simp [hattempt]⟩

theorem isTerminal_running (id : JobId) (attempt : AttemptRecord) :
    (adoptJob id "running" attempt).isTerminal = false := by
  simp [AttemptRecord.isTerminal, adoptJob, terminalAttemptStatuses]

/-- Adopting the job of an attempt in flight leaves it in flight. -/
theorem Held.adopted {s : Session} (h : Held plan runId start s) {i j : Nat}
    (hopen : ∃ attempt, At i j attempt s.record ∧ attempt.isUnfinished = true) (id : JobId) :
    With (Held plan runId start) (InFlight i j)
      { s with record := s.record.modifyAttempt i j (adoptJob id "running") } := by
  obtain ⟨attempt, hat, hunfinished⟩ := hopen
  constructor
  · refine h.modifyAttempt ⟨attempt, hat, hunfinished⟩ (fun _ => ⟨rfl, rfl, rfl, rfl⟩) ?_
    intro other hother htake
    have hsame : other = attempt := At.unique hother hat
    simp [adoptJob, hsame, h.no_take hat hunfinished] at htake
  · exact ⟨adoptJob id "running" attempt, modifyAttempt_at hat _, isTerminal_running id attempt⟩

/-- Attempt `j` of the shot at place `i` is one a controller reads back. -/
def Unfinished (i j : Nat) (record : RunRecord) : Prop :=
  ∃ attempt, At i j attempt record ∧ attempt.isUnfinished = true

theorem InFlight.unfinished {i j : Nat} {record : RunRecord} (h : InFlight i j record) :
    Unfinished i j record :=
  let ⟨attempt, hat, hterminal⟩ := h
  ⟨attempt, hat, unfinished_of_inFlight hterminal⟩

/-- Bringing an attempt in flight to its end. -/
theorem triple_workAttempt (i j : Nat) :
    Triple (With (Held plan runId start) (InFlight i j)) (workAttempt plan i j)
      (fun _ => Held plan runId start) (fun _ => Loose plan runId start) := by
  apply Triple.bind _ (Quiet.keeps quiet_projectId _)
  intro _
  apply Triple.bind _ (triple_attemptJob i j)
  intro found
  cases found with
  | none => exact triple_pure fun s hs => hs.1
  | some id =>
      apply Triple.bind fun _ => With (Held plan runId start) (InFlight i j)
      · exact triple_modify fun s hs => hs.1.adopted (hs.2 rfl).unfinished id
      · intro _
        apply Triple.bind _ (keeps_persist _)
        intro _
        apply Triple.bind _ (Quiet.keeps (quiet_waitForJob id) _)
        intro ⟨view, stop⟩
        apply Triple.bind _ (Quiet.keeps quiet_jobMetrics _)
        intro memory
        apply Triple.bind fun _ => Held plan runId start
        · apply triple_modify
          intro s hs
          apply hs.1.settled hs.2.unfinished
          intro htake
          by_cases hdone : stop = .terminal ∧ view.status = "completed"
          · rw [hdone.1]
            exact hdone.2
          · rw [if_neg hdone] at htake
            cases htake
        · intro _
          exact Keeps.bind keeps_persistHeld fun _ => keeps_mayKeepDispatching view memory stop

/-- Writing into attempt `j` leaves the other attempts of its shot as they are. -/
theorem Unfinished.frame {i k : Nat} {record : RunRecord} (h : Unfinished i k record)
    {f : ShotRunRecord → ShotRunRecord} (hf : ∀ shot, (f shot).attempts[k]? = shot.attempts[k]?) :
    Unfinished i k (record.modifyShot i f) := by
  obtain ⟨attempt, ⟨shot, hi, hattempt⟩, hopen⟩ := h
  exact ⟨attempt, ⟨f shot, by simp [RunRecord.modifyShot, hi], (hf shot).trans hattempt⟩, hopen⟩

theorem getElem?_modify_of_ne {attempts : List AttemptRecord} {j k : Nat} (hjk : j ≠ k)
    (f : AttemptRecord → AttemptRecord) : (attempts.modify j f)[k]? = attempts[k]? := by
  simp [hjk]

theorem Held.settledUnwatched {s : Session} (h : Held plan runId start s) {i j : Nat}
    (hopen : Unfinished i j s.record) (id : JobId) {status : String} {take : Option TakeRecord}
    (htake : take.isSome → status = "completed") :
    Held plan runId start
      { s with record := s.record.modifyShot i fun shot =>
        adoptSettled shot j id status take } := by
  apply h.modifyShot
  intro shot hi
  obtain ⟨attempt, ⟨shot', hi', hattempt⟩, hunfinished⟩ := hopen
  obtain rfl := Option.some.inj (hi.symm.trans hi')
  have hnumbers : (adoptSettled shot j id status take).attempts.map (·.attempt) =
      shot.attempts.map (·.attempt) := by
    rw [adoptSettled, map_attempt_settleAttempt]
    exact map_attempt_modify fun _ => rfl
  exact ⟨Relation.ReflTransGen.single (shotStep_adoptSettled hattempt hunfinished id htake),
    hnumbers⟩

theorem triple_reconcileAttempt {i j : Nat} {rest : List Nat} (hj : j ∉ rest) :
    Triple (With (Held plan runId start) fun record => ∀ k ∈ j :: rest, Unfinished i k record)
      (reconcileAttempt plan i j)
      (fun _ => With (Held plan runId start) fun record => ∀ k ∈ rest, Unfinished i k record)
      (fun _ => Loose plan runId start) := by
  have hrest : ∀ {record : RunRecord} {f : ShotRunRecord → ShotRunRecord},
      (∀ k shot, j ≠ k → (f shot).attempts[k]? = shot.attempts[k]?) →
      (∀ k ∈ j :: rest, Unfinished i k record) →
      ∀ k ∈ rest, Unfinished i k (record.modifyShot i f) := by
    intro record f hf h k hk
    have hjk : j ≠ k := fun hjk => hj (hjk ▸ hk)
    exact (h k (List.mem_cons_of_mem j hk)).frame fun shot => hf k shot hjk
  apply Triple.bind _ (triple_attemptAt _ i j)
  intro attempt
  apply Triple.bind _ (Quiet.keeps (quiet_knownJob attempt.jobId attempt.idempotencyKey) _)
  intro found
  cases found with
  | none =>
      exact triple_pure fun s hs => ⟨hs.1, fun k hk => hs.2.1 k (List.mem_cons_of_mem j hk)⟩
  | some id =>
      apply Triple.bind _ (Quiet.keeps (quiet_getJob id) _)
      intro view
      apply Triple.ite
      · intro _
        apply Triple.bind _ (Quiet.keeps quiet_jobMetrics _)
        intro memory
        apply Triple.bind fun _ => With (Held plan runId start) fun record =>
          ∀ k ∈ rest, Unfinished i k record
        · apply triple_modify
          intro s hs
          refine ⟨hs.1.settledUnwatched (hs.2.1 j List.mem_cons_self) id ?_, ?_⟩
          · intro htake
            by_cases hdone : view.status = "completed"
            · exact hdone
            · simp [hdone] at htake
          · refine hrest ?_ hs.2.1
            intro k shot hjk
            simp [adoptSettled, settleAttempt, getElem?_modify_of_ne hjk]
        · intro _
          apply Triple.bind _ (keeps_persist _)
          intro _
          apply Triple.bind _ (keeps_memoryOverBudget _ memory)
          exact fun _ => Keeps.pure _
      · intro _
        apply Triple.bind fun _ => With (Held plan runId start) fun record =>
          ∀ k ∈ rest, Unfinished i k record
        · apply triple_modify
          intro s hs
          refine ⟨(hs.1.adopted (hs.2.1 j List.mem_cons_self) id).1, ?_⟩
          exact hrest (fun k shot hjk => getElem?_modify_of_ne hjk _) hs.2.1
        · intro _
          exact keeps_persist _

theorem triple_reconcileAll {i : Nat} {l : List Nat} (hl : l.Nodup) :
    Triple (With (Held plan runId start) fun record => ∀ k ∈ l, Unfinished i k record)
      (l.forM (reconcileAttempt plan i)) (fun _ => Held plan runId start)
      (fun _ => Loose plan runId start) := by
  induction l with
  | nil => exact triple_pure fun s hs => hs.1
  | cons j rest ih =>
      rw [List.nodup_cons] at hl
      show Triple _ (reconcileAttempt plan i j >>= fun _ => rest.forM (reconcileAttempt plan i)) _ _
      apply Triple.bind _ (triple_reconcileAttempt hl.1)
      exact fun _ => ih hl.2

/-- Where a shot's record is found, and that it is that record. -/
theorem triple_findShot (P : RunRecord → Prop) (shotId : String) :
    Triple (With (Held plan runId start) P) (findShot shotId)
      (fun found => With (Held plan runId start) fun record =>
        P record ∧ ∀ i shot, found = some (i, shot) → record.shots[i]? = some shot)
      (fun _ => Loose plan runId start) := by
  apply Triple.bind fun s' s => With (Held plan runId start) P s ∧ s' = s
  · exact triple_get fun s hs => ⟨hs, rfl⟩
  · intro s'
    apply triple_pure
    intro s ⟨hs, hsame⟩
    subst hsame
    refine ⟨hs.1, hs.2, ?_⟩
    intro i shot hfound
    obtain ⟨k, -, hk⟩ := Option.bind_eq_some_iff.mp hfound
    obtain ⟨found, hshot, hpair⟩ := Option.map_eq_some_iff.mp hk
    obtain ⟨rfl, rfl⟩ := Prod.mk.inj hpair
    exact hshot

theorem keeps_reconcileShot (shotId : String) :
    Keeps (Held plan runId start) (Loose plan runId start) (reconcileShot plan shotId) := by
  apply Keeps.bind (Quiet.keepsHeld quiet_projectId)
  intro _
  apply Triple.bind _ ((triple_findShot (fun _ => True) shotId).mono fun s hs => ⟨hs, trivial⟩)
  intro found
  cases found with
  | none => exact triple_pure fun s hs => hs.1
  | some found =>
      obtain ⟨i, shot⟩ := found
      apply (triple_reconcileAll (List.nodup_range.filter _)).mono
      intro s hs
      have hi := hs.2.2 i shot rfl
      refine ⟨hs.1, fun j hj => ?_⟩
      obtain ⟨attempt, hattempt, hopen⟩ : ∃ attempt, shot.attempts[j]? = some attempt ∧
          attempt.isUnfinished = true := by
        have hfilter := (List.mem_filter.mp hj).2
        rwa [Option.any_eq_true] at hfilter
      exact ⟨attempt, ⟨shot, hi, hattempt⟩, hopen⟩

/-- The record of a shot that is being looked at. -/
abbrev ShotAt (i : Nat) (shot : ShotRunRecord) (record : RunRecord) : Prop :=
  record.shots[i]? = some shot

theorem triple_mayDispatch (P : RunRecord → Prop) (shot : ShotRunRecord) :
    Triple (With (Held plan runId start) P) (mayDispatch plan shot)
      (fun may => With (Held plan runId start) fun record =>
        P record ∧ (may = true → shot.automaticAttempts < plan.maxAttemptsPerShot))
      (fun _ => Loose plan runId start) := by
  apply Triple.ite
  · exact fun _ => triple_pure fun s hs => ⟨hs.1, hs.2, by simp⟩
  · intro hroom
    apply Triple.bind _ (Quiet.keeps quiet_canceled P)
    intro isCanceled
    apply Triple.ite
    · intro _
      apply Triple.bind _ (keeps_halt P _ _ _)
      exact fun _ => triple_pure fun s hs => ⟨hs.1, hs.2, by simp⟩
    · intro _
      apply Triple.bind _ (Quiet.keeps Quiet.get P)
      intro s'
      apply Triple.ite
      · intro _
        apply Triple.bind _ (Quiet.keeps quiet_deadlinePassed P)
        intro passed
        apply Triple.ite
        · intro _
          apply Triple.bind _ (keeps_halt P _ _ _)
          exact fun _ => triple_pure fun s hs => ⟨hs.1, hs.2, by simp⟩
        · exact fun _ => triple_pure fun s hs => ⟨hs.1, hs.2, fun _ => Nat.lt_of_not_le hroom⟩
      · exact fun _ => triple_pure fun s hs => ⟨hs.1, hs.2, fun _ => Nat.lt_of_not_le hroom⟩

/-- An attempt is written down while it is in memory only; it is in flight from then on. -/
theorem triple_recordAttempt {i : Nat} {shot : ShotRunRecord}
    (hroom : shot.automaticAttempts < plan.maxAttemptsPerShot) :
    Triple (With (Held plan runId start) (ShotAt i shot)) (recordAttempt i false)
      (fun _ => With (Loose plan runId start) (InFlight i shot.attempts.length))
      (fun _ => Loose plan runId start) := by
  apply triple_modify
  intro s ⟨hs, hi⟩
  obtain ⟨saved, htracked, -⟩ := hs
  constructor
  · refine Loose.modifyShot ⟨saved, htracked⟩ fun shot' hi' => ?_
    obtain rfl := Option.some.inj (hi.symm.trans hi')
    rw [htracked.memoryRun]
    exact Relation.ReflTransGen.single (.dispatch shot hroom)
  · refine ⟨freshAttempt s.record.runId shot false, ⟨{ shot with
        attempts := shot.attempts ++ [freshAttempt s.record.runId shot false] }, ?_, ?_⟩, ?_⟩
    · simp [RunRecord.modifyShot, show s.record.shots[i]? = some shot from hi]
    · simp
    · simp [AttemptRecord.isTerminal, freshAttempt, terminalAttemptStatuses]

theorem triple_continueShot {i : Nat} {shot : ShotRunRecord} :
    Triple (With (Held plan runId start) (ShotAt i shot)) (continueShot plan i shot)
      (fun _ => Held plan runId start) (fun _ => Loose plan runId start) := by
  apply Triple.ite
  · exact fun _ => triple_pure fun s hs => hs.1
  · intro _
    apply Triple.bind _ (Quiet.keeps Quiet.get _)
    intro s'
    apply Triple.ite
    · exact fun _ => triple_pure fun s hs => hs.1
    · intro _
      cases hpending : shot.attempts.findIdx? fun attempt => !attempt.isTerminal with
      | some j =>
          obtain ⟨hj, hterminal, -⟩ := List.findIdx?_eq_some_iff_getElem.mp hpending
          apply (triple_workAttempt i j).mono
          intro s hs
          exact ⟨hs.1, shot.attempts[j], ⟨shot, hs.2, List.getElem?_eq_getElem hj⟩,
            by simpa using hterminal⟩
      | none =>
          apply Triple.bind _ (triple_mayDispatch _ shot)
          intro may
          apply Triple.ite
          · intro hmay
            by_cases hroom : shot.automaticAttempts < plan.maxAttemptsPerShot
            · apply Triple.bind _ ((triple_recordAttempt hroom).mono fun s hs => ⟨hs.1, hs.2.1⟩)
              intro _
              apply Triple.bind _ (triple_persist _)
              exact fun _ => triple_workAttempt i shot.attempts.length
            · intro s hs
              exact absurd (hs.2.2 hmay) hroom
          · exact fun _ => triple_pure fun s hs => hs.1

theorem keeps_workShotFrom (shotId : String) (fuel : Nat) :
    Keeps (Held plan runId start) (Loose plan runId start) (workShotFrom plan shotId fuel) := by
  induction fuel with
  | zero => exact Keeps.throw (fun _ hs => hs.loose) _
  | succ fuel ih =>
      apply Triple.bind _ ((triple_findShot (fun _ => True) shotId).mono fun s hs => ⟨hs, trivial⟩)
      intro found
      cases found with
      | none => exact triple_pure fun s hs => hs.1
      | some found =>
          obtain ⟨i, shot⟩ := found
          apply Triple.bind _ (triple_continueShot.mono fun s hs => ⟨hs.1, hs.2.2 i shot rfl⟩)
          intro progressed
          exact Keeps.ite ih (Keeps.pure _)

theorem keeps_judge (i : Nat) (outcome : ShotRunRecord → ShotOutcome) :
    Keeps (Held plan runId start) (Loose plan runId start)
      (modifyRecord fun record =>
        record.modifyShot i fun shot => { shot with outcome := outcome shot }) := by
  apply Crash.Keeps.modify
  intro s hs
  exact hs.modifyShot fun shot _ => ⟨Relation.ReflTransGen.single (.judge shot _), rfl⟩

theorem keeps_workShot (shotId : String) :
    Keeps (Held plan runId start) (Loose plan runId start) (workShot plan shotId) := by
  apply Keeps.bind (keeps_reconcileShot shotId)
  intro _
  apply Keeps.bind (Quiet.keepsHeld Quiet.get)
  intro s'
  apply Keeps.bind (keeps_workShotFrom shotId _)
  intro _
  apply Keeps.bind (Quiet.keepsHeld (quiet_findShot shotId))
  intro found
  cases found with
  | none => exact Keeps.pure _
  | some found =>
      obtain ⟨i, shot⟩ := found
      exact keeps_judge i closedOutcome

end FilmRun
end SceneWorks
