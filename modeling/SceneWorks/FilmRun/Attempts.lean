import SceneWorks.FilmRun.World
import SceneWorks.Ids

/-!
How a controller works the attempts of a shot: read back what an earlier controller left
unfinished, continue an attempt that is pending, and otherwise write down a new attempt and
only then ask for its job. The job of an attempt is looked up under the attempt's key before
one is created.
-/

namespace SceneWorks
namespace FilmRun

structure Shot where
  id : String
  dialogueClip : Option String
  deriving DecidableEq, Repr

structure SoundEntry where
  role : String
  file : Option String
  text : Option String
  voice : Option String
  model : Option String
  deriving DecidableEq, Repr

/-- A plan that passed its structural checks, with the sound of its reference pack. -/
structure Plan where
  shots : List Shot
  maxAttemptsPerShot : Nat
  maxMemoryGb : Nat
  beds : List String
  sound : List SoundEntry
  digest : String → String
  bounded : maxAttemptsPerShot ≤ maxAttemptNumber
  safe : ∀ shot ∈ shots, Ids.isSafePlanId shot.id = true
  distinct : (shots.map (·.id)).Nodup

theorem one_le_maxAttemptNumber : 1 ≤ maxAttemptNumber := by decide

namespace Plan

def shotIds (plan : Plan) : List String :=
  plan.shots.map (·.id)

end Plan

namespace RunRecord

def modifyShot (record : RunRecord) (i : Nat) (f : ShotRunRecord → ShotRunRecord) : RunRecord :=
  { record with shots := record.shots.modify i f }

def modifyAttempt (record : RunRecord) (i j : Nat) (f : AttemptRecord → AttemptRecord) :
    RunRecord :=
  record.modifyShot i fun shot => { shot with attempts := shot.attempts.modify j f }

end RunRecord

/-- The attempt a shot dispatches next, written down before its job exists. -/
def freshAttempt (runId : String) (shot : ShotRunRecord) (humanRequested : Bool) : AttemptRecord :=
  { attempt := shot.nextAttemptNumber
    idempotencyKey := idempotencyKey runId shot.shotId shot.nextAttemptNumber
    jobId := none
    status := "dispatching"
    take := none
    rejection := none
    humanRequested }

/-- What the job's end makes of attempt `j`. The first usable take of a shot is selected. -/
def settleAttempt (shot : ShotRunRecord) (j : Nat) (status : String) (take : Option TakeRecord) :
    ShotRunRecord :=
  { shot with
    attempts := shot.attempts.modify j fun attempt => { attempt with status, take }
    selectedAttempt :=
      if take.isSome && shot.selectedAttempt.isNone then
        (shot.attempts[j]?).map (·.attempt)
      else
        shot.selectedAttempt }

def adoptJob (id : JobId) (status : String) (attempt : AttemptRecord) : AttemptRecord :=
  { attempt with jobId := some id, status }

/-- What the end of a job nobody was watching makes of attempt `j`. -/
def adoptSettled (shot : ShotRunRecord) (j : Nat) (id : JobId) (status : String)
    (take : Option TakeRecord) : ShotRunRecord :=
  settleAttempt { shot with attempts := shot.attempts.modify j (adoptJob id status) } j status take

def closedOutcome (shot : ShotRunRecord) : ShotOutcome :=
  if shot.selectedAttempt.isSome then
    .rendered
  else
    match shot.attempts.getLast?.map (·.status) with
    | none => .notDispatched
    | some status =>
        if status = "timed_out" then
          .timedOut
        else if status = "canceled" ∨ status = "canceled_by_operator" then
          .canceled
        else
          .failed

namespace Controller

def settledStatus (view : JobView) : PollStop → String
  | .terminal | .assetsUnsettled => view.status
  | .operator => "canceled_by_operator"
  | .shotBudget | .runBudget => "timed_out"

/-- The attempt at a place of the record; there is always one where the source indexes. -/
def attemptAt (i j : Nat) : Controller AttemptRecord := do
  match ((← get).record.shots[i]?).bind fun shot => shot.attempts[j]? with
  | some attempt => return attempt
  | none => throw .died

theorem attemptAt_of_some {i j : Nat} {s : Session} {attempt : AttemptRecord}
    (h : ((s.record.shots[i]?).bind fun shot => shot.attempts[j]?) = some attempt) :
    attemptAt i j s = .ok attempt s := by
  have hgot : attemptAt i j s = (match (s.record.shots[i]?).bind fun shot => shot.attempts[j]? with
      | some attempt => pure attempt
      | none => throw .died : Controller AttemptRecord) s := rfl
  rw [hgot, h]
  rfl

def findShot (shotId : String) : Controller (Option (Nat × ShotRunRecord)) := do
  let shots := (← get).record.shots
  return (shots.findIdx? fun shot => shot.shotId == shotId).bind fun i => (shots[i]?).map (i, ·)

def memoryOverBudget (plan : Plan) (memory : Option Nat) : Controller Bool := do
  if memory.any fun observed => plan.maxMemoryGb < observed then do
    halt .stoppedMemoryLimit "memory_limit" false
    return true
  else
    return false

/-- The job that already is under a key: the recorded one, or one the API holds. -/
def knownJob (jobId : Option JobId) (key : String) : Controller (Option JobId) :=
  match jobId with
  | some id => return some id
  | none => findJobByIdempotencyKey key

/-- Canceled before the dispatch: the attempt stays pending under its own key. -/
def leavePending (i : Nat) : Controller Unit := do
  modifyRecord fun record => record.modifyShot i fun shot => { shot with outcome := .canceled }
  halt .canceled "canceled" true
  persist

/-- A refused enqueue would be refused again, so it ends the attempt. -/
def refuseAttempt (i j : Nat) : Controller Unit := do
  modifyRecord fun record =>
    record.modifyAttempt i j fun attempt => { attempt with status := "rejected" }
  persist
  halt .failed "enqueue_refused" false

/-- The job of an attempt: the recorded one, one already created under its key, or a new one.
`none` means that the attempt ended here without a job. -/
def attemptJob (i j : Nat) : Controller (Option JobId) := do
  let attempt ← attemptAt i j
  match ← knownJob attempt.jobId attempt.idempotencyKey with
  | some id => return some id
  | none =>
      if ← canceled then do
        leavePending i
        return none
      else
        match ← postJob fun _ => .video attempt.idempotencyKey with
        | some id => return some id
        | none => do
            refuseAttempt i j
            return none

/-- Whether the run may dispatch more after an attempt ended as `stop`. -/
def mayKeepDispatching (plan : Plan) (view : JobView) (memory : Option Nat) :
    PollStop → Controller Bool
  | .assetsUnsettled => do
      halt .failed "assets_unsettled" false
      return false
  | .operator => do
      halt .canceled "canceled" true
      return false
  | .runBudget => do
      halt .stoppedRunBudget "run_budget" false
      return false
  | .shotBudget => do
      if view.isTerminal then
        return !(← memoryOverBudget plan memory)
      else do
        halt .failed "cancel_not_honoured" false
        return false
  | .terminal => do
      return !(← memoryOverBudget plan memory)

def workAttempt (plan : Plan) (i j : Nat) : Controller Bool := do
  let _ ← projectId
  match ← attemptJob i j with
  | none => return false
  | some id => do
      modifyRecord fun record => record.modifyAttempt i j (adoptJob id "running")
      persist
      let (view, stop) ← waitForJob id
      let memory ← jobMetrics
      let take :=
        if stop = .terminal ∧ view.status = "completed" then takeFromResult view.result else none
      modifyRecord fun record =>
        record.modifyShot i fun shot => settleAttempt shot j (settledStatus view stop) take
      persist
      mayKeepDispatching plan view memory stop

/-- Read one unfinished attempt back from the API; nothing here creates a job. -/
def reconcileAttempt (plan : Plan) (i j : Nat) : Controller Unit := do
  let attempt ← attemptAt i j
  match ← knownJob attempt.jobId attempt.idempotencyKey with
  | none => return ()
  | some id => do
      let view ← getJob id
      if view.isTerminal && view.isSettled then do
        let memory ← jobMetrics
        let take := if view.status = "completed" then takeFromResult view.result else none
        modifyRecord fun record =>
          record.modifyShot i fun shot => adoptSettled shot j id view.status take
        persist
        let _ ← memoryOverBudget plan memory
        return ()
      else do
        modifyRecord fun record => record.modifyAttempt i j (adoptJob id "running")
        persist

def reconcileShot (plan : Plan) (shotId : String) : Controller Unit := do
  let _ ← projectId
  match ← findShot shotId with
  | none => return ()
  | some (i, shot) =>
      ((List.range shot.attempts.length).filter fun j =>
        (shot.attempts[j]?).any (·.isUnfinished)).forM (reconcileAttempt plan i)

def recordAttempt (i : Nat) (humanRequested : Bool) : Controller Unit :=
  modifyRecord fun record =>
    record.modifyShot i fun shot =>
      { shot with attempts := shot.attempts ++ [freshAttempt record.runId shot humanRequested] }

/-- Whether one more automatic attempt may be dispatched now. -/
def mayDispatch (plan : Plan) (shot : ShotRunRecord) : Controller Bool := do
  if plan.maxAttemptsPerShot ≤ shot.automaticAttempts then
    return false
  else if ← canceled then do
    halt .canceled "canceled" true
    return false
  else if (← get).runDeadline then do
    if ← deadlinePassed then do
      halt .stoppedRunBudget "run_budget" false
      return false
    else
      return true
  else
    return true

def continueShot (plan : Plan) (i : Nat) (shot : ShotRunRecord) : Controller Bool := do
  if shot.selectedAttempt.isSome then
    return false
  else if (← get).stop.isSome then
    return false
  else
    -- an attempt an earlier controller recorded is continued, not replaced
    match shot.attempts.findIdx? fun attempt => !attempt.isTerminal with
    | some j => workAttempt plan i j
    | none => do
        if ← mayDispatch plan shot then do
          recordAttempt i false
          persist
          workAttempt plan i shot.attempts.length
        else
          return false

def workShotFrom (plan : Plan) (shotId : String) : Nat → Controller Unit
  | 0 => throw .died
  | fuel + 1 => do
      match ← findShot shotId with
      | none => return ()
      | some (i, shot) => do
          if ← continueShot plan i shot then workShotFrom plan shotId fuel else return ()

/-- One shot: adopt what the API already holds for it, then dispatch what is still owed. -/
def workShot (plan : Plan) (shotId : String) : Controller Unit := do
  reconcileShot plan shotId
  workShotFrom plan shotId ((← get).script.length + 1)
  match ← findShot shotId with
  | none => return ()
  | some (i, _) =>
      modifyRecord fun record =>
        record.modifyShot i fun shot => { shot with outcome := closedOutcome shot }

end Controller
end FilmRun
end SceneWorks
