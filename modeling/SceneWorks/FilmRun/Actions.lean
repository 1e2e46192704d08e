import SceneWorks.FilmRun.Export

/-!
The three things that may be asked of a run: start it, resume it, replace the take of one of
its shots. Each is one controller, from the record it reads to the verdict it writes; a
replacement that was not finished is recovered by the next resume. A directory of a run then
goes through a sequence of such invocations, each with its own script.
-/

namespace SceneWorks
namespace FilmRun
namespace Controller

def classify (record : RunRecord) (stop : Option (RunOutcome × RunStop)) (exportOk : Bool) :
    RunOutcome × Option RunStop :=
  match stop with
  | some (outcome, stop) => (outcome, some stop)
  | none =>
      if record.allRendered && exportOk then
        (.completed, none)
      else if record.allRendered then
        (.failed, some { reason := "export_failed", resumable := true })
      else
        (.failed, some { reason := "attempts_exhausted", resumable := false })

/-- Write a verdict: the run is finished, and no stop of this controller is left over. -/
def close (verdict : RunOutcome × Option RunStop) : Controller Unit := do
  modifyRecord fun record =>
    { record with outcome := verdict.1, stop := verdict.2, state := .finished }
  persist

def finish (exportOk : Bool) : Controller Unit := do
  let s ← get
  modify fun s => { s with stop := none }
  close (classify s.record s.stop exportOk)

/-- Whether the export that failed is still owed: this replacement was not to redo it. -/
def exportStillOwed (exporting : Bool) (prior : Option RunStop) : Bool :=
  !exporting && prior.any fun stop => stop.resumable && stop.reason == "export_failed"

/-- Close a replacement, which decides one shot and leaves the run's own verdict alone. -/
def finishReplacement (exportOk : Bool) (shotId : String) (prior : RunOutcome × Option RunStop) :
    Controller Unit := do
  let s ← get
  let succeeded :=
    (s.record.shots.find? fun shot => shot.shotId == shotId).any (·.selectedAttempt.isSome)
  match prior with
  | (outcome, some stop) =>
      if !stop.resumable && succeeded && s.stop.isNone then
        close (outcome, some stop)
      else if stop.resumable &&
          (!(s.record.outstanding shotId).isEmpty ||
            exportStillOwed s.exporting (some stop)) then do
        modify fun s => { s with stop := none }
        close (outcome, some stop)
      else
        finish exportOk
  | (.completed, none) =>
      if succeeded && s.stop.isNone then
        if exportOk then
          close (.completed, none)
        else
          close (.failed, some { reason := "export_failed", resumable := true })
      else
        finish exportOk
  | _ => finish exportOk

def orderedShots (plan : Plan) (shots : List ShotRunRecord) : List ShotRunRecord :=
  plan.shots.map fun shot =>
    (shots.find? fun record => record.shotId == shot.id).getD (ShotRunRecord.fresh shot.id)

/-- The project of this run's name is looked for before one is created. -/
def obtainProject : Controller Unit := do
  expectOk
  if ← present then return () else expectOk

def ensureProject : Controller Unit := do
  match (← get).record.projectId with
  | some _ => do
      expectOk
      persist
  | none => do
      obtainProject
      modifyRecord fun record => { record with projectId := some record.runId }
      persist

def ensureReferences : Controller Unit := do
  let _ ← projectId
  expectOk
  persist

def workShots (plan : Plan) : Controller Unit := do
  expectOk
  modifyRecord fun record => { record with shots := orderedShots plan record.shots }
  persist
  plan.shots.forM fun shot => do
    if (← get).record.isSelected shot.id then do
      workShot plan shot.id
      persist
      let _ ← assembleTimeline
      return ()
    else
      modifyRecord fun record =>
        { record with
          shots := record.shots.map fun other =>
            if other.shotId = shot.id then { other with outcome := .notSelected } else other }

def settlePending (plan : Plan) (i j : Nat) : Controller Unit := do
  let attempt ← attemptAt i j
  if attempt.isTerminal then
    return ()
  else do
    let _ ← workAttempt plan i j
    let settled ← attemptAt i j
    modifyRecord fun record => record.modifyShot i fun shot =>
      { shot with
        outcome :=
          if shot.selectedAttempt.isNone &&
              (settled.status == "canceled" || settled.status == "canceled_by_operator") then
            .canceled
          else
            shot.outcome }

def settleShot (plan : Plan) (shotId : String) : Controller Unit := do
  match ← findShot shotId with
  | none => return ()
  | some (i, shot) => (List.range shot.attempts.length).forM (settlePending plan i)

/-- A cancel does not abandon jobs that may exist: settle them, create none. -/
def reconcileCanceledWork (plan : Plan) : Controller Unit := do
  match (← get).record.projectId with
  | none => halt .canceled "canceled" true
  | some _ => do
      let record := (← get).record
      (plan.sound.filter fun entry =>
        record.synthesizedSound.any fun line => line.role == entry.role && !line.isTerminal).forM
          fun entry => do
            let _ ← synthesizeDialogue plan entry
            return ()
      plan.shots.forM fun shot => settleShot plan shot.id
      if exportOutstanding (← get).record then do
        let _ ← runExport
        halt .canceled "canceled" true
      else
        halt .canceled "canceled" true

def driveInner (plan : Plan) : Controller Bool := do
  ensureProject
  ensureReferences
  ensureSound plan
  if (← get).stop.isSome then
    return false
  else do
    workShots plan
    assembleAndExport

def driveWork (plan : Plan) : Controller Bool := do
  if ← canceled then do
    reconcileCanceledWork plan
    return false
  else do
    let exportOk ← driveInner plan
    if ← canceled then do
      reconcileCanceledWork plan
      return false
    else
      return exportOk

/-- A failure on the way leaves the record running, written once more if that works. -/
def persistOnError {α : Type} (program : Controller α) : Controller α := fun s =>
  match program s with
  | .ok a s' => .ok a s'
  | .error .died s' => .error .died s'
  | .error (.error e) s' =>
      match persist s' with
      | .ok _ s'' => .error (.error e) s''
      | .error _ s'' => .error (.error e) s''

def drive (plan : Plan) : Controller RunRecord := do
  let exportOk ← persistOnError (driveWork plan)
  finish exportOk
  return (← get).record

def baseRecord (plan : Plan) (runId : String) (shotIds : Option (List String))
    (projectId : Option String) : RunRecord :=
  { runId
    state := .running
    outcome := .failed
    stop := none
    projectId
    selectedShotIds :=
      match shotIds with
      | some ids => plan.shotIds.filter ids.contains
      | none => plan.shotIds
    shots := []
    synthesizedSound := []
    sound := []
    timeline := none
    exported := none
    exportPending := none
    supersededExportJobIds := []
    activeTakeOperation := none }

/-- Start a run. A directory that already holds one is refused; a plan that the API's catalog
refuses leaves a rejected record. -/
def run (plan : Plan) (runId : String) (shotIds : Option (List String))
    (project : Option String) : Controller RunRecord := do
  if (← get).disk.isSome then
    fail .refused
  else do
    let move ← next
    modifyRecord fun _ => baseRecord plan runId shotIds project
    match move.answer with
    | .done => do
        persist
        drive plan
    | .refused => do
        close (.rejected, some { reason := "rejected", resumable := false })
        fail .validation
    | .lost | .failed => fail .transport

/-- Read the record and judge its documents, the catalog and the host again. -/
def continueRun : Controller Unit := do
  match (← get).disk with
  | none => fail .refused
  | some record => do
      expectOk
      modifyRecord fun _ => record

/-- The take landed: lay the cut again, unless its sound could not be had again. -/
def reassemble (plan : Plan) : Controller Unit := do
  ensureSound plan
  if (← get).stop.isNone then do
    let _ ← assembleTimeline
    return ()
  else
    return ()

/-- Deliver what the replacement produced; without a take the run says that it failed. -/
def deliverReplacement (plan : Plan) (replaced : Bool) : Controller Unit :=
  if replaced then reassemble plan else halt .failed "replacement_failed" false

def exportReplacement (replaced : Bool) : Controller Bool := do
  let s ← get
  if replaced && s.exporting && s.stop.isNone then runExport else return replaced

/-- Whether the attempt the saved operation asks for was never dispatched. -/
def undispatched (record : RunRecord) (i : Nat) : Bool :=
  record.activeTakeOperation.any fun operation =>
    (record.shots[i]?).any fun shot =>
      shot.attempts.any fun attempt =>
        attempt.attempt == operation.attempt && attempt.jobId.isNone

def completeTakeOperation (plan : Plan) (i : Nat) (shotId : String)
    (prior : RunOutcome × Option RunStop) : Controller RunRecord := do
  let record := (← get).record
  if (← canceled) && undispatched record i then do
    finish false
    return (← get).record
  else do
    let replaced := (record.shots[i]?).any (·.selectedAttempt.isSome)
    modifyRecord fun record => record.modifyShot i fun shot =>
      { shot with outcome := if replaced then .rendered else .failed }
    modifyRecord RunRecord.markExportStale
    persist
    deliverReplacement plan replaced
    let exportOk ← exportReplacement replaced
    modifyRecord fun record => { record with activeTakeOperation := none }
    finishReplacement exportOk shotId prior
    return (← get).record

/-- The attempt a replacement rejects: the selected one, or the last with a take to reject. -/
def rejectedAttempt (shot : ShotRunRecord) : Option Nat :=
  shot.selectedAttempt.or ((shot.attempts.reverse.find? (·.hasLiveTake)).map (·.attempt))

def rejectTake (shot : ShotRunRecord) (reason : String) : List AttemptRecord :=
  match (rejectedAttempt shot).bind fun number =>
      shot.attempts.findIdx? fun attempt => attempt.attempt == number with
  | none => shot.attempts
  | some j => shot.attempts.modify j fun attempt => { attempt with rejection := some { reason } }

/-- The shot with its take rejected and the one attempt a human asked for written down. -/
def replacedShot (runId : String) (shot : ShotRunRecord) (reason : String) : ShotRunRecord :=
  { shot with
    attempts := rejectTake shot reason ++ [freshAttempt runId shot true]
    selectedAttempt := none }

def beginReplacement (record : RunRecord) (i : Nat) (shot : ShotRunRecord) (reason : String)
    (exporting : Bool) (prior : RunOutcome × Option RunStop) : RunRecord :=
  let fresh := freshAttempt record.runId shot true
  { record.modifyShot i fun shot => replacedShot record.runId shot reason with
    activeTakeOperation := some
      { shotId := shot.shotId
        attempt := fresh.attempt
        idempotencyKey := fresh.idempotencyKey
        priorOutcome := prior.1
        priorStop := prior.2
        reason
        exporting } }

/-- Reject a shot's take and render exactly one more, for that shot alone. -/
def replaceTake (plan : Plan) (shotId reason : String) : Controller RunRecord := do
  continueRun
  let record := (← get).record
  if record.activeTakeOperation.isSome then
    fail .refused
  else if record.projectId.isNone then
    fail .refused
  else if !plan.shotIds.contains shotId then
    fail .refused
  else if !record.isSelected shotId then
    fail .refused
  else if ← canceled then
    fail .canceled
  else do
    let prior := (record.outcome, record.stop)
    modifyRecord fun record => { record with state := .running, stop := none }
    match ← findShot shotId with
    | none => fail .refused
    | some (i, shot) => do
        if shot.attempts.any fun attempt => !attempt.isTerminal then
          fail .refused
        else do
          let exporting := (← get).exporting
          modifyRecord fun record => beginReplacement record i shot reason exporting prior
          persist
          let _ ← workAttempt plan i shot.attempts.length
          completeTakeOperation plan i shotId prior

def recoverTakeOperation (plan : Plan) (operation : TakeOperation) : Controller RunRecord := do
  if !plan.shotIds.contains operation.shotId then
    fail .refused
  else do
    modify fun s => { s with exporting := operation.exporting, runDeadline := false }
    match ← findShot operation.shotId with
    | none => fail .refused
    | some (i, shot) =>
        match shot.attempts.findIdx? fun attempt =>
            attempt.attempt == operation.attempt &&
              attempt.idempotencyKey == operation.idempotencyKey && attempt.humanRequested with
        | none => fail .refused
        | some j => do
            persist
            let attempt ← attemptAt i j
            if attempt.isTerminal then
              completeTakeOperation plan i operation.shotId
                (operation.priorOutcome, operation.priorStop)
            else do
              let _ ← workAttempt plan i j
              completeTakeOperation plan i operation.shotId
                (operation.priorOutcome, operation.priorStop)

def resume (plan : Plan) : Controller RunRecord := do
  continueRun
  let record := (← get).record
  match record.activeTakeOperation with
  | some operation => recoverTakeOperation plan operation
  | none => do
      if !record.isResumable then
        fail .refused
      else do
        modifyRecord fun record => { record with state := .running, stop := none }
        persist
        -- an exhausted run may still own a job, which a pending cancel has to settle
        if ← deadlinePassed then do
          if ← canceled then
            drive plan
          else do
            halt .stoppedRunBudget "run_budget" false
            finish false
            return (← get).record
        else
          drive plan

end Controller

/-- What a caller asks of the run's directory. -/
inductive Action where
  | run (runId : String) (shotIds : Option (List String)) (project : Option String)
  | resume
  | replaceTake (shotId reason : String)
  deriving DecidableEq, Repr

structure Invocation where
  action : Action
  exporting : Bool
  script : List Move

/-- What outlives a controller: the record on disk and the world around it. -/
structure Directory where
  disk : Option RunRecord
  world : World

def Action.controller (plan : Plan) : Action → Controller RunRecord
  | .run runId shotIds project => Controller.run plan runId shotIds project
  | .resume => Controller.resume plan
  | .replaceTake shotId reason => Controller.replaceTake plan shotId reason

/-- A controller starts from the disk, without a stop of its own and not canceled. A
replacement runs outside the plan's run budget. -/
def Invocation.session (invocation : Invocation) (directory : Directory) : Session :=
  { record := directory.disk.getD default
    stop := none
    exporting := invocation.exporting
    runDeadline := match invocation.action with
      | .replaceTake _ _ => false
      | _ => true
    disk := directory.disk
    world := { directory.world with canceled := false }
    script := invocation.script }

def Session.directory (session : Session) : Directory :=
  { disk := session.disk, world := session.world }

def invoke (plan : Plan) (directory : Directory) (invocation : Invocation) : Directory :=
  (Crash.final (invocation.action.controller plan (invocation.session directory))).directory

/-- A directory that no run was started in; the API has no job and no timeline of the run. -/
def Directory.empty (now : Nat) : Directory :=
  { disk := none, world := { jobs := [], timeline := none, canceled := false, now } }

end FilmRun
end SceneWorks
