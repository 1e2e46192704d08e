import Mathlib.Data.List.Sort
import SceneWorks.FilmRun.Sound

/-!
The cut and its export. Assembling saves the run's timeline and marks an export of an older
revision stale. An export is asked for in writing before its job exists, so that a later
controller can adopt the job by its timeline and by when it was asked for.
-/

namespace SceneWorks
namespace FilmRun

/-- The newest export of the timeline that is neither in `exclude` nor older than
`notBefore`; `jobs` come newest first and jobs of one second keep that order. -/
def newestExportJob (jobs : List Job) (timelineId : String) (exclude : List JobId)
    (notBefore : Nat) : Option JobId :=
  let candidates := jobs.filter fun job =>
    (match job.kind with
      | .timelineExport id _ => id == timelineId
      | _ => false) &&
    !exclude.contains job.id && decide (notBefore ≤ job.createdAt)
  ((candidates.insertionSort fun a b => a.createdAt ≤ b.createdAt).getLast?).map (·.id)

namespace RunRecord

/-- The export the next one takes the place of: a stale one, or one that ended badly. -/
def supersededExport (record : RunRecord) : Option JobId :=
  (record.exported.filter fun exported =>
    exported.stale ||
      (exported.status != "running" &&
        !(exported.status == "completed" && exported.assetId.isSome))).map (·.jobId)

def inFlightExport (record : RunRecord) : Option JobId :=
  (record.exported.filter fun exported => some exported.jobId != record.supersededExport).map
    (·.jobId)

def supersede (record : RunRecord) : RunRecord :=
  match record.supersededExport with
  | some id =>
      if record.supersededExportJobIds.contains id then
        record
      else
        { record with supersededExportJobIds := record.supersededExportJobIds ++ [id] }
  | none => record

/-- The cut was saved at `revision`: an export of any other revision is stale. -/
def recordTimeline (record : RunRecord) (timelineId : String) (revision : Nat) : RunRecord :=
  { record with
    timeline := some { revision, timelineId }
    exported := record.exported.map fun exported =>
      { exported with stale := exported.timelineRevision != some revision } }

def markExportStale (record : RunRecord) : RunRecord :=
  { record with exported := record.exported.map fun exported => { exported with stale := true } }

end RunRecord

namespace Controller

/-- The run's timeline at the API: the recorded one, one of the run's name, or a new one. -/
def obtainTimeline : Controller String := do
  let record := (← get).record
  match record.timeline with
  | some timeline => do
      expectOk
      return timeline.timelineId
  | none => do
      expectOk
      match (← get).world.timeline with
      | some (id, _) => do
          expectOk
          return id
      | none => do
          let move ← next
          match move.answer with
          | .done => do
              modifyWorld fun world => { world with timeline := some (record.runId, 0) }
              return record.runId
          | .lost => do
              modifyWorld fun world => { world with timeline := some (record.runId, 0) }
              fail .transport
          | .refused => fail .api
          | .failed => fail .transport

/-- Save the delivery of the cut; the answer is the revision it was saved at. -/
def saveDelivery : Controller Nat := do
  let move ← next
  match move.answer with
  | .done => do
      modifyWorld fun world => world.react (.revise move.revisions)
      -- the saved sequence must still hold every shot that was not deleted from it
      if move.flag then
        fail .transport
      else
        match (← get).world.timeline with
        | some (_, revision) => return revision
        | none => fail .api
  | .lost => do
      modifyWorld fun world => world.react (.revise move.revisions)
      fail .transport
  | .refused => fail .api
  | .failed => fail .transport

def assembleTimeline : Controller Bool := do
  let _ ← projectId
  if (← get).record.selectedTakes = [] then
    return false
  else do
    let timelineId ← obtainTimeline
    let revision ← saveDelivery
    modifyRecord fun record => record.recordTimeline timelineId revision
    persist
    return true

def findExportJob (timelineId : String) (exclude : List JobId) (notBefore : Nat) :
    Controller (Option JobId) := do
  let jobs ← projectJobs
  return newestExportJob jobs timelineId exclude notBefore

def postExport (timelineId : String) : Controller JobId := do
  match ← postJob fun world =>
      .timelineExport timelineId ((world.timeline.map (·.2)).getD 0) with
  | some id => return id
  | none => fail .api

/-- Write the request down unless an earlier controller already did. -/
def requestExport (superseded : Option JobId) : Controller Unit := do
  if (← get).record.exportPending.isNone then do
    let requestedAt ← utcNow
    modifyRecord fun record =>
      { record with
        exportPending := some { requestedAt, supersedes := superseded }
        exported := none }
    persist
  else
    return ()

def pendingSince : Controller Nat := do
  match (← get).record.exportPending with
  | some pending => return pending.requestedAt
  | none => utcNow

/-- The job that already is: the one in flight, or one the record lost. -/
def knownExport (timelineId : String) (inFlight : Option JobId) : Controller (Option JobId) := do
  let notBefore ← pendingSince
  let exclude := (← get).record.supersededExportJobIds
  match inFlight with
  | some id => return some id
  | none => findExportJob timelineId exclude notBefore

/-- The job to watch; `none` means that the run was canceled before there was one. -/
def exportJob (timelineId : String) (inFlight : Option JobId) : Controller (Option JobId) := do
  match ← knownExport timelineId inFlight with
  | some id => return some id
  | none => do
      if ← canceled then do
        halt .canceled "canceled" true
        persist
        return none
      else
        return some (← postExport timelineId)

def snapshotRevision (job : Job) : Option Nat :=
  match job.kind with
  | .timelineExport _ revision => some revision
  | _ => none

def haltExport : PollStop → Controller Unit
  | .operator => halt .canceled "canceled" true
  | .runBudget => halt .stoppedRunBudget "run_budget" false
  | _ => return ()

def watchExport (id : JobId) : Controller Bool := do
  let job ← getSnapshot id
  modifyRecord fun record =>
    { record with
      exported := some
        { timelineRevision := snapshotRevision job, jobId := id, status := "running",
          stale := false, assetId := none }
      exportPending := none }
  persist
  let (view, stop) ← waitForJob id
  modifyRecord fun record =>
    { record with
      exported := some
        { timelineRevision := record.exported.bind (·.timelineRevision), jobId := id,
          status := settledStatus view stop, stale := false,
          assetId := exportAssetFromResult view.result } }
  persist
  haltExport stop
  return settledStatus view stop == "completed" && (exportAssetFromResult view.result).isSome

/-- Whether a canceled run has an export out already that it must still settle. -/
def exportOutstanding (record : RunRecord) : Bool :=
  record.exportPending.isSome || record.exported.any fun exported => exported.status == "running"

def runExport : Controller Bool := do
  let _ ← projectId
  let record := (← get).record
  match record.timeline with
  | none => return false
  | some timeline => do
      if record.exported.any (·.isCurrent) then
        return true
      else if (← canceled) && !exportOutstanding record then do
        halt .canceled "canceled" true
        return false
      else do
        modifyRecord RunRecord.supersede
        requestExport record.supersededExport
        match ← exportJob timeline.timelineId record.inFlightExport with
        | none => return false
        | some id => watchExport id

def assembleAndExport : Controller Bool := do
  match (← get).stop with
  | some (.canceled, _) | some (.stoppedRunBudget, _) => return false
  | _ => do
      if ← assembleTimeline then
        if (← get).exporting then runExport else return true
      else
        return false

end Controller
end FilmRun
end SceneWorks
