import SceneWorks.FilmRun.Record
import SceneWorks.Library.Crash
import SceneWorks.Library.Json

/-!
What a controller of a film run talks to: the API's jobs and the run's timeline there, the
operator's cancel, and the file the record is kept in. Everything outside the controller is a
script of moves. Each call uses up one move, which first lets the world change on its own and
then says how the call goes; a controller whose script is empty has died at that call. What a
crash leaves is therefore the state at any length of the script, and an answer that is lost
is a call that was carried out and still failed.
-/

namespace SceneWorks
namespace FilmRun

structure JobView where
  status : String
  result : Json

def terminalStatuses : List String :=
  ["completed", "failed", "canceled", "interrupted"]

namespace JobView

def isTerminal (view : JobView) : Bool :=
  terminalStatuses.contains view.status

/-- Whether the result of a terminal job is final: every write it reported has become an
asset of the project. -/
def isSettled (view : JobView) : Bool :=
  if view.status != "completed" then
    true
  else
    match (view.result.get "assetWrites").bind Json.asArray with
    | none => true
    | some writes => writes.all fun write =>
        match ((write.get "assetId").bind Json.asStr).filter (· != "") with
        | none => false
        | some id =>
            ((view.result.get "assets").bind Json.asArray).any
                (·.any fun asset => (asset.get "id").bind Json.asStr == some id) ||
              ((view.result.get "assetIds").bind Json.asArray).any
                (·.any fun assetId => assetId.asStr == some id)

end JobView

def takeFromResult (result : Json) : Option TakeRecord := do
  let asset ← (← (← result.get "assets").asArray).head?
  let assetId ← (← asset.get "id").asStr
  let mediaPath := (((asset.get "file").bind fun file => file.get "path").bind Json.asStr).getD ""
  return { assetId, mediaPath }

def audioAssetFromResult (result : Json) : Option (String × String) := do
  let asset ← (← (← result.get "assets").asArray).head?
  let id ← (← asset.get "id").asStr
  let path ← (← (← asset.get "file").get "path").asStr
  if path ≠ "" then return (id, path) else none

def exportAssetFromResult (result : Json) : Option String := do
  let id ← (← (← result.get "assetIds").asArray).head?
  id.asStr

inductive JobKind where
  | video (key : String)
  | audio (key : String)
  | timelineExport (timelineId : String) (timelineRevision : Nat)
  deriving DecidableEq, Repr

structure Job where
  id : JobId
  kind : JobKind
  createdAt : Nat
  view : JobView

def Job.key (job : Job) : Option String :=
  match job.kind with
  | .video key | .audio key => some key
  | .timelineExport _ _ => none

/-- The jobs oldest first, the run's timeline with its saved revision, the operator's cancel
and the clock in whole seconds. -/
structure World where
  jobs : List Job
  timeline : Option (String × Nat)
  canceled : Bool
  now : Nat

/-- What happens without the controller: a job changes, the operator cancels, time passes,
somebody saves the timeline. -/
inductive Event where
  | progress (job : JobId) (view : JobView)
  | cancel
  | tick (seconds : Nat)
  | revise (revisions : Nat)

namespace World

def react (world : World) : Event → World
  | .progress id view =>
      { world with jobs := world.jobs.map fun job =>
        if job.id = id then { job with view } else job }
  | .cancel => { world with canceled := true }
  | .tick seconds => { world with now := world.now + seconds }
  | .revise revisions =>
      { world with timeline := world.timeline.map fun saved => (saved.1, saved.2 + revisions) }

/-- The job a POST creates: queued, and numbered after every job before it. -/
def create (world : World) (kind : JobKind) : World :=
  { world with jobs := world.jobs ++
      [{ id := world.jobs.length, kind, createdAt := world.now,
         view := { status := "queued", result := .null } }] }

end World

inductive Answer where
  | done
  | lost
  | refused
  | failed
  deriving DecidableEq, Repr

/-- One call's share of the script. `flag` answers a clock or a file that is only looked at,
`memory` the metrics of a job, `revisions` by how much saving a timeline raises it. -/
structure Move where
  events : List Event := []
  answer : Answer := .done
  flag : Bool := false
  memory : Option Nat := none
  revisions : Nat := 0

inductive HarnessError where
  | validation
  | refused
  | canceled
  | transport
  | api
  | io
  deriving DecidableEq, Repr

inductive Failure where
  | died
  | error (error : HarnessError)
  deriving DecidableEq, Repr

/-- A controller and everything around it: `record` is lost when it dies, `disk` is not. -/
structure Session where
  record : RunRecord
  stop : Option (RunOutcome × RunStop)
  exporting : Bool
  runDeadline : Bool
  disk : Option RunRecord
  world : World
  script : List Move

abbrev Controller := EStateM Failure Session

namespace Controller

def next : Controller Move := fun s =>
  match s.script with
  | [] => .error .died s
  | move :: rest =>
      .ok move { s with script := rest, world := move.events.foldl World.react s.world }

def fail {α : Type} (error : HarnessError) : Controller α :=
  throw (.error error)

def modifyRecord (f : RunRecord → RunRecord) : Controller Unit :=
  modify fun s => { s with record := f s.record }

def modifyWorld (f : World → World) : Controller Unit :=
  modify fun s => { s with world := f s.world }

/-- Write the record; a write that fails may still have landed. -/
def persist : Controller Unit := do
  let move ← next
  match move.answer with
  | .done => modify fun s => { s with disk := some s.record }
  | .lost => do
      modify fun s => { s with disk := some s.record }
      fail .io
  | .refused | .failed => fail .io

/-- A request that must succeed and that nothing modelled depends on. -/
def expectOk : Controller Unit := do
  let move ← next
  match move.answer with
  | .done => return ()
  | .refused => fail .api
  | .lost | .failed => fail .transport

def halt (outcome : RunOutcome) (reason : String) (resumable : Bool) : Controller Unit :=
  modify fun s =>
    if s.stop.isNone then { s with stop := some (outcome, { reason, resumable }) } else s

def canceled : Controller Bool := do
  let _ ← next
  return (← get).world.canceled

/-- Whether a deadline the controller looks at has passed. -/
def deadlinePassed : Controller Bool := do
  let move ← next
  return move.flag

/-- Whether something the controller only looks at is there: a file, a live worker. -/
def present : Controller Bool := do
  let move ← next
  return move.flag

def utcNow : Controller Nat := do
  let _ ← next
  return (← get).world.now

def projectId : Controller String := do
  match (← get).record.projectId with
  | some id => return id
  | none => fail .transport

/-- Every job of the project, newest first. -/
def projectJobs : Controller (List Job) := do
  expectOk
  return (← get).world.jobs.reverse

def findJobByIdempotencyKey (key : String) : Controller (Option JobId) := do
  let jobs ← projectJobs
  return (jobs.find? fun job => job.key == some key).map (·.id)

/-- A POST that creates a job of the kind the API gives it there and then; `none` is an
answer outside 2xx. -/
def postJob (kind : World → JobKind) : Controller (Option JobId) := do
  let move ← next
  let id := (← get).world.jobs.length
  match move.answer with
  | .done => do
      modifyWorld fun world => world.create (kind world)
      return some id
  | .lost => do
      modifyWorld fun world => world.create (kind world)
      fail .transport
  | .refused => return none
  | .failed => fail .transport

def getSnapshot (id : JobId) : Controller Job := do
  expectOk
  match (← get).world.jobs.find? fun job => job.id == id with
  | some job => return job
  | none => fail .api

def getJob (id : JobId) : Controller JobView := do
  return (← getSnapshot id).view

inductive PollStop where
  | terminal
  | shotBudget
  | runBudget
  | operator
  | assetsUnsettled
  deriving DecidableEq, Repr

/-- Why a poll loop gives up on a job that is not over yet. -/
def pollStop : Controller (Option PollStop) := do
  if ← canceled then
    return some .operator
  if (← get).runDeadline then
    if ← deadlinePassed then
      return some .runBudget
  if ← deadlinePassed then
    return some .shotBudget
  return none

/-- The grace a canceled job is given to settle. Every round uses up moves, so `fuel` taken
from the script is never the first to end. -/
def settleCanceled (id : JobId) (last : JobView) : Nat → Controller JobView
  | 0 => throw .died
  | fuel + 1 => do
      if ← deadlinePassed then
        return last
      let view ← getJob id
      if view.isTerminal && view.isSettled then
        return view
      settleCanceled id view fuel

def waitForJobFrom (id : JobId) : Nat → Controller (JobView × PollStop)
  | 0 => throw .died
  | fuel + 1 => do
      let view ← getJob id
      if view.isTerminal then
        if view.isSettled then
          return (view, .terminal)
        if ← deadlinePassed then
          return (view, .assetsUnsettled)
        waitForJobFrom id fuel
      else
        match ← pollStop with
        | some stop => do
            -- the cancel request: any answer will do, a missing one will not
            let move ← next
            match move.answer with
            | .done | .refused => do
                let last ← settleCanceled id view (fuel + 1)
                return (last, stop)
            | .lost | .failed => fail .transport
        | none => waitForJobFrom id fuel

def waitForJob (id : JobId) : Controller (JobView × PollStop) := do
  waitForJobFrom id ((← get).script.length + 1)

/-- The observed peak of a job; telemetry never fails a run. -/
def jobMetrics : Controller (Option Nat) := do
  let move ← next
  return move.memory

end Controller
end FilmRun
end SceneWorks
