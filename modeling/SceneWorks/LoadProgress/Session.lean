import SceneWorks.Contracts
import SceneWorks.Library.JsonIndex
import SceneWorks.Library.Run
import Mathlib.Logic.Function.Basic

/-!
The progress session of one job. Observers on compute threads replace a slot, ordinary posts
prepare a payload, wait for the order of the network and read the slot again before they send,
and a publisher sends what changed. Each of them is cut into the half-steps between which the
others may run; only the order lock, which is handed out first come first served, is held
across a POST. What a load activity is called is left to `describe`.
-/

namespace SceneWorks.LoadProgress

structure ProgressRequest where
  status : JobStatus
  stage : ProgressStage
  progress : Json
  message : String
  error : Option String
  result : Option JsonObject
  etaSeconds : Option Json
  peakGpuMemoryPct : Option Json
  peakGpuLoadPct : Option Json
  backend : Option String
  workerId : Option String
  extra : JsonObject

structure Latest (Activity : Type) where
  revision : UInt64
  activity : Option Activity
  pending : Bool
  baseline : Option ProgressRequest
  cancellation : Option ProgressRequest
  compute : Option (String × ProgressStage)
  promptEncoding : Bool
  closed : Bool

variable {Activity : Type}

def terminal (status : JobStatus) : Bool := status.isTerminal

/-- A payload that reports a phase of the work, over which a newer phase wins. -/
def phaseUpdate (payload : ProgressRequest) : Bool :=
  [ProgressStage.loadingModel, .generating, .training, .cachingLatents, .checkpointing].contains
    payload.stage && !terminal payload.status

/-- The callbacks of the compute threads: a load activity or its end, a compute phase, and the
end of prompt encoding, which only retires the label of that phase. -/
inductive Callback (Activity : Type) where
  | observed (activity : Option Activity)
  | computed (message : String) (stage : ProgressStage) (promptEncoding : Bool)
  | completed

namespace Latest

def default : Latest Activity := ⟨0, none, false, none, none, none, false, false⟩

/-- Observers are not heard once the session is closed or canceled. -/
def deaf (state : Latest Activity) : Bool := state.closed || state.cancellation.isSome

/-- Whether a callback gets through to the slot. -/
def hears (state : Latest Activity) : Callback Activity → Bool
  | .observed _ | .computed _ _ _ => !state.deaf
  | .completed => !state.deaf && state.promptEncoding

def heard (state : Latest Activity) : Callback Activity → Latest Activity
  | .observed activity =>
      { state with activity, pending := true, revision := state.revision + 1 }
  | .computed message stage promptEncoding =>
      { state with
        activity := none
        compute := some (message, stage)
        promptEncoding
        pending := true
        revision := state.revision + 1 }
  | .completed =>
      { state with
        promptEncoding := false
        compute := some ("Preparing generation.", .generating)
        pending := true
        revision := state.revision + 1 }

/-- The first half of a post: what was queued is out of date, and a cancellation counts from
here on. -/
def prepare (state : Latest Activity) (payload : ProgressRequest) (cancelling : Bool) :
    Latest Activity :=
  let cancellation :=
    if cancelling && !state.closed && state.cancellation.isNone then some payload
    else state.cancellation
  let clears := !phaseUpdate payload || cancellation.isSome
  { state with
    pending := false
    cancellation
    baseline := some payload
    closed := state.closed || terminal payload.status
    activity := if clears then none else state.activity
    compute := if clears then none else state.compute
    promptEncoding := if clears then false else state.promptEncoding
    revision := state.revision + 1 }

end Latest

section Payloads

variable (describe : Activity → String)

def loadingPayload (payload : ProgressRequest) (activity : Activity) : ProgressRequest :=
  { payload with message := describe activity, status := .loadingModel, stage := .loadingModel }

def controlled (payload control : ProgressRequest) : ProgressRequest :=
  { payload with
    message := control.message
    status := control.status
    stage := control.stage
    progress := control.progress
    etaSeconds := control.etaSeconds }

/-- What a post sends, read again once it is its turn. -/
def Latest.reread (state : Latest Activity) (payload : ProgressRequest) : ProgressRequest :=
  match state.cancellation.filter fun _ => !terminal payload.status with
  | some control => controlled payload control
  | none =>
      if phaseUpdate payload then
        match state.activity, state.compute with
        | some activity, _ => loadingPayload describe payload activity
        | none, some (message, stage) =>
            { payload with
              message
              stage
              status := if stage = .loadingModel then .loadingModel else .running }
        | none, none => payload
      else payload

/-- What the publisher starts from while nothing has been posted. -/
def preparingPayload : ProgressRequest where
  status := .loadingModel
  stage := .loadingModel
  progress := Json.ofF64 F64.zero
  message := "Preparing model."
  error := none
  result := none
  etaSeconds := none
  peakGpuMemoryPct := none
  peakGpuLoadPct := none
  backend := none
  workerId := none
  extra := []

def Latest.published (state : Latest Activity) : ProgressRequest :=
  let payload := state.baseline.getD preparingPayload
  match state.activity, state.compute with
  | some activity, _ => loadingPayload describe payload activity
  | none, some (message, stage) => { payload with message, stage, status := .running }
  | none, none => payload

end Payloads

section Callbacks

inductive LoadPhase where
  | textEncoder
  | renderer
  | encodingPrompt
deriving DecidableEq

inductive GeneratorProgress where
  | promptEncodingComplete
  | loading (phase : LoadPhase)
  | step (current total : Nat)
  | decoding
  | postProcessing
  | upsampling (tokens maxTokens : Nat)
  | conditioningComplete
  | promptUpsamplingComplete

def generatorPhase : LoadPhase → String
  | .textEncoder => "Preparing text encoder."
  | .renderer => "Preparing generation."
  | .encodingPrompt => "Encoding prompt."

def noteCompute (message : String) (stage : ProgressStage) : Callback Activity :=
  .computed message stage false

def generatorProgress : GeneratorProgress → Callback Activity
  | .promptEncodingComplete => .completed
  | .loading phase =>
      .computed (generatorPhase phase)
        (if phase = .encodingPrompt then .generating else .loadingModel) (phase = .encodingPrompt)
  | .step current total =>
      noteCompute ("Generating step " ++ toString current ++ "/" ++ toString total ++
        ".") .generating
  | .decoding => noteCompute "Decoding." .generating
  | .postProcessing => noteCompute "Finishing output." .generating
  | .upsampling tokens maxTokens =>
      noteCompute ("Enhancing prompt (" ++ toString tokens ++ "/" ++ toString maxTokens ++
        " tokens).") .generating
  | .conditioningComplete => noteCompute "Generating." .generating
  | .promptUpsamplingComplete => noteCompute "Preparing generation." .generating

end Callbacks

section Session

inductive Party where
  | post (id : Nat)
  | publisher
deriving DecidableEq

inductive PostPhase where
  | idle
  | waiting (payload : ProgressRequest)
  | ordered (payload : ProgressRequest)
  | sending (payload : ProgressRequest)
  | done

inductive PublisherPhase where
  | asleep
  | sleeping
  | waiting
  | ordered
  | sending (payload : ProgressRequest)
  | stopped

/-- How a POST was answered; one that failed may have landed all the same. -/
inductive Answer where
  | ok
  | failed (landed : Bool)
deriving DecidableEq

def Answer.landed : Answer → Bool
  | .ok => true
  | .failed landed => landed

/-- What can be told of a session from outside: callbacks, and payloads prepared, sent and
answered. -/
inductive Occurrence (Activity : Type) where
  | heard (callback : Callback Activity)
  | prepared (id : Nat) (payload : ProgressRequest) (cancelling : Bool)
  | sent (id : Nat) (payload sent : ProgressRequest)
  | published (sent : ProgressRequest)
  | answered (party : Party) (sent : ProgressRequest) (answer : Answer)

structure Session (Activity : Type) where
  latest : Latest Activity
  changed : Bool
  holder : Option Party
  queue : List Party
  posts : Nat → PostPhase
  publisher : PublisherPhase
  history : List (Occurrence Activity)

def Session.fresh : Session Activity :=
  ⟨.default, false, none, [], fun _ => .idle, .asleep, []⟩

inductive Step (Activity : Type) where
  | observe (activity : Option Activity)
  | noteCompute (message : String) (stage : ProgressStage)
  | generatorProgress (progress : GeneratorProgress)
  | prepare (id : Nat) (payload : ProgressRequest) (cancelling : Bool)
  | acquire (id : Nat)
  | reread (id : Nat)
  | answer (id : Nat) (answer : Answer)
  | publisherWake
  | publisherQueue
  | publisherAcquire
  | publisherRead
  | publisherAnswer (answer : Answer)

namespace Session

def enter (session : Session Activity) (id : Nat) (phase : PostPhase) : Session Activity :=
  { session with posts := Function.update session.posts id phase }

def record (session : Session Activity) (occurrence : Occurrence Activity) :
    Session Activity :=
  { session with history := session.history ++ [occurrence] }

def hear (session : Session Activity) (callback : Callback Activity) : Session Activity :=
  if session.latest.hears callback then
    { session.record (.heard callback) with
      latest := session.latest.heard callback
      changed := true }
  else session.record (.heard callback)

/-- The order lock is free and the party is first in line for it. -/
def turn (session : Session Activity) (party : Party) : Bool :=
  session.holder.isNone && session.queue.head? = some party

def take (session : Session Activity) (party : Party) : Session Activity :=
  { session with holder := some party, queue := session.queue.tail }

def release (session : Session Activity) : Session Activity := { session with holder := none }

end Session

variable (describe : Activity → String)

def answerPost (session : Session Activity) (id : Nat) (sent : ProgressRequest) (answer : Answer) :
    Session Activity :=
  let session := ((session.enter id .done).record (.answered (.post id) sent answer)).release
  if terminal sent.status && answer = .ok then
    { session with latest := { session.latest with cancellation := none } }
  else session

def readPublisher (session : Session Activity) : Session Activity :=
  if session.latest.deaf then { session.release with publisher := .stopped }
  else if !session.latest.pending then { session.release with publisher := .asleep }
  else
    let sent := session.latest.published describe
    { session.record (.published sent) with
      latest := { session.latest with pending := false }
      publisher := .sending sent }

/-- One half-step; a step whose party is not at it changes nothing. A post prepares its payload and
joins the line for the order in one of them: there is no await between the two. -/
def step (session : Session Activity) : Step Activity → Session Activity
  | .observe activity => session.hear (.observed activity)
  | .noteCompute message stage => session.hear (LoadProgress.noteCompute message stage)
  | .generatorProgress progress => session.hear (LoadProgress.generatorProgress progress)
  | .prepare id payload cancelling =>
      match session.posts id with
      | .idle =>
          { (session.enter id (.waiting payload)).record (.prepared id payload cancelling) with
            latest := session.latest.prepare payload cancelling
            queue := session.queue ++ [Party.post id] }
      | _ => session
  | .acquire id =>
      match session.posts id with
      | .waiting payload =>
          if session.turn (.post id) then (session.enter id (.ordered payload)).take (.post id)
          else session
      | _ => session
  | .reread id =>
      match session.posts id with
      | .ordered payload =>
          let sent := session.latest.reread describe payload
          (session.enter id (.sending sent)).record (.sent id payload sent)
      | _ => session
  | .answer id answer =>
      match session.posts id with
      | .sending sent => answerPost session id sent answer
      | _ => session
  | .publisherWake =>
      match session.publisher with
      | .asleep =>
          if session.changed then { session with changed := false, publisher := .sleeping }
          else session
      | _ => session
  | .publisherQueue =>
      match session.publisher with
      | .sleeping =>
          { session with queue := session.queue ++ [Party.publisher], publisher := .waiting }
      | _ => session
  | .publisherAcquire =>
      match session.publisher with
      | .waiting =>
          if session.turn .publisher then { session.take .publisher with publisher := .ordered }
          else session
      | _ => session
  | .publisherRead =>
      match session.publisher with
      | .ordered => readPublisher describe session
      | _ => session
  | .publisherAnswer answer =>
      match session.publisher with
      | .sending sent =>
          { (session.record (.answered .publisher sent answer)).release with publisher := .asleep }
      | _ => session

end Session

end SceneWorks.LoadProgress
