import SceneWorks.FilmTimeline.Reconcile

/-!
`deliver`: the merge of a film delivery into the authoritative cut. The takes of the
payload are merged one after the other, then its audio lanes are established, then each
of its audio items is added once. A failed delivery leaves nothing behind, since the
caller drops the document it worked on.
-/

namespace SceneWorks.FilmTimeline

/-- What a delivery asks of the store: the measured length of an asset, and the hexadecimal
digest a new item takes its id from. -/
structure DeliveryEnv where
  duration : String → Except ProjectStoreError F64
  sha256 : String → String

def orPanic {α : Type} : Option α → Except ProjectStoreError α
  | some value => .ok value
  | none => .error .panicked

def orBadRequest {α : Type} (detail : String) : Option α → Except ProjectStoreError α
  | some value => .ok value
  | none => .error (.badRequest detail)

def isKind (kind : String) (track : Json) : Bool := track.idx "kind" == .str kind

def maxEnd (ends : List F64) : F64 := ends.foldl F64.max F64.zero

def pictureDuration (timeline : Json) : F64 :=
  maxEnd ((((tracks timeline).filter (isKind "video")).flatMap trackItems).map
    (number · "timelineEnd"))

/-- An ambience, music or effects item that belongs to no shot. -/
def isSequenceBed (item : Json) : Bool :=
  ["ambience", "music", "sfx"].contains (field item "role") && field item "shotId" == ""

def stampSequenceBedAlignment (item : Json) : Option Json :=
  if !(isSequenceBed item) then some item
  else do
    let stamped ← item.put ["filmHarness", "alignedTimelineStart"]
      (.ofF64 (number item "timelineStart"))
    let stamped ← stamped.put ["filmHarness", "alignedTimelineEnd"]
      (.ofF64 (number item "timelineEnd"))
    let stamped ← stamped.put ["filmHarness", "alignedSourceIn"] (.ofF64 (number item "sourceIn"))
    stamped.put ["filmHarness", "alignedSourceOut"] (.ofF64 (number item "sourceOut"))

/-- Iterating the items of a track mutably; a track without an item list is left with null. -/
def editItems (track : Json) (f : Json → Option Json) : Option Json :=
  match track.idx "items" with
  | .arr xs => do
      let xs ← xs.mapM f
      track.put ["items"] (.arr xs)
  | value => track.put ["items"] value

def closeTo (left right : F64) : Bool :=
  F64.le (F64.abs (F64.sub left right)) (F64.ofRatio 1 1000000)

/-- Placement and source trim are still those of the last alignment. -/
def untouchedBed (item : Json) (declaredStart oldDuration : F64) : Bool :=
  let aligned key := ((item.idx "filmHarness").idx key).asF64
  let sourceIn := number item "sourceIn"
  match aligned "alignedTimelineStart", aligned "alignedTimelineEnd", aligned "alignedSourceIn",
    aligned "alignedSourceOut" with
  | some timelineStart, some timelineEnd, some alignedIn, some alignedOut =>
      closeTo (number item "timelineStart") timelineStart &&
        closeTo (number item "timelineEnd") timelineEnd && closeTo sourceIn alignedIn &&
        closeTo (number item "sourceOut") alignedOut
  | _, _, _, _ =>
      closeTo (number item "timelineStart") declaredStart &&
        closeTo (number item "timelineEnd") oldDuration &&
        closeTo (F64.sub (number item "sourceOut") sourceIn)
          (F64.max (F64.sub oldDuration declaredStart) F64.zero)

def desiredBed (incoming item : Json) (run : String) : Option Json :=
  (items incoming).find? fun candidate =>
    field candidate "runId" == run && field candidate "id" == field item "id" &&
      field candidate "role" == field item "role" && field candidate "shotId" == ""

def extendBed (incoming : Json) (run : String) (oldDuration newDuration : F64) (item : Json) :
    Option Json :=
  if field item "runId" != run || !(isSequenceBed item) then some item
  else
    let declaredStart :=
      F64.max (((item.idx "filmHarness").idx "startSeconds").asF64.getD F64.zero) F64.zero
    let span := F64.sub newDuration declaredStart
    let desiredIsFullCut := (desiredBed incoming item run).any fun desired =>
      closeTo (number desired "timelineStart") declaredStart &&
        closeTo (number desired "timelineEnd") newDuration &&
        closeTo (F64.sub (number desired "sourceOut") (number desired "sourceIn"))
          (F64.max span F64.zero)
    if untouchedBed item declaredStart oldDuration && desiredIsFullCut then do
      let sourceIn := number item "sourceIn"
      let item ← item.put ["timelineEnd"] (.ofF64 newDuration)
      let item ← item.put ["sourceOut"] (.ofF64 (F64.add sourceIn span))
      stampSequenceBedAlignment item
    else some item

def extendUneditedSequenceBeds (timeline incoming : Json) (run : String)
    (oldDuration newDuration : F64) : Option Json :=
  if F64.le newDuration oldDuration then some timeline
  else
    match timeline.idx "tracks" with
    | .arr ts => do
        let ts ← ts.mapM fun track =>
          if isKind "audio" track then
            editItems track (extendBed incoming run oldDuration newDuration)
          else some track
        timeline.put ["tracks"] (.arr ts)
    | value => timeline.put ["tracks"] value

/-- The delivery being merged; `resolve` names the shot whose trim conflict it settles. -/
structure Delivery where
  run : String
  resolve : Option String
  choice : Option String
  incoming : Json

def runPath (run : String) (keys : List String) : List String :=
  "filmAssembly" :: "runs" :: run :: keys

def runData (timeline : Json) (run : String) : Json :=
  ((timeline.idx "filmAssembly").idx "runs").idx run

def attemptField (item : Json) : Option Nat :=
  ((item.idx "filmHarness").idx "attempt").asU64

def attemptOf (item : Json) : Nat := (attemptField item).getD 0

def deliveryIdOf (item : Json) : Json := (item.idx "filmHarness").idx "deliveryId"

def deliveryId (run shot : String) (attempt : Nat) : String :=
  run ++ ":" ++ shot ++ ":a" ++ toString attempt

def isShotPicture (run shot : String) (item : Json) : Bool :=
  field item "runId" == run && field item "shotId" == shot && field item "role" == "picture"

/-- The picture a take of the shot would replace: the first in track order. -/
def existingPicture (timeline : Json) (run shot : String) : Option Json :=
  (items timeline).find? (isShotPicture run shot)

def isDeleted (timeline : Json) (run shot : String) : Bool :=
  !((((runData timeline run).idx "deletedShots").idx shot).isNull)

def isApplied (timeline : Json) (run : String) (id : String) : Bool :=
  ((runData timeline run).idx "appliedDeliveries").idx id == .bool true

/-- The picture already stems from this take or from a later one. -/
def isAligned (id : String) (attempt : Nat) (current : Json) : Bool :=
  deliveryIdOf current == .str id || (attemptField current).any fun aligned => attempt ≤ aligned

def trimConflict (timeline : Json) (run shot : String) : Json :=
  ((runData timeline run).idx "trimConflicts").idx shot

def isPending (timeline : Json) (run shot : String) (id : String) : Bool :=
  deliveryIdOf ((trimConflict timeline run shot).idx "take") == .str id

/-- The marks by which an unresolved delivery recognises a take it has seen. -/
def isReplay (timeline : Json) (run shot : String) (attempt : Nat) : Bool :=
  let id := deliveryId run shot attempt
  isApplied timeline run id || (existingPicture timeline run shot).any (isAligned id attempt) ||
    isPending timeline run shot id

def incompatibleTrim (current : Json) (length : F64) : Bool :=
  let sourceIn := number current "sourceIn"
  let sourceOut := number current "sourceOut"
  F64.lt sourceIn F64.zero || F64.le sourceOut sourceIn ||
    F64.lt (F64.add length (F64.ofRatio 1 1000000)) sourceOut

def conflictRecord (current take : Json) (shot : String) (length : F64) : Json :=
  let sourceIn := number current "sourceIn"
  let choices :=
    if F64.le (F64.ofRatio 1 10) (F64.sub length sourceIn) then ["clamp", "reset", "keepCurrent"]
    else ["reset", "keepCurrent"]
  .obj [("choices", .arr (choices.map .str)), ("code", .str "timeline_replacement_trim_conflict"),
    ("itemId", current.idx "id"), ("newDuration", .ofF64 length), ("shotId", .str shot),
    ("sourceIn", .ofF64 sourceIn), ("sourceOut", .ofF64 (number current "sourceOut")),
    ("take", take)]

/-- The source window of a take that replaces a picture it does not fit. -/
def retrim (choice : Option String) (current : Json) (length : F64) :
    Except ProjectStoreError Json := do
  let start := if choice = some "reset" then F64.zero else number current "sourceIn"
  if F64.lt (F64.sub length start) (F64.ofRatio 1 10) then
    .error (.badRequest "This trim cannot be clamped; choose reset or keepCurrent")
  else
    let current ← orPanic (current.put ["sourceIn"] (.ofF64 start))
    let current ← orPanic (current.put ["sourceOut"] (.ofF64 length))
    let speed := F64.max ((current.idx "speed").asF64.getD (F64.ofInt 1)) (F64.ofRatio 1 10)
    orPanic (current.put ["timelineEnd"]
      (.ofF64 (F64.add (number current "timelineStart") (F64.div (F64.sub length start) speed))))

def ensureArray (item : Json) (key : String) : Option Json :=
  match item.idx key with
  | .arr _ => some item
  | _ => item.put [key] (.arr [])

/-- The take's asset becomes the current version; a new one is added to the history. -/
def adoptAsset (current take : Json) : Option Json := do
  let asset := take.idx "assetId"
  let current ← current.put ["assetId"] asset
  let current ← current.put ["currentVersionAssetId"] asset
  let current ← ensureArray current "versionAssetIds"
  let current ← ensureArray current "versionHistory"
  if (current.idx "versionAssetIds").elements.any (Json.valueEq asset) then some current
  else
    let entry : Json := .obj [("assetId", asset), ("jobId", (take.idx "filmHarness").idx "jobId"),
      ("source", .str "replacement")]
    let current ← current.put ["versionAssetIds"]
      (.arr ((current.idx "versionAssetIds").elements ++ [asset]))
    current.put ["versionHistory"] (.arr ((current.idx "versionHistory").elements ++ [entry]))

/-- Place and trim stay the editor's unless the resolution says otherwise. -/
def adoptTake (choice : Option String) (current take : Json) (length : F64) :
    Except ProjectStoreError Json :=
  if choice = some "keepCurrent" then .ok current
  else if incompatibleTrim current length || choice = some "reset" then do
    let current ← retrim choice current length
    orPanic (adoptAsset current take)
  else orPanic (adoptAsset current take)

/-- The picture after the take replaced it. -/
def replacePicture (choice : Option String) (current take : Json) (length : F64) :
    Except ProjectStoreError Json := do
  let current ← adoptTake choice current take length
  orPanic (current.put ["filmHarness"] (take.idx "filmHarness"))

def replaceFirst (p : Json → Bool) (new : Json) : List Json → List Json
  | [] => []
  | x :: xs => if p x then new :: xs else x :: replaceFirst p new xs

/-- Only called on a track whose items were read as an array. -/
def setItems (xs : List Json) : Json → Json
  | .obj fields => .obj (JsonObject.write fields "items" (.arr xs))
  | value => value

/-- The tracks with the first item that satisfies `p` replaced. -/
def replaceFirstItem (p : Json → Bool) (new : Json) : List Json → List Json
  | [] => []
  | track :: rest =>
      if (trackItems track).any p then setItems (replaceFirst p new (trackItems track))
        track :: rest
      else track :: replaceFirstItem p new rest

def usizeMax : Nat := 2 ^ 64 - 1

def shotRank (order : List Json) (shot : String) : Nat :=
  (order.findIdx? fun slot => slot.asStr == some shot).getD usizeMax

def minPlace : List F64 → Option F64
  | [] => none
  | x :: xs => some (xs.foldl (fun a b => if F64.totalLe a b then a else b) x)

/-- A new picture goes before the first one of a later slot, else after everything. -/
def insertionPlace (order : List Json) (run shot : String) (xs : List Json) : F64 :=
  let later := xs.filter fun item =>
    field item "runId" == run && decide (shotRank order shot < shotRank order (field item "shotId"))
  (minPlace (later.map (number · "timelineStart"))).getD (maxEnd (xs.map (number · "timelineEnd")))

def shiftItem (length : F64) (item : Json) : Option Json := do
  let item ← item.put ["timelineStart"] (.ofF64 (F64.add (number item "timelineStart") length))
  item.put ["timelineEnd"] (.ofF64 (F64.add (number item "timelineEnd") length))

def byTimelineStart (a b : Json) : Prop :=
  F64.totalLe (number a "timelineStart") (number b "timelineStart")

instance : DecidableRel byTimelineStart :=
  fun a b =>
    inferInstanceAs (Decidable (F64.totalLe (number a "timelineStart") (number b "timelineStart")))

def modifyFirst (p : Json → Bool) (f : Json → Json) : List Json → List Json
  | [] => []
  | x :: xs => if p x then f x :: xs else x :: modifyFirst p f xs

def placeTake (env : DeliveryEnv) (run shot : String) (trackId take : Json) (start length : F64) :
    Option Json := do
  let id := ("item_film_" ++ env.sha256 (run ++ "\x00" ++ shot)).take 34
  let take ← take.put ["id"] (.str id.toString)
  let take ← take.put ["trackId"] trackId
  let take ← take.put ["sourceIn"] (.ofF64 F64.zero)
  let take ← take.put ["sourceOut"] (.ofF64 length)
  let take ← take.put ["timelineStart"] (.ofF64 start)
  take.put ["timelineEnd"] (.ofF64 (F64.add start length))

/-- The first take of a shot: it opens a gap at its slot and moves what follows, with the
audio of the shots moved. -/
def insertPicture (env : DeliveryEnv) (d : Delivery) (shot : String) (timeline take : Json)
    (length : F64) : Except ProjectStoreError Json := do
  let oldDuration := pictureDuration timeline
  let order := ((runData timeline d.run).idx "shotOrder").elements
  let ts ← orBadRequest "Timeline has no tracks" (timeline.idx "tracks").asArray
  let track ← orBadRequest "Timeline has no picture track" (ts.find? (isKind "video"))
  let xs ← orBadRequest "Picture track has no items" (track.idx "items").asArray
  let start := insertionPlace order d.run shot xs
  let moves := fun item => F64.le start (number item "timelineStart")
  let shifted := (xs.filter fun item => moves item && field item "runId" == d.run).map
    (field · "shotId")
  let moved ← orPanic (xs.mapM fun item => if moves item then shiftItem length item else some item)
  let take ← orPanic (placeTake env d.run shot (track.idx "id") take start length)
  let ts := modifyFirst (isKind "video")
    (setItems ((moved ++ [take]).insertionSort byTimelineStart)) ts
  let ts ← orPanic (ts.mapM fun track =>
    if isKind "audio" track then
      editItems track fun item =>
        if field item "runId" == d.run && shifted.contains (field item "shotId") then
          shiftItem length item
        else some item
    else some track)
  let timeline ← orPanic (timeline.put ["tracks"] (.arr ts))
  orPanic (extendUneditedSequenceBeds timeline d.incoming d.run oldDuration
    (pictureDuration timeline))

def markApplied (timeline : Json) (run id : String) : Except ProjectStoreError Json :=
  orPanic (timeline.put (runPath run ["appliedDeliveries", id]) (.bool true))

/-- One take of the payload that no mark of the cut tells to skip. -/
def mergeTake (env : DeliveryEnv) (d : Delivery) (timeline take : Json) :
    Except ProjectStoreError Json := do
  let shot := field take "shotId"
  let id := deliveryId d.run shot (attemptOf take)
  let asset ← orBadRequest "Delivery assetId is required" (take.idx "assetId").asStr
  let length ← env.duration asset
  let take ← orPanic (take.put ["filmHarness", "deliveryId"] (.str id))
  let take ← orPanic (take.put ["filmHarness", "alignedDurationSeconds"] (.ofF64 length))
  match existingPicture timeline d.run shot with
  | some current =>
      if incompatibleTrim current length && d.resolve != some shot then
        orPanic (timeline.put (runPath d.run ["trimConflicts", shot])
          (conflictRecord current take shot length))
      else do
        let new ← replacePicture d.choice current take length
        let timeline ← orPanic (timeline.put ["tracks"]
          (.arr (replaceFirstItem (isShotPicture d.run shot) new (tracks timeline))))
        let timeline ← orPanic (timeline.edit (runPath d.run ["trimConflicts"]) (removeEntry shot))
        markApplied timeline d.run id
  | none => do
      let timeline ← insertPicture env d shot timeline take length
      markApplied timeline d.run id

def deliverTake (env : DeliveryEnv) (d : Delivery) (timeline take : Json) :
    Except ProjectStoreError Json :=
  let shot := field take "shotId"
  if shot = "" then .error (.badRequest "Delivery shotId is required")
  else if isDeleted timeline d.run shot then .ok timeline
  else if d.resolve.isNone && isReplay timeline d.run shot (attemptOf take) then .ok timeline
  else mergeTake env d timeline take

/-- A lane of the payload that the cut lacks is added empty. -/
def establishLane (timeline track : Json) : Except ProjectStoreError Json :=
  match (track.idx "id").asStr.filter (· ≠ "") with
  | none => .ok timeline
  | some id => do
      let ts ← orPanic (timeline.idx "tracks").asArray
      if ts.any fun existing => existing.idx "id" == .str id then .ok timeline
      else
        let lane ← orPanic (track.put ["items"] (.arr []))
        orPanic (timeline.put ["tracks"] (.arr (ts ++ [lane])))

def pictureOf (timeline : Json) (run shot : String) : Option Json :=
  (pictures timeline).find? fun item => field item "runId" == run && field item "shotId" == shot

/-- An audio item of a shot keeps its offset to the shot's picture. -/
def placeAudio (item : Json) : Option Json → Option Json
  | none => stampSequenceBedAlignment item
  | some picture => do
      let length := F64.sub (number item "timelineEnd") (number item "timelineStart")
      let offset := ((item.idx "filmHarness").idx "offsetSeconds").asF64.getD F64.zero
      let start := F64.add (number picture "timelineStart") offset
      let audio ← item.put ["timelineStart"] (.ofF64 start)
      let audio ← audio.put ["timelineEnd"] (.ofF64 (F64.add start length))
      stampSequenceBedAlignment audio

def pushItem (audio id track : Json) : Option Json := do
  let xs ← (track.idx "items").asArray
  if xs.any fun existing => Json.valueEq (existing.idx "id") id then some track
  else some (setItems (xs ++ [audio]) track)

def modifyFirstM (p : Json → Bool) (f : Json → Option Json) : List Json → Option (List Json)
  | [] => some []
  | x :: xs =>
      if p x then do
        let y ← f x
        some (y :: xs)
      else do
        let ys ← modifyFirstM p f xs
        some (x :: ys)

def addAudio (timeline track audio id : Json) : Option Json := do
  let ts ← (timeline.idx "tracks").asArray
  let sameLane := fun existing : Json => Json.valueEq (existing.idx "id") (track.idx "id")
  let ts ←
    if ts.any sameLane then modifyFirstM sameLane (pushItem audio id) ts
    else do
      let lane ← track.put ["items"] (.arr [])
      let lane ← pushItem audio id lane
      some (ts ++ [lane])
  timeline.put ["tracks"] (.arr ts)

def audioDelivered (timeline : Json) (run id : String) : Bool :=
  ((runData timeline run).idx "audioDelivered").idx id == .bool true

/-- One audio item: it is added once, and one that belongs to a shot waits for its picture. -/
def deliverAudio (run : String) (timeline : Json) (entry : Json × Json) :
    Except ProjectStoreError Json :=
  let (track, item) := entry
  let id := (item.idx "id").asStr.getD ""
  let shot := field item "shotId"
  let picture := pictureOf timeline run shot
  if audioDelivered timeline run id then .ok timeline
  else if shot != "" && picture.isNone then .ok timeline
  else do
    let audio ← orPanic (placeAudio item picture)
    let timeline ← orPanic (addAudio timeline track audio (item.idx "id"))
    orPanic (timeline.put (runPath run ["audioDelivered", id]) (.bool true))

/-- The picture items of the run in a payload. -/
def incomingTakes (incoming : Json) (run : String) : List Json :=
  (items incoming).filter fun item => field item "runId" == run && field item "role" == "picture"

def incomingLanes (incoming : Json) : List Json :=
  (tracks incoming).filter (isKind "audio")

def incomingAudio (incoming : Json) (run : String) : List (Json × Json) :=
  (incomingLanes incoming).flatMap fun track =>
    ((trackItems track).filter fun item => field item "runId" == run).map fun item => (track, item)

/-- The run gets its slots from the first delivery. -/
def openRun (run : String) (order : List Json) (timeline : Json) : Option Json := do
  let timeline ←
    if ((runData timeline run).idx "shotOrder").isNull then
      timeline.put (runPath run ["shotOrder"]) (.arr order)
    else some timeline
  timeline.put ["filmAssembly", "schemaVersion"] (.int 1)

/-- What the delivery merges: its own timeline, or the take of the conflict it resolves. -/
def incomingOf (timeline payload : Json) (run : String) : Except ProjectStoreError Json :=
  match (payload.idx "resolveShotId").asStr with
  | none => .ok (payload.idx "timeline")
  | some shot =>
      let pending := trimConflict timeline run shot
      if (payload.idx "expectedRevision").asU64.isNone then
        .error (.badRequest "Resolving a trim requires expectedRevision")
      else if pending.isNull then
        .error (.badRequest "This trim conflict is no longer pending")
      else if ["clamp", "reset", "keepCurrent"].any fun choice =>
          (payload.idx "resolution").asStr == some choice then
        .ok (.obj [("tracks", .arr [.obj [("items", .arr [pending.idx "take"])]])])
      else .error (.badRequest "Choose clamp, reset or keepCurrent")

def deliver (env : DeliveryEnv) (timeline payload : Json) : Except ProjectStoreError Json := do
  validateMetadata timeline
  let run ← orBadRequest "runId is required" ((payload.idx "runId").asStr.filter (· ≠ ""))
  let incoming ← incomingOf timeline payload run
  let d : Delivery :=
    { run := run
      resolve := (payload.idx "resolveShotId").asStr
      choice := (payload.idx "resolution").asStr
      incoming := incoming }
  let timeline ← orPanic (openRun run (payload.idx "shotOrder").elements timeline)
  let timeline ← (incomingTakes incoming run).foldlM (deliverTake env d) timeline
  let timeline ← (incomingLanes incoming).foldlM establishLane timeline
  (incomingAudio incoming run).foldlM (deliverAudio run) timeline

/-- A cut with one picture track and nothing on it. -/
def emptyCut : Json :=
  .obj [("id", .str "timeline_a"), ("name", .str "Cut"), ("projectId", .str "project_a"),
    ("tracks", .arr [.obj [("id", .str "main"), ("items", .arr []), ("kind", .str "video"),
      ("name", .str "Main")]])]

def takeOf (run shot : String) (attempt : Nat) (asset : String) : Json :=
  .obj [("assetId", .str asset), ("displayName", .str shot),
    ("filmHarness", .obj [("attempt", .int attempt), ("role", .str "picture"), ("runId", .str run),
      ("shotId", .str shot)])]

def soundOf (run shot id : String) : Json :=
  .obj [("filmHarness", .obj [("role", .str "dialogue"), ("runId", .str run),
      ("shotId", .str shot)]),
    ("id", .str id), ("timelineEnd", .int 1), ("timelineStart", .int 0)]

def videoTrack (takes : List Json) : Json := .obj [("items", .arr takes), ("kind", .str "video")]

def audioTrack (id : String) (sounds : List Json) : Json :=
  .obj [("id", .str id), ("items", .arr sounds), ("kind", .str "audio")]

/-- A delivery of one run with two slots. -/
def payloadOf (run : String) (tracks : List Json) : Json :=
  .obj [("runId", .str run), ("shotOrder", .arr [.str "A", .str "B"]),
    ("timeline", .obj [("tracks", .arr tracks)])]

def takesPayload (run : String) (takes : List Json) : Json := payloadOf run [videoTrack takes]

/-- The assets of the samples: the one called `short` is two seconds long, the others four. -/
def sampleFilm : DeliveryEnv where
  duration := fun asset => .ok (F64.ofInt (if asset = "short" then 2 else 4))
  sha256 := fun text =>
    if text = "run\x00A" then "155789bcce2b89bb47aa82bb2d5f262a34e56b3647e8309ff8c08bdaf154b123"
    else "34efacd8ae7084c00776dfa72d1ed5ce9810a507b0e67ad00f64bb3f5a2dea4a"

end SceneWorks.FilmTimeline
