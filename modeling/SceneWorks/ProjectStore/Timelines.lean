import SceneWorks.Library.Text
import SceneWorks.FilmTimeline.Deliver
import SceneWorks.Library.Run

/-!
The timeline aggregate of the project store: the defaults and checks of a document, the
compare-and-swap save, and the delivery that reads, merges and saves under one lock. The
store is the document kept for one timeline; a call that fails leaves it as it was.
-/

namespace SceneWorks.ProjectStore

open FilmTimeline

/-- The random identifiers a call draws, in order; a source that runs dry fails the call. -/
abbrev Draws := StateT (List String) (Except ProjectStoreError)

def randomHex : Draws String := fun supply =>
  match supply with
  | [] => .error (.io "random source")
  | hex :: rest => .ok (hex, rest)

def requiredStr (payload : Json) (key : String) : Except ProjectStoreError String :=
  orBadRequest s!"Missing required field: {key}" ((payload.get key).bind Json.asStr)

def validateRequiredString (payload : Json) (key : String) (minLength maxLength : Option Nat) :
    Except ProjectStoreError Unit := do
  let value ← requiredStr payload key
  match minLength.filter (value.length < ·), maxLength.filter (· < value.length) with
  | some min, _ => .error (.badRequest s!"{key} must be at least {min} characters")
  | none, some max => .error (.badRequest s!"{key} must be at most {max} characters")
  | none, none => .ok ()

def validateEnum (payload : Json) (key : String) (allowed : List String) :
    Except ProjectStoreError Unit := do
  let value ← requiredStr payload key
  if allowed.contains value then .ok ()
  else .error (.badRequest s!"Unsupported value for {key}: {value}")

def validateBool (payload : Json) (key : String) : Except ProjectStoreError Unit :=
  if ((payload.get key).bind Json.asBool).isNone then
    .error (.badRequest s!"{key} must be a boolean")
  else .ok ()

def validateU64Range (payload : Json) (key : String) (min max : Nat) :
    Except ProjectStoreError Nat := do
  let value ← orBadRequest s!"{key} must be an integer" ((payload.get key).bind Json.asU64)
  if value < min ∨ max < value then
    .error (.badRequest s!"{key} must be between {min} and {max}")
  else .ok value

/-- A bound with the text it is displayed as. -/
structure Bound where
  value : F64
  text : String

def Bound.whole (n : Nat) : Bound := ⟨F64.ofInt n, toString n⟩

def Bound.tenth : Bound := ⟨F64.ofRatio 1 10, "0.1"⟩

def Bound.infinity : Bound := ⟨F64.encode (.infinite false), "inf"⟩

def validateF64Range (payload : Json) (key : String) (min max : Bound) :
    Except ProjectStoreError F64 := do
  let value ← orBadRequest s!"{key} must be a number" ((payload.get key).bind Json.asF64)
  if !value.isFinite || F64.lt value min.value || F64.lt max.value value then
    let low := min.text
    let high := max.text
    .error (.badRequest s!"{key} must be between {low} and {high}")
  else .ok value

/-- `entry(key).or_insert(value)` for each default in turn. -/
@[irreducible]
def withDefaults (defaults : List (String × Json)) (fields : JsonObject) : JsonObject :=
  defaults.foldl (fun acc default => JsonObject.orInsert acc default.1 default.2) fields

def insertAll (entries : List (String × Json)) (fields : JsonObject) : JsonObject :=
  entries.foldl (fun acc entry => JsonObject.insert acc entry.1 entry.2) fields

/-- A missing or null id is drawn. -/
def ensureId (label : String) (fields : JsonObject) : Draws JsonObject :=
  match JsonObject.get fields "id" with
  | none | some .null => do
      let hex ← randomHex
      return JsonObject.insert fields "id" (.str (label ++ hex))
  | some _ => pure fields

def asObjectMut (detail : String) (value : Json) : Except ProjectStoreError JsonObject :=
  orBadRequest detail value.asObject

def validateTimelineTransition (transition : Json) : Draws Json := do
  let fields ← asObjectMut "Timeline transition must be an object" transition
  let fields ← ensureId "transition_" fields
  let fields := withDefaults [("type", .str "cut"), ("duration", .ofF64 F64.zero)] fields
  validateRequiredString (.obj fields) "id" (some 1) none
  validateEnum (.obj fields) "type" ["cut", "crossfade", "fade_from_black", "fade_to_black"]
  let _ ← validateF64Range (.obj fields) "duration" (.whole 0) (.whole 10)
  return .obj fields

def validateTimelineItemVersion (version : Json) : Except ProjectStoreError Json := do
  validateRequiredString version "assetId" (some 1) none
  let fields ← asObjectMut "Timeline item version must be an object" version
  let fields := withDefaults [("source", .str "manual")] fields
  validateEnum (.obj fields) "source"
    ["original", "replacement", "extension", "bridge", "restore", "manual"]
  return .obj fields

def timelineGeneratedAudio : List String := ["include", "mute"]

def itemDefaults : List (String × Json) :=
  [("type", .str "video"), ("sourceIn", .ofF64 F64.zero), ("sourceOut", .ofF64 (F64.ofInt 4)),
    ("timelineStart", .ofF64 F64.zero), ("timelineEnd", .ofF64 (F64.ofInt 4)),
    ("speed", .ofF64 (F64.ofInt 1)), ("fit", .str "fit"), ("volume", .ofF64 (F64.ofInt 1)),
    ("fadeInSeconds", .ofF64 F64.zero), ("fadeOutSeconds", .ofF64 F64.zero),
    ("generatedAudio", .str "mute"), ("versionAssetIds", .arr []), ("versionHistory", .arr [])]

/-- The optional picture transition under a key. -/
def validateItemTransition (key : String) (fields : JsonObject) : Draws JsonObject :=
  match JsonObject.get fields key with
  | none | some .null => pure fields
  | some transition => do
      let transition ← validateTimelineTransition transition
      return JsonObject.write fields key transition

/-- The numbers of an item, in the order they are checked and written back. -/
def itemNumbers (item : Json) : Except ProjectStoreError (List (String × F64)) := do
  let sourceIn ← validateF64Range item "sourceIn" (.whole 0) .infinity
  let sourceOut ← validateF64Range item "sourceOut" (.whole 0) .infinity
  let timelineStart ← validateF64Range item "timelineStart" (.whole 0) .infinity
  let timelineEnd ← validateF64Range item "timelineEnd" (.whole 0) .infinity
  let speed ← validateF64Range item "speed" .tenth (.whole 8)
  validateEnum item "fit" ["fit", "fill", "stretch"]
  let volume ← validateF64Range item "volume" (.whole 0) (.whole 2)
  let fadeIn ← validateF64Range item "fadeInSeconds" (.whole 0) (.whole 60)
  let fadeOut ← validateF64Range item "fadeOutSeconds" (.whole 0) (.whole 60)
  return [("sourceIn", sourceIn), ("sourceOut", sourceOut), ("timelineStart", timelineStart),
    ("timelineEnd", timelineEnd), ("speed", speed), ("volume", volume), ("fadeInSeconds", fadeIn),
    ("fadeOutSeconds", fadeOut)]

/-- An item whose window is empty is refused. -/
def validateWindow (item : Json) (start stop detail : String) : Except ProjectStoreError Unit :=
  if F64.le (number item stop) (number item start) then .error (.badRequest detail) else .ok ()

/-- The item with an id and every field it may leave out. -/
def defaultItem (item : Json) : Draws JsonObject := do
  let _ ← requiredStr item "trackId"
  validateRequiredString item "assetId" (some 1) none
  validateRequiredString item "displayName" (some 1) (some 160)
  let fields ← asObjectMut "Timeline item must be an object" item
  let fields ← ensureId "item_" fields
  return withDefaults itemDefaults fields

/-- The versions of an item, each with its source. -/
def checkVersions (fields : JsonObject) : Except ProjectStoreError JsonObject := do
  let _ ← orBadRequest "versionAssetIds must be an array"
    ((JsonObject.get fields "versionAssetIds").bind Json.asArray)
  let versions ← orBadRequest "versionHistory must be an array"
    ((JsonObject.get fields "versionHistory").bind Json.asArray)
  let versions ← versions.mapM validateTimelineItemVersion
  return JsonObject.write fields "versionHistory" (.arr versions)

def checkItem (fields : JsonObject) : Except ProjectStoreError JsonObject := do
  validateRequiredString (.obj fields) "id" (some 1) none
  validateEnum (.obj fields) "type" ["video", "image", "audio"]
  let numbers ← itemNumbers (.obj fields)
  validateEnum (.obj fields) "generatedAudio" timelineGeneratedAudio
  let fields := insertAll (numbers.map fun entry => (entry.1, Json.ofF64 entry.2)) fields
  let fields := withDefaults [("transitionIn", .null), ("transitionOut", .null)] fields
  validateWindow (.obj fields) "sourceIn" "sourceOut" "sourceOut must be greater than sourceIn."
  validateWindow (.obj fields) "timelineStart" "timelineEnd"
    "timelineEnd must be greater than timelineStart."
  checkVersions fields

def validateTimelineItem (item : Json) : Draws Json := do
  let fields ← defaultItem item
  let fields ← checkItem fields
  let fields ← validateItemTransition "transitionIn" fields
  let fields ← validateItemTransition "transitionOut" fields
  return .obj fields

def timelineTrackRoles : List String :=
  ["picture", "overlay", "dialogue", "ambience", "music", "sfx", "sound"]

def defaultTrackRole (kind : String) : String :=
  if kind = "overlay" then "overlay" else if kind = "audio" then "sound" else "picture"

def defaultRole (kind : String) (fields : JsonObject) : JsonObject :=
  match JsonObject.get fields "role" with
  | none | some .null => JsonObject.insert fields "role" (.str (defaultTrackRole kind))
  | some _ => fields

/-- The track with every field it may leave out, and its items checked to be a list. -/
def defaultTrackFields (track : Json) : Except ProjectStoreError JsonObject := do
  let _ ← requiredStr track "id"
  let _ ← requiredStr track "name"
  validateEnum track "kind" ["video", "overlay", "audio"]
  let kind ← requiredStr track "kind"
  let fields ← asObjectMut "Timeline track must be an object" track
  let fields := withDefaults
    [("locked", .bool false), ("muted", .bool false), ("gain", .ofF64 (F64.ofInt 1))] fields
  return withDefaults [("items", .arr [])] (defaultRole kind fields)

def checkTrack (fields : JsonObject) : Except ProjectStoreError JsonObject := do
  validateBool (.obj fields) "locked"
  validateBool (.obj fields) "muted"
  validateEnum (.obj fields) "role" timelineTrackRoles
  let gain ← validateF64Range (.obj fields) "gain" (.whole 0) (.whole 4)
  return JsonObject.insert fields "gain" (.ofF64 gain)

/-- Each element of the list under a key is replaced by its checked form. -/
def validateEach (key detail : String) (check : Json → Draws Json) (fields : JsonObject) :
    Draws JsonObject := do
  let xs ← orBadRequest detail ((JsonObject.get fields key).bind Json.asArray)
  let xs ← xs.mapM check
  return JsonObject.write fields key (.arr xs)

def validateTimelineTrack (track : Json) : Draws Json := do
  let fields ← defaultTrackFields track
  let fields ← checkTrack fields
  let fields ← validateEach "items" "track items must be an array" validateTimelineItem fields
  return .obj fields

def timelineDefaults : List (String × Json) :=
  [("schemaVersion", .int 1), ("aspectRatio", .str "16:9"), ("width", .int 1280),
    ("height", .int 720), ("fps", .int 30), ("duration", .ofF64 F64.zero), ("tracks", .arr []),
    ("transitions", .arr [])]

def checkTimeline (fields : JsonObject) : Except ProjectStoreError Unit := do
  let _ ← validateU64Range (.obj fields) "schemaVersion" 0 (2 ^ 32 - 1)
  validateEnum (.obj fields) "aspectRatio" ["16:9", "9:16", "1:1"]
  let _ ← validateU64Range (.obj fields) "width" 256 3840
  let _ ← validateU64Range (.obj fields) "height" 256 3840
  let _ ← validateU64Range (.obj fields) "fps" 1 60
  let _ ← validateF64Range (.obj fields) "duration" (.whole 0) .infinity

def validateAndDefaultTimeline (timeline : Json) : Draws Json := do
  let fields ← asObjectMut "Timeline must be an object" timeline
  let fields := withDefaults timelineDefaults fields
  checkTimeline fields
  let fields ← validateEach "tracks" "tracks must be an array" validateTimelineTrack fields
  let fields ← validateEach "transitions" "transitions must be an array"
    validateTimelineTransition fields
  return .obj fields

def computeTimelineDuration (timeline : Json) : F64 :=
  maxEnd ((items timeline).filterMap fun item => (item.get "timelineEnd").bind Json.asF64)

def originalVersion (asset : String) : Json :=
  .arr [.obj [("assetId", .str asset), ("createdAt", .null), ("jobId", .null), ("note", .null),
    ("source", .str "original")]]

/-- The asset of an item is among its versions and its history starts somewhere. -/
def normalizeItem : Json → Json
  | .obj fields =>
      match (JsonObject.get fields "assetId").bind Json.asStr with
      | none => .obj fields
      | some asset =>
          let fields := withDefaults
            [("currentVersionAssetId", .str asset), ("versionAssetIds", .arr [])] fields
          let fields :=
            match JsonObject.get fields "versionAssetIds" with
            | some (.arr ids) =>
                if ids.any fun id => id.asStr == some asset then fields
                else JsonObject.write fields "versionAssetIds" (.arr (ids ++ [.str asset]))
            | _ => fields
          match (JsonObject.get fields "versionHistory").bind Json.asArray with
          | none | some [] =>
              .obj (JsonObject.insert fields "versionHistory" (originalVersion asset))
          | some (_ :: _) => .obj fields
  | item => item

def normalizeTrack (track : Json) : Json :=
  match track.idx "items" with
  | .arr xs => setItems (xs.map normalizeItem) track
  | _ => track

def normalizeTimelineItems : Json → Json
  | .obj fields =>
      match JsonObject.get fields "tracks" with
      | some (.arr ts) => .obj (JsonObject.write fields "tracks" (.arr (ts.map normalizeTrack)))
      | _ => .obj fields
  | timeline => timeline

def defaultTrack (id name kind role : String) : Json :=
  .obj [("gain", .ofF64 (F64.ofInt 1)), ("id", .str id), ("items", .arr []), ("kind", .str kind),
    ("locked", .bool false), ("muted", .bool false), ("name", .str name), ("role", .str role)]

def defaultTimelineTracks : Json :=
  .arr [defaultTrack "track_main" "Main" "video" "picture",
    defaultTrack "track_overlay" "Overlay" "overlay" "overlay",
    defaultTrack "track_audio" "Audio" "audio" "sound"]

def isSafeId (id : String) : Bool :=
  !id.isEmpty && id.toList.all fun c => Text.isAsciiAlphanumeric c || c == '_' || c == '-'

/-- What a call finds around it: the project it names, the clock and the random source. -/
structure CallEnv where
  projectId : String
  now : String
  random : List String

/-- The fields every saved document gets. -/
def stampTimeline (now : String) (fields : JsonObject) : JsonObject :=
  let duration := computeTimelineDuration (.obj fields)
  let fields :=
    match JsonObject.get fields "createdAt" with
    | none | some .null => JsonObject.insert fields "createdAt" (.str now)
    | some _ => fields
  let fields := insertAll [("updatedAt", .str now), ("duration", .ofF64 duration)] fields
  let fields :=
    match JsonObject.get fields "tracks" with
    | some (.arr (_ :: _)) => fields
    | _ => JsonObject.insert fields "tracks" defaultTimelineTracks
  withDefaults [("transitions", .arr [])] fields

/-- The document the save settles on: the checks that come after the reconciliation. -/
def settleTimeline (env : CallEnv) (timeline : Json) : Except ProjectStoreError Json := do
  let project ← requiredStr timeline "projectId"
  if project ≠ env.projectId then .error (.badRequest "Project ID mismatch")
  else
    let name ← requiredStr timeline "name"
    if name.isEmpty then .error (.badRequest "Timeline name is required")
    else
      let (timeline, _) ← validateAndDefaultTimeline timeline env.random
      let fields ← asObjectMut "Timeline must be an object" timeline
      .ok (normalizeTimelineItems (.obj (stampTimeline env.now fields)))

def revisionConflict (id : String) (expected current : Nat) : ProjectStoreError :=
  .timelineConflict "timeline_revision_conflict"
    (.obj [("currentRevision", .int current), ("expectedRevision", .int expected),
      ("timelineId", .str id)])

/-- The reconciliation with the stored cut; a new timeline has none. -/
def reconcileStored (existing : Option Json) (timeline : Json) (nextRevision : Nat) :
    Except ProjectStoreError Json :=
  match existing with
  | none => .ok timeline
  | some previous => do
      validateMetadata previous
      orPanic (reconcileCut previous timeline nextRevision)

def saveTimeline (env : CallEnv) (existing : Option Json) (timeline : Json) :
    Except ProjectStoreError Json := do
  let id ← requiredStr timeline "id"
  if !(isSafeId id) then .error (.badRequest "Invalid timeline id")
  else
    let current := (existing.map revision).getD 0
    if (timeline.get "revision").any fun value => value.asU64.isNone then
      .error (.badRequest "revision must be a non-negative integer")
    else if revision timeline ≠ current then
      .error (revisionConflict id (revision timeline) current)
    else
      validateMetadata timeline
      let timeline ← reconcileStored existing timeline (current + 1)
      let timeline ← orPanic (timeline.put ["revision"] (.int (current + 1)))
      settleTimeline env timeline

def saveExistingTimeline (env : CallEnv) (timelineId : String) (existing : Option Json)
    (timeline : Json) : Except ProjectStoreError Json := do
  let id ← requiredStr timeline "id"
  if id ≠ timelineId then .error (.badRequest "Timeline ID mismatch")
  else if existing.isNone then .error (.notFound "Timeline not found")
  else saveTimeline env existing timeline

def deliverFilmTimeline (env : CallEnv) (film : DeliveryEnv) (timelineId : String)
    (existing : Option Json) (delivery : Json) : Except ProjectStoreError Json := do
  let before ←
    match existing with
    | some timeline => .ok timeline
    | none => .error (.notFound "Timeline not found")
  let stale := ((delivery.get "expectedRevision").bind Json.asU64).filter (· ≠ revision before)
  match stale with
  | some expected => .error (revisionConflict timelineId expected (revision before))
  | none =>
      let timeline ← deliver film before delivery
      if Json.valueEq timeline before then .ok before
      else saveExistingTimeline env timelineId existing timeline

/-- The calls that write a timeline. -/
inductive TimelineCall where
  | save (env : CallEnv) (document : Json)
  | deliver (env : CallEnv) (film : DeliveryEnv) (payload : Json)

def TimelineCall.run (timelineId : String) (stored : Option Json) :
    TimelineCall → Except ProjectStoreError Json
  | .save env document =>
      if (document.get "id").bind Json.asStr = some timelineId then
        saveTimeline env stored document
      else .error (.badRequest "Timeline ID mismatch")
  | .deliver env film payload => deliverFilmTimeline env film timelineId stored payload

/-- The document kept for the timeline after a call. -/
def timelineStep (timelineId : String) (stored : Option Json) (c : TimelineCall) : Option Json :=
  match c.run timelineId stored with
  | .ok document => some document
  | .error _ => stored

end SceneWorks.ProjectStore
