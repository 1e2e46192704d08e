import SceneWorks.WorkflowEnvelope.Shapes

/-!
The envelope itself: its fields, its wire form, the reduction that both directions run, the
reader, and the builder that a write seam embeds from. How the decoder words a refusal and
how it spells a float are parameters (`Serde`).
-/

namespace SceneWorks.WorkflowEnvelope

open JsonObject (get record)
open ImageRequest

def workflowShareMarkerKey : String := "sceneworksWorkflow"

def workflowKindImage : String := "image"

def workflowKindVideo : String := "video"

def workflowKinds : List String := [workflowKindImage, workflowKindVideo]

def workflowShareSchemaVersion : UInt32 := 1

structure WorkflowProducer where
  name : String
  url : String
  version : String
  deriving DecidableEq

def WorkflowProducer.default : WorkflowProducer where
  name := "SceneWorks"
  url := "https://github.com/SceneWorks/SceneWorks"
  version := "0.10.4"

structure WorkflowInput where
  kind : String
  count : UInt32
  controlMode : Option String
  deriving DecidableEq

structure WorkflowLora where
  name : Option String
  weight : Option F64
  repo : Option String
  hash : Option String
  deriving DecidableEq

structure WorkflowUpscale where
  enabled : Bool
  factor : Option UInt32
  engine : Option String
  softness : Option F64
  scale : Option F64
  inputSizing : Option String
  colorFix : Option Bool
  deriving DecidableEq

structure WorkflowShare where
  kind : String
  schemaVersion : UInt32
  producer : WorkflowProducer
  mode : String
  model : String
  modelHash : Option String
  prompt : String
  negativePrompt : String
  seed : Option Int64
  width : Option UInt32
  height : Option UInt32
  count : Option UInt32
  durationSeconds : Option F64
  fps : Option UInt32
  quality : Option String
  stylePreset : Option String
  styleId : Option String
  fitMode : Option String
  upscale : Option WorkflowUpscale
  loras : List WorkflowLora
  inputs : List WorkflowInput
  advanced : JsonObject
  omitted : List String
  deriving DecidableEq

inductive WorkflowShareError where
  | notAnObject
  | missingMarker
  | unsupportedKind (found supported : String)
  | missingSchemaVersion
  | unsupportedSchemaVersion (file supported : UInt32)
  | malformed (field detail : String)
  | tooLarge (bytes limit : Nat)
  deriving DecidableEq

structure Serde where
  decodeError : Json → String
  floatBytes : UInt64 → Nat

section Wire

def WorkflowProducer.slots (producer : WorkflowProducer) : List (String × Option Json) :=
  [("name", some (.str producer.name)), ("url", some (.str producer.url)),
    ("version", some (.str producer.version))]

def WorkflowProducer.toValue (producer : WorkflowProducer) : Json := .obj (record producer.slots)

def WorkflowProducer.ofValue (value : Json) : Option WorkflowProducer := do
  let fields ← value.asStruct ["name", "url", "version"]
  let name ← (get fields "name").bind Json.asStr
  let url ← (get fields "url").bind Json.asStr
  let version ← (get fields "version").bind Json.asStr
  some { name, url, version }

def WorkflowInput.slots (input : WorkflowInput) : List (String × Option Json) :=
  [("kind", some (.str input.kind)), ("count", some (.ofU32 input.count)),
    ("controlMode", input.controlMode.map .str)]

def WorkflowInput.toValue (input : WorkflowInput) : Json := .obj (record input.slots)

def WorkflowInput.ofValue (value : Json) : Option WorkflowInput := do
  let fields ← value.asStruct ["kind", "count", "controlMode"]
  let kind ← (get fields "kind").bind Json.asStr
  let count ← (get fields "count").bind Json.asU32
  let controlMode ← Json.optional Json.asStr (get fields "controlMode")
  some { kind, count, controlMode }

/-- `deserialize_optional_sha256`: anything that is not a digest counts as absent. -/
def optionalSha256 (value : Option Json) : Option String :=
  (value.bind Json.asStr).bind normalizeSha256

def WorkflowLora.slots (lora : WorkflowLora) : List (String × Option Json) :=
  [("name", lora.name.map .str), ("weight", lora.weight.map .ofF64), ("repo", lora.repo.map .str),
    ("hash", lora.hash.map .str)]

def WorkflowLora.toValue (lora : WorkflowLora) : Json := .obj (record lora.slots)

def WorkflowLora.ofValue (value : Json) : Option WorkflowLora := do
  let fields ← value.asStruct ["name", "weight", "repo", "hash"]
  let name ← Json.optional Json.asStr (get fields "name")
  let weight ← Json.optional Json.asF64 (get fields "weight")
  let repo ← Json.optional Json.asStr (get fields "repo")
  some { name, weight, repo, hash := optionalSha256 (get fields "hash") }

def WorkflowUpscale.slots (upscale : WorkflowUpscale) : List (String × Option Json) :=
  [("enabled", some (.bool upscale.enabled)), ("factor", upscale.factor.map .ofU32),
    ("engine", upscale.engine.map .str), ("softness", upscale.softness.map .ofF64),
    ("scale", upscale.scale.map .ofF64), ("inputSizing", upscale.inputSizing.map .str),
    ("colorFix", upscale.colorFix.map .bool)]

def WorkflowUpscale.toValue (upscale : WorkflowUpscale) : Json := .obj (record upscale.slots)

def WorkflowUpscale.ofValue (value : Json) : Option WorkflowUpscale := do
  let fields ← value.asStruct
    ["enabled", "factor", "engine", "softness", "scale", "inputSizing", "colorFix"]
  let enabled ← (get fields "enabled").bind Json.asBool
  let factor ← Json.optional Json.asU32 (get fields "factor")
  let engine ← Json.optional Json.asStr (get fields "engine")
  let softness ← Json.optional Json.asF64 (get fields "softness")
  let scale ← Json.optional Json.asF64 (get fields "scale")
  let inputSizing ← Json.optional Json.asStr (get fields "inputSizing")
  let colorFix ← Json.optional Json.asBool (get fields "colorFix")
  some { enabled, factor, engine, softness, scale, inputSizing, colorFix }

/-- A collection that is left out of the wire form when it is empty. -/
def wireItems {α : Type} (encode : α → Json) (items : List α) : Option Json :=
  nonemptyArray (items.map encode)

def WorkflowShare.slots (share : WorkflowShare) : List (String × Option Json) :=
  [(workflowShareMarkerKey, some (.str share.kind)),
    ("schemaVersion", some (.ofU32 share.schemaVersion)),
    ("producer", some share.producer.toValue), ("mode", some (.str share.mode)),
    ("model", some (.str share.model)), ("modelHash", share.modelHash.map .str),
    ("prompt", some (.str share.prompt)),
    ("negativePrompt",
      if share.negativePrompt = "" then none else some (.str share.negativePrompt)),
    ("seed", share.seed.map .ofI64), ("width", share.width.map .ofU32),
    ("height", share.height.map .ofU32), ("count", share.count.map .ofU32),
    ("durationSeconds", share.durationSeconds.map .ofF64), ("fps", share.fps.map .ofU32),
    ("quality", share.quality.map .str), ("stylePreset", share.stylePreset.map .str),
    ("styleId", share.styleId.map .str), ("fitMode", share.fitMode.map .str),
    ("upscale", share.upscale.map WorkflowUpscale.toValue),
    ("loras", wireItems WorkflowLora.toValue share.loras),
    ("inputs", wireItems WorkflowInput.toValue share.inputs),
    ("advanced", nonemptyObject share.advanced), ("omitted", wireItems .str share.omitted)]

/-- `serde_json::to_value`. -/
def WorkflowShare.toValue (share : WorkflowShare) : Json := .obj (record share.slots)

/-- `serde_json::from_value` of an object. -/
def WorkflowShare.ofFields (fields : JsonObject) : Option WorkflowShare := do
  let kind ← (get fields workflowShareMarkerKey).bind Json.asStr
  let schemaVersion ← (get fields "schemaVersion").bind Json.asU32
  let producer ← (get fields "producer").bind WorkflowProducer.ofValue
  let mode ← (get fields "mode").bind Json.asStr
  let model ← (get fields "model").bind Json.asStr
  let prompt ← (get fields "prompt").bind Json.asStr
  let negativePrompt ← Json.orDefault Json.asStr "" (get fields "negativePrompt")
  let seed ← Json.optional Json.asInt64 (get fields "seed")
  let width ← Json.optional Json.asU32 (get fields "width")
  let height ← Json.optional Json.asU32 (get fields "height")
  let count ← Json.optional Json.asU32 (get fields "count")
  let durationSeconds ← Json.optional Json.asF64 (get fields "durationSeconds")
  let fps ← Json.optional Json.asU32 (get fields "fps")
  let quality ← Json.optional Json.asStr (get fields "quality")
  let stylePreset ← Json.optional Json.asStr (get fields "stylePreset")
  let styleId ← Json.optional Json.asStr (get fields "styleId")
  let fitMode ← Json.optional Json.asStr (get fields "fitMode")
  let upscale ← Json.optional WorkflowUpscale.ofValue (get fields "upscale")
  let loras ← Json.orDefault (Json.items WorkflowLora.ofValue) [] (get fields "loras")
  let inputs ← Json.orDefault (Json.items WorkflowInput.ofValue) [] (get fields "inputs")
  let advanced ← Json.orDefault Json.asObject [] (get fields "advanced")
  let omitted ← Json.orDefault (Json.items Json.asStr) [] (get fields "omitted")
  some { kind, schemaVersion, producer, mode, model,
         modelHash := optionalSha256 (get fields "modelHash"), prompt, negativePrompt, seed, width,
         height, count, durationSeconds, fps, quality, stylePreset, styleId, fitMode, upscale,
         loras, inputs, advanced, omitted }

end Wire

section Reduce

variable (moss : MossCore) (serde : Serde)

def omittedLoras : String := "loras"

def omittedInputs : String := "inputs"

def omittedPoses : String := "advanced.poses"

def omittedPhases : String := "advanced.phases"

def omittedPhaseLoras : String := "advanced.phases[].loras"

/-- The names an omission may have, in their order. -/
def omittedFields : List String :=
  [omittedPhases, omittedPhaseLoras, omittedPoses, omittedInputs, omittedLoras]

/-- Known names only, sorted and without repetition. -/
def reduceOmitted (names : List String) : List String := omittedFields.filter names.contains

def inputKinds : List String :=
  ["source", "reference", "mask", "control", "sourceClip", "referenceClip", "referenceAudio"]

def maxShareInputs : Nat := inputKinds.length

def isWebUrl (value : String) : Bool :=
  let lower := Text.asciiLower value
  ("https://".toList.isPrefixOf lower.toList || "http://".toList.isPrefixOf lower.toList) &&
    !(value.toList.any Text.isWhiteSpace)

def isSemverPart (part : String) : Bool :=
  let chars := part.toList
  chars ≠ [] && chars.length ≤ 6 && chars.all Char.isDigit && (part = "0" || chars.head? ≠ some '0')

def isStrictSemver (value : String) : Bool :=
  let parts := Text.splitOn '.' value
  parts.length = 3 && parts.all isSemverPart

def reduceProducer (producer : WorkflowProducer) : WorkflowProducer where
  name := (shareableLabel producer.name).getD ""
  url := ((shareableLabel producer.url).filter isWebUrl).getD ""
  version := ((shareableLabel producer.version).filter isStrictSemver).getD ""

def reduceLora (lora : WorkflowLora) : Option WorkflowLora :=
  let reduced : WorkflowLora :=
    { name := lora.name.bind shareableLabel
      weight := lora.weight.filter F64.isFinite
      repo := lora.repo.bind hfRepoId
      hash := lora.hash.bind normalizeSha256 }
  if reduced.name.isSome || reduced.weight.isSome || reduced.repo.isSome || reduced.hash.isSome then
    some reduced
  else none

def reduceInput (input : WorkflowInput) : Option WorkflowInput :=
  if inputKinds.contains input.kind then
    some { input with controlMode := input.controlMode.bind shareableLabel }
  else none

def isPositive (value : F64) : Bool := value.isFinite && F64.lt F64.zero value

def isInputSizing (value : String) : Bool := value = "budgeted" || value = "original"

def reduceUpscale (upscale : WorkflowUpscale) : WorkflowUpscale :=
  { upscale with
    engine := upscale.engine.bind shareableLabel
    softness := upscale.softness.filter F64.isFinite
    scale := upscale.scale.filter isPositive
    inputSizing := upscale.inputSizing.filter isInputSizing }

/-- A collection that is kept whole and reduced member by member, or dropped whole. -/
def reduceCapped {α : Type} (max : Nat) (reduce : α → Option α) (items : List α) : List α :=
  if overCap items.length max then [] else items.filterMap reduce

def declares (advanced : JsonObject) (key : String) : Bool :=
  ((get advanced key).bind Json.asArray).any fun values => !values.isEmpty

def hasLoras (phase : Json) : Bool :=
  ((phase.get "loras").bind Json.asArray).any fun loras => !loras.isEmpty

def phasesWithLoras (advanced : JsonObject) : Nat :=
  (((get advanced "phases").bind Json.asArray).map fun phases => phases.countP hasLoras).getD 0

def advancedOmissions (raw sanitized : JsonObject) : List String :=
  ([("poses", omittedPoses), ("phases", omittedPhases)].filterMap fun (key, name) =>
      if declares raw key && !(JsonObject.containsKey sanitized key) then some name else none) ++
    if JsonObject.containsKey sanitized "phases" &&
        phasesWithLoras sanitized < phasesWithLoras raw then
      [omittedPhaseLoras]
    else []

def reduceWorkflowShare (share : WorkflowShare) : WorkflowShare :=
  let loras := reduceCapped maxShareLoras reduceLora share.loras
  let inputs := reduceCapped maxShareInputs reduceInput share.inputs
  let advanced := sanitizeAdvanced moss serde.decodeError share.advanced
  let lost := reduceOmitted share.omitted ++
    (if loras.length < share.loras.length then [omittedLoras] else []) ++
    (if inputs.length < share.inputs.length then [omittedInputs] else []) ++
    advancedOmissions share.advanced advanced
  { share with
    producer := reduceProducer share.producer
    mode := (shareableLabel share.mode).getD ""
    model := (shareableLabel share.model).getD ""
    modelHash := share.modelHash.bind normalizeSha256
    prompt := shareableProse share.prompt
    negativePrompt := shareableProse share.negativePrompt
    durationSeconds := share.durationSeconds.filter F64.isFinite
    quality := share.quality.bind shareableLabel
    stylePreset := share.stylePreset.bind shareableLabel
    styleId := share.styleId.bind shareableLabel
    fitMode := share.fitMode.bind shareableLabel
    upscale := share.upscale.map reduceUpscale
    loras := loras
    inputs := inputs
    advanced := advanced
    omitted := reduceOmitted lost }

def workflowShareMaxBytes : Nat := 160 * 1024

def workflowShareBytes (share : WorkflowShare) : Nat := share.toValue.bytes serde.floatBytes

def withinRecordingCeiling (share : WorkflowShare) : Except WorkflowShareError Unit :=
  if workflowShareMaxBytes < workflowShareBytes serde share then
    .error (.tooLarge (workflowShareBytes serde share) workflowShareMaxBytes)
  else .ok ()

/-- What stands between the first two backticks. -/
def fieldFromSerdeError (text : String) : String :=
  ((Text.splitOn (Char.ofNat 96) text)[1]?).getD "workflow"

/-- The contract version of a file. -/
def readSchemaVersion (object : JsonObject) : Except WorkflowShareError UInt32 :=
  match get object "schemaVersion" with
  | none | some .null => .error .missingSchemaVersion
  | some present =>
      match present.asU32 with
      | some version => .ok version
      | none =>
          .error (.malformed "schemaVersion"
            "must be a whole number (the contract version the file was written with)")

def readKind (object : JsonObject) : Except WorkflowShareError Unit :=
  match get object workflowShareMarkerKey with
  | none => .error .missingMarker
  | some (.str kind) =>
      if workflowKinds.contains kind then .ok ()
      else .error (.unsupportedKind kind (", ".intercalate workflowKinds))
  | some _ => .error (.malformed workflowShareMarkerKey "must be a workflow-kind string")

def parseWorkflowShare (value : Json) : Except WorkflowShareError WorkflowShare := do
  match value with
  | .obj object =>
      readKind object
      let version ← readSchemaVersion object
      if workflowShareSchemaVersion < version then
        .error (.unsupportedSchemaVersion version workflowShareSchemaVersion)
      else
        match WorkflowShare.ofFields object with
        | none =>
            .error (.malformed (fieldFromSerdeError (serde.decodeError value))
              (serde.decodeError value))
        | some share =>
            let reduced := reduceWorkflowShare moss serde share
            withinRecordingCeiling serde reduced
            .ok reduced
  | _ => .error .notAnObject

end Reduce

section Build

structure WorkflowAssetFacts where
  mode : String
  model : String
  prompt : String
  negativePrompt : String
  seed : Int64
  width : Option UInt32
  height : Option UInt32

/-- `moss_image::is_edit`. -/
def isEdit (payload : JsonObject) : Bool := (get payload "mode").bind Json.asStr = some "edit_image"

/-- An id that is spelled exactly. -/
def exactId (value : Json) : Option String :=
  value.asStr.filter fun id => id ≠ "" && Text.trim id = id

/-- A singular carrier, which may only repeat the first slot. -/
def aliasSlot (payload : JsonObject) (key : String) (ids : List String) :
    Except String (List String) :=
  match (get payload key).filter fun value => !value.isNull with
  | none => .ok ids
  | some value =>
      match exactId value, ids with
      | none, _ => .error (key ++ " must be a nonempty exact asset id")
      | some id, [] => .ok [id]
      | some id, first :: _ =>
          if first = id then .ok ids
          else .error (key ++ " conflicts with the ordered MOSS references")

def orderedSlots (payload : JsonObject) : Except String (List String) :=
  match get payload "referenceAssetIds" with
  | none | some .null => .ok []
  | some (.arr values) =>
      match values.mapM exactId with
      | some ids => .ok ids
      | none => .error "referenceAssetIds must contain nonempty exact asset ids"
  | some _ => .error "referenceAssetIds must be an array"

/-- `moss_image::edit_reference_slots`. -/
def editReferenceSlots (payload : JsonObject) : Except String (List String) := do
  let ids ← orderedSlots payload
  let ids ← aliasSlot payload "referenceAssetId" ids
  aliasSlot payload "sourceAssetId" ids

def sanitizeUpscale (value : Option Json) : Option WorkflowUpscale := do
  let upscale ← value.bind Json.asObject
  if ((get upscale "enabled").bind Json.asBool).getD false then
    some
      { enabled := true
        factor := (get upscale "factor").bind Json.asU32
        engine := ((get upscale "engine").bind Json.asStr).bind shareableLabel
        softness := (get upscale "softness").bind Json.asF64
        scale := ((get upscale "scale").bind Json.asF64).filter isPositive
        inputSizing := ((get upscale "inputSizing").bind Json.asStr).filter isInputSizing
        colorFix := (get upscale "colorFix").bind Json.asBool }
  else none

/-- The repository a catalog entry resolved to. -/
def loraRepo (entry : JsonObject) : Option String := do
  let source ← (get entry "source").bind Json.asObject
  if (get source "provider").bind Json.asStr = some "huggingface" then
    (get source "repo").bind Json.asStr
  else none

def sanitizeLoras (value : Option Json) : List WorkflowLora :=
  (((value.bind Json.asArray).getD []).filterMap Json.asObject).filterMap fun entry =>
    reduceLora
      { name := (get entry "name").bind Json.asStr
        weight := (get entry "weight").bind Json.asF64
        repo := loraRepo entry
        hash := none }

def isNamed (value : Json) : Bool := value.asStr.any fun id => Text.trim id ≠ ""

def hasId (payload : JsonObject) (key : String) : Bool := (get payload key).any isNamed

def idListLen (payload : JsonObject) (key : String) : Nat :=
  (((get payload key).bind Json.asArray).map fun values => values.countP isNamed).getD 0

def clampU32 (n : Nat) : UInt32 := if n < 2 ^ 32 then UInt32.ofNat n else UInt32.ofNat (2 ^ 32 - 1)

/-- The descriptor of a kind, if there is anything of it. -/
def inputOf (kind : String) (count : Nat) (controlMode : Option String) : List WorkflowInput :=
  if 0 < count then [⟨kind, clampU32 count, controlMode⟩] else []

def describeInputs (payload : JsonObject) (mossEdit : Bool) : List WorkflowInput :=
  let one (present : Bool) : Nat := if present then 1 else 0
  let references :=
    if mossEdit then
      match editReferenceSlots payload with
      | .ok ids => ids.length
      | .error _ => 0
    else one (hasId payload "referenceAssetId") + idListLen payload "referenceAssetIds"
  let advanced := (get payload "advanced").bind Json.asObject
  let controlImage := (advanced.bind fun advanced => get advanced "controlImage").any isNamed
  let controlMode :=
    ((advanced.bind fun advanced => get advanced "controlMode").bind Json.asStr).bind shareableLabel
  inputOf "source" (one (!mossEdit && hasId payload "sourceAssetId") +
      one (hasId payload "lastFrameAssetId")) none ++
    inputOf "reference" references none ++
    inputOf "mask" (one (hasId payload "maskAssetId")) none ++
    inputOf "sourceClip" (one (hasId payload "sourceClipAssetId") +
      one (hasId payload "bridgeRightClipAssetId") + idListLen payload "sourceClipAssetIds") none ++
    inputOf "referenceClip" (one (hasId payload "referenceClipAssetId")) none ++
    inputOf "referenceAudio" (idListLen payload "referenceAudioAssetIds") none ++
    inputOf "control" (one controlImage) controlMode

/-- One step of a JSON pointer. -/
def pointerStep (value : Json) (token : String) : Option Json :=
  match value with
  | .obj fields => get fields token
  | .arr items => (Text.parseDigits token.toList).bind fun index => items[index]?
  | _ => none

/-- The seed of this image, unless exact noise stands in for it. -/
def shareSeed (facts : WorkflowAssetFacts) (payload : JsonObject) : Option Int64 :=
  let advanced := get payload "advanced"
  let noise := (advanced.bind (·.get "mossImageAdvanced")).bind (·.get "noise")
  if noise.any fun value => !value.isNull then none
  else if isEdit payload && (advanced.bind (·.get "mossImageAdvanced")).isSome then
    let reported := (advanced.bind (·.get "mossImageEditExecutionReport")).bind fun report =>
      ["base", "samples", "0", "seed"].foldlM pointerStep report
    (((get payload "seed").bind Json.asInt64).or (reported.bind Json.asInt64)).or (some facts.seed)
  else some facts.seed

variable (moss : MossCore) (serde : Serde)

/-- The raw envelope of a payload. -/
def rawShareOfKind (kind : String) (facts : WorkflowAssetFacts) (payload : JsonObject) :
    WorkflowShare :=
  let text (key : String) := (get payload key).bind Json.asStr
  let u32 (key : String) := (get payload key).bind Json.asU32
  let mode := (text "mode").getD facts.mode
  let model := (text "model").getD facts.model
  let isVideo : Bool := kind = workflowKindVideo
  let referenceOutput :=
    if !isVideo && Flux3.isModel model then
      (Flux3.parse payload).toOption.filter fun intent => !intent.assetIds.isEmpty
    else none
  let mossEdit := moss.isProviderId model && mode = "edit_image"
  let invalidReferences := mossEdit &&
    match editReferenceSlots payload with
    | .ok ids => ids.isEmpty || 4 < ids.length
    | .error _ => true
  { kind := kind
    schemaVersion := workflowShareSchemaVersion
    producer := .default
    mode := mode
    model := model
    modelHash := none
    prompt := (text "prompt").getD facts.prompt
    negativePrompt := (text "negativePrompt").getD facts.negativePrompt
    seed := shareSeed facts payload
    width :=
      match referenceOutput with
      | some intent => intent.width
      | none => (u32 "width").or facts.width
    height :=
      match referenceOutput with
      | some intent => intent.height
      | none => (u32 "height").or facts.height
    count := u32 "count"
    durationSeconds := if isVideo then (get payload "duration").bind Json.asF64 else none
    fps := if isVideo then u32 "fps" else none
    quality := if isVideo then text "quality" else none
    stylePreset := text "stylePreset"
    styleId := text "styleId"
    fitMode := text "fitMode"
    upscale := sanitizeUpscale (get payload "upscale")
    loras := sanitizeLoras (get payload "loras")
    inputs := describeInputs payload mossEdit
    advanced := ((get payload "advanced").bind Json.asObject).getD []
    omitted := if invalidReferences then [omittedInputs] else [] }

def buildShareOfKind (kind : String) (facts : WorkflowAssetFacts) (payload : JsonObject) :
    WorkflowShare :=
  reduceWorkflowShare moss serde (rawShareOfKind moss kind facts payload)

/-- The envelope to embed, if there is one to embed. -/
def embeddableOfKind (kind : String) (facts : WorkflowAssetFacts) (payload : JsonObject) :
    Option WorkflowShare :=
  let share := buildShareOfKind moss serde kind facts payload
  (withinRecordingCeiling serde share).toOption.map fun _ => share

def embeddableWorkflowShare (facts : WorkflowAssetFacts) (payload : JsonObject) :
    Option WorkflowShare :=
  embeddableOfKind moss serde workflowKindImage facts payload

def embeddableVideoWorkflowShare (facts : WorkflowAssetFacts) (payload : JsonObject) :
    Option WorkflowShare :=
  embeddableOfKind moss serde workflowKindVideo facts payload

end Build

end SceneWorks.WorkflowEnvelope
