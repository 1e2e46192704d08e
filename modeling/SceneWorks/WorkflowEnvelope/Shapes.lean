import SceneWorks.H3Veda
import SceneWorks.ImageRequest.Flux3
import SceneWorks.WorkflowEnvelope.Labels

/-!
The `advanced` map of an envelope: which of its keys travel, and how the value of each is
reduced by the shape of its key. The three MOSS shapes whose documents belong to the native
core, and the output kind inside a fourth, are parameters (`MossCore`).
-/

namespace SceneWorks.WorkflowEnvelope

open JsonObject (get select record)
open ImageRequest

inductive AdvancedShape where
  | appearance | scalar | structuredPrompt | poses | h3VedaSettings
  | mossImageOptions | mossImageReport | mossImageEditOptions | mossImageEditReport
  | mossImageAdvanced | promptBatch | sampleIndex | phases | numberPair | flux3Layout | stringList
  deriving DecidableEq

/-- The native core: its documents in the form they are written back, and its models. -/
structure MossCore where
  options : Json → Option Json
  executionReport : Json → Option Json
  editExecutionReport : Json → Option Json
  outputKind : Json → Option Json
  defaultOutputKind : Json
  isProviderId : String → Bool

/-- The keys that travel, with their shapes; a key that is denied is like an unknown one. -/
def advancedKeyRules : List (String × AdvancedShape) :=
  [("flux3_layout", .flux3Layout), ("flux3_reference_ids", .stringList),
    ("mossImageEdit", .mossImageEditOptions),
    ("mossImageEditExecutionReport", .mossImageEditReport),
    ("mossImageAdvanced", .mossImageAdvanced), ("promptBatch", .promptBatch),
    ("mossImageSampleIndex", .sampleIndex), ("mossImage", .mossImageOptions),
    ("mossImageExecutionReport", .mossImageReport), ("resolution", .scalar),
    ("structuredPrompt", .structuredPrompt), ("sampler", .scalar), ("scheduler", .scalar),
    ("schedulerShift", .scalar), ("cfgInterval", .numberPair), ("captionOverflow", .scalar),
    ("steps", .scalar), ("guidanceScale", .scalar), ("guidanceMethod", .scalar),
    ("enhancePrompt", .scalar), ("transparentBackground", .scalar), ("usePid", .scalar),
    ("decoder", .scalar), ("pidTarget", .scalar), ("ipAdapterScale", .scalar),
    ("controlnetConditioningScale", .scalar), ("trueCfgScale", .scalar), ("strength", .scalar),
    ("textStyleGain", .scalar), ("viewAngle", .scalar), ("poses", .poses),
    ("faceRestore", .scalar), ("controlMode", .scalar), ("controlScale", .scalar),
    ("appearance", .appearance), ("appearancePromptBatch", .promptBatch),
    ("appearancePrompt", .scalar), ("appearanceNegativePrompt", .scalar), ("styleId", .scalar),
    ("stylePrompt", .scalar), ("cnScale", .scalar), ("angleSet", .scalar),
    ("systemMessage", .scalar), ("imageGuidanceScale", .scalar), ("phases", .phases),
    ("motion", .scalar), ("ltxPipeline", .scalar), ("distilledVariant", .scalar),
    ("transformerVariant", .scalar), ("vaeDecoder", .scalar), ("autoDuration", .scalar),
    ("autoDurationMinSeconds", .scalar), ("autoDurationMaxSeconds", .scalar),
    ("temporalUpsampleRounds", .scalar), ("textEncoderModel", .scalar), ("lightning", .scalar),
    ("videoCfgGuidanceScale", .scalar), ("videoStgGuidanceScale", .scalar),
    ("videoRescaleScale", .scalar), ("videoConditioningStrength", .scalar),
    ("bridgeRightVideoConditioningStrength", .scalar), ("veda", .h3VedaSettings),
    ("timelineAction", .scalar)]

def advancedKeyRule (key : String) : Option AdvancedShape := advancedKeyRules.lookup key

def proseKeys : List String :=
  ["appearancePrompt", "appearanceNegativePrompt", "stylePrompt", "intent", "runtimePrompt",
    "systemMessage"]

def sanitizeScalar (key : String) : Json → Option Json
  | .str text =>
      if proseKeys.contains key then some (.str (shareableProse text))
      else (shareableLabel text).map .str
  | .bool value => some (.bool value)
  | .int value => some (.int value)
  | .float bits => some (.float bits)
  | _ => none

def sanitizeNumberPair (value : Json) : Option Json :=
  if (value.asArray.any fun pair =>
      pair.length = 2 && pair.all fun number => number.asF64.any F64.isFinite) then some value
  else none

def structuredPromptFields : List String :=
  ["version", "intent", "magicPromptBackend", "edited", "runtimePrompt"]

/-- An object with nothing in it is dropped. -/
def nonemptyObject (fields : JsonObject) : Option Json :=
  if fields.isEmpty then none else some (.obj fields)

def nonemptyArray (items : List Json) : Option Json :=
  if items.isEmpty then none else some (.arr items)

def sanitizeStructuredPrompt (value : Json) : Option Json := do
  let recipe ← value.asObject
  nonemptyObject (select structuredPromptFields fun field =>
    (get recipe field).bind (sanitizeScalar field))

def poseFields : List String := ["keypoints", "hands", "face"]

def maxShareLoras : Nat := 5

def maxSharePhases : Nat := 8

def maxSharePoses : Nat := 64

def maxSharePoseSlots : Nat := 16 * (18 + 42 + 68) * 3

def overCap (length max : Nat) : Bool := max < length

mutual

def isCoordinateTree : Json → Bool
  | .int _ | .float _ | .null => true
  | .arr values => !values.isEmpty && areCoordinateTrees values
  | _ => false

def areCoordinateTrees : List Json → Bool
  | [] => true
  | value :: rest => isCoordinateTree value && areCoordinateTrees rest

end

mutual

def countCoordinateSlots : Json → Nat
  | .int _ | .float _ | .null => 1
  | .arr values => countSlots values
  | .obj fields => countFieldSlots fields
  | _ => 0

def countSlots : List Json → Nat
  | [] => 0
  | value :: rest => countCoordinateSlots value + countSlots rest

def countFieldSlots : List (String × Json) → Nat
  | [] => 0
  | (_, value) :: rest => countCoordinateSlots value + countFieldSlots rest

end

/-- A pose keeps its place even when none of its coordinates stays. -/
def sanitizePose (pose : Json) : Json :=
  .obj (select poseFields fun field =>
    (pose.get field).filter fun points => points.isArray && isCoordinateTree points)

def sanitizePoses (value : Json) : Option Json := do
  let poses ← value.asArray
  if overCap poses.length maxSharePoses then none
  else
    let sanitized := poses.map sanitizePose
    if maxSharePoseSlots < (sanitized.map countCoordinateSlots).sum then none
    else nonemptyArray sanitized

def sanitizePhaseLora (lora : Json) : Option Json := do
  let lora ← lora.asObject
  let entry := select ["index", "weight"] fun field => (get lora field).filter Json.isNumber
  if JsonObject.containsKey entry "index" then some (.obj entry) else none

/-- The LoRA schedule of a phase, written only when there is one to write. -/
def sanitizePhaseLoras (phase : JsonObject) : Option Json := do
  let loras ← (get phase "loras").bind Json.asArray
  if overCap loras.length maxShareLoras then none
  else nonemptyArray (loras.filterMap sanitizePhaseLora)

def sanitizePhase (phase : Json) : Option Json := do
  let phase ← phase.asObject
  some (.obj (record [("steps", (get phase "steps").filter Json.isNumber),
    ("guidance", (get phase "guidance").filter Json.isNumber),
    ("loras", sanitizePhaseLoras phase)]))

def sanitizePhases (value : Json) : Option Json := do
  let phases ← value.asArray
  if overCap phases.length maxSharePhases then none
  else nonemptyArray (phases.filterMap sanitizePhase)

def sanitizeReferenceIds (value : Json) : Option Json := do
  let values ← value.asArray
  if 10 < values.length then none
  else
    let ids ← values.mapM fun v => v.asStr.filter fun s => s ≠ "" && !(isPathShaped s)
    if ids.eraseDups.length ≠ ids.length then none else some value

def layoutFields : List String :=
  ["id", "desc", "bbox", "from", "reference_id", "src_bbox", "tgt_bbox", "bbox_space", "src_space",
    "tgt_space"]

/-- The public fields of a box; a path in any of them but its description spoils the layout. -/
def publicBox (row : Json) : Option Json :=
  if layoutFields.any fun key => key ≠ "desc" &&
    ((row.get key).bind Json.asStr).any isPathShaped then
    none
  else some (.obj (select layoutFields row.get))

def layoutIdentities (rows : List Json) : List String :=
  rows.filterMap fun row => (row.get "reference_id").bind Json.asStr

def sanitizeFlux3Layout (value : Json) : Option Json := do
  let rows ← (value.get "boxes").bind Json.asArray
  (Flux3.validateLayout value 10 (some (layoutIdentities rows))).toOption
  let boxes ← rows.mapM publicBox
  some (.obj [("version", .int 1), ("boxes", .arr boxes)])

def maxH3Steps : Nat := 200

def sanitizeH3VedaSettings (decodeError : Json → String) (value : Json) : Option Json := do
  let object ← value.asObject
  if object.any fun field =>
      field.2.asStr.any fun text => proseMaxBytes < text.utf8ByteSize then none
  else
    let _ ← (H3Veda.requestedH3Veda decodeError "minimax_h3" [("veda", value)] maxH3Steps).toOption
    some (.obj object)

structure AppearanceSelection where
  camera : Option String
  film : Option String
  looks : List String
  lighting : Option String

def AppearanceSelection.ofValue (value : Json) : Option AppearanceSelection := do
  let fields ← value.asClosedStruct ["camera", "film", "looks", "lighting"]
  let camera ← Json.optional Json.asStr (get fields "camera")
  let film ← Json.optional Json.asStr (get fields "film")
  let looks ← Json.orDefault (Json.items Json.asStr) [] (get fields "looks")
  let lighting ← Json.optional Json.asStr (get fields "lighting")
  some { camera, film, looks, lighting }

def AppearanceSelection.slots (selection : AppearanceSelection) : List (String × Option Json) :=
  [("camera", selection.camera.map .str), ("film", selection.film.map .str),
    ("looks", nonemptyArray (selection.looks.map .str)), ("lighting", selection.lighting.map .str)]

def AppearanceSelection.toValue (selection : AppearanceSelection) : Json :=
  .obj (record selection.slots)

def AppearanceSelection.reduce (selection : AppearanceSelection) : AppearanceSelection where
  camera := selection.camera.bind shareableLabel
  film := selection.film.bind shareableLabel
  looks := (selection.looks.filterMap shareableLabel).take 32
  lighting := selection.lighting.bind shareableLabel

def sanitizeAppearance (value : Json) : Option Json :=
  (AppearanceSelection.ofValue value).map fun selection => selection.reduce.toValue

/-- `moss_image::EditOptions`. -/
structure EditOptions where
  referenceMaxEdge : UInt32
  useKvCache : Bool

def EditOptions.ofValue (value : Json) : Option EditOptions := do
  let fields ← value.asClosedStruct ["reference_max_edge", "use_kv_cache"]
  let referenceMaxEdge ← Json.orDefault Json.asU32 512 (get fields "reference_max_edge")
  let useKvCache ← Json.orDefault Json.asBool true (get fields "use_kv_cache")
  some { referenceMaxEdge, useKvCache }

def EditOptions.slots (options : EditOptions) : List (String × Option Json) :=
  [("reference_max_edge", some (.ofU32 options.referenceMaxEdge)),
    ("use_kv_cache", some (.bool options.useKvCache))]

def EditOptions.toValue (options : EditOptions) : Json := .obj (record options.slots)

def sanitizeEditOptions (value : Json) : Option Json := do
  let options ← EditOptions.ofValue value
  if 16 ≤ options.referenceMaxEdge.toNat && options.referenceMaxEdge.toNat ≤ 4096 then
    some options.toValue
  else none

structure TensorMetadata where
  dtype : String
  shape : List UInt64
  byteLength : UInt64
  sha256 : String

/-- A tensor of the project, by the identity of its bytes. -/
structure TensorRef where
  assetId : String
  sha256 : String
  metadata : Option TensorMetadata

structure EmbeddingsRef where
  values : TensorRef
  mask : Option TensorRef

/-- `moss_image_advanced::EditAdvanced`. -/
structure EditAdvanced where
  positive : Option EmbeddingsRef
  negative : Option EmbeddingsRef
  negativePrompts : Option (List String)
  noise : Option TensorRef
  output : Json

def TensorMetadata.ofValue (value : Json) : Option TensorMetadata := do
  let fields ← value.asClosedStruct ["dtype", "shape", "byteLength", "sha256"]
  let dtype ← (get fields "dtype").bind Json.asStr
  let shape ← (get fields "shape").bind (Json.items Json.asUInt64)
  let byteLength ← (get fields "byteLength").bind Json.asUInt64
  let sha256 ← (get fields "sha256").bind Json.asStr
  some { dtype, shape, byteLength, sha256 }

def TensorMetadata.slots (metadata : TensorMetadata) : List (String × Option Json) :=
  [("dtype", some (.str metadata.dtype)), ("shape", some (.arr (metadata.shape.map .ofU64))),
    ("byteLength", some (.ofU64 metadata.byteLength)), ("sha256", some (.str metadata.sha256))]

def TensorMetadata.toValue (metadata : TensorMetadata) : Json := .obj (record metadata.slots)

def TensorRef.ofValue (value : Json) : Option TensorRef := do
  let fields ← value.asClosedStruct ["assetId", "sha256", "metadata"]
  let assetId ← Json.orDefault Json.asStr "" (get fields "assetId")
  let sha256 ← (get fields "sha256").bind Json.asStr
  let metadata ← Json.optional TensorMetadata.ofValue (get fields "metadata")
  some { assetId, sha256, metadata }

def TensorRef.slots (reference : TensorRef) : List (String × Option Json) :=
  [("assetId", if reference.assetId = "" then none else some (.str reference.assetId)),
    ("sha256", some (.str reference.sha256)),
    ("metadata", reference.metadata.map TensorMetadata.toValue)]

def TensorRef.toValue (reference : TensorRef) : Json := .obj (record reference.slots)

def EmbeddingsRef.ofValue (value : Json) : Option EmbeddingsRef := do
  let fields ← value.asClosedStruct ["values", "mask"]
  let values ← (get fields "values").bind TensorRef.ofValue
  let mask ← Json.optional TensorRef.ofValue (get fields "mask")
  some { values, mask }

def EmbeddingsRef.slots (embeddings : EmbeddingsRef) : List (String × Option Json) :=
  [("values", some embeddings.values.toValue), ("mask", embeddings.mask.map TensorRef.toValue)]

def EmbeddingsRef.toValue (embeddings : EmbeddingsRef) : Json := .obj (record embeddings.slots)

def EditAdvanced.ofValue (moss : MossCore) (value : Json) : Option EditAdvanced := do
  let fields ← value.asClosedStruct ["positive", "negative", "negativePrompts", "noise", "output"]
  let positive ← Json.optional EmbeddingsRef.ofValue (get fields "positive")
  let negative ← Json.optional EmbeddingsRef.ofValue (get fields "negative")
  let negativePrompts ← Json.optional (Json.items Json.asStr) (get fields "negativePrompts")
  let noise ← Json.optional TensorRef.ofValue (get fields "noise")
  let output ← Json.orDefault moss.outputKind moss.defaultOutputKind (get fields "output")
  some { positive, negative, negativePrompts, noise, output }

def EditAdvanced.slots (options : EditAdvanced) : List (String × Option Json) :=
  [("positive", options.positive.map EmbeddingsRef.toValue),
    ("negative", options.negative.map EmbeddingsRef.toValue),
    ("negativePrompts", options.negativePrompts.map fun prompts => .arr (prompts.map .str)),
    ("noise", options.noise.map TensorRef.toValue), ("output", some options.output)]

def EditAdvanced.toValue (options : EditAdvanced) : Json := .obj (record options.slots)

def maxDataBytes : Nat := 512 * 1024 * 1024

def checkedMul (a b : UInt64) : Option UInt64 :=
  if a.toNat * b.toNat < 2 ^ 64 then some (a * b) else none

def elementBytes (dtype : String) : Option UInt64 :=
  if dtype = "float32" then some 4 else if dtype = "uint8" then some 1 else none

def isLowerSha256 (text : String) : Bool :=
  text.utf8ByteSize = 64 && text.toList.all fun c => c.isDigit || ('a' ≤ c && c ≤ 'f')

def TensorMetadata.isExact (metadata : TensorMetadata) (sha256 : String) : Bool :=
  metadata.sha256 = sha256 && isLowerSha256 metadata.sha256 && 2 ≤ metadata.shape.length &&
    metadata.shape.length ≤ 4 && !(metadata.shape.contains 0) &&
      metadata.byteLength.toNat ≤ maxDataBytes &&
    ((metadata.shape.foldlM checkedMul 1).bind fun count =>
      (elementBytes metadata.dtype).bind (checkedMul count)) = some metadata.byteLength

/-- The tensor without the local asset that holds it, if its metadata is exact. -/
def TensorRef.clear (reference : TensorRef) : Option TensorRef :=
  if reference.metadata.any fun metadata => metadata.isExact reference.sha256 then
    some { reference with assetId := "" }
  else none

/-- An optional part that is cleared when it is there. -/
def clearPart {α : Type} (clear : α → Option α) : Option α → Option (Option α)
  | none => some none
  | some part => (clear part).map some

def EmbeddingsRef.clear (embeddings : EmbeddingsRef) : Option EmbeddingsRef := do
  let values ← embeddings.values.clear
  let mask ← clearPart TensorRef.clear embeddings.mask
  some { values, mask }

def EditAdvanced.reduce (options : EditAdvanced) : Option EditAdvanced := do
  let positive ← clearPart EmbeddingsRef.clear options.positive
  let negative ← clearPart EmbeddingsRef.clear options.negative
  let noise ← clearPart TensorRef.clear options.noise
  if options.negativePrompts.any fun prompts =>
      8 < prompts.length || prompts.any fun text => 4000 < text.length then none
  else
    some { options with
      positive := positive
      negative := negative
      noise := noise
      negativePrompts := options.negativePrompts.map fun prompts => prompts.map shareableProse }

/-- `moss_image_advanced::share_options`. -/
def shareOptions (moss : MossCore) (value : Json) : Option Json := do
  let options ← EditAdvanced.ofValue moss value
  let options ← options.reduce
  some options.toValue

/-- A batch this build could run: one to eight texts of at most 4000 characters. -/
def isPromptBatch (texts : List String) : Bool :=
  !texts.isEmpty && texts.length ≤ 8 && texts.all fun text => text ≠ "" && text.length ≤ 4000

def sanitizePromptBatch (value : Json) : Option Json := do
  let texts ← (Json.items Json.asStr value).filter isPromptBatch
  some (.arr (texts.map fun text => .str (shareableProse text)))

def sanitizeSampleIndex (value : Json) : Option Json :=
  (value.asU64.filter (· < 8)).map fun index : Nat => .int (index : Int)

def sanitizeShape (moss : MossCore) (decodeError : Json → String) (key : String) :
    AdvancedShape → Json → Option Json
  | .scalar => sanitizeScalar key
  | .structuredPrompt => sanitizeStructuredPrompt
  | .appearance => sanitizeAppearance
  | .poses => sanitizePoses
  | .phases => sanitizePhases
  | .h3VedaSettings => sanitizeH3VedaSettings decodeError
  | .mossImageOptions => moss.options
  | .mossImageReport => moss.executionReport
  | .mossImageEditOptions => sanitizeEditOptions
  | .mossImageEditReport => moss.editExecutionReport
  | .mossImageAdvanced => shareOptions moss
  | .promptBatch => sanitizePromptBatch
  | .sampleIndex => sanitizeSampleIndex
  | .numberPair => sanitizeNumberPair
  | .flux3Layout => sanitizeFlux3Layout
  | .stringList => sanitizeReferenceIds

/-- One entry of the map, under its key. -/
def sanitizeEntry (moss : MossCore) (decodeError : Json → String) (entry : String × Json) :
    Option (String × Json) := do
  let shape ← advancedKeyRule entry.1
  let value ← sanitizeShape moss decodeError entry.1 shape entry.2
  some (entry.1, value)

def sanitizeAdvanced (moss : MossCore) (decodeError : Json → String) (advanced : JsonObject) :
    JsonObject :=
  advanced.filterMap (sanitizeEntry moss decodeError)

end SceneWorks.WorkflowEnvelope
