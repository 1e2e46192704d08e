import SceneWorks.Library.Json
import SceneWorks.Library.Text
import SceneWorks.Contracts

/-!
The video claim predicates of `routing/mlx.rs`, `routing/candle.rs` and
`routing/catalog.rs`, and the resize-mode stamp a claim writes into the payload it
is about to render. The result the claim path rests on is that the stamp moves no
predicate: they read `advanced` only at keys other than the stamped one.

Two table-driven facts stay parameters of `VideoPolicy`: whether a model id belongs
to the MiniMax-H3 family of the shipped manifest, and whether a LoRA stack carries
the LTX in-context adapter.
-/

namespace SceneWorks.JobsStore

structure VideoPolicy where
  isMinimaxH3Model : String → Bool
  lorasContainLtxIcLora : List Json → Bool

section PayloadReads

/-- `payload.get(key).and_then(Value::as_str)`. -/
def getStr (payload : JsonObject) (key : String) : Option String :=
  (JsonObject.get payload key).bind Json.asStr

def getArray (payload : JsonObject) (key : String) : Option (List Json) :=
  (JsonObject.get payload key).bind Json.asArray

def getObject (payload : JsonObject) (key : String) : Option JsonObject :=
  (JsonObject.get payload key).bind Json.asObject

/-- A key of the payload's `advanced` object. -/
def getAdvanced (payload : JsonObject) (key : String) : Option Json :=
  (getObject payload "advanced").bind fun advanced => JsonObject.get advanced key

def hasNonemptyString (payload : JsonObject) (key : String) : Bool :=
  (getStr payload key).any fun value => Text.trim value ≠ ""

def hasNonemptyArray (payload : JsonObject) (key : String) : Bool :=
  (getArray payload key).any fun values => !values.isEmpty

def hasNonemptyOrMalformedArray (payload : JsonObject) (key : String) : Bool :=
  match JsonObject.get payload key with
  | none | some .null => false
  | some (.arr values) => !values.isEmpty
  | some _ => true

def hasNonemptyStringArray (payload : JsonObject) (key : String) : Bool :=
  (getArray payload key).any fun values =>
    (values.filterMap Json.asStr).any fun value => Text.trim value ≠ ""

/-- `nonempty_string_or`: the trimmed text, or the default for a blank one. -/
def nonemptyStringOr (payload : JsonObject) (key default : String) : String :=
  (((getStr payload key).map Text.trim).filter fun value => value ≠ "").getD default

/-- `entry_str` of `minimax_h3_import.rs`. -/
def entryStr (entry : JsonObject) (key : String) : Option String :=
  ((getStr entry key).map Text.trim).filter fun value => value ≠ ""

end PayloadReads

section Tables

def videoMlxRoutedModels : List String :=
  ["ltx_2_5", "ltx_2_3", "ltx_2_3_eros", "wan_2_2", "wan_2_2_t2v_14b", "wan_2_2_i2v_14b", "svd",
    "bernini", "scail2_14b", "mochi_1", "krea_realtime_14b", "wan_2_2_vace_fun_14b", "minimax_h3",
    "minimax_h3_ref"]

def candleVideoRoutedModels : List String :=
  ["wan_2_2", "ltx_2_5", "ltx_2_3", "wan_2_2_t2v_14b", "wan_2_2_i2v_14b", "svd", "bernini",
    "mochi_1", "minimax_h3", "minimax_h3_ref"]

def candleVideoI2vRoutedModels : List String := ["wan_2_2_i2v_14b", "svd"]

def candleVideoVaceModels : List String := ["wan_2_2", "wan_2_2_t2v_14b", "wan_2_2_i2v_14b"]

def candleVideoLoraModels : List String :=
  ["wan_2_2", "wan_2_2_t2v_14b", "wan_2_2_i2v_14b", "ltx_2_3", "ltx_2_5", "bernini", "minimax_h3",
    "minimax_h3_ref"]

end Tables

section QuantTiers

/-- `value.as_i64().or_else(|| value.as_str()?.trim().parse().ok())`. -/
def quantBits (value : Json) : Option Int :=
  value.asI64.or (value.asStr.bind fun text => Text.parseI64 (Text.trim text))

def candleRequestedQuantBits (payload : JsonObject) : Option Int :=
  ((getAdvanced payload "mlxQuantize").bind quantBits).filter fun bits => 0 < bits

def candleRequestWantsQuant (payload : JsonObject) : Bool :=
  (candleRequestedQuantBits payload).isSome

def candleRequestWantsTorchQuantization (payload : JsonObject) : Bool :=
  ((getAdvanced payload "quantization").bind Json.asStr).any fun value =>
    let value := Text.trim value
    value ≠ "" && !Text.eqIgnoreAsciiCase value "auto"

inductive CandleLtxTier where
  | bf16 | q4 | q8
  deriving DecidableEq

def candleLtxRequestedTier (payload : JsonObject) : Option CandleLtxTier :=
  match getAdvanced payload "mlxQuantize" with
  | none => some .q4
  | some value =>
      (quantBits value).bind fun bits =>
        if bits ≤ 0 then some .bf16 else if bits = 4 then some .q4
        else if bits = 8 then some .q8 else none

def candleLtxProductTierEligible (model mode : String) (payload : JsonObject) : Bool :=
  (match model, candleLtxRequestedTier payload with
    | "ltx_2_3", some .q4 | "ltx_2_3", some .q8 => true
    | "ltx_2_5", some _ => true
    | _, _ => false) &&
  ["text_to_video", "image_to_video", "first_last_frame", "extend_clip", "video_bridge",
    "replace_person"].contains mode

def candleVideoTierSelectEligible (model : String) (payload : JsonObject) : Bool :=
  if ["wan_2_2", "wan_2_2_t2v_14b", "wan_2_2_i2v_14b", "minimax_h3",
      "minimax_h3_ref"].contains model then true
  else
    match getStr payload "mode" with
    | none => false
    | some mode => candleLtxProductTierEligible model mode payload

inductive Scail2Tier where
  | bf16 | q4 | q8
  deriving DecidableEq

def scail2CandleEffectiveTier (payload : JsonObject) : Option Scail2Tier :=
  match getAdvanced payload "mlxQuantize" with
  | none | some .null => some .bf16
  | some value =>
      (quantBits value).bind fun bits =>
        if bits ≤ 0 then some .bf16 else if bits = 4 then some .q4
        else if bits = 8 then some .q8 else none

def scail2CandleSourceTierEligible (payload : JsonObject) : Bool :=
  match scail2CandleEffectiveTier payload with
  | none => false
  | some tier => !hasNonemptyArray payload "loras" || tier = .bf16

def scail2CandleProductTierEligible (model mode : String) (payload : JsonObject) : Bool :=
  model = "scail2_14b" && ["animate_character", "replace_person"].contains mode &&
    (scail2CandleEffectiveTier payload).isSome

end QuantTiers

section MlxVideo

def videoModeIsMlxEligible (model mode : String) : Bool :=
  if model = "svd" then mode = "image_to_video"
  else if model = "wan_2_2_t2v_14b" then mode = "text_to_video"
  else if model = "wan_2_2_i2v_14b" then mode = "image_to_video"
  else if model = "wan_2_2_vace_fun_14b" then mode = "replace_person"
  else if model = "bernini" then
    ["text_to_video", "video_to_video", "reference_to_video", "reference_video_to_video",
      "multi_video_to_video", "ads2v"].contains mode
  else if model = "scail2_14b" then ["animate_character", "replace_person"].contains mode
  else if model = "mochi_1" then mode = "text_to_video"
  else if model = "krea_realtime_14b" then
    ["text_to_video", "image_to_video", "video_to_video"].contains mode
  else if model = "minimax_h3" then
    ["text_to_video", "image_to_video", "first_last_frame"].contains mode
  else if model = "minimax_h3_ref" then mode = "reference_to_video"
  else
    match mode with
    | "text_to_video" | "image_to_video" => true
    | "first_last_frame" | "extend_clip" | "video_bridge" | "replace_person" =>
        ["ltx_2_3", "ltx_2_3_eros", "ltx_2_5", "wan_2_2"].contains model
    | _ => false

/-- `checkpoint_plan_checkpoint_id`. -/
def checkpointPlanCheckpointId (entry : JsonObject) : Option String :=
  (getObject entry "importPlan").bind fun plan => entryStr plan "checkpointId"

def checkpointPlanCheckpointIdOfPayloadEntry (payload : JsonObject) : Option String :=
  (getObject payload "modelManifestEntry").bind checkpointPlanCheckpointId

/-- The mode a video request is judged under: the advanced job types carry it by
construction, the base type reads the payload. -/
def videoRequestMode (jobType : JobType) (payload : JsonObject) : String :=
  match jobType with
  | .videoExtend => "extend_clip"
  | .videoBridge => "video_bridge"
  | .personReplace => "replace_person"
  | _ => (getStr payload "mode").getD "image_to_video"

/-- The exact source and last-frame shape `wan_2_2` asks for in each mode. -/
def wanShapeIsExact (mode : String) (payload : JsonObject) : Bool :=
  let hasSource := hasNonemptyString payload "sourceAssetId"
  let hasLast := hasNonemptyString payload "lastFrameAssetId"
  match mode with
  | "text_to_video" => !hasSource && !hasLast
  | "image_to_video" => hasSource && !hasLast
  | "first_last_frame" => hasSource && hasLast
  | _ => true

end MlxVideo

section CandleVideo

variable (policy : VideoPolicy)

def hasLtxIcLora (payload : JsonObject) : Bool :=
  (getArray payload "loras").any policy.lorasContainLtxIcLora

def minimaxH3BasePartitionShape (payload : JsonObject) : Bool :=
  let hasSource := hasNonemptyString payload "sourceAssetId"
  let hasLast := hasNonemptyString payload "lastFrameAssetId"
  (match getStr payload "mode" with
    | some "text_to_video" => !hasSource && !hasLast
    | some "image_to_video" => hasSource != hasLast
    | some "first_last_frame" => hasSource && hasLast
    | _ => false) &&
  !hasNonemptyString payload "sourceClipAssetId" &&
  !hasNonemptyString payload "bridgeRightClipAssetId" &&
  !hasNonemptyString payload "referenceAssetId" &&
  !hasNonemptyString payload "maskAssetId" &&
  !hasNonemptyOrMalformedArray payload "referenceAssetIds" &&
  !hasNonemptyOrMalformedArray payload "sourceClipAssetIds" &&
  !hasNonemptyOrMalformedArray payload "referenceAudioAssetIds"

/-- The LTX arm of the candle shape ladder. -/
def ltxCandleShape (payload : JsonObject) : Bool :=
  let source := hasNonemptyString payload "sourceAssetId"
  let last := hasNonemptyString payload "lastFrameAssetId"
  let clip := hasNonemptyString payload "sourceClipAssetId"
  let right := hasNonemptyString payload "bridgeRightClipAssetId"
  match getStr payload "mode" with
  | some "text_to_video" => !(source || last || clip || right)
  | some "image_to_video" => !(!source || last || clip || right)
  | some "first_last_frame" => !(!source || !last || clip || right)
  | some "extend_clip" => !(!clip || right || source || last || !hasLtxIcLora policy payload)
  | some "video_bridge" => !(!clip || !right || source || last || !hasLtxIcLora policy payload)
  | _ => false

/-- The Wan TI2V-5B arm of the candle shape ladder. -/
def wanCandleShape (payload : JsonObject) : Bool :=
  let source := hasNonemptyString payload "sourceAssetId"
  let last := hasNonemptyString payload "lastFrameAssetId"
  (match getStr payload "mode" with
    | some "text_to_video" => !(source || last)
    | some "image_to_video" => !(!source || last)
    | some "first_last_frame" => !(!source || !last)
    | _ => false) &&
  !(hasNonemptyString payload "sourceClipAssetId" ||
    hasNonemptyString payload "bridgeRightClipAssetId")

/-- The Ref2VA arm of the candle shape ladder. -/
def minimaxH3RefCandleShape (payload : JsonObject) : Bool :=
  getStr payload "mode" = some "reference_to_video" &&
  !hasNonemptyString payload "sourceAssetId" &&
  !hasNonemptyString payload "lastFrameAssetId" &&
  !hasNonemptyString payload "sourceClipAssetId" &&
  !hasNonemptyString payload "bridgeRightClipAssetId" &&
  (hasNonemptyArray payload "referenceAssetIds" ||
    hasNonemptyArray payload "sourceClipAssetIds" ||
    hasNonemptyArray payload "referenceAudioAssetIds")

/-- The per-model shape ladder of `video_request_candle_eligible`. -/
def candleVideoShape (model : String) (payload : JsonObject) : Bool :=
  if ["ltx_2_3", "ltx_2_3_eros", "ltx_2_5"].contains model then ltxCandleShape policy payload
  else if model = "wan_2_2" then wanCandleShape payload
  else if model = "minimax_h3" then minimaxH3BasePartitionShape payload
  else if model = "minimax_h3_ref" then minimaxH3RefCandleShape payload
  else if candleVideoI2vRoutedModels.contains model then
    getStr payload "mode" = some "image_to_video" && hasNonemptyString payload "sourceAssetId"
  else getStr payload "mode" = some "text_to_video" && !hasNonemptyString payload "sourceAssetId"

def videoRequestCandleEligible (model : String) (payload : JsonObject) : Bool :=
  if !candleVideoRoutedModels.contains model then false
  else if candleRequestWantsTorchQuantization payload then false
  else if !candleVideoShape policy model payload then false
  else if hasNonemptyString payload "referenceAssetId" ||
      hasNonemptyString payload "maskAssetId" then false
  else if !candleVideoLoraModels.contains model && hasNonemptyArray payload "loras" then false
  else if (candleRequestWantsQuant payload || ["ltx_2_3", "ltx_2_5"].contains model) &&
      !candleVideoTierSelectEligible model payload then false
  else true

def ltxReplaceCandleEligible (model : String) (payload : JsonObject) : Bool :=
  if !(["ltx_2_3", "ltx_2_5"].contains model) || !hasNonemptyString payload "sourceClipAssetId" ||
      !hasNonemptyString payload "personTrackId" || !hasNonemptyString payload "characterId" ||
      !hasLtxIcLora policy payload then false
  else candleLtxProductTierEligible model "replace_person" payload

def videoRequestCandleVaceEligible (model : String) (payload : JsonObject) (jobType : JobType) :
    Bool :=
  if model = "wan_2_2_vace_fun_14b" ∧ jobType ≠ .personReplace then false
  else if model ≠ "wan_2_2_vace_fun_14b" && !candleVideoVaceModels.contains model then false
  else if !(match jobType with
      | .personReplace =>
          hasNonemptyString payload "sourceClipAssetId" &&
            hasNonemptyString payload "personTrackId" && hasNonemptyString payload "characterId"
      | .videoExtend => hasNonemptyString payload "sourceClipAssetId"
      | .videoBridge =>
          hasNonemptyString payload "sourceClipAssetId" &&
            hasNonemptyString payload "bridgeRightClipAssetId"
      | _ => false) then false
  else if model ≠ "wan_2_2_vace_fun_14b" && hasNonemptyArray payload "loras" then false
  else !candleRequestWantsQuant payload

def scail2AnimateCandleEligible (model : String) (payload : JsonObject) : Bool :=
  if model ≠ "scail2_14b" then false
  else if getStr payload "mode" ≠ some "animate_character" then false
  else if !(hasNonemptyString payload "referenceAssetId" ||
      hasNonemptyString payload "sourceAssetId" ||
      hasNonemptyStringArray payload "referenceAssetIds") then false
  else if !hasNonemptyString payload "sourceClipAssetId" then false
  else scail2CandleSourceTierEligible payload &&
    scail2CandleProductTierEligible model "animate_character" payload

def scail2ReplaceCandleEligible (model : String) (payload : JsonObject) : Bool :=
  if model ≠ "scail2_14b" then false
  else if !hasNonemptyString payload "sourceClipAssetId" ||
      !hasNonemptyString payload "personTrackId" ||
      !hasNonemptyString payload "characterId" then false
  else scail2CandleSourceTierEligible payload &&
    scail2CandleProductTierEligible model "replace_person" payload

def berniniVideoCandleEligible (model : String) (payload : JsonObject) : Bool :=
  model = "bernini" &&
    (getStr payload "mode").any fun mode =>
      ["text_to_video", "video_to_video", "reference_to_video", "reference_video_to_video",
        "multi_video_to_video", "ads2v"].contains mode

end CandleVideo

section ImportedMinimaxH3

inductive MiniMaxH3Partition where
  | fl2va | ref2va | hybrid
  deriving DecidableEq

namespace MiniMaxH3Partition

def asStr : MiniMaxH3Partition → String
  | fl2va => "fl2va"
  | ref2va => "ref2va"
  | hybrid => "hybrid"

def supportsBase (partition : MiniMaxH3Partition) : Bool :=
  partition = fl2va || partition = hybrid

def supportsReferences (partition : MiniMaxH3Partition) : Bool :=
  partition = ref2va || partition = hybrid

/-- The declared partition, when its base model is the one that partition requires. -/
def fromEntry (entry : JsonObject) : Option MiniMaxH3Partition :=
  let declared :=
    match entryStr entry "minimaxH3Partition" with
    | some "fl2va" => some fl2va
    | some "ref2va" => some ref2va
    | some "hybrid" => some hybrid
    | _ => none
  declared.filter fun partition =>
    entryStr entry "baseModel" =
      some (if partition = ref2va then "minimax_h3_ref" else "minimax_h3")

end MiniMaxH3Partition

def entryAssembly (entry : JsonObject) : Option JsonObject :=
  (getObject entry "importPlan").bind fun plan => getObject plan "assembly"

def entryIsImportedMinimaxH3 (entry : JsonObject) : Bool :=
  entryStr entry "family" = some "minimax-h3" &&
  entryStr entry "importSourceShape" = some "transformer_directory" &&
  (checkpointPlanCheckpointId entry).isSome &&
  (entryAssembly entry).any fun assembly =>
    (JsonObject.get assembly "schemaVersion").bind Json.asU64 = some 1 &&
    (MiniMaxH3Partition.fromEntry entry).any fun partition =>
      getStr assembly "partition" = some partition.asStr

/-- The stock partition whose shape an imported entry serves. -/
def entryPartitionModel (entry : JsonObject) (hasReferences : Bool) : Option String :=
  (MiniMaxH3Partition.fromEntry entry).bind fun partition =>
    if hasReferences && partition.supportsReferences then some "minimax_h3_ref"
    else if !hasReferences && partition.supportsBase then some "minimax_h3"
    else none

end ImportedMinimaxH3

section VideoEligibility

variable (policy : VideoPolicy)

def planBackedMinimaxH3VideoEligible (model : String) (payload : JsonObject) : Bool :=
  (getObject payload "modelManifestEntry").any fun entry =>
    if !entryIsImportedMinimaxH3 entry then false
    else if ["minimax_h3", "minimax_h3_ref"].contains model ||
        videoMlxRoutedModels.contains model || candleVideoRoutedModels.contains model then false
    else
      (entryPartitionModel entry (getStr payload "mode" = some "reference_to_video")).any
        fun partition => videoRequestCandleEligible policy partition payload

def planBackedWanVideoCandleEligible (payload : JsonObject) : Bool :=
  (getObject payload "modelManifestEntry").any fun entry =>
    getStr entry "family" = some "wan-video" && (checkpointPlanCheckpointId entry).isSome &&
    getStr payload "mode" = some "text_to_video" &&
    !hasNonemptyString payload "sourceAssetId" &&
    !hasNonemptyString payload "lastFrameAssetId" &&
    !hasNonemptyString payload "sourceClipAssetId" &&
    !hasNonemptyString payload "bridgeRightClipAssetId"

def isVideoClaimType (jobType : JobType) : Bool :=
  [.videoGenerate, .videoExtend, .videoBridge, .personReplace].contains jobType

def videoRequestIsMlxEligible (jobType : JobType) (payload : JsonObject) : Bool :=
  if !isVideoClaimType jobType then false
  else
    match getStr payload "model" with
    | none => false
    | some model =>
        if (checkpointPlanCheckpointIdOfPayloadEntry payload).isSome then
          jobType = .videoGenerate && planBackedMinimaxH3VideoEligible policy model payload
        else if !videoMlxRoutedModels.contains model then false
        else
          let mode := videoRequestMode jobType payload
          if !videoModeIsMlxEligible model mode then false
          else if model = "wan_2_2" && !wanShapeIsExact mode payload then false
          else if ["ltx_2_3", "ltx_2_3_eros", "ltx_2_5"].contains model &&
              ["extend_clip", "video_bridge", "replace_person"].contains mode &&
              !hasLtxIcLora policy payload then false
          else true

def videoRequestIsCandleEligible (jobType : JobType) (payload : JsonObject) : Bool :=
  match getStr payload "model" with
  | none => false
  | some model =>
      if candleRequestWantsTorchQuantization payload then false
      else if (checkpointPlanCheckpointIdOfPayloadEntry payload).isSome then
        jobType = .videoGenerate &&
          (planBackedWanVideoCandleEligible payload ||
            planBackedMinimaxH3VideoEligible policy model payload)
      else
        match jobType with
        | .videoGenerate =>
            videoRequestCandleEligible policy model payload ||
              scail2AnimateCandleEligible model payload ||
              berniniVideoCandleEligible model payload
        | .personReplace =>
            videoRequestCandleVaceEligible model payload jobType ||
              scail2ReplaceCandleEligible model payload ||
              ltxReplaceCandleEligible policy model payload
        | .videoExtend | .videoBridge =>
            videoRequestCandleEligible policy model payload ||
              videoRequestCandleVaceEligible model payload jobType
        | _ => false

end VideoEligibility

section ResizeModeStamp

variable (policy : VideoPolicy)

def resizeModeKey : String := "referenceImageResizeMode"

def payloadIsMinimaxH3 (payload : JsonObject) : Bool :=
  policy.isMinimaxH3Model (nonemptyStringOr payload "model" "ltx_2_3") ||
    (((JsonObject.get payload "modelManifestEntry").bind fun entry => entry.get "family").bind
      Json.asStr) = some "minimax-h3"

/-- `stamp_claimed_reference_image_resize_mode`: the payload a claim persists when it
has to record the mode that is about to render, `none` when it leaves the payload as
it is. -/
def stampClaimedReferenceImageResizeMode (payload : JsonObject) : Option JsonObject :=
  if !payloadIsMinimaxH3 policy payload then none
  else
    match (JsonObject.get payload "advanced").getD (.obj []) with
    | .obj advanced =>
        if JsonObject.containsKey advanced resizeModeKey then none
        else some (JsonObject.insert payload "advanced"
          (.obj (JsonObject.insert advanced resizeModeKey (.str "match"))))
    | _ => none

theorem stampClaimed_eq_some {payload stamped : JsonObject}
    (h : stampClaimedReferenceImageResizeMode policy payload = some stamped) :
    ∃ advanced, (JsonObject.get payload "advanced").getD (.obj []) = .obj advanced ∧
      JsonObject.get advanced resizeModeKey = none ∧
      stamped = JsonObject.insert payload "advanced"
        (.obj (JsonObject.insert advanced resizeModeKey (.str "match"))) := by
  unfold stampClaimedReferenceImageResizeMode at h
  split at h
  · simp at h
  · split at h
    · next advanced hadvanced =>
        split at h
        · simp at h
        · next hkey =>
            refine ⟨advanced, hadvanced, ?_, by simpa using h.symm⟩
            simpa [JsonObject.containsKey] using hkey
    · simp at h

end ResizeModeStamp

/-- Two payloads that agree on every key but `advanced`, and inside `advanced` on
every key but the resize mode. -/
structure SameRoutingView (p q : JsonObject) : Prop where
  get : ∀ key, key ≠ "advanced" → JsonObject.get p key = JsonObject.get q key
  advanced : ∀ key, key ≠ resizeModeKey → getAdvanced p key = getAdvanced q key

namespace SameRoutingView

variable {policy : VideoPolicy} {p q : JsonObject}

theorem of_stampClaimed (h : stampClaimedReferenceImageResizeMode policy p = some q) :
    SameRoutingView q p := by
  obtain ⟨advanced, hadvanced, _, rfl⟩ := stampClaimed_eq_some policy h
  constructor
  · intro key hkey
    exact JsonObject.get_insert_of_ne p _ (Ne.symm hkey)
  · intro key hkey
    have hold : getAdvanced p key = JsonObject.get advanced key := by
      cases hget : JsonObject.get p "advanced" with
      | none =>
          rw [hget] at hadvanced
          have hnil : advanced = [] := by simpa using hadvanced.symm
          simp [getAdvanced, getObject, hget, hnil]
      | some value =>
          rw [hget] at hadvanced
          have hvalue : value = .obj advanced := by simpa using hadvanced
          simp [getAdvanced, getObject, hget, hvalue, Json.asObject]
    rw [hold]
    simp only [getAdvanced, getObject, JsonObject.get_insert_self, Option.bind_some,
      Json.asObject]
    exact JsonObject.get_insert_of_ne advanced _ (Ne.symm hkey)

theorem getStr_eq (h : SameRoutingView p q) (key : String) (hkey : key ≠ "advanced") :
    getStr p key = getStr q key := by
  simp only [getStr, h.get key hkey]

theorem getArray_eq (h : SameRoutingView p q) (key : String) (hkey : key ≠ "advanced") :
    getArray p key = getArray q key := by
  simp only [getArray, h.get key hkey]

theorem getObject_eq (h : SameRoutingView p q) (key : String) (hkey : key ≠ "advanced") :
    getObject p key = getObject q key := by
  simp only [getObject, h.get key hkey]

theorem hasNonemptyString_eq (h : SameRoutingView p q) (key : String) (hkey : key ≠ "advanced") :
    hasNonemptyString p key = hasNonemptyString q key := by
  simp only [hasNonemptyString, h.getStr_eq key hkey]

theorem hasNonemptyArray_eq (h : SameRoutingView p q) (key : String) (hkey : key ≠ "advanced") :
    hasNonemptyArray p key = hasNonemptyArray q key := by
  simp only [hasNonemptyArray, h.getArray_eq key hkey]

theorem hasNonemptyStringArray_eq (h : SameRoutingView p q) (key : String)
    (hkey : key ≠ "advanced") :
    hasNonemptyStringArray p key = hasNonemptyStringArray q key := by
  simp only [hasNonemptyStringArray, h.getArray_eq key hkey]

theorem hasNonemptyOrMalformedArray_eq (h : SameRoutingView p q) (key : String)
    (hkey : key ≠ "advanced") :
    hasNonemptyOrMalformedArray p key = hasNonemptyOrMalformedArray q key := by
  simp only [hasNonemptyOrMalformedArray, h.get key hkey]

theorem hasLtxIcLora_eq (h : SameRoutingView p q) :
    hasLtxIcLora policy p = hasLtxIcLora policy q := by
  simp only [hasLtxIcLora, h.getArray_eq "loras" (by decide)]

theorem candleRequestWantsTorchQuantization_eq (h : SameRoutingView p q) :
    candleRequestWantsTorchQuantization p = candleRequestWantsTorchQuantization q := by
  simp only [candleRequestWantsTorchQuantization, h.advanced "quantization" (by decide)]

theorem candleRequestWantsQuant_eq (h : SameRoutingView p q) :
    candleRequestWantsQuant p = candleRequestWantsQuant q := by
  simp only [candleRequestWantsQuant, candleRequestedQuantBits,
    h.advanced "mlxQuantize" (by decide)]

theorem candleLtxProductTierEligible_eq (h : SameRoutingView p q) (model mode : String) :
    candleLtxProductTierEligible model mode p = candleLtxProductTierEligible model mode q := by
  simp only [candleLtxProductTierEligible, candleLtxRequestedTier,
    h.advanced "mlxQuantize" (by decide)]

theorem candleVideoTierSelectEligible_eq (h : SameRoutingView p q) (model : String) :
    candleVideoTierSelectEligible model p = candleVideoTierSelectEligible model q := by
  simp only [candleVideoTierSelectEligible, h.getStr_eq "mode" (by decide),
    h.candleLtxProductTierEligible_eq]

theorem scail2CandleEffectiveTier_eq (h : SameRoutingView p q) :
    scail2CandleEffectiveTier p = scail2CandleEffectiveTier q := by
  simp only [scail2CandleEffectiveTier, h.advanced "mlxQuantize" (by decide)]

theorem candleVideoShape_eq (h : SameRoutingView p q) (model : String) :
    candleVideoShape policy model p = candleVideoShape policy model q := by
  simp (disch := decide) only [candleVideoShape, ltxCandleShape, wanCandleShape,
    minimaxH3BasePartitionShape, minimaxH3RefCandleShape, h.getStr_eq, h.hasNonemptyString_eq,
    h.hasNonemptyArray_eq, h.hasNonemptyOrMalformedArray_eq, h.hasLtxIcLora_eq]

theorem videoRequestCandleEligible_eq (h : SameRoutingView p q) (model : String) :
    videoRequestCandleEligible policy model p = videoRequestCandleEligible policy model q := by
  simp (disch := decide) only [videoRequestCandleEligible, h.candleVideoShape_eq,
    h.candleRequestWantsTorchQuantization_eq, h.candleRequestWantsQuant_eq,
    h.candleVideoTierSelectEligible_eq, h.hasNonemptyString_eq, h.hasNonemptyArray_eq]

theorem ltxReplaceCandleEligible_eq (h : SameRoutingView p q) (model : String) :
    ltxReplaceCandleEligible policy model p = ltxReplaceCandleEligible policy model q := by
  simp (disch := decide) only [ltxReplaceCandleEligible, h.hasNonemptyString_eq,
    h.hasLtxIcLora_eq, h.candleLtxProductTierEligible_eq]

theorem videoRequestCandleVaceEligible_eq (h : SameRoutingView p q) (model : String)
    (jobType : JobType) :
    videoRequestCandleVaceEligible model p jobType =
      videoRequestCandleVaceEligible model q jobType := by
  simp (disch := decide) only [videoRequestCandleVaceEligible, h.hasNonemptyString_eq,
    h.hasNonemptyArray_eq, h.candleRequestWantsQuant_eq]

theorem scail2SourceTier_eq (h : SameRoutingView p q) :
    scail2CandleSourceTierEligible p = scail2CandleSourceTierEligible q := by
  simp (disch := decide) only [scail2CandleSourceTierEligible, h.scail2CandleEffectiveTier_eq,
    h.hasNonemptyArray_eq]

theorem scail2AnimateCandleEligible_eq (h : SameRoutingView p q) (model : String) :
    scail2AnimateCandleEligible model p = scail2AnimateCandleEligible model q := by
  simp (disch := decide) only [scail2AnimateCandleEligible, scail2CandleProductTierEligible,
    h.getStr_eq, h.hasNonemptyString_eq, h.hasNonemptyStringArray_eq, h.scail2SourceTier_eq,
    h.scail2CandleEffectiveTier_eq]

theorem scail2ReplaceCandleEligible_eq (h : SameRoutingView p q) (model : String) :
    scail2ReplaceCandleEligible model p = scail2ReplaceCandleEligible model q := by
  simp (disch := decide) only [scail2ReplaceCandleEligible, scail2CandleProductTierEligible,
    h.hasNonemptyString_eq, h.scail2SourceTier_eq, h.scail2CandleEffectiveTier_eq]

theorem planBackedMinimaxH3VideoEligible_eq (h : SameRoutingView p q) (model : String) :
    planBackedMinimaxH3VideoEligible policy model p =
      planBackedMinimaxH3VideoEligible policy model q := by
  simp (disch := decide) only [planBackedMinimaxH3VideoEligible, h.getObject_eq, h.getStr_eq,
    h.videoRequestCandleEligible_eq]

theorem planBackedWanVideoCandleEligible_eq (h : SameRoutingView p q) :
    planBackedWanVideoCandleEligible p = planBackedWanVideoCandleEligible q := by
  simp (disch := decide) only [planBackedWanVideoCandleEligible, h.getObject_eq, h.getStr_eq,
    h.hasNonemptyString_eq]

theorem checkpointPlanCheckpointId_eq (h : SameRoutingView p q) :
    checkpointPlanCheckpointIdOfPayloadEntry p = checkpointPlanCheckpointIdOfPayloadEntry q := by
  simp (disch := decide) only [checkpointPlanCheckpointIdOfPayloadEntry, h.getObject_eq]

theorem videoRequestMode_eq (h : SameRoutingView p q) (jobType : JobType) :
    videoRequestMode jobType p = videoRequestMode jobType q := by
  simp (disch := decide) only [videoRequestMode, h.getStr_eq]

theorem wanShapeIsExact_eq (h : SameRoutingView p q) (mode : String) :
    wanShapeIsExact mode p = wanShapeIsExact mode q := by
  simp (disch := decide) only [wanShapeIsExact, h.hasNonemptyString_eq]

theorem videoRequestIsMlxEligible_eq (h : SameRoutingView p q) (jobType : JobType) :
    videoRequestIsMlxEligible policy jobType p = videoRequestIsMlxEligible policy jobType q := by
  simp (disch := decide) only [videoRequestIsMlxEligible, h.getStr_eq,
    h.checkpointPlanCheckpointId_eq, h.planBackedMinimaxH3VideoEligible_eq,
    h.videoRequestMode_eq, h.wanShapeIsExact_eq, h.hasLtxIcLora_eq]

theorem videoRequestIsCandleEligible_eq (h : SameRoutingView p q) (jobType : JobType) :
    videoRequestIsCandleEligible policy jobType p =
      videoRequestIsCandleEligible policy jobType q := by
  simp (disch := decide) only [videoRequestIsCandleEligible, h.getStr_eq,
    h.candleRequestWantsTorchQuantization_eq, h.checkpointPlanCheckpointId_eq,
    h.planBackedWanVideoCandleEligible_eq, h.planBackedMinimaxH3VideoEligible_eq,
    h.videoRequestCandleEligible_eq, h.scail2AnimateCandleEligible_eq, berniniVideoCandleEligible,
    h.videoRequestCandleVaceEligible_eq, h.scail2ReplaceCandleEligible_eq,
    h.ltxReplaceCandleEligible_eq]

end SameRoutingView

end SceneWorks.JobsStore
