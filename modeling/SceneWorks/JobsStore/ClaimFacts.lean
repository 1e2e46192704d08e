import Mathlib.Data.List.Destutter
import Mathlib.Data.List.Sort
import Mathlib.Data.String.Basic
import SceneWorks.JobsStore.VideoRouting

/-!
The compact claim projection: which facts about a job's type and payload decide
whether a worker may run it, the policy that decides from those facts, and the
bounded columns the facts are persisted in.

`RoutingPolicy` carries the payload predicates of the image and training lanes and
the catalogue texts that only their own tables define. Nothing here assumes anything
about them, so every result holds for whatever they answer.
-/

namespace SceneWorks.JobsStore

structure RoutingPolicy extends VideoPolicy where
  imageRequestMlxEligible : JobType → JsonObject → Bool
  imageRequestCandleEligible : JobType → JsonObject → Bool
  imageRequestCandlePoseReject : String → JsonObject → Bool
  loraTrainPlanMlxEligible : JsonObject → Bool
  trainingPlanCandleEligible : JobType → JsonObject → Bool
  flux3RequiredWorkerCapability : JsonObject → Option String
  macRustUnsupported : JobType → JsonObject → Option String
  candleUnsupported : JobType → JsonObject → Option String
  terminationFailureError : Option Int → Option Int → JobType → String
  jsonText : Json → String
  yue2RefreshBlockForDuplicate : JsonObject → JsonObject

section JobTypes

def nonGpuJobTypes : List String :=
  ["model_download", "model_import", "model_convert", "lora_import", "lora_download",
    "dataset_parquet_import"]

def isNonGpuJobType (jobType : JobType) : Bool :=
  nonGpuJobTypes.contains jobType.asStr

def jobRequiresGpu (jobType : JobType) : Bool :=
  [.imageGenerate, .imageEdit, .imageVqa, .imageInterleave, .vectorGenerate, .imageUpscale,
    .imageDetail, .imageSegment, .imageDepth, .videoGenerate, .videoExtend, .videoBridge,
    .videoUpscale, .personReplace, .loraTrain, .controlTraining, .trainingCaption,
    .datasetAnalysis, .catalogAnalysis, .datasetUpscale, .datasetFaceAnalysis,
    .datasetSubjectMask, .faceLikenessCompare].contains jobType

def sensenovaModelIds : List String :=
  ["sensenova_u1_8b", "sensenova_u1_8b_infographic_v2", "sensenova_u1_8b_infographic_v3",
    "sensenova_u1_8b_fast", "sensenova_u1_8b_infographic_v2_fast",
    "sensenova_u1_8b_infographic_v3_fast"]

def mlxOnlyTrainingKernels : List String :=
  ["moss_image_lora", "ltx_mlx_lora", "krea_lora", "sd3_lora", "anima_lora", "krea_control",
    "mage_flow_lora", "iris_train", "qwen_image_2_1_lora", "qwen_image_2_1_edit_lora",
    "flux3_klein_lora", "flux3_klein_edit_lora"]

end JobTypes

section LanePredicates

variable (policy : RoutingPolicy) (jobType : JobType) (payload : JsonObject)

def imageJobIsMlxEligible : Bool :=
  [.imageGenerate, .imageEdit].contains jobType && policy.imageRequestMlxEligible jobType payload

def imageDetailNativeEligible : Bool :=
  jobType = .imageDetail &&
    ["sdxl", "realvisxl", "illustrious_xl_v1", "illustrious_xl_v2"].contains
      (nonemptyStringOr payload "model" "realvisxl")

def jobIsMlxEligible : Bool :=
  imageJobIsMlxEligible policy jobType payload || imageDetailNativeEligible jobType payload

def imageJobIsCandleEligible : Bool :=
  [.imageGenerate, .imageEdit].contains jobType &&
    policy.imageRequestCandleEligible jobType payload

def imageJobCandlePoseReject : Bool :=
  jobType = .imageGenerate &&
    (getStr payload "model").any fun model => policy.imageRequestCandlePoseReject model payload

def trainingJobIsMlxEligible : Bool :=
  jobType = .loraTrain && policy.loraTrainPlanMlxEligible payload

def trainingJobIsCandleEligible : Bool :=
  [.loraTrain, .controlTraining].contains jobType &&
    policy.trainingPlanCandleEligible jobType payload

def trainingKernelIsMlxOnly : Bool :=
  [.loraTrain, .controlTraining].contains jobType &&
    ((((getObject payload "plan").bind fun plan => getObject plan "target").bind
      fun target => getStr target "kernel").any fun kernel =>
        mlxOnlyTrainingKernels.contains kernel)

def captionJobIsMlxEligible : Bool :=
  jobType = .trainingCaption &&
    (getStr payload "captioner").any fun value => Text.trim value = "joy_caption"

def understandingJobIsMlxEligible : Bool :=
  [.imageVqa, .imageInterleave].contains jobType &&
    sensenovaModelIds.contains (nonemptyStringOr payload "model" "sensenova_u1_8b")

def isIrisEngine (engine : String) : Bool :=
  Text.eqIgnoreAsciiCase (Text.trim engine) "iris"

def upscaleJobIsMlxEligible : Bool :=
  jobType = .imageUpscale &&
    (let engine := ((getStr payload "engine").map fun value =>
        Text.asciiLower (Text.trim value)).getD "real-esrgan"
     ["", "real-esrgan", "realesrgan", "real_esrgan", "seedvr2"].contains engine ||
       isIrisEngine engine)

def upscaleJobRequestsSeedvr2 : Bool :=
  jobType = .imageUpscale &&
    (getStr payload "engine").any fun engine =>
      Text.eqIgnoreAsciiCase (Text.trim engine) "seedvr2" || isIrisEngine engine

def videoUpscaleJobIsMlxEligible : Bool :=
  jobType = .videoUpscale &&
    (let engine := ((getStr payload "engine").map fun value =>
        Text.asciiLower (Text.trim value)).getD "seedvr2"
     ["", "seedvr2", "seedvr2_3b"].contains engine)

def jobIsAnyMlxEligible : Bool :=
  jobIsMlxEligible policy jobType payload ||
    videoRequestIsMlxEligible policy.toVideoPolicy jobType payload ||
    videoUpscaleJobIsMlxEligible jobType payload ||
    trainingJobIsMlxEligible policy jobType payload ||
    captionJobIsMlxEligible jobType payload ||
    understandingJobIsMlxEligible jobType payload

def jobIsAnyCandleEligible : Bool :=
  imageJobIsCandleEligible policy jobType payload ||
    videoRequestIsCandleEligible policy.toVideoPolicy jobType payload ||
    upscaleJobIsMlxEligible jobType payload ||
    videoUpscaleJobIsMlxEligible jobType payload ||
    captionJobIsMlxEligible jobType payload ||
    understandingJobIsMlxEligible jobType payload ||
    trainingJobIsCandleEligible policy jobType payload

end LanePredicates

structure ClaimRoutingFacts where
  jobType : JobType
  mlxEligible : Bool
  candleEligible : Bool
  candlePoseReject : Bool
  trainingMlxOnly : Bool
  seedvr2Upscale : Bool
  requiredCapability : String
  realTraining : Bool
  modelKeys : List String
  deriving DecidableEq

section Projection

variable (policy : RoutingPolicy) (jobType : JobType) (payload : JsonObject)

/-- `push_string_value`: a key read only when it is a nonempty text. -/
def stringValue (value : Option Json) : List String :=
  ((value.bind Json.asStr).filter fun text => text ≠ "").toList

def desiredModelKeys : List String :=
  let keys := stringValue (JsonObject.get payload "model") ++
    stringValue (JsonObject.get payload "repo") ++
    stringValue (getAdvanced payload "modelRepo") ++ stringValue (getAdvanced payload "repo")
  (keys.insertionSort (· ≤ ·)).destutter (· ≠ ·)

def isRealTrainingJob : Bool :=
  match jobType with
  | .controlTraining => true
  | .loraTrain => (JsonObject.get payload "dryRun").bind Json.asBool = some false
  | _ => false

def personJobIsPreview : Bool :=
  [.personDetect, .personTrack].contains jobType &&
    (JsonObject.get payload "preview").bind Json.asBool = some true

def localDerivationIsFlux3 : Bool :=
  (((JsonObject.get payload "localDerivation").bind fun block => block.get "conversion").bind
    Json.asStr).any fun conversion => "flux3-".toList.isPrefixOf conversion.toList

def requiredCapability : String :=
  match jobType with
  | .vectorGenerate =>
      match getStr payload "mode" with
      | some "image_to_svg" => WorkerCapability.vectorImageToSvg.asStr
      | some "text_to_svg" => WorkerCapability.vectorTextToSvg.asStr
      | _ => jobType.asStr
  | .personDetect =>
      if personJobIsPreview jobType payload then WorkerCapability.personDetectPreview.asStr
      else jobType.asStr
  | .personTrack =>
      if personJobIsPreview jobType payload then WorkerCapability.personTrackPreview.asStr
      else jobType.asStr
  | .controlTraining => WorkerCapability.loraTrain.asStr
  | .datasetSubjectMask => WorkerCapability.imageSegment.asStr
  | .modelDownload =>
      if localDerivationIsFlux3 payload then WorkerCapability.imageGenerate.asStr
      else if JsonObject.containsKey payload "localDerivation" then
        WorkerCapability.audioGenerate.asStr
      else jobType.asStr
  | .imageGenerate | .imageEdit =>
      (policy.flux3RequiredWorkerCapability payload).getD jobType.asStr
  | _ => jobType.asStr

def claimMlxEligible : Bool :=
  match jobType with
  | .imageGenerate | .imageEdit | .imageDetail => jobIsMlxEligible policy jobType payload
  | .videoGenerate | .videoExtend | .videoBridge | .personReplace =>
      videoRequestIsMlxEligible policy.toVideoPolicy jobType payload
  | .loraTrain | .controlTraining => trainingJobIsMlxEligible policy jobType payload
  | .trainingCaption => captionJobIsMlxEligible jobType payload
  | .imageUpscale => upscaleJobIsMlxEligible jobType payload
  | .videoUpscale => videoUpscaleJobIsMlxEligible jobType payload
  | .imageVqa | .imageInterleave => understandingJobIsMlxEligible jobType payload
  | _ => true

def claimCandleEligible : Bool :=
  match jobType with
  | .imageGenerate | .imageEdit => imageJobIsCandleEligible policy jobType payload
  | .imageDetail => imageDetailNativeEligible jobType payload
  | .videoGenerate | .videoExtend | .videoBridge | .personReplace =>
      videoRequestIsCandleEligible policy.toVideoPolicy jobType payload
  | .loraTrain | .controlTraining => trainingJobIsCandleEligible policy jobType payload
  | .trainingCaption => captionJobIsMlxEligible jobType payload
  | .imageVqa | .imageInterleave => understandingJobIsMlxEligible jobType payload
  | .imageUpscale => upscaleJobIsMlxEligible jobType payload
  | .videoUpscale => videoUpscaleJobIsMlxEligible jobType payload
  | _ => true

/-- `ClaimRoutingFacts::from_parts`. -/
def ClaimRoutingFacts.fromParts : ClaimRoutingFacts where
  jobType := jobType
  mlxEligible := claimMlxEligible policy jobType payload
  candleEligible := claimCandleEligible policy jobType payload
  candlePoseReject := imageJobCandlePoseReject policy jobType payload
  trainingMlxOnly := trainingKernelIsMlxOnly jobType payload
  seedvr2Upscale := upscaleJobRequestsSeedvr2 jobType payload
  requiredCapability := JobsStore.requiredCapability policy jobType payload
  realTraining := isRealTrainingJob jobType payload
  modelKeys := desiredModelKeys payload

theorem desiredModelKeys_length_le : (desiredModelKeys payload).length ≤ 4 := by
  have hone (value : Option Json) : (stringValue value).length ≤ 1 := by
    unfold stringValue
    cases (value.bind Json.asStr).filter fun text => text ≠ "" <;> simp
  refine Nat.le_trans (List.destutter_sublist _ _).length_le ?_
  simp only [List.length_insertionSort, List.length_append]
  have h1 := hone (JsonObject.get payload "model")
  have h2 := hone (JsonObject.get payload "repo")
  have h3 := hone (getAdvanced payload "modelRepo")
  have h4 := hone (getAdvanced payload "repo")
  omega

variable {policy jobType payload}

/-- The resize-mode stamp of a claim changes no routing fact of a video job. -/
theorem fromParts_eq_of_stampClaimed {stamped : JsonObject} (hvideo : isVideoClaimType jobType)
    (h : stampClaimedReferenceImageResizeMode policy.toVideoPolicy payload = some stamped) :
    ClaimRoutingFacts.fromParts policy jobType stamped =
      ClaimRoutingFacts.fromParts policy jobType payload := by
  have hview := SameRoutingView.of_stampClaimed h
  have hkeys : desiredModelKeys stamped = desiredModelKeys payload := by
    simp (disch := decide) only [desiredModelKeys, hview.get, hview.advanced]
  have hcases : jobType = .videoGenerate ∨ jobType = .videoExtend ∨ jobType = .videoBridge ∨
      jobType = .personReplace := by
    simpa [isVideoClaimType] using hvideo
  obtain rfl | rfl | rfl | rfl := hcases <;>
    simp [ClaimRoutingFacts.fromParts, claimMlxEligible, claimCandleEligible, requiredCapability,
      isRealTrainingJob, imageJobCandlePoseReject, trainingKernelIsMlxOnly,
      upscaleJobRequestsSeedvr2, hkeys, hview.videoRequestIsMlxEligible_eq,
      hview.videoRequestIsCandleEligible_eq]

end Projection

section WorkerSupport

def workerAdvertises (worker : WorkerSnapshot) (capability : String) : Bool :=
  worker.capabilities.any fun owned => owned.asStr = capability

def workerIsCandle (worker : WorkerSnapshot) : Bool :=
  workerAdvertises worker "candle"

def workerIsMlx (worker : WorkerSnapshot) : Bool :=
  Text.eqIgnoreAsciiCase worker.gpuId "mlx"

/-- The types an `mlx` worker takes only when the projection calls them eligible. -/
def mlxGatedJobTypes : List JobType :=
  [.imageGenerate, .imageEdit, .imageDetail, .videoGenerate, .videoExtend, .videoBridge,
    .personReplace, .loraTrain, .controlTraining, .trainingCaption, .imageUpscale, .videoUpscale,
    .imageVqa, .imageInterleave]

/-- The types a candle worker takes only when the projection calls them eligible;
image generation and editing are gated separately, since a candle worker also owns
the pose shapes it has to reject. -/
def candleGatedJobTypes : List JobType :=
  [.imageDetail, .videoGenerate, .videoExtend, .videoBridge, .personReplace, .loraTrain,
    .controlTraining, .trainingCaption, .imageVqa, .imageInterleave, .imageUpscale, .videoUpscale]

def workerSupportsClaimRoutingFacts (worker : WorkerSnapshot) (job : ClaimRoutingFacts) : Bool :=
  if worker.status = .unhealthy then false
  else if jobRequiresGpu job.jobType && Text.eqIgnoreAsciiCase worker.gpuId "cpu" then false
  else if !workerIsMlx worker && job.trainingMlxOnly &&
      !(workerIsCandle worker && job.candleEligible) then false
  else if workerIsMlx worker && mlxGatedJobTypes.contains job.jobType && !job.mlxEligible then
    false
  else if !workerIsCandle worker && !workerIsMlx worker && job.candlePoseReject then false
  else if workerIsCandle worker && [.imageGenerate, .imageEdit].contains job.jobType &&
      !(job.candleEligible || job.candlePoseReject) then false
  else if workerIsCandle worker && candleGatedJobTypes.contains job.jobType &&
      !job.candleEligible then false
  else if !workerIsMlx worker && !workerIsCandle worker && job.seedvr2Upscale then false
  else if !workerAdvertises worker job.requiredCapability then false
  else if job.realTraining then
    workerAdvertises worker WorkerCapability.loraTrainExecute.asStr
  else true

/-- `worker_supports_job`: the policy applied to the facts of the decoded job. -/
def workerSupportsJob (policy : RoutingPolicy) (worker : WorkerSnapshot) (jobType : JobType)
    (payload : JsonObject) : Bool :=
  workerSupportsClaimRoutingFacts worker (ClaimRoutingFacts.fromParts policy jobType payload)

end WorkerSupport

section ClaimColumns

def claimRoutingFactsVersion : Int := 3

/-- The `claim_*` columns of a job row. -/
structure ClaimColumns where
  factsVersion : Int
  payloadRevision : Nat
  mlxEligible : Bool
  candleEligible : Bool
  candlePoseReject : Bool
  trainingMlxOnly : Bool
  seedvr2Upscale : Bool
  requiredCapability : String
  realTraining : Bool
  modelKey1 : Option String
  modelKey2 : Option String
  modelKey3 : Option String
  modelKey4 : Option String
  deriving DecidableEq

/-- The columns every writer of the projection binds, at the given payload revision. -/
def ClaimRoutingFacts.columns (facts : ClaimRoutingFacts) (payloadRevision : Nat) :
    ClaimColumns where
  factsVersion := claimRoutingFactsVersion
  payloadRevision := payloadRevision
  mlxEligible := facts.mlxEligible
  candleEligible := facts.candleEligible
  candlePoseReject := facts.candlePoseReject
  trainingMlxOnly := facts.trainingMlxOnly
  seedvr2Upscale := facts.seedvr2Upscale
  requiredCapability := facts.requiredCapability
  realTraining := facts.realTraining
  modelKey1 := facts.modelKeys[0]?
  modelKey2 := facts.modelKeys[1]?
  modelKey3 := facts.modelKeys[2]?
  modelKey4 := facts.modelKeys[3]?

/-- The facts `row_to_claim_candidate` reads back from the columns. -/
def ClaimColumns.facts (columns : ClaimColumns) (jobType : JobType) : ClaimRoutingFacts where
  jobType := jobType
  mlxEligible := columns.mlxEligible
  candleEligible := columns.candleEligible
  candlePoseReject := columns.candlePoseReject
  trainingMlxOnly := columns.trainingMlxOnly
  seedvr2Upscale := columns.seedvr2Upscale
  requiredCapability := columns.requiredCapability
  realTraining := columns.realTraining
  modelKeys :=
    [columns.modelKey1, columns.modelKey2, columns.modelKey3, columns.modelKey4].filterMap id

/-- Four slots hold every key list the payload predicates can produce. -/
theorem filterMap_slots_eq (keys : List String) (h : keys.length ≤ 4) :
    [keys[0]?, keys[1]?, keys[2]?, keys[3]?].filterMap id = keys := by
  match keys with
  | [] => rfl
  | [_] => rfl
  | [_, _] => rfl
  | [_, _, _] => rfl
  | [_, _, _, _] => rfl
  | _ :: _ :: _ :: _ :: _ :: _ =>
      simp only [List.length_cons] at h
      omega

@[simp] theorem columns_facts_fromParts (policy : RoutingPolicy) (jobType : JobType)
    (payload : JsonObject) (payloadRevision : Nat) :
    ((ClaimRoutingFacts.fromParts policy jobType payload).columns payloadRevision).facts jobType =
      ClaimRoutingFacts.fromParts policy jobType payload := by
  have hkeys := filterMap_slots_eq _ (desiredModelKeys_length_le payload)
  simp only [ClaimColumns.facts, ClaimRoutingFacts.columns, ClaimRoutingFacts.fromParts, hkeys]

end ClaimColumns

end SceneWorks.JobsStore
