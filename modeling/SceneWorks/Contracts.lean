import Mathlib.Data.Rat.Defs
import Mathlib.Data.List.Basic

/-!
The forward-compatible wire enumerations of `contracts.rs`. Each has an `unknown`
variant for the values a newer peer may send; it carries the proof that its text
is not one of the declared values, which is what the deserializer establishes, so
two values of an enumeration are equal exactly when their wire texts are.
-/

namespace SceneWorks

namespace JobType

def knownValues : List String :=
  ["placeholder", "image_generate", "image_edit", "image_vqa", "image_interleave",
    "vector_generate", "video_generate", "video_extend", "video_bridge", "person_detect",
    "person_track", "person_replace", "audio_generate", "pose_detect", "kps_extract",
    "image_upscale", "image_detail", "image_segment", "image_depth", "video_upscale",
    "frame_extract", "timeline_export", "model_download", "model_import", "model_convert",
    "lora_import", "lora_download", "lora_train", "control_training", "training_caption",
    "dataset_parquet_import", "dataset_analysis", "catalog_analysis", "dataset_upscale",
    "dataset_face_analysis", "dataset_subject_mask", "face_likeness_compare", "prompt_refine"]

end JobType

inductive JobType where
  | placeholder | imageGenerate | imageEdit | imageVqa | imageInterleave | vectorGenerate
  | videoGenerate | videoExtend | videoBridge | personDetect | personTrack | personReplace
  | audioGenerate | poseDetect | kpsExtract | imageUpscale | imageDetail | imageSegment
  | imageDepth | videoUpscale | frameExtract | timelineExport | modelDownload | modelImport
  | modelConvert | loraImport | loraDownload | loraTrain | controlTraining | trainingCaption
  | datasetParquetImport | datasetAnalysis | catalogAnalysis | datasetUpscale
  | datasetFaceAnalysis | datasetSubjectMask | faceLikenessCompare | promptRefine
  | unknown (value : String) (fresh : value ∉ JobType.knownValues)
  deriving DecidableEq

namespace JobType

def asStr : JobType → String
  | placeholder => "placeholder"
  | imageGenerate => "image_generate"
  | imageEdit => "image_edit"
  | imageVqa => "image_vqa"
  | imageInterleave => "image_interleave"
  | vectorGenerate => "vector_generate"
  | videoGenerate => "video_generate"
  | videoExtend => "video_extend"
  | videoBridge => "video_bridge"
  | personDetect => "person_detect"
  | personTrack => "person_track"
  | personReplace => "person_replace"
  | audioGenerate => "audio_generate"
  | poseDetect => "pose_detect"
  | kpsExtract => "kps_extract"
  | imageUpscale => "image_upscale"
  | imageDetail => "image_detail"
  | imageSegment => "image_segment"
  | imageDepth => "image_depth"
  | videoUpscale => "video_upscale"
  | frameExtract => "frame_extract"
  | timelineExport => "timeline_export"
  | modelDownload => "model_download"
  | modelImport => "model_import"
  | modelConvert => "model_convert"
  | loraImport => "lora_import"
  | loraDownload => "lora_download"
  | loraTrain => "lora_train"
  | controlTraining => "control_training"
  | trainingCaption => "training_caption"
  | datasetParquetImport => "dataset_parquet_import"
  | datasetAnalysis => "dataset_analysis"
  | catalogAnalysis => "catalog_analysis"
  | datasetUpscale => "dataset_upscale"
  | datasetFaceAnalysis => "dataset_face_analysis"
  | datasetSubjectMask => "dataset_subject_mask"
  | faceLikenessCompare => "face_likeness_compare"
  | promptRefine => "prompt_refine"
  | unknown value _ => value

end JobType

namespace JobStatus

def knownValues : List String :=
  ["queued", "pending_caption", "pending_workflow", "preparing", "downloading", "loading_model",
    "running", "saving", "completed", "failed", "canceled", "interrupted"]

end JobStatus

inductive JobStatus where
  | queued | pendingCaption | pendingWorkflow | preparing | downloading | loadingModel | running
  | saving | completed | failed | canceled | interrupted
  | unknown (value : String) (fresh : value ∉ JobStatus.knownValues)
  deriving DecidableEq

namespace JobStatus

def asStr : JobStatus → String
  | queued => "queued"
  | pendingCaption => "pending_caption"
  | pendingWorkflow => "pending_workflow"
  | preparing => "preparing"
  | downloading => "downloading"
  | loadingModel => "loading_model"
  | running => "running"
  | saving => "saving"
  | completed => "completed"
  | failed => "failed"
  | canceled => "canceled"
  | interrupted => "interrupted"
  | unknown value _ => value

/-- Worker-owned states. Queued and API-owned pre-steps remain pending. -/
def activeStatuses : List JobStatus :=
  [preparing, downloading, loadingModel, running, saving]

def terminalStatuses : List JobStatus :=
  [completed, failed, canceled, interrupted]

/-- States that can be canceled immediately without worker acknowledgement. -/
def pendingStatuses : List JobStatus :=
  [queued, pendingCaption, pendingWorkflow]

def isActive (status : JobStatus) : Bool := status ∈ activeStatuses

def isTerminal (status : JobStatus) : Bool := status ∈ terminalStatuses

def isPending (status : JobStatus) : Bool := status ∈ pendingStatuses

/-- The declared statuses fall into exactly one of the three classes. -/
theorem known_iff_class (status : JobStatus) :
    status.asStr ∈ knownValues ↔
      status.isPending = true ∨ status.isActive = true ∨ status.isTerminal = true := by
  cases status with
  | unknown value fresh =>
      simp [asStr, fresh, isPending, isActive, isTerminal, pendingStatuses, activeStatuses,
        terminalStatuses]
  | _ => decide

theorem isActive_eq_false_of_isTerminal {status : JobStatus} (h : status.isTerminal = true) :
    status.isActive = false := by
  cases status <;> simp_all [isTerminal, isActive, terminalStatuses, activeStatuses]

theorem isPending_eq_false_of_isTerminal {status : JobStatus} (h : status.isTerminal = true) :
    status.isPending = false := by
  cases status <;> simp_all [isTerminal, isPending, terminalStatuses, pendingStatuses]

theorem isPending_eq_false_of_isActive {status : JobStatus} (h : status.isActive = true) :
    status.isPending = false := by
  cases status <;> simp_all [isActive, isPending, activeStatuses, pendingStatuses]

theorem isTerminal_eq_false_of_isActive {status : JobStatus} (h : status.isActive = true) :
    status.isTerminal = false := by
  cases status <;> simp_all [isActive, isTerminal, activeStatuses, terminalStatuses]

end JobStatus

namespace ProgressStage

def knownValues : List String :=
  ["queued", "pending_caption", "pending_workflow", "preparing", "downloading", "importing",
    "loading_model", "estimating", "generating", "running", "caching_latents", "training",
    "checkpointing", "rendering", "extracting", "tracking", "muxing", "saving", "completed",
    "failed", "canceled", "interrupted"]

end ProgressStage

inductive ProgressStage where
  | queued | pendingCaption | pendingWorkflow | preparing | downloading | importing
  | loadingModel | estimating | generating | running | cachingLatents | training | checkpointing
  | rendering | extracting | tracking | muxing | saving | completed | failed | canceled
  | interrupted
  | unknown (value : String) (fresh : value ∉ ProgressStage.knownValues)
  deriving DecidableEq

namespace ProgressStage

def asStr : ProgressStage → String
  | queued => "queued"
  | pendingCaption => "pending_caption"
  | pendingWorkflow => "pending_workflow"
  | preparing => "preparing"
  | downloading => "downloading"
  | importing => "importing"
  | loadingModel => "loading_model"
  | estimating => "estimating"
  | generating => "generating"
  | running => "running"
  | cachingLatents => "caching_latents"
  | training => "training"
  | checkpointing => "checkpointing"
  | rendering => "rendering"
  | extracting => "extracting"
  | tracking => "tracking"
  | muxing => "muxing"
  | saving => "saving"
  | completed => "completed"
  | failed => "failed"
  | canceled => "canceled"
  | interrupted => "interrupted"
  | unknown value _ => value

end ProgressStage

namespace WorkerStatus

def knownValues : List String :=
  ["idle", "busy", "offline", "unhealthy"]

end WorkerStatus

inductive WorkerStatus where
  | idle | busy | offline | unhealthy
  | unknown (value : String) (fresh : value ∉ WorkerStatus.knownValues)
  deriving DecidableEq

namespace WorkerStatus

def asStr : WorkerStatus → String
  | idle => "idle"
  | busy => "busy"
  | offline => "offline"
  | unhealthy => "unhealthy"
  | unknown value _ => value

end WorkerStatus

namespace WorkerCapability

def knownValues : List String :=
  ["cpu", "gpu", "placeholder", "image_generate", "image_edit", "image_vqa", "image_interleave",
    "vector_image_to_svg", "vector_text_to_svg", "video_generate", "video_extend",
    "video_bridge", "person_detect", "person_track", "person_replace", "audio_generate",
    "pose_detect", "kps_extract", "person_detect_preview", "person_track_preview",
    "person_segment", "image_upscale", "image_detail", "image_segment", "image_depth",
    "video_upscale", "frame_extract", "timeline_export", "model_download", "model_import",
    "model_convert", "lora_import", "lora_download", "dataset_parquet_import", "lora_train",
    "training_caption", "dataset_analysis", "catalog_analysis", "dataset_upscale",
    "dataset_face_analysis", "face_likeness_compare", "lora_train_execute", "prompt_refine"]

end WorkerCapability

inductive WorkerCapability where
  | cpu | gpu | placeholder | imageGenerate | imageEdit | imageVqa | imageInterleave
  | vectorImageToSvg | vectorTextToSvg | videoGenerate | videoExtend | videoBridge | personDetect
  | personTrack | personReplace | audioGenerate | poseDetect | kpsExtract | personDetectPreview
  | personTrackPreview | personSegment | imageUpscale | imageDetail | imageSegment | imageDepth
  | videoUpscale | frameExtract | timelineExport | modelDownload | modelImport | modelConvert
  | loraImport | loraDownload | datasetParquetImport | loraTrain | trainingCaption
  | datasetAnalysis | catalogAnalysis | datasetUpscale | datasetFaceAnalysis
  | faceLikenessCompare | loraTrainExecute | promptRefine
  | unknown (value : String) (fresh : value ∉ WorkerCapability.knownValues)
  deriving DecidableEq

namespace WorkerCapability

def asStr : WorkerCapability → String
  | cpu => "cpu"
  | gpu => "gpu"
  | placeholder => "placeholder"
  | imageGenerate => "image_generate"
  | imageEdit => "image_edit"
  | imageVqa => "image_vqa"
  | imageInterleave => "image_interleave"
  | vectorImageToSvg => "vector_image_to_svg"
  | vectorTextToSvg => "vector_text_to_svg"
  | videoGenerate => "video_generate"
  | videoExtend => "video_extend"
  | videoBridge => "video_bridge"
  | personDetect => "person_detect"
  | personTrack => "person_track"
  | personReplace => "person_replace"
  | audioGenerate => "audio_generate"
  | poseDetect => "pose_detect"
  | kpsExtract => "kps_extract"
  | personDetectPreview => "person_detect_preview"
  | personTrackPreview => "person_track_preview"
  | personSegment => "person_segment"
  | imageUpscale => "image_upscale"
  | imageDetail => "image_detail"
  | imageSegment => "image_segment"
  | imageDepth => "image_depth"
  | videoUpscale => "video_upscale"
  | frameExtract => "frame_extract"
  | timelineExport => "timeline_export"
  | modelDownload => "model_download"
  | modelImport => "model_import"
  | modelConvert => "model_convert"
  | loraImport => "lora_import"
  | loraDownload => "lora_download"
  | datasetParquetImport => "dataset_parquet_import"
  | loraTrain => "lora_train"
  | trainingCaption => "training_caption"
  | datasetAnalysis => "dataset_analysis"
  | catalogAnalysis => "catalog_analysis"
  | datasetUpscale => "dataset_upscale"
  | datasetFaceAnalysis => "dataset_face_analysis"
  | faceLikenessCompare => "face_likeness_compare"
  | loraTrainExecute => "lora_train_execute"
  | promptRefine => "prompt_refine"
  | unknown value _ => value

end WorkerCapability

/-- The utilization a worker reports; every figure is optional. -/
structure WorkerUtilizationSnapshot where
  memoryTotalMb : Option Nat
  memoryUsedMb : Option Nat
  memoryFreeMb : Option Nat
  gpuLoadPercent : Option ℚ
  deriving DecidableEq

/-- Seconds since the Unix epoch: the instant a stored UTC text denotes. -/
abbrev Timestamp := Int

structure WorkerSnapshot where
  id : String
  gpuId : String
  gpuName : Option String
  status : WorkerStatus
  currentJobId : Option String
  capabilities : List WorkerCapability
  loadedModels : List String
  utilization : Option WorkerUtilizationSnapshot
  statusReason : Option String
  registeredAt : Timestamp
  lastSeenAt : Timestamp
  deriving DecidableEq

end SceneWorks
