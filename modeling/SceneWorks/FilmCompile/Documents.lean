import SceneWorks.Library.Float64
import SceneWorks.Library.Json
import SceneWorks.Library.Text

/-!
The documents the film compiler reads: the reference pack, and of a production plan the part that
reaches a request. What is said about a role is kept apart from what is shown of it: a role
without an image exists only as words.
-/

namespace SceneWorks.FilmCompile

structure GeneratedReference where
  model : String
  tier : Option String
  backend : Option String
  mode : String
  prompt : String
  negativePrompt : Option String
  seed : Option Int
  width : UInt32
  height : UInt32
  jobId : String
  assetId : String
  sha256 : String
  createdAt : String

structure ReferenceEntry where
  role : String
  kind : String
  rawFile : Option String
  rawLocator : Option String
  sourceAssetId : Option String
  description : String
  approved : Bool
  generated : Bool
  generation : Option GeneratedReference

structure SoundEntry where
  role : String
  kind : String
  file : Option String
  description : String
  text : Option String
  voice : Option String
  model : Option String

structure ReferencePack where
  schemaVersion : UInt32
  id : String
  version : UInt32
  description : String
  references : List ReferenceEntry
  sound : List SoundEntry

/-- A text that was given and is not blank, trimmed. -/
def given (text : Option String) : Option String :=
  (text.map Text.trim).filter fun text => text ≠ ""

namespace ReferenceEntry

def file (entry : ReferenceEntry) : Option String := given entry.rawFile

def locator (entry : ReferenceEntry) : Option String := given entry.rawLocator

def isDescribedOnly (entry : ReferenceEntry) : Bool := entry.file.isNone

end ReferenceEntry

/-- The entry of a role, approved or not. -/
def ReferencePack.entry (pack : ReferencePack) (role : String) : Option ReferenceEntry :=
  pack.references.find? fun entry => entry.role = role

def ReferencePack.approvedEntry (pack : ReferencePack) (role : String) : Option ReferenceEntry :=
  pack.references.find? fun entry => entry.role = role && entry.approved

structure DialogueClip where
  role : String
  offsetSeconds : F64
  gain : F64
  sourceInSeconds : F64
  durationSeconds : Option F64
  fadeInSeconds : F64
  fadeOutSeconds : F64

structure ShotConditioning where
  mode : String
  firstFrameRole : Option String
  lastFrameRole : Option String
  referenceRoles : List String
  chainFromShotId : Option String

structure Shot where
  id : String
  beat : String
  prompt : String
  negativePrompt : Option String
  targetDurationSeconds : F64
  resolution : Option String
  audio : String
  dialogueClip : Option DialogueClip
  conditioning : ShotConditioning
  seed : Option Int
  continuityRoles : List String

/-- A kind of text the compiler writes into a prompt. -/
inductive InsertedTextKind where
  | referenceBinding
  | continuityDescription
  | audio
  | noSpeech
  deriving DecidableEq

structure InsertedText where
  kind : InsertedTextKind
  text : String
  deriving DecidableEq

inductive PromptSource where
  | authored
  | refined
  deriving DecidableEq

inductive ReferenceImageResizeMode where
  | match_
  | max
  | diffusers
  deriving DecidableEq

structure CompiledRequest where
  shotId : String
  beat : String
  mode : String
  model : String
  referenceImageShortEdge : Option UInt32
  referenceImageResizeMode : Option ReferenceImageResizeMode
  loras : List String
  steps : Option UInt32
  effectiveSteps : Option UInt32
  turboSchedulerShift : Option F64
  partitionReason : String
  prompt : String
  promptSource : PromptSource
  authoredPrompt : Option String
  insertedText : List InsertedText
  negativePrompt : Option String
  durationSeconds : F64
  fps : UInt32
  width : UInt32
  height : UInt32
  seed : Option Int
  firstFrameRole : Option String
  lastFrameRole : Option String
  referenceRoles : List String
  chainFromShotId : Option String
  continuityRoles : List String
  deriving DecidableEq

structure PlanDiagnostic where
  shotId : Option String
  field : String
  message : String
  deriving DecidableEq

namespace PlanDiagnostic

def plan (field message : String) : PlanDiagnostic := ⟨none, field, message⟩

def shot (shotId field message : String) : PlanDiagnostic := ⟨some shotId, field, message⟩

end PlanDiagnostic

end SceneWorks.FilmCompile
