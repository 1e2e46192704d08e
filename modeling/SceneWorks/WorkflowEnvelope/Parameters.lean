import Mathlib.Data.List.Basic
import SceneWorks.Library.FloatText
import SceneWorks.Library.JsonString
import SceneWorks.WorkflowEnvelope.Envelope

/-!
The text a gallery shows of an envelope: the prompt with its adapter tags, the negative
prompt, and one line of settings. A setting is written when the envelope holds exactly that
field, and a line that is too short to be taken for settings is left out.
-/

namespace SceneWorks.WorkflowEnvelope

open JsonObject (get)

def negativePromptLabel : String := "Negative prompt: "

def settingsPairFloor : Nat := 3

section Numbers

/-- The whole part of a float that has nothing else. -/
def wholePart (value : F64) : Option Nat :=
  match value.decode with
  | .finite _ magnitude => if magnitude % 2 ^ 1074 = 0 then some (magnitude / 2 ^ 1074) else none
  | _ => none

def wholeNumber (value : Json) : Option Nat :=
  match value.asU64 with
  | some integer => some integer
  | none =>
      value.asF64.bind fun float =>
        if F64.lt float F64.zero || F64.lt (F64.ofInt 4294967295) float then none
        else wholePart float

def finiteNumber (value : Json) : Option F64 := value.asF64.filter F64.isFinite

/-- `{:.0}` of a float without a fraction. -/
def wholeText (value : F64) (whole : Nat) : String :=
  String.ofList (F64.signed? (value.decode = .finite true (whole * 2 ^ 1074))
  (Nat.toDigits 10 whole))

def formatNumber (value : F64) : String :=
  match wholePart value with
  | some whole => if whole < 10 ^ 15 then wholeText value whole else F64.display value
  | none => F64.display value

end Numbers

/-- A value that holds a separator is written as a JSON string. -/
def quote (value : String) : List Char :=
  if value.toList.contains ',' || value.toList.contains '\n' || value.toList.contains ':' then
    JsonString.encode value.toList
  else value.toList

def civitaiLoraKey (value : String) : Bool :=
  value ≠ "" && value.toList.all fun c =>
    Text.isAsciiAlphanumeric c || c = '_' || c = '.' || c = '-'

def entriesOf (index : Nat) (loras : List Json) : List Json :=
  loras.filter fun entry => (entry.get "index").bind Json.asU64 = some index

/-- The only entry of a phase for the adapter repeats its weight. -/
def keepsWeight (weight : F64) : List Json → Bool
  | [entry] =>
      match (entry.get "weight").filter fun value => !value.isNull with
      | none => true
      | some value => (finiteNumber value).any fun phaseWeight => F64.eq phaseWeight weight
  | _ => false

/-- The adapter runs in every phase, with one weight. -/
def loraWeightIsFixed (share : WorkflowShare) (index : Nat) (weight : F64) : Bool :=
  match (get share.advanced "phases").bind Json.asArray with
  | none => true
  | some phases =>
      !phases.isEmpty && phases.all fun phase =>
        ((phase.get "loras").bind Json.asArray).any fun loras =>
          keepsWeight weight (entriesOf index loras)

def loraTag (share : WorkflowShare) (entry : WorkflowLora × Nat) : Option String :=
  match entry.1.name, entry.1.weight, entry.1.hash with
  | some name, some weight, some _ =>
      if civitaiLoraKey name && !(F64.lt weight F64.zero) &&
          loraWeightIsFixed share entry.2 weight then
        some ("<lora:" ++ name ++ ":" ++ formatNumber weight ++ ">")
      else none
  | _, _, _ => none

def pushTag (out tag : String) : String := if out = "" then tag else out ++ " " ++ tag

/-- The prompt with the tags of its adapters. -/
def taggedPrompt (share : WorkflowShare) : String :=
  (share.loras.zipIdx.filterMap (loraTag share)).foldl pushTag share.prompt

section Settings

variable (share : WorkflowShare) (encoded : UInt32 × UInt32)

/-- A run whose steps and guidance are those of its phases. -/
def multiPhase : Bool :=
  JsonObject.containsKey share.advanced "phases" || share.omitted.contains omittedPhases

/-- Two counts, unless they leave the range. -/
def checkedAdd (total steps : Nat) : Option Nat :=
  if total + steps < 2 ^ 64 then some (total + steps) else none

def addPhase (total : Nat) (phase : Json) : Option Nat := do
  let steps ← (phase.get "steps").bind wholeNumber
  let sum ← checkedAdd total steps
  if 1 ≤ steps then some sum else none

def exactSteps : Option Nat :=
  if multiPhase share then
    ((get share.advanced "phases").bind Json.asArray).bind fun phases => phases.foldlM addPhase 0
  else (get share.advanced "steps").bind wholeNumber

/-- The sampler by name; the default is no name. -/
def samplerLabel : Option String :=
  (((get share.advanced "sampler").bind Json.asStr).map Text.trim).filter fun sampler =>
    sampler ≠ "" && sampler ≠ "default"

def cfgScale : Option F64 :=
  if multiPhase share || JsonObject.containsKey share.advanced "guidanceMethod" then none
  else (get share.advanced "guidanceScale").bind finiteNumber

def loraHash (lora : WorkflowLora) : Option String := do
  let name ← lora.name.filter civitaiLoraKey
  let hash ← lora.hash
  some (name ++ ": " ++ hash)

def loraHashes : String :=
  String.ofList ([',', ' '].intercalate ((share.loras.filterMap loraHash).map String.toList))

def nonempty (text : String) : Option String := if text = "" then none else some text

/-- The value of each setting, in the order of the line. -/
def settingsFields : List (String × Option String) :=
  [("Steps", ((exactSteps share).filter (1 ≤ ·)).map fun steps =>
    String.ofList (Nat.toDigits 10 steps)), ("Sampler", samplerLabel share),
    ("CFG scale", (cfgScale share).map formatNumber),
    ("Seed", share.seed.map fun seed => String.ofList (F64.intDigits seed.toInt)),
    ("Size",
      if share.width = some encoded.1 && share.height = some encoded.2 then
        some (String.ofList
          (Nat.toDigits 10 encoded.1.toNat ++ 'x' :: Nat.toDigits 10 encoded.2.toNat))
      else none),
    ("Model", nonempty share.model),
    ("Model hash", if share.model = "" then none else share.modelHash),
    ("Lora hashes", nonempty (loraHashes share)),
    ("Version", nonempty share.producer.version),
    ("software", nonempty share.producer.name)]

/-- The pairs that are pushed. -/
def settingsPairs : List (String × String) :=
  (settingsFields share encoded).filterMap fun field => field.2.map fun value => (field.1, value)

def renderPair (pair : String × String) : List Char := pair.1.toList ++ ':' :: ' ' :: quote pair.2

def settingsLine : List Char :=
  let pairs := settingsPairs share encoded
  if pairs.length < settingsPairFloor then []
  else [',', ' '].intercalate (pairs.map renderPair)

/-- The lines before the settings. -/
def promptText : List Char :=
  (taggedPrompt share).toList ++
    if share.negativePrompt = "" then []
    else '\n' :: (negativePromptLabel.toList ++ share.negativePrompt.toList)

def parametersText : List Char :=
  promptText share ++
    if settingsLine share encoded = [] then [] else '\n' :: settingsLine share encoded

end Settings

end SceneWorks.WorkflowEnvelope
