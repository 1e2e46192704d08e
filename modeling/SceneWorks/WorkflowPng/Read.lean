import SceneWorks.WorkflowPng.Strip

/-!
The reading half of the PNG codec. The chunk decoder belongs to the image library and
the envelope parser to another module, so both are parameters; what is modelled here is
which chunk is picked, in which of the two passes, and what every failure becomes.
-/

namespace SceneWorks.WorkflowPng

def maxWorkflowTextBytes : Nat := 1024 * 1024

def maxMetadataBytes : Nat := 8 * 1024 * 1024

def workflowKindImage : String := "image"

inductive DecodingError where
  | limitsExceeded
  | other (detail : String)
  deriving DecidableEq

/-- The decoder of the image library: `readInfo` reads up to the image data, `finish`
the rest of the file, and `utf8Text` is what either has collected. -/
structure PngDecoder where
  Reader : Type
  ITXtChunk : Type
  readInfo (bytes : Bytes) (limit : Nat) (ignoreIccp : Bool) : Except DecodingError Reader
  finish (reader : Reader) : Except DecodingError Reader
  utf8Text (reader : Reader) : List ITXtChunk
  keyword (chunk : ITXtChunk) : String
  decompressTextWithLimit (chunk : ITXtChunk) (limit : Nat) : Except String ITXtChunk
  getText (chunk : ITXtChunk) : Except String String

/-- The one parser an envelope goes through. -/
structure ShareParser where
  WorkflowShare : Type
  kind (share : WorkflowShare) : String
  parseWorkflowShareJson (text : String) : Except WorkflowShareError WorkflowShare

variable (decoder : PngDecoder) (parser : ShareParser)

def selectWorkflowChunk (reader : decoder.Reader) :
    Except WorkflowChunkError (Option decoder.ITXtChunk) :=
  match (decoder.utf8Text reader).filter
      fun chunk => decoder.keyword chunk = workflowChunkKeyword with
  | [] => .ok none
  | [only] => .ok (some only)
  | many => .error (.duplicateChunk many.length)

/-- A walk that fails past the image data is an absence, not an error. -/
def workflowChunkAfterImageData (reader : decoder.Reader) :
    Except WorkflowChunkError (Option decoder.ITXtChunk) :=
  match decoder.finish reader with
  | .error _ => .ok none
  | .ok finished => selectWorkflowChunk decoder finished

/-- The text of the chosen chunk, inflated and measured against the one cap. -/
def workflowChunkText (chunk : decoder.ITXtChunk) : Except WorkflowChunkError String := do
  let inflated ← (decoder.decompressTextWithLimit chunk maxWorkflowTextBytes).mapError
    (.unreadableChunk maxWorkflowTextBytes)
  let text ← (decoder.getText inflated).mapError (.unreadableChunk maxWorkflowTextBytes)
  if text.utf8ByteSize > maxWorkflowTextBytes then
    throw (.textTooLarge text.utf8ByteSize maxWorkflowTextBytes)
  return text

/-- A PNG carries an image workflow and nothing else. -/
def parseImageShare (text : String) : Except WorkflowChunkError parser.WorkflowShare := do
  let share ← (parser.parseWorkflowShareJson text).mapError .envelope
  if parser.kind share ≠ workflowKindImage then
    throw (.envelope (.unsupportedKind (parser.kind share) workflowKindImage))
  return share

def openReader (bytes : Bytes) : Except WorkflowChunkError decoder.Reader :=
  (decoder.readInfo bytes maxMetadataBytes true).mapError fun error =>
    match error with
    | .limitsExceeded => .metadataTooLarge maxMetadataBytes
    | .other detail => .png detail

/-- Pass one looks before the image data, pass two after it and only when pass one
found nothing. -/
def findWorkflowChunk (reader : decoder.Reader) :
    Except WorkflowChunkError (Option decoder.ITXtChunk) := do
  match ← selectWorkflowChunk decoder reader with
  | some chunk => return some chunk
  | none => workflowChunkAfterImageData decoder reader

def readWorkflowChunk (bytes : Bytes) :
    Except WorkflowChunkError (Option parser.WorkflowShare) := do
  if bytes.length < pngSignature.length || slice bytes 0 pngSignature.length ≠ pngSignature then
    throw .notPng
  let reader ← openReader decoder bytes
  match ← findWorkflowChunk decoder reader with
  | none => return none
  | some chunk =>
      let text ← workflowChunkText decoder chunk
      let share ← parseImageShare parser text
      return some share

end SceneWorks.WorkflowPng
