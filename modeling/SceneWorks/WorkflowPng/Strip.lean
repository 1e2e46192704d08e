import Mathlib.Data.List.Infix

/-!
The excision half of the PNG codec: the walk over the chunk framing, the co-presence
rule that tells our `parameters` chunk from another tool's, and the copy that is left.
A file is the list of its bytes and a cursor is an offset into it.
-/

namespace SceneWorks.WorkflowPng

abbrev Bytes := List UInt8

/-- Why an envelope could not be parsed. -/
inductive WorkflowShareError where
  | invalidJson (detail : String)
  | notAnObject
  | missingMarker
  | unsupportedKind (found supported : String)
  | missingSchemaVersion
  | unsupportedSchemaVersion (file supported : Nat)
  | malformed (field detail : String)
  | tooLarge (bytes limit : Nat)
  deriving DecidableEq

inductive WorkflowChunkError where
  | io (detail : String)
  | notPng
  | png (detail : String)
  | duplicateChunk (count : Nat)
  | metadataTooLarge (limit : Nat)
  | textTooLarge (bytes limit : Nat)
  | unreadableChunk (limit : Nat) (detail : String)
  | envelope (error : WorkflowShareError)
  | encode (detail : String)
  deriving DecidableEq

def asBytes (text : String) : Bytes := text.toUTF8.data.toList

def workflowChunkKeyword : String := "sceneworks:workflow"

def parametersChunkKeyword : String := "parameters"

def pngSignature : Bytes := [0x89, 0x50, 0x4E, 0x47, 0x0D, 0x0A, 0x1A, 0x0A]

def textChunkTypes : List Bytes := [asBytes "iTXt", asBytes "tEXt", asBytes "zTXt"]

/-- The length, the type and the checksum: the bytes of a chunk besides its payload. -/
def chunkOverhead : Nat := 12

/-- The bytes from `start` up to but not including `stop`. -/
def slice (bytes : Bytes) (start stop : Nat) : Bytes := (bytes.drop start).take (stop - start)

def u32FromBeBytes (bytes : Bytes) : Nat :=
  bytes.foldl (fun n byte => n * 256 + byte.toNat) 0

/-- A half-open range of offsets. -/
structure Span where
  start : Nat
  stop : Nat
  deriving DecidableEq

inductive ChunkOwner where
  | envelope
  | parameters
  deriving DecidableEq

/-- One past the checksum of the chunk at the cursor, when the file holds all of it. -/
def chunkEnd (bytes : Bytes) (cursor : Nat) : Option Nat :=
  if cursor + 8 ≤ bytes.length then
    let header := slice bytes cursor (cursor + 8)
    let length := u32FromBeBytes (header.take 4)
    -- A sum that overflows the machine word also passes the end of the file.
    let stop := cursor + chunkOverhead + length
    if stop ≤ bytes.length then some stop else none
  else none

/-- The keyword is the payload up to its first zero byte, matched byte for byte. -/
def textChunkOwner (kind data : Bytes) : Option ChunkOwner :=
  if !textChunkTypes.any (· == kind) then none
  else
    let keyword := data.takeWhile (· ≠ 0)
    if keyword = asBytes workflowChunkKeyword then some .envelope
    else if keyword = asBytes parametersChunkKeyword then some .parameters else none

def windows (width : Nat) (haystack : Bytes) : List Bytes :=
  (List.range (haystack.length + 1 - width)).map fun i => slice haystack i (i + width)

def contains (haystack needle : Bytes) : Bool :=
  decide (haystack.length ≥ needle.length) && (windows needle.length haystack).any (· == needle)

/-- A raw byte search. The generic keyword counts only with the zero byte that ends it,
and only in a file that carries our envelope. -/
def hiddenKeyword (haystack : Bytes) (includeParameters : Bool) : Option String :=
  if contains haystack (asBytes workflowChunkKeyword) then some workflowChunkKeyword
  else
    let framed := asBytes parametersChunkKeyword ++ [0]
    if includeParameters && contains haystack framed then some parametersChunkKeyword else none

def carriesEnvelope (candidates : List (Span × ChunkOwner)) : Bool :=
  candidates.any fun c => c.2 == .envelope

/-- The co-presence rule: `parameters` chunks are ours beside an envelope. -/
def resolveSpans (candidates : List (Span × ChunkOwner)) : List Span :=
  let ours := carriesEnvelope candidates
  (candidates.filter fun c => ours || c.2 == .envelope).map Prod.fst

theorem lt_chunkEnd {bytes : Bytes} {cursor stop : Nat} (h : chunkEnd bytes cursor = some stop) :
    cursor < stop := by
  unfold chunkEnd at h
  split at h
  · simp only at h
    split at h
    · cases h
      rw [chunkOverhead]
      omega
    · cases h
  · cases h

/-- The loop of `workflow_chunk_spans`: classify each chunk and step over it. -/
def walkChunks (bytes : Bytes) (cursor : Nat) (pastIend : Bool)
    (candidates : List (Span × ChunkOwner)) : Except WorkflowChunkError (List Span) :=
  if cursor < bytes.length then
    match _h : chunkEnd bytes cursor with
    | none =>
        if !pastIend then
          .error (.png ("the chunk at byte " ++ toString cursor ++
            " runs past the end of the file"))
        else
          let tail := bytes.drop cursor
          -- Bytes that cannot be walked ride through only with nothing of ours in them.
          match hiddenKeyword tail (carriesEnvelope candidates) with
          | some found =>
              .error (.png (toString tail.length ++ " bytes of trailing data at byte " ++
                toString cursor ++ " are not chunk framing and carry `" ++ found ++
                "`, so a copy of this file cannot be vouched for"))
          | none => .ok (resolveSpans candidates)
    | some stop =>
        let kind := slice bytes (cursor + 4) (cursor + 8)
        let candidates :=
          match textChunkOwner kind (slice bytes (cursor + 8) (stop - 4)) with
          | some owner => candidates ++ [(⟨cursor, stop⟩, owner)]
          | none => candidates
        walkChunks bytes stop (pastIend || kind == asBytes "IEND") candidates
  else if !pastIend then
    .error (.png ("the chunk framing ends at byte " ++ toString cursor ++
      " without an IEND, so this PNG is truncated and a copy of it would not decode"))
  else .ok (resolveSpans candidates)
termination_by bytes.length - cursor
decreasing_by
  have hlt := lt_chunkEnd _h
  omega

def workflowChunkSpans (bytes : Bytes) : Except WorkflowChunkError (List Span) :=
  if bytes.length < pngSignature.length || slice bytes 0 pngSignature.length ≠ pngSignature then
    .ok []
  else walkChunks bytes pngSignature.length false []

/-- The loop of `kept_spans`, from the end of the last removed span on. -/
def keptSpansFrom (total cursor : Nat) : List Span → List Span
  | [] => if cursor < total then [⟨cursor, total⟩] else []
  | span :: removed =>
      (if span.start > cursor then [⟨cursor, span.start⟩] else []) ++
        keptSpansFrom total span.stop removed

def keptSpans (total : Nat) (removed : List Span) : List Span := keptSpansFrom total 0 removed

def stripWorkflowChunk (bytes : Bytes) : Except WorkflowChunkError (Option Bytes) := do
  let spans ← workflowChunkSpans bytes
  if spans.isEmpty then return none
  else
    return some ((keptSpans bytes.length spans).flatMap fun kept =>
      slice bytes kept.start kept.stop)

/-- The copy that "Save As without the workflow" leaves at the destination, with the
report whether anything was taken out. -/
def copyWithoutWorkflowChunk (source : Bytes) : Except WorkflowChunkError (Bool × Bytes) := do
  match ← stripWorkflowChunk source with
  | some stripped => return (true, stripped)
  | none => return (false, source)

end SceneWorks.WorkflowPng
