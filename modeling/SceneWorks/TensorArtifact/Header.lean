import SceneWorks.Library.Fallible
import SceneWorks.Library.LittleEndian
import SceneWorks.Library.Text
import SceneWorks.Library.Utf8

/-!
The header of a tensor artifact. It is a dictionary of three fields in any order, taken apart
character by character: a comma outside the shape's parentheses ends a field. Everything the file
may hold is fixed before a byte of the payload is read.
-/

namespace SceneWorks.TensorArtifact

open Fallible

def maxDataBytes : Nat := 512 * 1024 * 1024

def maxHeaderBytes : Nat := 4096

structure TensorMetadata where
  dtype : String
  shape : List Nat
  byteLength : Nat
  sha256 : String
  deriving DecidableEq

/-- `read_exact` on what is left of a file. -/
def readFile (n : Nat) (file : List UInt8) : Except String (List UInt8 × List UInt8) :=
  okOr (readExact n file) "failed to fill whole buffer"

def magic : List UInt8 := [0x93, 0x4E, 0x55, 0x4D, 0x50, 0x59]

/-- The fixed bytes in front, with what they say: the length of the dictionary and where it
starts. -/
structure Preamble where
  length : Nat
  start : Nat
  encoded : List UInt8
  rest : List UInt8

def preamble (file : List UInt8) : Except String Preamble :=
  if file.length < 10 then .error "tensor must be a nonempty regular NPY file"
  else if maxDataBytes + maxHeaderBytes + 12 < file.length then
    .error "tensor exceeds the 512 MiB artifact budget"
  else do
    let (front, rest) ← readFile 10 file
    if front.take 6 ≠ magic ∨ front.getD 7 0 ≠ 0 then
      .error "expected inert NPY version 1, 2 or 3"
    else if front.getD 6 0 = 1 then
      .ok ⟨LittleEndian.value (front.drop 8), 10, front, rest⟩
    else if front.getD 6 0 = 2 ∨ front.getD 6 0 = 3 then do
      let (tail, rest) ← readFile 2 rest
      .ok ⟨LittleEndian.value (front.drop 8 ++ tail), 12, front ++ tail, rest⟩
    else .error "unsupported NPY version"

section Dictionary

def trim (text : List Char) : List Char :=
  (text.dropWhile Text.isWhiteSpace).rdropWhile Text.isWhiteSpace

def between (front back text : List Char) : Option (List Char) :=
  (Text.after front text).bind (Text.before back)

/-- What stands between quotes of either kind. -/
def unquote (text : List Char) : Option (List Char) :=
  match between ['\''] ['\''] text with
  | some inner => some inner
  | none => between ['"'] ['"'] text

def fieldNames : List (List Char) := ["descr".toList, "fortran_order".toList, "shape".toList]

abbrev Fields := List (List Char × List Char)

def addField (fields : Fields) (field : List Char) : Except String Fields :=
  if trim field = [] then .ok fields
  else
    match (trim field).span (· ≠ ':') with
    | (_, []) => .error "invalid NPY dictionary field"
    | (key, _ :: value) =>
        match unquote (trim key) with
        | none => .error "NPY keys must be quoted"
        | some key =>
            if key ∉ fieldNames ∨ (fields.lookup key).isSome then
              .error "unsupported or duplicate NPY header field"
            else .ok ((key, trim value) :: fields)

/-- The fields so far, how deep in parentheses, and the field begun. -/
structure Scan where
  fields : Fields
  depth : Nat
  field : List Char

def scanStep (s : Scan) (character : Char) : Except String Scan :=
  if character = '(' then
    if s.depth ≠ 0 then .error "nested NPY shapes are unsupported"
    else .ok ⟨s.fields, 1, s.field ++ [character]⟩
  else if character = ')' then
    if s.depth ≠ 1 then .error "invalid NPY shape tuple"
    else .ok ⟨s.fields, 0, s.field ++ [character]⟩
  else if character = ',' ∧ s.depth = 0 then
    (addField s.fields s.field).map fun fields => ⟨fields, 0, []⟩
  else .ok ⟨s.fields, s.depth, s.field ++ [character]⟩

def scanDictionary (dictionary : List Char) : Except String Scan :=
  (dictionary ++ [',']).foldlM scanStep ⟨[], 0, []⟩

def dtypeOf (descriptor : List Char) : Except String String :=
  if descriptor = "<f4".toList then .ok "float32"
  else if descriptor = "|u1".toList ∨ descriptor = "<u1".toList then .ok "uint8"
  else .error "tensor dtype must be little-endian float32 or uint8"

def parseDimension (text : List Char) : Except String Nat :=
  if text = [] ∨ text.all Char.isDigit = false then .error "invalid NPY shape"
  else if Nat.ofDigitChars 10 text 0 < 2 ^ 64 then .ok (Nat.ofDigitChars 10 text 0)
  else .error "invalid NPY shape"

def parseShape (shapeText : List Char) : Except String (List Nat) :=
  if shapeText.head? ≠ some '(' ∨ shapeText.getLast? ≠ some ')' then
    .error "NPY shape must be a tuple"
  else
    let dimensions := (trim shapeText.tail.dropLast).rdropWhile (· = ',')
    ((dimensions.splitOn ',').map trim).mapM parseDimension

/-- The text of the dictionary, between its braces. -/
def dictionaryText (bytes : List UInt8) : Except String (List Char) := do
  let text ← okOr (Utf8.decode bytes) "NPY header must be ASCII text"
  if text.toList.any (fun c => 128 ≤ c.toNat) ∨ text.toList.getLast? ≠ some '\n' then
    .error "NPY header must be an ASCII dictionary ending in newline"
  else okOr (between ['\x7b'] ['\x7d'] (trim text.toList)) "invalid NPY dictionary"

/-- What the dictionary says of the payload: its type and its shape. -/
def parseDictionary (dictionary : List Char) : Except String (String × List Nat) := do
  let scan ← scanDictionary dictionary
  if scan.depth ≠ 0 ∨ scan.fields.length ≠ 3 then
    .error "NPY requires exactly descr, fortran_order and shape"
  else
    let order ← okOr (scan.fields.lookup "fortran_order".toList) "NPY requires fortran_order"
    if order ≠ "False".toList then .error "tensor must use C row-major order"
    else
      let descriptor ← okOr (scan.fields.lookup "descr".toList) "NPY requires descr"
      let descriptor ← okOr (unquote descriptor) "NPY dtype must be quoted"
      let dtype ← dtypeOf descriptor
      let shapeText ← okOr (scan.fields.lookup "shape".toList) "NPY requires shape"
      let shape ← parseShape shapeText
      .ok (dtype, shape)

end Dictionary

section Bounds

def width (dtype : String) : Nat := if dtype = "float32" then 4 else 1

/-- How many bytes a payload of this type and shape has. -/
def payloadLength (dtype : String) (shape : List Nat) : Except String Nat :=
  if ¬ (2 ≤ shape.length ∧ shape.length ≤ 4) ∨ 0 ∈ shape then
    .error "tensor rank must be 2–4 with positive dimensions"
  else do
    let elements ← okOr (shape.foldlM checkedMul 1) "tensor shape overflow"
    okOr ((checkedMul elements (width dtype)).filter (· ≤ maxDataBytes))
      "tensor payload exceeds budget"

/-- What a header leaves: the metadata without a digest, where the payload starts, the bytes of the
header and those after it. -/
structure Opened where
  metadata : TensorMetadata
  offset : Nat
  encoded : List UInt8
  rest : List UInt8

def header (file : List UInt8) : Except String Opened := do
  let front ← preamble file
  if front.length = 0 ∨ maxHeaderBytes < front.length then
    .error "tensor NPY header exceeds 4096 bytes"
  else
    let (bytes, rest) ← readFile front.length front.rest
    let dictionary ← dictionaryText bytes
    let (dtype, shape) ← parseDictionary dictionary
    let data ← payloadLength dtype shape
    if file.length ≠ front.start + front.length + data then
      .error "NPY payload length does not exactly match its shape and dtype"
    else
      .ok ⟨⟨dtype, shape, data, ""⟩, front.start + front.length, front.encoded ++ bytes, rest⟩

end Bounds

end SceneWorks.TensorArtifact
