import SceneWorks.Library.BigEndian

/-!
The box walk of `workflow_mp4.rs` over a file held in memory: headers in three size
encodings, the descent along `moov/udta/meta/ilst`, the sniffed prefix of `meta`, and the
`data` box of the comment atom.

Offsets are natural numbers; the two additions the source guards are written with the
64-bit bound. A read that leaves the file fails as the reader's `read_exact` does.
-/

namespace SceneWorks.WorkflowMp4

abbrev Bytes := List UInt8

/-- A byte slice: no allocation exceeds `isize::MAX` bytes. -/
structure Slice where
  bytes : Bytes
  fits : bytes.length < 2 ^ 63

namespace Slice

def length (s : Slice) : Nat := s.bytes.length

end Slice

def maxWorkflowTextBytes : Nat := 1024 * 1024

def maxBoxDepth : Nat := 8

def maxBoxesScanned : Nat := 100000

def boxMoov : Bytes := [0x6D, 0x6F, 0x6F, 0x76]

def boxUdta : Bytes := [0x75, 0x64, 0x74, 0x61]

def boxMeta : Bytes := [0x6D, 0x65, 0x74, 0x61]

def boxIlst : Bytes := [0x69, 0x6C, 0x73, 0x74]

def boxData : Bytes := [0x64, 0x61, 0x74, 0x61]

def boxCmt : Bytes := [0xA9, 0x63, 0x6D, 0x74]

def dataBoxPrefixLength : Nat := 8

def boxHeaderLength : Nat := 8

/-- The containers on the way to the comment, in order. -/
def containerPath : List Bytes := [boxMoov, boxUdta, boxMeta, boxIlst]

section Errors

inductive Malformation where
  | largeSizePastEnd
  | sizeOverflow
  | doesNotFit (kind : Bytes) (size : Nat)
  | tooManyBoxes
  | noLength
  | dataNoLength
  | dataTooShort
  deriving DecidableEq

/-- The texts of the framing errors; `lossy` is `String::from_utf8_lossy`. -/
def Malformation.detail (lossy : Bytes → String) : Malformation → String
  | largeSizePastEnd => "a 64-bit box size runs past the end of the file"
  | sizeOverflow => "a box size overflows the file offset"
  | doesNotFit kind size =>
      "a `" ++ lossy kind ++ "` box declares " ++ toString size ++
        " bytes, which does not fit inside its parent"
  | tooManyBoxes => "more than " ++ toString maxBoxesScanned ++ " boxes in the header"
  | noLength => "a box declares no length, so the walk cannot advance"
  | dataNoLength => "a `data` box declares no length"
  | dataTooShort => "a `data` box is too short to hold its own type indicator"

inductive WorkflowMp4Error where
  | io (detail : String)
  | malformed (reason : Malformation)
  | tooLarge (bytes limit : Nat)
  | notUtf8
  deriving DecidableEq

end Errors

section Reader

/-- A seek and a `read_exact` of `count` bytes. -/
def readExact (s : Slice) (offset count : Nat) : Except WorkflowMp4Error Bytes :=
  if offset + count ≤ s.length then .ok ((s.bytes.drop offset).take count)
  else .error (.io "failed to fill whole buffer")

def saturatingAdd (a b : Nat) : Nat := min (a + b) (2 ^ 64 - 1)

def checkedAdd (a b : Nat) : Option Nat := if a + b < 2 ^ 64 then some (a + b) else none

/-- `String::from_utf8`. -/
def fromUtf8 (payload : Bytes) : Option String := String.fromUTF8? ⟨payload.toArray⟩

structure BoxHeader where
  kind : Bytes
  bodyStart : Nat
  stop : Nat
  deriving DecidableEq

/-- Where the body starts and how many bytes the box takes, from its first size word. -/
def boxExtent (s : Slice) (offset limit declared : Nat) :
    Except WorkflowMp4Error (Nat × Nat) :=
  if declared = 1 then
    if saturatingAdd offset 16 > limit then .error (.malformed .largeSizePastEnd)
    else
      match readExact s (offset + boxHeaderLength) 8 with
      | .error e => .error e
      | .ok large => .ok (offset + 16, BigEndian.value large)
  else if declared = 0 then .ok (offset + boxHeaderLength, limit - offset)
  else .ok (offset + boxHeaderLength, declared)

/-- The checks on a declared extent. -/
def fitBox (kind : Bytes) (offset limit : Nat) (extent : Nat × Nat) :
    Except WorkflowMp4Error (Option BoxHeader) :=
  match checkedAdd offset extent.2 with
  | none => .error (.malformed .sizeOverflow)
  | some stop =>
      if extent.2 < extent.1 - offset || stop > limit then
        .error (.malformed (.doesNotFit kind extent.2))
      else .ok (some ⟨kind, extent.1, stop⟩)

def readBoxHeader (s : Slice) (offset limit : Nat) :
    Except WorkflowMp4Error (Option BoxHeader) :=
  if saturatingAdd offset boxHeaderLength > limit then .ok none
  else
    match readExact s offset 8 with
    | .error e => .error e
    | .ok header =>
        match boxExtent s offset limit (BigEndian.value (header.take 4)) with
        | .error e => .error e
        | .ok extent => fitBox (header.drop 4) offset limit extent

theorem readExact_eq_ok_iff {s : Slice} {offset count : Nat} {read : Bytes} :
    readExact s offset count = .ok read ↔
      offset + count ≤ s.length ∧ (s.bytes.drop offset).take count = read := by
  rw [readExact]
  split
  · rw [Except.ok.injEq]
    exact (and_iff_right ‹_›).symm
  · exact iff_of_false (fun h => by cases h) (fun h => ‹¬ _› h.1)

/-- A header that was read lies inside the file. -/
theorem readBoxHeader_room {s : Slice} {offset limit : Nat} {header : BoxHeader}
    (h : readBoxHeader s offset limit = .ok (some header)) :
    offset + boxHeaderLength ≤ s.length := by
  rw [readBoxHeader] at h
  split at h
  · cases h
  · split at h
    · cases h
    · exact (readExact_eq_ok_iff.mp ‹_›).1

end Reader

section Comment

/-- Printable ASCII, or the copyright sign the iTunes atoms start with. -/
def isBoxType (bytes : Bytes) : Bool :=
  bytes.all fun byte => (0x20 ≤ byte && byte ≤ 0x7E) || byte == 0xA9

def metaBodyStart (s : Slice) (bodyStart stop : Nat) : Except WorkflowMp4Error Nat :=
  if saturatingAdd bodyStart 8 > stop then .ok bodyStart
  else
    match readExact s bodyStart 8 with
    | .error e => .error e
    | .ok probe => if isBoxType (probe.drop 4) then .ok bodyStart else .ok (bodyStart + 4)

/-- The text of a `data` box between its header and its end. -/
def readDataBox (s : Slice) (header : BoxHeader) : Except WorkflowMp4Error (Option String) :=
  let payloadStart := header.bodyStart + dataBoxPrefixLength
  if payloadStart > header.stop then .error (.malformed .dataTooShort)
  else
    let payloadLength := header.stop - payloadStart
    if payloadLength > maxWorkflowTextBytes then
      .error (.tooLarge payloadLength maxWorkflowTextBytes)
    else
      match readExact s payloadStart payloadLength with
      | .error e => .error e
      | .ok payload =>
          match fromUtf8 payload with
          | none => .error .notUtf8
          | some text => .ok (some text)

/-- The loop of `read_comment_data`: the first `data` box decides. -/
def readCommentData (s : Slice) (limit offset : Nat) :
    Except WorkflowMp4Error (Option String) :=
  match _h : readBoxHeader s offset limit with
  | .error e => .error e
  | .ok none => .ok none
  | .ok (some header) =>
      if _hstop : header.stop ≤ offset then .error (.malformed .dataNoLength)
      else if header.kind = boxData then readDataBox s header
      else readCommentData s limit header.stop
termination_by s.length - offset
decreasing_by
  have hroom := readBoxHeader_room _h
  simp only [boxHeaderLength] at hroom
  omega

theorem readCommentData_of_error {s : Slice} {limit offset : Nat} {e : WorkflowMp4Error}
    (h : readBoxHeader s offset limit = .error e) :
    readCommentData s limit offset = .error e := by
  rw [readCommentData]
  split
  · next e' he => rw [h] at he; cases he; rfl
  · next he => rw [h] at he; cases he
  · next header he => rw [h] at he; cases he

theorem readCommentData_of_none {s : Slice} {limit offset : Nat}
    (h : readBoxHeader s offset limit = .ok none) : readCommentData s limit offset = .ok none := by
  rw [readCommentData]
  split
  · next e' he => rw [h] at he; cases he
  · rfl
  · next header he => rw [h] at he; cases he

theorem readCommentData_of_some {s : Slice} {limit offset : Nat} {header : BoxHeader}
    (h : readBoxHeader s offset limit = .ok (some header)) (hstop : offset < header.stop) :
    readCommentData s limit offset =
      if header.kind = boxData then readDataBox s header
      else readCommentData s limit header.stop := by
  rw [readCommentData]
  split
  · next e' he => rw [h] at he; cases he
  · next he => rw [h] at he; cases he
  · next header' he =>
      rw [h] at he
      cases he
      rw [dif_neg (Nat.not_le.mpr hstop)]

end Comment

section Walk

/-- What a walk leaves: the number of boxes it has counted, and its answer. -/
abbrev Walked := Nat × Except WorkflowMp4Error (Option String)

/-- The sibling loop of `descend`: every box is counted, then handed to `visit`, and an
answer or an error ends the loop. -/
def scanBoxes (s : Slice) (limit : Nat) (visit : BoxHeader → Nat → Walked) (offset scanned : Nat) :
    Walked :=
  match _h : readBoxHeader s offset limit with
  | .error e => (scanned, .error e)
  | .ok none => (scanned, .ok none)
  | .ok (some header) =>
      if scanned + 1 > maxBoxesScanned then (scanned + 1, .error (.malformed .tooManyBoxes))
      else if _hstop : header.stop ≤ offset then (scanned + 1, .error (.malformed .noLength))
      else
        match visit header (scanned + 1) with
        | (scanned, .error e) => (scanned, .error e)
        | (scanned, .ok (some text)) => (scanned, .ok (some text))
        | (scanned, .ok none) => scanBoxes s limit visit header.stop scanned
termination_by s.length - offset
decreasing_by
  have hroom := readBoxHeader_room _h
  simp only [boxHeaderLength] at hroom
  omega

section ScanSteps

variable {s : Slice} {limit offset scanned : Nat} {visit : BoxHeader → Nat → Walked}

theorem scanBoxes_of_error {e : WorkflowMp4Error} (h : readBoxHeader s offset limit = .error e) :
    scanBoxes s limit visit offset scanned = (scanned, .error e) := by
  rw [scanBoxes]
  split
  · next e' he => rw [h] at he; cases he; rfl
  · next he => rw [h] at he; cases he
  · next header he => rw [h] at he; cases he

theorem scanBoxes_of_none (h : readBoxHeader s offset limit = .ok none) :
    scanBoxes s limit visit offset scanned = (scanned, .ok none) := by
  rw [scanBoxes]
  split
  · next e' he => rw [h] at he; cases he
  · rfl
  · next header he => rw [h] at he; cases he

theorem scanBoxes_of_some {header : BoxHeader}
    (h : readBoxHeader s offset limit = .ok (some header)) (hstop : offset < header.stop) :
    scanBoxes s limit visit offset scanned =
      if scanned + 1 > maxBoxesScanned then (scanned + 1, .error (.malformed .tooManyBoxes))
      else
        match visit header (scanned + 1) with
        | (scanned, .error e) => (scanned, .error e)
        | (scanned, .ok (some text)) => (scanned, .ok (some text))
        | (scanned, .ok none) => scanBoxes s limit visit header.stop scanned := by
  rw [scanBoxes]
  split
  · next e' he => rw [h] at he; cases he
  · next he => rw [h] at he; cases he
  · next header' he =>
      rw [h] at he
      cases he
      rw [dif_neg (Nat.not_le.mpr hstop)]

end ScanSteps

/-- A box inside `ilst`. -/
def visitItem (s : Slice) (header : BoxHeader) (scanned : Nat) : Walked :=
  if header.kind = boxCmt then (scanned, readCommentData s header.stop header.bodyStart)
  else (scanned, .ok none)

def childrenStart (s : Slice) (header : BoxHeader) : Except WorkflowMp4Error Nat :=
  if header.kind = boxMeta then metaBodyStart s header.bodyStart header.stop
  else .ok header.bodyStart

def descend (s : Slice) : List Bytes → (start limit depth scanned : Nat) → Walked
  | [], start, limit, depth, scanned =>
      if depth > maxBoxDepth then (scanned, .ok none)
      else scanBoxes s limit (visitItem s) start scanned
  | kind :: path, start, limit, depth, scanned =>
      if depth > maxBoxDepth then (scanned, .ok none)
      else
        scanBoxes s limit (fun header scanned =>
          if header.kind = kind then
            match childrenStart s header with
            | .error e => (scanned, .error e)
            | .ok bodyStart => descend s path bodyStart header.stop (depth + 1) scanned
          else (scanned, .ok none)) start scanned

/-- `find_comment`, with the count its walk ends on. -/
def findComment (s : Slice) : Walked := descend s containerPath 0 s.length 0 0

def readMp4Comment (s : Slice) : Except WorkflowMp4Error (Option String) := (findComment s).2

end Walk

end SceneWorks.WorkflowMp4
