import SceneWorks.WorkflowMp4.Bounds

/-!
Box trees and their files. A tree is a row of sibling boxes, each a leaf with a payload or
a node with children; its file is the frames one after the other. On the file of a tree
whose path boxes are nodes, the walk returns what the first `data` box of the path gives.
-/

namespace SceneWorks.WorkflowMp4

inductive Sizing where
  | narrow | wide | toEnd
  deriving DecidableEq

def Sizing.headerLength : Sizing → Nat
  | narrow | toEnd => 8
  | wide => 16

/-- The header of a box whose body takes `body` bytes. -/
def boxHeaderBytes (kind : Bytes) (sizing : Sizing) (body : Nat) : Bytes :=
  match sizing with
  | .narrow => BigEndian.bytes 4 (8 + body) ++ kind
  | .wide => BigEndian.bytes 4 1 ++ kind ++ BigEndian.bytes 8 (16 + body)
  | .toEnd => BigEndian.bytes 4 0 ++ kind

def frame (kind : Bytes) (sizing : Sizing) (body : Bytes) : Bytes :=
  boxHeaderBytes kind sizing body.length ++ body

/-- Sibling boxes. A node carries the `version` and `flags` bytes of a full box, if any. -/
inductive BoxTree where
  | nil
  | leaf (kind : Bytes) (sizing : Sizing) (payload : Bytes) (rest : BoxTree)
  | node (kind : Bytes) (sizing : Sizing) (versionFlags : Bytes) (children rest : BoxTree)
  deriving DecidableEq

namespace BoxTree

def encode : BoxTree → Bytes
  | nil => []
  | leaf kind sizing payload rest => frame kind sizing payload ++ rest.encode
  | node kind sizing versionFlags children rest =>
      frame kind sizing (versionFlags ++ children.encode) ++ rest.encode

def count : BoxTree → Nat
  | nil => 0
  | leaf _ _ _ rest => 1 + rest.count
  | node _ _ _ children rest => 1 + children.count + rest.count

/-- A frame its size encoding can express; a size that runs to the end ends the row. -/
def Framed (kind : Bytes) (sizing : Sizing) (body : Nat) (rest : BoxTree) : Prop :=
  kind.length = 4 ∧
    match sizing with
    | .narrow => 8 + body < 2 ^ 32
    | .wide => True
    | .toEnd => rest = nil

def WellFormed : BoxTree → Prop
  | nil => True
  | leaf kind sizing payload rest => Framed kind sizing payload.length rest ∧ rest.WellFormed
  | node kind sizing versionFlags children rest =>
      Framed kind sizing (versionFlags ++ children.encode).length rest ∧
        (versionFlags = [] ∨ kind = boxMeta ∧ versionFlags.length = 4) ∧
        children.WellFormed ∧ rest.WellFormed

/-- The first child box of a `meta` in full form is smaller than `0x20202020` bytes. -/
def SmallFirst : BoxTree → Prop
  | nil => True
  | leaf kind sizing payload _ => (frame kind sizing payload).length < 0x20202020
  | node kind sizing versionFlags children _ =>
      (frame kind sizing (versionFlags ++ children.encode)).length < 0x20202020

/-- The first child box of a `meta` in plain form has a type that reads as one. -/
def TypedFirst : BoxTree → Prop
  | nil => True
  | leaf kind _ _ _ | node kind _ _ _ _ => isBoxType kind = true

/-- The boxes of the path are nodes, and each `meta` among them can be told apart. -/
def Opens : BoxTree → List Bytes → Prop
  | nil, _ => True
  | leaf _ _ _ rest, [] => rest.Opens []
  | leaf kind _ _ rest, k :: path => kind ≠ k ∧ rest.Opens (k :: path)
  | node kind _ _ _ rest, [] => kind ≠ boxData ∧ rest.Opens []
  | node kind _ versionFlags children rest, k :: path =>
      (kind = k → (kind = boxMeta →
          (versionFlags ≠ [] → children.SmallFirst) ∧ (versionFlags = [] → children.TypedFirst)) ∧
        children.Opens path) ∧ rest.Opens (k :: path)

/-- The bodies of the `data` boxes at the end of the path, in file order. -/
def dataBodies : BoxTree → List Bytes → List Bytes
  | nil, _ => []
  | leaf kind _ payload rest, [] =>
      if kind = boxData then payload :: rest.dataBodies [] else rest.dataBodies []
  | leaf _ _ _ rest, k :: path => rest.dataBodies (k :: path)
  | node _ _ _ _ rest, [] => rest.dataBodies []
  | node kind _ _ children rest, k :: path =>
      (if kind = k then children.dataBodies path else []) ++ rest.dataBodies (k :: path)

end BoxTree

section Frames

variable {s : Slice} {before after kind : Bytes} {sizing : Sizing}

theorem readExact_at {part : Bytes} (h : s.bytes = before ++ part ++ after) :
    readExact s before.length part.length = .ok part := by
  refine readExact_eq_ok_iff.mpr ⟨?_, ?_⟩
  · rw [Slice.length, h]
    simp
  · rw [h, List.append_assoc, List.drop_left, List.take_left]

theorem length_boxHeaderBytes (hkind : kind.length = 4) (body : Nat) :
    (boxHeaderBytes kind sizing body).length = sizing.headerLength := by
  cases sizing <;> simp [boxHeaderBytes, Sizing.headerLength, hkind]

theorem length_frame (hkind : kind.length = 4) (body : Bytes) :
    (frame kind sizing body).length = sizing.headerLength + body.length := by
  rw [frame, List.length_append, length_boxHeaderBytes hkind]

theorem fitBox_inside {offset limit bodyStart size : Nat} (hlimit : limit < 2 ^ 63)
    (hbody : bodyStart - offset ≤ size) (hstop : offset + size ≤ limit) :
    fitBox kind offset limit (bodyStart, size) = .ok (some ⟨kind, bodyStart, offset + size⟩) := by
  have hadd : checkedAdd offset size = some (offset + size) := if_pos (by omega)
  rw [fitBox]
  simp only [hadd]
  rw [if_neg]
  simp only [Bool.or_eq_true, decide_eq_true_eq, not_or, Nat.not_lt]
  exact ⟨hbody, hstop⟩

/-- The first eight bytes of a frame decide how it is read. -/
theorem readBoxHeader_word {offset limit declared : Nat} {word : Bytes}
    (hbytes : s.bytes = before ++ (word ++ kind) ++ after) (hword : word.length = 4)
    (hkind : kind.length = 4) (hvalue : BigEndian.value word = declared)
    (hoffset : offset = before.length) (hlimit : limit ≤ s.length) (hroom : offset + 8 ≤ limit)
    {extent : Nat × Nat} (hextent : boxExtent s offset limit declared = .ok extent) :
    readBoxHeader s offset limit = fitBox kind offset limit extent := by
  have hread : readExact s offset 8 = .ok (word ++ kind) := by
    have hat := readExact_at hbytes
    rwa [List.length_append, hword, hkind, ← hoffset] at hat
  have hsmall : ¬ saturatingAdd offset boxHeaderLength > limit := by
    rw [Nat.not_lt, saturatingAdd_le_iff (hlimit.trans_lt s.fits)]
    exact hroom
  have htake : (word ++ kind).take 4 = word := by rw [← hword, List.take_left]
  have hdrop : (word ++ kind).drop 4 = kind := by rw [← hword, List.drop_left]
  rw [readBoxHeader, if_neg hsmall, hread]
  dsimp only
  rw [htake, hdrop, hvalue, hextent]

theorem readBoxHeader_frame {limit : Nat} {body : Bytes} {rest : BoxTree}
    (hframed : BoxTree.Framed kind sizing body.length rest)
    (hbytes : s.bytes = before ++ frame kind sizing body ++ after)
    (hlimit : limit ≤ s.length) (hstop : before.length + (frame kind sizing body).length ≤ limit)
    (hend : sizing = .toEnd → limit = before.length + (frame kind sizing body).length) :
    readBoxHeader s before.length limit =
      .ok (some ⟨kind, before.length + sizing.headerLength,
        before.length + (frame kind sizing body).length⟩) := by
  obtain ⟨hkind, hsize⟩ := hframed
  have hsmall : limit < 2 ^ 63 := hlimit.trans_lt s.fits
  have hlength : (frame kind sizing body).length = sizing.headerLength + body.length :=
    length_frame hkind body
  cases sizing with
  | narrow =>
      have hword : s.bytes = before ++ (BigEndian.bytes 4 (8 + body.length) ++ kind) ++
          (body ++ after) := by
        rw [hbytes, frame, boxHeaderBytes]
        simp only [List.append_assoc]
      simp only [Sizing.headerLength] at hlength ⊢
      have hvalue : BigEndian.value (BigEndian.bytes 4 (8 + body.length)) = 8 + body.length :=
        BigEndian.value_bytes (by simpa using hsize)
      have hextent : boxExtent s before.length limit (8 + body.length) =
          .ok (before.length + 8, 8 + body.length) := by
        rw [boxExtent, if_neg (by omega), if_neg (by omega), boxHeaderLength]
      rw [readBoxHeader_word hword (BigEndian.length_bytes 4 _) hkind hvalue rfl hlimit (by omega)
        hextent, fitBox_inside hsmall (by omega) (by omega), hlength]
  | wide =>
      have hword : s.bytes = before ++ (BigEndian.bytes 4 1 ++ kind) ++
          (BigEndian.bytes 8 (16 + body.length) ++ (body ++ after)) := by
        rw [hbytes, frame, boxHeaderBytes]
        simp only [List.append_assoc]
      have hlarge : s.bytes = (before ++ (BigEndian.bytes 4 1 ++ kind)) ++
          BigEndian.bytes 8 (16 + body.length) ++ (body ++ after) := by
        rw [hword]
        simp only [List.append_assoc]
      simp only [Sizing.headerLength] at hlength ⊢
      have hvalue : BigEndian.value (BigEndian.bytes 4 1) = 1 := BigEndian.value_bytes (by decide)
      have hread : readExact s (before.length + 8) 8 =
          .ok (BigEndian.bytes 8 (16 + body.length)) := by
        have hat := readExact_at hlarge
        simpa [hkind] using hat
      have hextent : boxExtent s before.length limit 1 =
          .ok (before.length + 16, 16 + body.length) := by
        have hroom : ¬ saturatingAdd before.length 16 > limit := by
          rw [Nat.not_lt, saturatingAdd_le_iff hsmall]
          omega
        have hsize64 : BigEndian.value (BigEndian.bytes 8 (16 + body.length)) = 16 + body.length :=
          BigEndian.value_bytes (by omega)
        rw [boxExtent, if_pos rfl, if_neg hroom, boxHeaderLength, hread]
        simp only [hsize64]
      rw [readBoxHeader_word hword (BigEndian.length_bytes 4 _) hkind hvalue rfl hlimit (by omega)
        hextent, fitBox_inside hsmall (by omega) (by omega), hlength]
  | toEnd =>
      have hword : s.bytes = before ++ (BigEndian.bytes 4 0 ++ kind) ++ (body ++ after) := by
        rw [hbytes, frame, boxHeaderBytes]
        simp only [List.append_assoc]
      simp only [Sizing.headerLength] at hlength ⊢
      have hvalue : BigEndian.value (BigEndian.bytes 4 0) = 0 := BigEndian.value_bytes (by decide)
      have hall := hend rfl
      have hextent : boxExtent s before.length limit 0 =
          .ok (before.length + 8, limit - before.length) := by
        rw [boxExtent, if_neg (by decide), if_pos rfl, boxHeaderLength]
      rw [readBoxHeader_word hword (BigEndian.length_bytes 4 _) hkind hvalue rfl hlimit (by omega)
        hextent, fitBox_inside hsmall (by omega) (by omega), hall, Nat.add_sub_cancel_left]

end Frames

section Rows

variable {s : Slice}

/-- What the file says of the boxes between `before` and the limit. -/
structure RowAt (s : Slice) (before row after : Bytes) (limit : Nat) : Prop where
  bytes : s.bytes = before ++ row ++ after
  limit : limit = before.length + row.length

variable {before row after : Bytes} {limit : Nat}

theorem RowAt.limit_le (h : RowAt s before row after limit) : limit ≤ s.length := by
  rw [h.limit, Slice.length, h.bytes]
  simp

theorem RowAt.rest {first : Bytes} (h : RowAt s before (first ++ row) after limit) :
    RowAt s (before ++ first) row after limit where
  bytes := by rw [h.bytes]; simp only [List.append_assoc]
  limit := by rw [h.limit]; simp only [List.length_append]; omega

theorem RowAt.body {kind body : Bytes} {sizing : Sizing} (hkind : kind.length = 4)
    (h : RowAt s before (frame kind sizing body ++ row) after limit) :
    RowAt s (before ++ boxHeaderBytes kind sizing body.length) body (row ++ after)
      (before.length + (frame kind sizing body).length) where
  bytes := by rw [h.bytes, frame]; simp only [List.append_assoc]
  limit := by
    rw [length_frame hkind, List.length_append, length_boxHeaderBytes hkind]
    omega

theorem readBoxHeader_end (h : RowAt s before [] after limit) :
    readBoxHeader s before.length limit = .ok none := by
  have hlimit : limit = before.length := by simpa using h.limit
  have hfull : saturatingAdd before.length boxHeaderLength > limit := by
    rw [gt_iff_lt, ← Nat.not_le, saturatingAdd_le_iff (h.limit_le.trans_lt s.fits), hlimit,
      boxHeaderLength]
    omega
  rw [readBoxHeader, if_pos hfull]

theorem readBoxHeader_row {kind body : Bytes} {sizing : Sizing} {rest : BoxTree}
    (hframed : BoxTree.Framed kind sizing body.length rest)
    (h : RowAt s before (frame kind sizing body ++ rest.encode) after limit) :
    readBoxHeader s before.length limit =
      .ok (some ⟨kind, (before ++ boxHeaderBytes kind sizing body.length).length,
        (before ++ frame kind sizing body).length⟩) := by
  have hbytes : s.bytes = before ++ frame kind sizing body ++ (rest.encode ++ after) := by
    rw [h.bytes]
    simp only [List.append_assoc]
  have hlimit : limit = before.length + (frame kind sizing body).length + rest.encode.length := by
    rw [h.limit, List.length_append]
    omega
  have hend : sizing = .toEnd → limit = before.length + (frame kind sizing body).length := by
    rintro rfl
    have hnil : rest = .nil := hframed.2
    rw [hlimit, hnil]
    rfl
  rw [readBoxHeader_frame hframed hbytes h.limit_le (by omega) hend, List.length_append,
    List.length_append, length_boxHeaderBytes hframed.1]

theorem frame_advance {kind body : Bytes} {sizing : Sizing} (hkind : kind.length = 4) :
    before.length < (before ++ frame kind sizing body).length := by
  rw [List.length_append, length_frame hkind]
  cases sizing <;> simp only [Sizing.headerLength] <;> omega

end Rows

section CommentTree

/-- What a `data` box with this body gives. -/
def dataOutcome (body : Bytes) : Except WorkflowMp4Error (Option String) :=
  if body.length < dataBoxPrefixLength then .error (.malformed .dataTooShort)
  else if body.length - dataBoxPrefixLength > maxWorkflowTextBytes then
    .error (.tooLarge (body.length - dataBoxPrefixLength) maxWorkflowTextBytes)
  else
    match fromUtf8 (body.drop dataBoxPrefixLength) with
    | none => .error .notUtf8
    | some text => .ok (some text)

/-- The first `data` box decides. -/
def firstOutcome : List Bytes → Except WorkflowMp4Error (Option String)
  | [] => .ok none
  | body :: _ => dataOutcome body

theorem dataOutcome_ne_none (body : Bytes) : dataOutcome body ≠ .ok none := by
  rw [dataOutcome]
  split
  · intro h; cases h
  · split
    · intro h; cases h
    · split <;> intro h <;> cases h

variable {s : Slice} {before after : Bytes} {limit : Nat}

theorem readDataBox_body {kind body : Bytes} (h : RowAt s before body after limit) :
    readDataBox s ⟨kind, before.length, limit⟩ = dataOutcome body := by
  have hlimit := h.limit
  simp only [readDataBox, dataOutcome]
  by_cases hshort : body.length < dataBoxPrefixLength
  · rw [if_pos (by omega), if_pos hshort]
  · have hlength : limit - (before.length + dataBoxPrefixLength) =
        body.length - dataBoxPrefixLength := by omega
    rw [if_neg (by omega), if_neg hshort, hlength]
    by_cases hlarge : body.length - dataBoxPrefixLength > maxWorkflowTextBytes
    · rw [if_pos hlarge, if_pos hlarge]
    · rw [if_neg hlarge, if_neg hlarge]
      have hsplit : s.bytes = (before ++ body.take dataBoxPrefixLength) ++
          body.drop dataBoxPrefixLength ++ after := by
        rw [List.append_assoc before, List.take_append_drop]
        exact h.bytes
      have hread := readExact_at hsplit
      rw [List.length_append, List.length_take, Nat.min_eq_left (by omega),
        List.length_drop] at hread
      exact hread ▸ rfl

theorem readCommentData_tree {tree : BoxTree} (hwf : tree.WellFormed) (hopens : tree.Opens [])
    (h : RowAt s before tree.encode after limit) :
    readCommentData s limit before.length = firstOutcome (tree.dataBodies []) := by
  induction tree generalizing before with
  | nil => exact readCommentData_of_none (readBoxHeader_end h)
  | leaf kind sizing payload rest ih =>
      obtain ⟨hframed, hrest⟩ := hwf
      rw [readCommentData_of_some (readBoxHeader_row hframed h) (frame_advance hframed.1)]
      simp only [BoxTree.dataBodies]
      by_cases hkind : kind = boxData
      · rw [if_pos hkind, if_pos hkind]
        have hbody := h.body hframed.1
        rw [← List.length_append] at hbody
        exact readDataBox_body hbody
      · rw [if_neg hkind, if_neg hkind]
        exact ih hrest hopens h.rest
  | node kind sizing versionFlags children rest _ ih =>
      obtain ⟨hframed, -, -, hrest⟩ := hwf
      obtain ⟨hkind, hopens⟩ := hopens
      rw [readCommentData_of_some (readBoxHeader_row hframed h) (frame_advance hframed.1)]
      rw [if_neg hkind]
      exact ih hrest hopens h.rest

end CommentTree

section MetaForm

variable {s : Slice} {before after : Bytes} {limit : Nat} {children : BoxTree}

theorem isBoxType_le {word : Bytes} (h : isBoxType word = true) :
    ∀ byte ∈ word, 0x20 ≤ byte.toNat := by
  intro byte hbyte
  have htest := List.all_eq_true.mp h byte hbyte
  simp only [Bool.or_eq_true, Bool.and_eq_true, decide_eq_true_eq, beq_iff_eq] at htest
  rcases htest with ⟨hlow, -⟩ | rfl
  · exact hlow
  · decide

/-- A size word below `0x20202020` is not taken for a box type. -/
theorem not_isBoxType_of_small {word : Bytes} (hlength : word.length = 4)
    (h : BigEndian.value word < 0x20202020) : isBoxType word = false := by
  rw [Bool.eq_false_iff]
  intro htype
  have hle := BigEndian.le_value_of_forall hlength (isBoxType_le htype)
  omega

theorem first_words (hwf : children.WellFormed) (hne : children ≠ .nil) :
    ∃ word kind more, children.encode = word ++ kind ++ more ∧ word.length = 4 ∧
      kind.length = 4 ∧ (children.SmallFirst → BigEndian.value word < 0x20202020) ∧
      (children.TypedFirst → isBoxType kind = true) := by
  have hframe : ∀ kind sizing body (rest : BoxTree),
      BoxTree.Framed kind sizing (List.length body) rest →
      ∃ word more, frame kind sizing body ++ rest.encode = word ++ kind ++ more ∧
        word.length = 4 ∧
        ((frame kind sizing body).length < 0x20202020 → BigEndian.value word < 0x20202020) := by
    intro kind sizing body rest hframed
    have hlength : (frame kind sizing body).length = sizing.headerLength + body.length :=
      length_frame hframed.1 body
    cases sizing with
    | narrow =>
        refine ⟨BigEndian.bytes 4 (8 + body.length), body ++ rest.encode, ?_,
          BigEndian.length_bytes 4 _, fun hsmall => ?_⟩
        · rw [frame, boxHeaderBytes]
          simp only [List.append_assoc]
        · have hsize : 8 + body.length < 2 ^ 32 := hframed.2
          rw [BigEndian.value_bytes (by simpa using hsize)]
          rwa [hlength, Sizing.headerLength] at hsmall
    | wide =>
        refine ⟨BigEndian.bytes 4 1, BigEndian.bytes 8 (16 + body.length) ++ body ++ rest.encode,
          ?_, BigEndian.length_bytes 4 _, fun _ => ?_⟩
        · rw [frame, boxHeaderBytes]
          simp only [List.append_assoc]
        · rw [BigEndian.value_bytes (by decide)]
          decide
    | toEnd =>
        refine ⟨BigEndian.bytes 4 0, body ++ rest.encode, ?_, BigEndian.length_bytes 4 _,
          fun _ => ?_⟩
        · rw [frame, boxHeaderBytes]
          simp only [List.append_assoc]
        · rw [BigEndian.value_bytes (by decide)]
          decide
  cases children with
  | nil => exact absurd rfl hne
  | leaf kind sizing payload rest =>
      obtain ⟨word, more, hencode, hlength, hsmall⟩ := hframe kind sizing payload rest hwf.1
      exact ⟨word, kind, more, hencode, hlength, hwf.1.1, hsmall, id⟩
  | node kind sizing versionFlags children rest =>
      obtain ⟨word, more, hencode, hlength, hsmall⟩ :=
        hframe kind sizing (versionFlags ++ children.encode) rest hwf.1
      exact ⟨word, kind, more, hencode, hlength, hwf.1.1, hsmall, id⟩

theorem metaBodyStart_tree {versionFlags : Bytes} (hwf : children.WellFormed)
    (hform : versionFlags = [] ∨ versionFlags.length = 4)
    (hfull : versionFlags ≠ [] → children.SmallFirst)
    (hplain : versionFlags = [] → children.TypedFirst)
    (h : RowAt s before (versionFlags ++ children.encode) after limit) :
    metaBodyStart s before.length limit = .ok (before ++ versionFlags).length ∨
      children = .nil ∧ metaBodyStart s before.length limit = .ok before.length := by
  have hsmall : limit < 2 ^ 63 := h.limit_le.trans_lt s.fits
  have hlimit := h.limit
  by_cases hnil : children = .nil
  · refine .inr ⟨hnil, ?_⟩
    subst hnil
    have hshort : saturatingAdd before.length 8 > limit := by
      rw [gt_iff_lt, ← Nat.not_le, saturatingAdd_le_iff hsmall, hlimit]
      rcases hform with rfl | hfour
      · simp [BoxTree.encode]
      · simp [BoxTree.encode, hfour]
    rw [metaBodyStart, if_pos hshort]
  · refine .inl ?_
    obtain ⟨word, kind, more, hencode, hword, hkind, hsize, htype⟩ := first_words hwf hnil
    have hroom : ¬ saturatingAdd before.length 8 > limit := by
      rw [Nat.not_lt, saturatingAdd_le_iff hsmall, hlimit, hencode]
      simp only [List.length_append]
      omega
    rcases hform with rfl | hfour
    · -- Plain form: the probe is the first child's header.
      have hprobe : readExact s before.length 8 = .ok (word ++ kind) := by
        have hat : s.bytes = before ++ (word ++ kind) ++ (more ++ after) := by
          rw [h.bytes, hencode]
          simp only [List.nil_append, List.append_assoc]
        have hread := readExact_at hat
        rwa [List.length_append, hword, hkind] at hread
      have hdrop : (word ++ kind).drop 4 = kind := by rw [← hword, List.drop_left]
      rw [metaBodyStart, if_neg hroom, hprobe]
      dsimp only
      rw [hdrop, if_pos (htype (hplain rfl)), List.append_nil]
    · -- Full form: the probe is the version word and the first child's size.
      have hne : versionFlags ≠ [] := by
        rintro rfl
        cases hfour
      have hprobe : readExact s before.length 8 = .ok (versionFlags ++ word) := by
        have hat : s.bytes = before ++ (versionFlags ++ word) ++ (kind ++ more ++ after) := by
          rw [h.bytes, hencode]
          simp only [List.append_assoc]
        have hread := readExact_at hat
        rwa [List.length_append, hword, hfour] at hread
      have hdrop : (versionFlags ++ word).drop 4 = word := by rw [← hfour, List.drop_left]
      rw [metaBodyStart, if_neg hroom, hprobe]
      dsimp only
      rw [hdrop, not_isBoxType_of_small hword (hsize (hfull hne)), List.length_append, hfour]
      rfl

end MetaForm

section TreeWalk

variable {s : Slice} {before after : Bytes} {limit scanned : Nat} {visit : BoxHeader → Nat → Walked}

theorem firstOutcome_append (found more : List Bytes) :
    firstOutcome (found ++ more) = if found = [] then firstOutcome more
      else firstOutcome found := by
  cases found with
  | nil => simp
  | cons body rest => simp [firstOutcome]

/-- One round of the sibling loop whose visit answers with what it found. -/
theorem scanBoxes_found {header : BoxHeader} {n : Nat} (found : List Bytes)
    (hread : readBoxHeader s before.length limit = .ok (some header))
    (hadvance : before.length < header.stop) (hscanned : scanned + 1 ≤ maxBoxesScanned)
    (hvisit : visit header (scanned + 1) = (n, firstOutcome found)) :
    scanBoxes s limit visit before.length scanned =
      if found = [] then scanBoxes s limit visit header.stop n else (n, firstOutcome found) := by
  rw [scanBoxes_of_some hread hadvance, if_neg (by omega), hvisit]
  cases found with
  | nil => rfl
  | cons body rest =>
      rw [if_neg (List.cons_ne_nil body rest)]
      have hfirst : firstOutcome (body :: rest) = dataOutcome body := rfl
      rw [hfirst]
      cases houtcome : dataOutcome body with
      | error e => rfl
      | ok answer =>
          cases answer with
          | none => exact absurd houtcome (dataOutcome_ne_none body)
          | some text => rfl

/-- A visit that answers for a path box with what its children hold. -/
def Answers (s : Slice) (visit : BoxHeader → Nat → Walked) (kind : Bytes) (path : List Bytes) :
    Prop :=
  ∀ (before after versionFlags : Bytes) (children : BoxTree) (stop scanned : Nat),
    (versionFlags = [] ∨ kind = boxMeta ∧ versionFlags.length = 4) → children.WellFormed →
    (kind = boxMeta →
      (versionFlags ≠ [] → children.SmallFirst) ∧ (versionFlags = [] → children.TypedFirst)) →
    children.Opens path → RowAt s before (versionFlags ++ children.encode) after stop →
    scanned + children.count ≤ maxBoxesScanned →
    ∃ n ≤ scanned + children.count,
      visit ⟨kind, before.length, stop⟩ scanned = (n, firstOutcome (children.dataBodies path))

theorem scanBoxes_tree {kind : Bytes} {path : List Bytes} {tree : BoxTree} (hwf : tree.WellFormed)
    (hopens : tree.Opens (kind :: path)) (h : RowAt s before tree.encode after limit)
    (hcount : scanned + tree.count ≤ maxBoxesScanned)
    (hother : ∀ header scanned, header.kind ≠ kind → visit header scanned = (scanned, .ok none))
    (hnode : Answers s visit kind path) :
    ∃ n ≤ scanned + tree.count, scanBoxes s limit visit before.length scanned =
      (n, firstOutcome (tree.dataBodies (kind :: path))) := by
  induction tree generalizing before scanned with
  | nil => exact ⟨scanned, Nat.le_refl _, scanBoxes_of_none (readBoxHeader_end h)⟩
  | leaf k sizing payload rest ih =>
      obtain ⟨hframed, hrest⟩ := hwf
      obtain ⟨hkind, hopens⟩ := hopens
      simp only [BoxTree.count] at hcount ⊢
      have hnext : scanned + 1 + rest.count ≤ maxBoxesScanned := by omega
      obtain ⟨n, hn, hscan⟩ := ih hrest hopens h.rest hnext
      rw [scanBoxes_found [] (readBoxHeader_row hframed h) (frame_advance hframed.1) (by omega)
        (hother _ _ hkind), if_pos rfl]
      exact ⟨n, by omega, hscan⟩
  | node k sizing versionFlags children rest _ ih =>
      obtain ⟨hframed, hform, hchildren, hrest⟩ := hwf
      obtain ⟨hpath, hopens⟩ := hopens
      simp only [BoxTree.count, BoxTree.dataBodies, firstOutcome_append] at hcount ⊢
      have hread := readBoxHeader_row hframed h
      by_cases hkind : k = kind
      · subst hkind
        obtain ⟨hsniff, hinner⟩ := hpath rfl
        have hbody := h.body hframed.1
        rw [← List.length_append] at hbody
        obtain ⟨n, hn, hvisit⟩ := hnode _ _ versionFlags children _ (scanned + 1) hform hchildren
          hsniff hinner hbody (by omega)
        rw [scanBoxes_found _ hread (frame_advance hframed.1) (by omega) hvisit, if_pos rfl]
        by_cases hfound : children.dataBodies path = []
        · rw [if_pos hfound, if_pos hfound]
          have hnext : n + rest.count ≤ maxBoxesScanned := by omega
          obtain ⟨m, hm, hscan⟩ := ih hrest hopens h.rest hnext
          exact ⟨m, by omega, hscan⟩
        · rw [if_neg hfound, if_neg hfound]
          exact ⟨n, by omega, rfl⟩
      · have hnext : scanned + 1 + rest.count ≤ maxBoxesScanned := by omega
        obtain ⟨n, hn, hscan⟩ := ih hrest hopens h.rest hnext
        rw [scanBoxes_found [] hread (frame_advance hframed.1) (by omega) (hother _ _ hkind),
          if_pos rfl, if_neg hkind, if_pos rfl]
        exact ⟨n, by omega, hscan⟩

theorem answers_visitItem : Answers s (visitItem s) boxCmt [] := by
  intro before after versionFlags children stop scanned hform hwf _ hopens hrow _
  have hplain : versionFlags = [] := hform.resolve_right fun h => absurd h.1 (by decide)
  subst hplain
  refine ⟨scanned, Nat.le_add_right _ _, ?_⟩
  rw [visitItem, if_pos rfl, readCommentData_tree hwf hopens hrow]

theorem descend_short {start stop : Nat} (hstop : stop ≤ s.length) (hshort : stop < start + 8)
    (path : List Bytes) (depth scanned : Nat) :
    descend s path start stop depth scanned = (scanned, .ok none) := by
  have hnone : readBoxHeader s start stop = .ok none := by
    rw [readBoxHeader, if_pos]
    rw [gt_iff_lt, ← Nat.not_le, saturatingAdd_le_iff (hstop.trans_lt s.fits), boxHeaderLength]
    omega
  cases path with
  | nil =>
      rw [descend]
      split
      · rfl
      · exact scanBoxes_of_none hnone
  | cons kind path =>
      rw [descend]
      split
      · rfl
      · exact scanBoxes_of_none hnone

theorem descend_tree (path : List Bytes) {tree : BoxTree} {depth : Nat} (hwf : tree.WellFormed)
    (hopens : tree.Opens (path ++ [boxCmt])) (h : RowAt s before tree.encode after limit)
    (hcount : scanned + tree.count ≤ maxBoxesScanned) (hdepth : depth + path.length ≤ maxBoxDepth) :
    ∃ n ≤ scanned + tree.count, descend s path before.length limit depth scanned =
      (n, firstOutcome (tree.dataBodies (path ++ [boxCmt]))) := by
  induction path generalizing before after limit scanned tree depth with
  | nil =>
      rw [descend, if_neg (by simpa using hdepth)]
      refine scanBoxes_tree hwf hopens h hcount (fun header scanned hkind => ?_) answers_visitItem
      rw [visitItem, if_neg hkind]
  | cons kind path ih =>
      rw [List.length_cons] at hdepth
      rw [descend, if_neg (by omega)]
      refine scanBoxes_tree hwf hopens h hcount (fun header scanned hkind => if_neg hkind) ?_
      intro before after versionFlags children stop scanned hform hchildren hsniff hinner hrow hroom
      dsimp only
      rw [if_pos rfl]
      have hrest : RowAt s (before ++ versionFlags) children.encode after stop := hrow.rest
      by_cases hmeta : kind = boxMeta
      · rw [childrenStart, if_pos hmeta]
        obtain ⟨hfull, hplain⟩ := hsniff hmeta
        rcases metaBodyStart_tree hchildren (hform.imp_right And.right) hfull hplain hrow with
          hstart | ⟨rfl, hstart⟩
        · rw [hstart]
          exact ih hchildren hinner hrest hroom (by omega)
        · -- A `meta` without children: no room for a header, whatever the form.
          have hshort : stop < before.length + 8 := by
            have hstop := hrow.limit
            rcases hform with rfl | ⟨-, hfour⟩ <;> simp [BoxTree.encode, *] at hstop <;> omega
          rw [hstart]
          exact ⟨scanned, Nat.le_refl _, descend_short hrow.limit_le hshort path (depth + 1)
            scanned⟩
      · have hplain : versionFlags = [] := hform.resolve_right fun h => hmeta h.1
        subst hplain
        rw [childrenStart, if_neg hmeta]
        exact ih hchildren hinner hrow hroom (by omega)

end TreeWalk

section Comments

/-- The boxes on the way to a comment's `data` box. -/
def commentPath : List Bytes := containerPath ++ [boxCmt]

def utf8Bytes (text : String) : Bytes := text.toByteArray.data.toList

theorem fromUtf8_utf8Bytes (text : String) : fromUtf8 (utf8Bytes text) = some text := by
  rw [fromUtf8, utf8Bytes, Array.toArray_toList]
  exact dif_pos text.isValidUTF8

/-- The walk over the file of a tree answers with its first `data` box. -/
theorem readMp4Comment_tree {s : Slice} {tree : BoxTree} (hbytes : s.bytes = tree.encode)
    (hwf : tree.WellFormed) (hopens : tree.Opens commentPath)
    (hcount : tree.count ≤ maxBoxesScanned) :
    readMp4Comment s = firstOutcome (tree.dataBodies commentPath) := by
  have hrow : RowAt s [] tree.encode [] s.length :=
    ⟨by simp [hbytes], by simp [Slice.length, hbytes]⟩
  have hbudget : 0 + tree.count ≤ maxBoxesScanned := by omega
  have hdepth : 0 + containerPath.length ≤ maxBoxDepth := by decide
  obtain ⟨n, -, hwalk⟩ := descend_tree containerPath hwf hopens hrow hbudget hdepth
  exact congrArg Prod.snd hwalk

/-- On any bytes the walk reads only inside them and counts at most one box more than
allowed, and that only to refuse them; on the file of a well-formed tree whose path boxes
are nodes, each `meta` among them of a form that can be told apart, it returns the text of
the first `data` box of the path. -/
theorem mp4_comment_walk (s : Slice) :
    Bounded 0 (findComment s) ∧
      ∀ tree : BoxTree, s.bytes = tree.encode → tree.WellFormed → tree.Opens commentPath →
        tree.count < maxBoxesScanned → ∀ (indicator : Bytes) (text : String) (later : List Bytes),
        tree.dataBodies commentPath = (indicator ++ utf8Bytes text) :: later →
        indicator.length = dataBoxPrefixLength →
        (utf8Bytes text).length ≤ maxWorkflowTextBytes →
        readMp4Comment s = .ok (some text) := by
  refine ⟨bounded_findComment s, ?_⟩
  intro tree hbytes hwf hopens hcount indicator text later hbodies hindicator htext
  rw [readMp4Comment_tree hbytes hwf hopens hcount.le, hbodies]
  have hlength : (indicator ++ utf8Bytes text).length =
      dataBoxPrefixLength + (utf8Bytes text).length := by
    rw [List.length_append, hindicator]
  have hdrop : (indicator ++ utf8Bytes text).drop dataBoxPrefixLength = utf8Bytes text := by
    rw [← hindicator, List.drop_left]
  simp only [firstOutcome, dataOutcome]
  rw [hlength, if_neg (by omega), if_neg (by omega), hdrop, fromUtf8_utf8Bytes]

/-- A file with a `ftyp` box before and a media box after its header, whose full-form
`meta` holds a handler box and a tag list with the given `data` bodies. -/
def taggedFile (bodies : List Bytes) : BoxTree :=
  .leaf [0x66, 0x74, 0x79, 0x70] .narrow [0x69, 0x73, 0x6F, 0x6D]
    (.node boxMoov .narrow []
      (.node boxUdta .wide []
        (.node boxMeta .narrow [0, 0, 0, 0]
          (.leaf [0x68, 0x64, 0x6C, 0x72] .narrow []
            (.node boxIlst .toEnd []
              (bodies.foldr (fun body rest =>
                .node boxCmt .narrow [] (.leaf boxData .narrow body .nil) rest)
                  .nil) .nil)) .nil) .nil)
      (.leaf [0x6D, 0x64, 0x61, 0x74] .toEnd [] .nil))

def greetingBody : Bytes := [0, 0, 0, 1, 0, 0, 0, 0, 0x68, 0x69]

def latinBody : Bytes := [0, 0, 0, 1, 0, 0, 0, 0, 0xE9]

theorem taggedFile_wellFormed {bodies : List Bytes}
    (h : bodies = [greetingBody] ∨ bodies = [latinBody, greetingBody]) :
    (taggedFile bodies).WellFormed ∧ (taggedFile bodies).Opens commentPath := by
  rcases h with rfl | rfl <;>
    simp [taggedFile, BoxTree.WellFormed, BoxTree.Framed, BoxTree.Opens, BoxTree.SmallFirst,
      BoxTree.encode, frame, boxHeaderBytes, commentPath, containerPath, boxMoov, boxUdta, boxMeta,
      boxIlst, boxCmt, boxData, greetingBody, latinBody]

def greetingFile : Slice := ⟨(taggedFile [greetingBody]).encode, by decide +kernel⟩

theorem mp4_comment_walk_greeting :
    readMp4Comment greetingFile = .ok (some "hi") := by
  obtain ⟨hwf, hopens⟩ := taggedFile_wellFormed (.inl rfl)
  exact (mp4_comment_walk greetingFile).2 (taggedFile [greetingBody]) rfl hwf hopens
    (by decide +kernel) [0, 0, 0, 1, 0, 0, 0, 0] "hi" [] (by decide +kernel) rfl (by decide +kernel)

/-- The text of a `data` body that holds one of at most the permitted length. -/
def commentText (body : Bytes) : Option String :=
  if dataBoxPrefixLength ≤ body.length ∧
      body.length - dataBoxPrefixLength ≤ maxWorkflowTextBytes then
    fromUtf8 (body.drop dataBoxPrefixLength)
  else none

def latinFile : Slice := ⟨(taggedFile [latinBody, greetingBody]).encode, by decide +kernel⟩

/-- A comment that is not UTF-8 before one that is: the walk refuses the file and does not
go on to the second. -/
theorem mp4_comment_walk_stops_at_latin :
    ∃ tree : BoxTree, latinFile.bytes = tree.encode ∧ tree.WellFormed ∧ tree.Opens commentPath ∧
      tree.count < maxBoxesScanned ∧
      (tree.dataBodies commentPath).findSome? commentText = some "hi" ∧
      readMp4Comment latinFile = .error .notUtf8 := by
  obtain ⟨hwf, hopens⟩ := taggedFile_wellFormed (.inr rfl)
  refine ⟨taggedFile [latinBody, greetingBody], rfl, hwf, hopens, by decide +kernel,
    by decide +kernel, ?_⟩
  rw [readMp4Comment_tree rfl hwf hopens (by decide +kernel)]
  decide +kernel

end Comments

end SceneWorks.WorkflowMp4
