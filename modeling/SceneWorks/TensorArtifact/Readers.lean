import SceneWorks.TensorArtifact.Header

/-!
The two readers of a tensor artifact. One streams the payload through a buffer and digests as it
goes, the other takes it whole. Both see the same bytes: the buffer holds a whole number of values,
so no value is cut, and the length of the file is fixed by its header.
-/

namespace SceneWorks.TensorArtifact

open Fallible

/-- Whether the four little-endian bytes of a `f32` are a finite number: not all bits of the
exponent are set. -/
def isFinite (word : List UInt8) : Bool := LittleEndian.value word / 2 ^ 23 % 256 ≠ 255

/-- `as_chunks::<4>().0`: what is left over at the end is no chunk. -/
def chunks4 : List UInt8 → List (List UInt8)
  | a :: b :: c :: d :: rest => [a, b, c, d] :: chunks4 rest
  | _ => []

def validValues (dtype : String) (bytes : List UInt8) : Bool :=
  if dtype = "float32" then (chunks4 bytes).all isFinite else bytes.all (· ≤ 1)

def invalidValues : String := "tensor values must be finite float32 or binary uint8"

def bufferLength : Nat := 65536

/-- The streaming loop, with what is digested so far and what is left of the file. -/
def inspectPayload (dtype : String) (hashed : List UInt8) (remaining : Nat) (file : List UInt8) :
    Except String (List UInt8 × List UInt8) :=
  if _h : remaining = 0 then .ok (hashed, file)
  else
    match readFile (min remaining bufferLength) file with
    | .error e => .error e
    | .ok (buffer, rest) =>
        if validValues dtype buffer = false then .error invalidValues
        else inspectPayload dtype (hashed ++ buffer) (remaining - min remaining bufferLength) rest
termination_by remaining
decreasing_by
  have hbuffer : 0 < bufferLength := by decide
  omega

section Readers

variable (sha256 : List UInt8 → String)

def inspect (file : List UInt8) : Except String TensorMetadata := do
  let opened ← header file
  let (hashed, rest) ←
    inspectPayload opened.metadata.dtype opened.encoded opened.metadata.byteLength opened.rest
  if rest ≠ [] then .error "tensor changed while reading"
  else .ok { opened.metadata with sha256 := sha256 hashed }

def readChecked (file : List UInt8) (maxPayloadBytes : Nat) :
    Except String (TensorMetadata × List UInt8) := do
  let opened ← header file
  if maxPayloadBytes < opened.metadata.byteLength then
    .error "tensor payload exceeds the remaining request budget"
  else
    let bytes := opened.encoded ++ opened.rest.take (opened.metadata.byteLength + 1)
    if bytes.length ≠ opened.offset + opened.metadata.byteLength then
      .error "tensor changed while reading"
    else if validValues opened.metadata.dtype (bytes.drop opened.offset) = false then
      .error invalidValues
    else .ok ({ opened.metadata with sha256 := sha256 bytes }, bytes.drop opened.offset)

def readData (file : List UInt8) (expected : TensorMetadata) : Except String (List UInt8) := do
  let (metadata, bytes) ← readChecked sha256 file maxDataBytes
  if metadata ≠ expected then .error "tensor identity changed; reacquire the exact artifact"
  else .ok bytes

end Readers

section Opened

variable {file : List UInt8} {opened : Opened} {front : Preamble}

theorem readFile_eq_ok {n : Nat} {buffer rest : List UInt8}
    (h : readFile n file = .ok (buffer, rest)) : file = buffer ++ rest ∧ buffer.length = n := by
  obtain ⟨hn, rfl, rfl⟩ := readExact_eq_some.mp (okOr_eq_ok.mp h)
  exact ⟨(List.take_append_drop n file).symm, List.length_take_of_le hn⟩

theorem preamble_eq_ok (h : preamble file = .ok front) :
    file = front.encoded ++ front.rest ∧ front.encoded.length = front.start := by
  unfold preamble at h
  split at h
  · cases h
  split at h
  · cases h
  obtain ⟨⟨first, rest⟩, hfirst, hbody⟩ := bind_eq_ok.mp h
  obtain ⟨hfile, hlength⟩ := readFile_eq_ok hfirst
  dsimp only at hbody
  split at hbody
  · cases hbody
  split at hbody
  · cases hbody
    exact ⟨hfile, hlength⟩
  split at hbody
  · obtain ⟨⟨tail, rest'⟩, htail, hbody⟩ := bind_eq_ok.mp hbody
    obtain ⟨hrest, htail'⟩ := readFile_eq_ok htail
    cases hbody
    refine ⟨?_, ?_⟩
    · rw [hfile, hrest, List.append_assoc]
    · rw [List.length_append, hlength, htail']
  · cases hbody

/-- A payload of numbers is a whole number of words. -/
theorem width_dvd_payloadLength {dtype : String} {shape : List Nat} {n : Nat}
    (h : payloadLength dtype shape = .ok n) : width dtype ∣ n := by
  unfold payloadLength at h
  split at h
  · cases h
  obtain ⟨elements, -, h⟩ := bind_eq_ok.mp h
  rw [okOr_eq_ok, Option.filter_eq_some_iff] at h
  obtain ⟨hmul, -⟩ := h
  unfold checkedMul at hmul
  split at hmul
  · rw [← Option.some.inj hmul]
    exact Nat.dvd_mul_left _ _
  · cases hmul

/-- What an opened file is known to be. -/
structure Accounted (file : List UInt8) (opened : Opened) : Prop where
  bytes : file = opened.encoded ++ opened.rest
  offset : opened.encoded.length = opened.offset
  length : opened.rest.length = opened.metadata.byteLength
  whole : width opened.metadata.dtype ∣ opened.metadata.byteLength
  digest : opened.metadata.sha256 = ""

theorem header_eq_ok (h : header file = .ok opened) : Accounted file opened := by
  unfold header at h
  obtain ⟨front, hfront, h⟩ := bind_eq_ok.mp h
  split at h
  · cases h
  obtain ⟨⟨bytes, rest⟩, hbytes, h⟩ := bind_eq_ok.mp h
  obtain ⟨dictionary, -, h⟩ := bind_eq_ok.mp h
  obtain ⟨⟨dtype, shape⟩, -, h⟩ := bind_eq_ok.mp h
  obtain ⟨data, hdata, h⟩ := bind_eq_ok.mp h
  split at h
  · cases h
  next hlength =>
  cases h
  obtain ⟨hfile, hstart⟩ := preamble_eq_ok hfront
  obtain ⟨hrest, hcount⟩ := readFile_eq_ok hbytes
  have hall : file = front.encoded ++ bytes ++ rest := by
    rw [hfile, hrest, List.append_assoc]
  have htotal := congrArg List.length hall
  rw [List.length_append, List.length_append] at htotal
  refine ⟨hall, ?_, ?_, width_dvd_payloadLength hdata, rfl⟩
  · dsimp only
    rw [List.length_append, hstart, hcount]
  · dsimp only
    omega

end Opened

section Streaming

variable {dtype : String} {bytes buffer rest hashed : List UInt8}

theorem chunks4_append (h : 4 ∣ buffer.length) :
    chunks4 (buffer ++ rest) = chunks4 buffer ++ chunks4 rest := by
  induction buffer using chunks4.induct with
  | case1 a b c d tail ih =>
      have htail : 4 ∣ tail.length := by
        simp only [List.length_cons] at h
        omega
      simp only [List.cons_append, chunks4, ih htail]
  | case2 short hshort =>
      match short with
      | [] => rfl
      | [_] | [_, _] | [_, _, _] => simp at h
      | a :: b :: c :: d :: tail => exact absurd rfl (hshort a b c d tail)

/-- A buffer of whole values is judged by itself. -/
theorem validValues_append (h : width dtype ∣ buffer.length) :
    validValues dtype (buffer ++ rest) = (validValues dtype buffer && validValues dtype rest) := by
  unfold validValues
  unfold width at h
  split
  · next hfloat =>
      rw [if_pos hfloat] at h
      rw [chunks4_append h, List.all_append]
  · rw [List.all_append]

theorem width_dvd_bufferLength (dtype : String) : width dtype ∣ bufferLength := by
  unfold width
  split <;> decide

/-- Streaming a whole payload comes to the same as looking at it at once. -/
theorem inspectPayload_eq (hwhole : width dtype ∣ bytes.length) (hashed : List UInt8) :
    inspectPayload dtype hashed bytes.length bytes =
      if validValues dtype bytes = false then .error invalidValues
      else .ok (hashed ++ bytes, []) := by
  induction hn : bytes.length using Nat.strongRecOn generalizing bytes hashed with
  | ind n ih =>
      subst hn
      unfold inspectPayload
      split
      · next hempty =>
          obtain rfl := List.length_eq_zero_iff.mp hempty
          have hvalid : validValues dtype [] = true := by
            unfold validValues chunks4
            simp
          simp [hvalid]
      · next hmore =>
          have hbuffer : 0 < bufferLength := by decide
          have hread : readFile (min bytes.length bufferLength) bytes =
              .ok (bytes.take (min bytes.length bufferLength),
                bytes.drop (min bytes.length bufferLength)) :=
            okOr_eq_ok.mpr (readExact_eq_some.mpr ⟨Nat.min_le_left _ _, rfl, rfl⟩)
          rw [hread]
          dsimp only
          have hcut : width dtype ∣ min bytes.length bufferLength := by
            rcases Nat.le_total bytes.length bufferLength with hle | hle
            · rwa [Nat.min_eq_left hle]
            · rw [Nat.min_eq_right hle]
              exact width_dvd_bufferLength dtype
          have hfront : width dtype ∣ (bytes.take (min bytes.length bufferLength)).length := by
            rwa [List.length_take_of_le (Nat.min_le_left _ _)]
          have hsplit : validValues dtype bytes =
              (validValues dtype (bytes.take (min bytes.length bufferLength)) &&
                validValues dtype (bytes.drop (min bytes.length bufferLength))) := by
            conv_lhs => rw [← List.take_append_drop (min bytes.length bufferLength) bytes]
            exact validValues_append hfront
          have hback : width dtype ∣ (bytes.drop (min bytes.length bufferLength)).length := by
            rw [List.length_drop]
            exact Nat.dvd_sub hwhole hcut
          have hlength := List.length_drop (i := min bytes.length bufferLength) (l := bytes)
          have hless : (bytes.drop (min bytes.length bufferLength)).length < bytes.length := by
            omega
          cases hvalid : validValues dtype (bytes.take (min bytes.length bufferLength)) with
          | false => simp [hsplit, hvalid]
          | true =>
              have hrest := ih _ hless hback
                (hashed ++ bytes.take (min bytes.length bufferLength)) rfl
              rw [List.length_drop] at hrest
              rw [if_neg (by decide), hrest, hsplit, hvalid, Bool.true_and, List.append_assoc,
                List.take_append_drop]

end Streaming

section Agreement

variable {sha256 : List UInt8 → String} {file : List UInt8} {opened : Opened}

theorem inspect_of_header (h : header file = .ok opened) :
    inspect sha256 file =
      if validValues opened.metadata.dtype opened.rest = false then .error invalidValues
      else .ok { opened.metadata with sha256 := sha256 file } := by
  have haccounted := header_eq_ok h
  have hwhole := haccounted.whole
  rw [← haccounted.length] at hwhole
  have hstream := inspectPayload_eq hwhole opened.encoded
  rw [haccounted.length] at hstream
  unfold inspect
  rw [h]
  dsimp only [bind, Except.bind]
  rw [hstream]
  cases validValues opened.metadata.dtype opened.rest with
  | false => rfl
  | true =>
      rw [← haccounted.bytes]
      rfl

theorem readChecked_of_header (h : header file = .ok opened) {limit : Nat}
    (hlimit : opened.metadata.byteLength ≤ limit) :
    readChecked sha256 file limit =
      if validValues opened.metadata.dtype opened.rest = false then .error invalidValues
      else .ok ({ opened.metadata with sha256 := sha256 file }, opened.rest) := by
  have haccounted := header_eq_ok h
  have htake : opened.rest.take (opened.metadata.byteLength + 1) = opened.rest :=
    List.take_of_length_le (by rw [haccounted.length]; exact Nat.le_succ _)
  have htotal : (opened.encoded ++ opened.rest).length =
      opened.offset + opened.metadata.byteLength := by
    rw [List.length_append, haccounted.offset, haccounted.length]
  have hdrop : (opened.encoded ++ opened.rest).drop opened.offset = opened.rest := by
    rw [← haccounted.offset, List.drop_left]
  unfold readChecked
  rw [h]
  dsimp only [bind, Except.bind]
  rw [if_neg (Nat.not_lt.mpr hlimit), htake, if_neg (not_not.mpr htotal), hdrop,
    ← haccounted.bytes]

/-- Within its budget, what one reader admits the other does, with the same metadata. -/
theorem inspect_eq_readChecked {limit : Nat}
    (hlimit : ∀ opened, header file = .ok opened → opened.metadata.byteLength ≤ limit) :
    inspect sha256 file = (readChecked sha256 file limit).map Prod.fst := by
  cases h : header file with
  | error e =>
      unfold inspect readChecked
      rw [h]
      rfl
  | ok opened =>
      rw [inspect_of_header h, readChecked_of_header h (hlimit opened h)]
      cases validValues opened.metadata.dtype opened.rest <;> rfl

end Agreement

end SceneWorks.TensorArtifact
