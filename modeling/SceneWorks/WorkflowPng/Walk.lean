import SceneWorks.Library.Framing
import SceneWorks.WorkflowPng.Strip

/-!
The cursor walk against the chunks of a file. By declared length a file is a list of
whole chunks and a tail that starts with none; the walk classifies exactly those chunks,
each under the span it occupies, and succeeds past the end marker when nothing of ours
is in the tail.
-/

namespace SceneWorks.WorkflowPng

section Chunks

/-- A chunk by its declared length: header, payload and checksum are all there. -/
def declaredSize (xs : Bytes) : Option Nat :=
  if 8 ≤ xs.length ∧ chunkOverhead + u32FromBeBytes (xs.take 4) ≤ xs.length then
    some (chunkOverhead + u32FromBeBytes (xs.take 4))
  else none

theorem declaredSize_eq_some_iff {xs : Bytes} {n : Nat} :
    declaredSize xs = some n ↔ n = chunkOverhead + u32FromBeBytes (xs.take 4) ∧ n ≤ xs.length := by
  unfold declaredSize
  constructor
  · intro h
    split at h
    · next hfits =>
        cases h
        exact ⟨rfl, hfits.2⟩
    · cases h
  · rintro ⟨rfl, hle⟩
    have hheader : 8 ≤ xs.length := by
      rw [chunkOverhead] at hle
      omega
    rw [if_pos ⟨hheader, hle⟩]

theorem declaredSize_pos {xs : Bytes} {n : Nat} (h : declaredSize xs = some n) : 0 < n := by
  rw [(declaredSize_eq_some_iff.mp h).1, chunkOverhead]
  omega

theorem declaredSize_le {xs : Bytes} {n : Nat} (h : declaredSize xs = some n) : n ≤ xs.length :=
  (declaredSize_eq_some_iff.mp h).2

/-- The length is declared in the first four bytes, so what follows the chunk is free. -/
theorem declaredSize_front {xs : Bytes} {n : Nat} (ys : Bytes) (h : declaredSize xs = some n) :
    declaredSize (xs.take n ++ ys) = some n := by
  obtain ⟨hn, hle⟩ := declaredSize_eq_some_iff.mp h
  have hfour : 4 ≤ n := by
    rw [hn, chunkOverhead]
    omega
  have hlen : (xs.take n).length = n := by
    rw [List.length_take, Nat.min_eq_left hle]
  have hheader : (xs.take n ++ ys).take 4 = xs.take 4 := by
    rw [List.take_append_of_le_length (by omega), List.take_take, Nat.min_eq_left hfour]
  refine declaredSize_eq_some_iff.mpr ⟨by rw [hheader, hn], ?_⟩
  rw [List.length_append, hlen]
  omega

def chunkFramer : Framer UInt8 where
  size := declaredSize
  pos := declaredSize_pos
  le := declaredSize_le
  front := declaredSize_front

def chunkKind (chunk : Bytes) : Bytes := slice chunk 4 8

def chunkData (chunk : Bytes) : Bytes := slice chunk 8 (chunk.length - 4)

def chunkOwner (chunk : Bytes) : Option ChunkOwner :=
  textChunkOwner (chunkKind chunk) (chunkData chunk)

def isIend (chunk : Bytes) : Bool := chunkKind chunk == asBytes "IEND"

/-- The keyword of a text chunk: its payload up to the first zero byte. -/
def chunkKeyword (chunk : Bytes) : Bytes := (chunkData chunk).takeWhile (· ≠ 0)

/-- A text chunk of any of the three types under our own keyword. -/
def IsEnvelope (chunk : Bytes) : Prop :=
  chunkKind chunk ∈ textChunkTypes ∧ chunkKeyword chunk = asBytes workflowChunkKeyword

/-- A text chunk of any of the three types under the generic keyword. -/
def IsParameters (chunk : Bytes) : Prop :=
  chunkKind chunk ∈ textChunkTypes ∧ chunkKeyword chunk = asBytes parametersChunkKeyword

/-- A text chunk under either keyword the writer uses. -/
def IsOurs (chunk : Bytes) : Prop := IsEnvelope chunk ∨ IsParameters chunk

instance (chunk : Bytes) : Decidable (IsEnvelope chunk) := inferInstanceAs (Decidable (_ ∧ _))

instance (chunk : Bytes) : Decidable (IsParameters chunk) := inferInstanceAs (Decidable (_ ∧ _))

instance (chunk : Bytes) : Decidable (IsOurs chunk) := inferInstanceAs (Decidable (_ ∨ _))

theorem iend_not_text : asBytes "IEND" ∉ textChunkTypes := by
  decide +kernel

theorem ihdr_not_text : asBytes "IHDR" ∉ textChunkTypes := by
  decide +kernel

theorem chunkOwner_of_not_text {chunk : Bytes} (h : chunkKind chunk ∉ textChunkTypes) :
    chunkOwner chunk = none := by
  have hany : textChunkTypes.any (· == chunkKind chunk) = false := by
    rw [List.any_beq']
    simpa using h
  rw [chunkOwner, textChunkOwner, hany]
  rfl

theorem chunkOwner_of_text {chunk : Bytes} (h : chunkKind chunk ∈ textChunkTypes) :
    chunkOwner chunk =
      if chunkKeyword chunk = asBytes workflowChunkKeyword then some .envelope
      else if chunkKeyword chunk = asBytes parametersChunkKeyword then some .parameters
      else none := by
  have hany : textChunkTypes.any (· == chunkKind chunk) = true := by
    rw [List.any_beq']
    simpa using h
  rw [chunkOwner, textChunkOwner, hany]
  rfl

theorem chunkOwner_eq_envelope_iff {chunk : Bytes} :
    chunkOwner chunk = some .envelope ↔ IsEnvelope chunk := by
  unfold IsEnvelope
  by_cases hkind : chunkKind chunk ∈ textChunkTypes
  · rw [chunkOwner_of_text hkind]
    split
    · next hkeyword => simp [hkind, hkeyword]
    · next hkeyword =>
        split <;> simp [hkeyword]
  · rw [chunkOwner_of_not_text hkind]
    simp [hkind]

theorem chunkOwner_eq_none_iff {chunk : Bytes} : chunkOwner chunk = none ↔ ¬ IsOurs chunk := by
  unfold IsOurs IsEnvelope IsParameters
  by_cases hkind : chunkKind chunk ∈ textChunkTypes
  · rw [chunkOwner_of_text hkind]
    split
    · next hkeyword => simp [hkind, hkeyword]
    · next hworkflow =>
        split
        · next hparameters => simp [hkind, hparameters]
        · next hparameters => simp [hworkflow, hparameters]
  · rw [chunkOwner_of_not_text hkind]
    simp [hkind]

theorem IsOurs.text {chunk : Bytes} (h : IsOurs chunk) : chunkKind chunk ∈ textChunkTypes :=
  h.elim (fun he => he.1) fun hp => hp.1

/-- The end marker is no text chunk, so it is never taken out. -/
theorem not_isOurs_of_isIend {chunk : Bytes} (h : isIend chunk = true) : ¬ IsOurs chunk := by
  intro hours
  have hkind : chunkKind chunk = asBytes "IEND" := beq_iff_eq.mp h
  exact iend_not_text (hkind ▸ hours.text)

end Chunks

section Slices

variable {bytes chunk rest : Bytes} {cursor : Nat}

theorem chunkEnd_eq (bytes : Bytes) (cursor : Nat) :
    chunkEnd bytes cursor = (declaredSize (bytes.drop cursor)).map (cursor + ·) := by
  have hheader : (slice bytes cursor (cursor + 8)).take 4 = (bytes.drop cursor).take 4 := by
    rw [slice, List.take_take]
    congr 1
    omega
  have hlen : (bytes.drop cursor).length = bytes.length - cursor := List.length_drop
  have hover : chunkOverhead = 12 := rfl
  unfold chunkEnd declaredSize
  simp only [hheader, hlen]
  by_cases hroom : cursor + 8 ≤ bytes.length
  · rw [if_pos hroom]
    by_cases hfits : cursor + chunkOverhead + u32FromBeBytes ((bytes.drop cursor).take 4) ≤
        bytes.length
    · rw [if_pos hfits, if_pos (by omega), Option.map_some, Nat.add_assoc]
    · rw [if_neg hfits, if_neg (by omega), Option.map_none]
  · rw [if_neg hroom, if_neg (by omega), Option.map_none]

/-- Inside a chunk, offsets into the file are offsets into the chunk. -/
theorem slice_of_drop (h : bytes.drop cursor = chunk ++ rest) (a : Nat) {b : Nat}
    (hb : b ≤ chunk.length) : slice bytes (cursor + a) (cursor + b) = slice chunk a b := by
  unfold slice
  rw [← List.drop_drop, h, Nat.add_sub_add_left]
  by_cases hab : a ≤ b
  · have hlen : (chunk.drop a).length = chunk.length - a := List.length_drop
    rw [List.drop_append_of_le_length (by omega), List.take_append_of_le_length (by omega)]
  · have hzero : b - a = 0 := by omega
    rw [hzero, List.take_zero, List.take_zero]

theorem slice_self (bytes : Bytes) (cursor : Nat) : slice bytes cursor cursor = [] := by
  rw [slice, Nat.sub_self, List.take_zero]

theorem slice_append_slice (bytes : Bytes) {a b c : Nat} (hab : a ≤ b) (hbc : b ≤ c) :
    slice bytes a b ++ slice bytes b c = slice bytes a c := by
  unfold slice
  have hdrop : bytes.drop b = (bytes.drop a).drop (b - a) := by
    rw [List.drop_drop, Nat.add_sub_cancel' hab]
  have hsplit : c - a = (b - a) + (c - b) := by omega
  rw [hdrop, hsplit, List.take_add]

theorem slice_to_end (bytes : Bytes) (cursor : Nat) :
    slice bytes cursor bytes.length = bytes.drop cursor := by
  rw [slice, List.take_of_length_le]
  rw [List.length_drop]

theorem drop_chunk (h : bytes.drop cursor = chunk ++ rest) :
    bytes.drop (cursor + chunk.length) = rest := by
  rw [← List.drop_drop, h, List.drop_left]

theorem slice_chunk (h : bytes.drop cursor = chunk ++ rest) :
    slice bytes cursor (cursor + chunk.length) = chunk := by
  have hslice := slice_of_drop h 0 (Nat.le_refl chunk.length)
  rw [Nat.add_zero] at hslice
  rw [hslice, slice_to_end, List.drop_zero]

theorem le_length_of_drop (hcursor : cursor ≤ bytes.length)
    (h : bytes.drop cursor = chunk ++ rest) : cursor + chunk.length ≤ bytes.length := by
  have hlen := congrArg List.length h
  rw [List.length_drop, List.length_append] at hlen
  omega

end Slices

section Walk

variable {bytes tail : Bytes} {chunks : List Bytes} {cursor : Nat} {pastIend : Bool}
  {candidates : List (Span × ChunkOwner)}

/-- What the walk collects over whole chunks that start at the cursor. -/
def candidatesFrom (cursor : Nat) : List Bytes → List (Span × ChunkOwner)
  | [] => []
  | chunk :: chunks =>
      (chunkOwner chunk).toList.map (fun owner => (⟨cursor, cursor + chunk.length⟩, owner)) ++
        candidatesFrom (cursor + chunk.length) chunks

def hasEnvelope (chunks : List Bytes) : Bool := chunks.any fun c => chunkOwner c == some .envelope

theorem carriesEnvelope_candidatesFrom (cursor : Nat) (chunks : List Bytes) :
    carriesEnvelope (candidatesFrom cursor chunks) = hasEnvelope chunks := by
  induction chunks generalizing cursor with
  | nil => rfl
  | cons chunk chunks ih =>
      have htail : carriesEnvelope (candidatesFrom (cursor + chunk.length) chunks) =
          hasEnvelope chunks := ih _
      unfold carriesEnvelope hasEnvelope at htail ⊢
      rw [candidatesFrom, List.any_append, htail, List.any_cons]
      cases chunkOwner chunk <;> simp

theorem contains_nil {needle : Bytes} (h : needle ≠ []) : contains [] needle = false := by
  have hpos := List.length_pos_iff.mpr h
  have hshort : ¬ ([] : Bytes).length ≥ needle.length := by
    rw [List.length_nil]
    omega
  rw [contains, decide_eq_false hshort, Bool.false_and]

theorem hiddenKeyword_nil (ours : Bool) : hiddenKeyword [] ours = none := by
  have hworkflow : contains [] (asBytes workflowChunkKeyword) = false :=
    contains_nil (by decide +kernel)
  have hparameters : contains [] (asBytes parametersChunkKeyword ++ [0]) = false :=
    contains_nil (List.append_ne_nil_of_right_ne_nil _ (List.cons_ne_nil _ _))
  unfold hiddenKeyword
  simp only [hworkflow, hparameters, Bool.and_false, Bool.false_eq_true, if_false]

/-- One turn of the loop over a whole chunk. -/
theorem walkChunks_step {stop : Nat} (h : chunkEnd bytes cursor = some stop) :
    walkChunks bytes cursor pastIend candidates =
      walkChunks bytes stop (pastIend || slice bytes (cursor + 4) (cursor + 8) == asBytes "IEND")
        (candidates ++
          (textChunkOwner (slice bytes (cursor + 4) (cursor + 8))
            (slice bytes (cursor + 8) (stop - 4))).toList.map fun owner =>
              (⟨cursor, stop⟩, owner)) := by
  have hlt : cursor < bytes.length := by
    by_contra hge
    rw [chunkEnd, if_neg (by omega)] at h
    cases h
  rw [walkChunks, if_pos hlt]
  split
  · next hnone => rw [h] at hnone; cases hnone
  · next stop' hsome =>
      rw [h] at hsome
      cases hsome
      dsimp only
      cases textChunkOwner (slice bytes (cursor + 4) (cursor + 8))
        (slice bytes (cursor + 8) (stop - 4)) with
      | none => simp
      | some owner => simp

/-- The loop where no whole chunk follows: it succeeds past the end marker, with
nothing of ours in the bytes that are left. -/
theorem walkChunks_stuck (h : chunkEnd bytes cursor = none) {spans : List Span} :
    walkChunks bytes cursor pastIend candidates = .ok spans ↔
      pastIend = true ∧ hiddenKeyword (bytes.drop cursor) (carriesEnvelope candidates) = none ∧
        spans = resolveSpans candidates := by
  rw [walkChunks]
  by_cases hlt : cursor < bytes.length
  · rw [if_pos hlt]
    split
    · cases pastIend with
      | false => simp
      | true =>
          simp only [Bool.not_true, Bool.false_eq_true, if_false, true_and]
          cases hiddenKeyword (bytes.drop cursor) (carriesEnvelope candidates) with
          | none => simp [eq_comm]
          | some found => simp
    · next stop hsome => rw [h] at hsome; cases hsome
  · have hempty : bytes.drop cursor = [] := List.drop_eq_nil_of_le (by omega)
    rw [if_neg hlt, hempty, hiddenKeyword_nil]
    cases pastIend with
    | false => simp
    | true => simp [eq_comm]

/-- The cursor walk against the reading of the file as chunks and a tail. -/
theorem walkChunks_ok_iff (hsplit : chunkFramer.Splits (bytes.drop cursor) chunks tail)
    {spans : List Span} :
    walkChunks bytes cursor pastIend candidates = .ok spans ↔
      (pastIend || chunks.any isIend) = true ∧
        hiddenKeyword tail (carriesEnvelope (candidates ++ candidatesFrom cursor chunks)) = none ∧
        spans = resolveSpans (candidates ++ candidatesFrom cursor chunks) := by
  induction chunks generalizing cursor pastIend candidates with
  | nil =>
      have htail : tail = bytes.drop cursor := hsplit.join
      have hstuck : chunkEnd bytes cursor = none := by
        have hsize : declaredSize (bytes.drop cursor) = none := htail ▸ hsplit.stuck
        rw [chunkEnd_eq, hsize, Option.map_none]
      rw [walkChunks_stuck hstuck, htail, candidatesFrom, List.append_nil, List.any_nil,
        Bool.or_false]
  | cons chunk chunks ih =>
      have hdrop : bytes.drop cursor = chunk ++ (chunks.flatten ++ tail) := by
        rw [← hsplit.join, List.flatten_cons, List.append_assoc]
      have hframe := hsplit.whole chunk List.mem_cons_self
      have hsize : declaredSize (bytes.drop cursor) = some chunk.length := by
        rw [hdrop]
        exact hframe.size_append _
      have hstop : chunkEnd bytes cursor = some (cursor + chunk.length) := by
        rw [chunkEnd_eq, hsize, Option.map_some]
      have hlong : 12 ≤ chunk.length := by
        rw [(declaredSize_eq_some_iff.mp hframe).1, chunkOverhead]
        omega
      have hkind : slice bytes (cursor + 4) (cursor + 8) = chunkKind chunk :=
        slice_of_drop hdrop 4 (by omega)
      have hdata : slice bytes (cursor + 8) (cursor + chunk.length - 4) = chunkData chunk := by
        rw [Nat.add_sub_assoc (by omega)]
        exact slice_of_drop hdrop 8 (by omega)
      have hnext : chunkFramer.Splits (bytes.drop (cursor + chunk.length)) chunks tail :=
        ⟨(drop_chunk hdrop).symm, fun c hc => hsplit.whole c (List.mem_cons_of_mem chunk hc),
          hsplit.stuck⟩
      rw [walkChunks_step hstop, hkind, hdata, ih hnext, candidatesFrom, List.append_assoc,
        List.any_cons, Bool.or_assoc]
      exact Iff.rfl

end Walk

end SceneWorks.WorkflowPng
