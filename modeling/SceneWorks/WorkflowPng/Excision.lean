import SceneWorks.Library.Fallible
import SceneWorks.WorkflowPng.Read
import SceneWorks.WorkflowPng.Walk

/-!
What a strip takes out. Removing the spans of our chunks leaves the other chunks and the
tail, and that copy is read back as exactly those. So nothing of ours is left for a second
strip, or for a reader that steps by declared length.
-/

namespace SceneWorks.WorkflowPng

open Fallible

section Excise

variable {bytes tail : Bytes} {chunks : List Bytes}

theorem resolveSpans_of_envelope {candidates : List (Span × ChunkOwner)}
    (h : carriesEnvelope candidates = true) :
    resolveSpans candidates = candidates.map Prod.fst := by
  simp only [resolveSpans, h, Bool.true_or]
  rw [List.filter_true]

theorem resolveSpans_of_no_envelope {candidates : List (Span × ChunkOwner)}
    (h : carriesEnvelope candidates = false) : resolveSpans candidates = [] := by
  have hnone : (candidates.filter fun c => c.2 == .envelope) = [] := by
    rw [List.filter_eq_nil_iff]
    exact List.any_eq_false.mp h
  simp only [resolveSpans, h, Bool.false_or, hnone]
  rfl

/-- The span kept between two offsets, if any, holds the bytes between them. -/
theorem flatMap_gap (bytes : Bytes) {cursor stop : Nat} (h : cursor ≤ stop) :
    ((if cursor < stop then [(⟨cursor, stop⟩ : Span)] else []).flatMap
      fun kept => slice bytes kept.start kept.stop) = slice bytes cursor stop := by
  by_cases hlt : cursor < stop
  · rw [if_pos hlt, List.flatMap_singleton]
  · have heq : cursor = stop := by omega
    rw [if_neg hlt, heq, slice_self]
    rfl

/-- The slices between the spans of our chunks are the other chunks and the tail. -/
theorem flatMap_keptSpansFrom {cursor start : Nat}
    (hdrop : bytes.drop start = chunks.flatten ++ tail) (hstart : start ≤ bytes.length)
    (hcursor : cursor ≤ start) :
    ((keptSpansFrom bytes.length cursor ((candidatesFrom start chunks).map Prod.fst)).flatMap
        fun kept => slice bytes kept.start kept.stop) =
      slice bytes cursor start ++ ((chunks.filter fun c => ¬ IsOurs c).flatten ++ tail) := by
  -- The cursor stands at the end of the last removed span, `start` at the next chunk.
  induction chunks generalizing cursor start with
  | nil =>
      have htail : tail = slice bytes start bytes.length := by
        rw [slice_to_end, hdrop]
        rfl
      have hall : slice bytes cursor start ++ tail = slice bytes cursor bytes.length := by
        rw [htail, slice_append_slice bytes hcursor hstart]
      show (keptSpansFrom bytes.length cursor []).flatMap _ = slice bytes cursor start ++ tail
      rw [hall, keptSpansFrom, flatMap_gap bytes (Nat.le_trans hcursor hstart)]
  | cons chunk chunks ih =>
      rw [List.flatten_cons, List.append_assoc] at hdrop
      have hnext := drop_chunk hdrop
      have hbound := le_length_of_drop hstart hdrop
      have hchunk := slice_chunk hdrop
      cases howner : chunkOwner chunk with
      | none =>
          have hkeep := chunkOwner_eq_none_iff.mp howner
          have hrun := ih hnext hbound (Nat.le_trans hcursor (Nat.le_add_right start _))
          rw [candidatesFrom, howner]
          rw [List.filter_cons_of_pos (by simpa using hkeep), List.flatten_cons,
            List.append_assoc, ← List.append_assoc (slice bytes cursor start),
            ← hchunk, slice_append_slice bytes hcursor (Nat.le_add_right start _), hchunk]
          exact hrun
      | some owner =>
          have hremove : IsOurs chunk := by
            by_contra hnot
            rw [chunkOwner_eq_none_iff.mpr hnot] at howner
            cases howner
          have hrun := ih hnext hbound (Nat.le_refl _)
          rw [slice_self, List.nil_append] at hrun
          rw [candidatesFrom, howner, List.filter_cons_of_neg (by simpa using hremove), ← hrun,
            ← flatMap_gap bytes hcursor, ← List.flatMap_append]
          rfl

/-- The file is the signature, these chunks by declared length, and a tail that starts
with no whole chunk. -/
structure Walks (bytes : Bytes) (chunks : List Bytes) (tail : Bytes) : Prop where
  signed : pngSignature <+: bytes
  split : chunkFramer.Splits (bytes.drop pngSignature.length) chunks tail

theorem signed_iff {bytes : Bytes} :
    (decide (bytes.length < pngSignature.length) ||
      decide (slice bytes 0 pngSignature.length ≠ pngSignature)) = false ↔
        pngSignature <+: bytes := by
  rw [Bool.or_eq_false_iff, decide_eq_false_iff_not, decide_eq_false_iff_not, not_not, slice,
    Nat.sub_zero, List.drop_zero, List.prefix_iff_eq_take]
  constructor
  · intro h
    exact h.2.symm
  · intro h
    refine ⟨?_, h.symm⟩
    have hlen := congrArg List.length h
    rw [List.length_take] at hlen
    omega

theorem Walks.bytes_eq (h : Walks bytes chunks tail) :
    bytes = pngSignature ++ (chunks.flatten ++ tail) := by
  obtain ⟨body, rfl⟩ := h.signed
  rw [h.split.join, List.drop_left]

theorem walks_append (h : chunkFramer.Splits bytes chunks tail) :
    Walks (pngSignature ++ bytes) chunks tail :=
  ⟨List.prefix_append _ _, by rwa [List.drop_left]⟩

theorem Walks.spans_ok_iff (h : Walks bytes chunks tail) {spans : List Span} :
    workflowChunkSpans bytes = .ok spans ↔
      chunks.any isIend = true ∧ hiddenKeyword tail (hasEnvelope chunks) = none ∧
        spans = resolveSpans (candidatesFrom pngSignature.length chunks) := by
  have hwalk : walkChunks bytes pngSignature.length false [] = .ok spans ↔ _ :=
    walkChunks_ok_iff h.split
  rw [Bool.false_or, List.nil_append, carriesEnvelope_candidatesFrom] at hwalk
  rw [workflowChunkSpans, signed_iff.mpr h.signed, if_neg Bool.false_ne_true, hwalk]

/-- What is left of a file when our chunks are taken out. -/
def excise (chunks : List Bytes) (tail : Bytes) : Bytes :=
  pngSignature ++ ((chunks.filter fun c => ¬ IsOurs c).flatten ++ tail)

theorem Walks.excised (h : Walks bytes chunks tail) :
    Walks (excise chunks tail) (chunks.filter fun c => ¬ IsOurs c) tail :=
  walks_append (h.split.filter _)

theorem Walks.kept_eq (h : Walks bytes chunks tail) :
    ((keptSpans bytes.length ((candidatesFrom pngSignature.length chunks).map Prod.fst)).flatMap
      fun kept => slice bytes kept.start kept.stop) = excise chunks tail := by
  have hlen : pngSignature.length ≤ bytes.length := h.signed.length_le
  have hfront : slice bytes 0 pngSignature.length = pngSignature := by
    obtain ⟨body, rfl⟩ := h.signed
    rw [slice, Nat.sub_zero, List.drop_zero, List.take_left]
  rw [keptSpans, flatMap_keptSpansFrom h.split.join.symm hlen (Nat.zero_le _), hfront, excise]

theorem candidatesFrom_ne_nil (cursor : Nat) (h : hasEnvelope chunks = true) :
    candidatesFrom cursor chunks ≠ [] := by
  intro hnil
  rw [← carriesEnvelope_candidatesFrom cursor, hnil] at h
  cases h

theorem strip_of_spans {spans : List Span} (h : workflowChunkSpans bytes = .ok spans) :
    stripWorkflowChunk bytes =
      if spans.isEmpty then .ok none
      else .ok (some ((keptSpans bytes.length spans).flatMap fun kept =>
        slice bytes kept.start kept.stop)) := by
  rw [stripWorkflowChunk, h]
  rfl

theorem strip_ok_spans {result : Option Bytes} (h : stripWorkflowChunk bytes = .ok result) :
    ∃ spans, workflowChunkSpans bytes = .ok spans := by
  obtain ⟨spans, hspans, -⟩ := bind_eq_ok.mp h
  exact ⟨spans, hspans⟩

/-- A strip of a walked file succeeds past the end marker, with nothing of ours in the
tail. With an envelope among the chunks it takes all of ours out; without one there is
nothing to do. -/
theorem Walks.strip_ok_iff (h : Walks bytes chunks tail) {result : Option Bytes} :
    stripWorkflowChunk bytes = .ok result ↔
      chunks.any isIend = true ∧ hiddenKeyword tail (hasEnvelope chunks) = none ∧
        result = if hasEnvelope chunks then some (excise chunks tail) else none := by
  have hresult : chunks.any isIend = true → hiddenKeyword tail (hasEnvelope chunks) = none →
      stripWorkflowChunk bytes =
        .ok (if hasEnvelope chunks then some (excise chunks tail) else none) := by
    intro hiend hhidden
    rw [strip_of_spans (h.spans_ok_iff.mpr ⟨hiend, hhidden, rfl⟩)]
    have hcarries := carriesEnvelope_candidatesFrom pngSignature.length chunks
    cases henvelope : hasEnvelope chunks with
    | false =>
        rw [henvelope] at hcarries
        rw [resolveSpans_of_no_envelope hcarries]
        rfl
    | true =>
        rw [henvelope] at hcarries
        have hne := candidatesFrom_ne_nil pngSignature.length henvelope
        rw [resolveSpans_of_envelope hcarries, h.kept_eq, if_pos rfl, if_neg]
        simpa using hne
  constructor
  · intro hstrip
    obtain ⟨spans, hspans⟩ := strip_ok_spans hstrip
    obtain ⟨hiend, hhidden, -⟩ := h.spans_ok_iff.mp hspans
    rw [hresult hiend hhidden] at hstrip
    exact ⟨hiend, hhidden, (Except.ok.inj hstrip).symm⟩
  · rintro ⟨hiend, hhidden, rfl⟩
    exact hresult hiend hhidden

theorem strip_unsigned (h : ¬ pngSignature <+: bytes) : stripWorkflowChunk bytes = .ok none := by
  have hspans : workflowChunkSpans bytes = .ok [] := by
    rw [← signed_iff, Bool.not_eq_false] at h
    rw [workflowChunkSpans, h, if_pos rfl]
  rw [strip_of_spans hspans]
  rfl

theorem hiddenKeyword_false (h : hiddenKeyword tail true = none) :
    hiddenKeyword tail false = none := by
  unfold hiddenKeyword at h ⊢
  cases hworkflow : contains tail (asBytes workflowChunkKeyword) with
  | true =>
      rw [hworkflow, if_pos rfl] at h
      cases h
  | false => simp

end Excise

section Outcome

variable {bytes tail : Bytes} {chunks : List Bytes}

/-- The chunks a walk by declared length meets. -/
def walkedChunks (bytes : Bytes) : List Bytes :=
  if pngSignature <+: bytes then (chunkFramer.frames (bytes.drop pngSignature.length)).1 else []

/-- The file holds an envelope chunk that can be walked to. -/
def CarriesWorkflow (bytes : Bytes) : Prop := ∃ chunk ∈ walkedChunks bytes, IsEnvelope chunk

/-- `copy` is `bytes` without the ranges of our walked chunks: the other chunks and the
unwalkable tail stay, in order. -/
def Excised (bytes copy : Bytes) : Prop :=
  ∃ tail, bytes = pngSignature ++ ((walkedChunks bytes).flatten ++ tail) ∧
    copy = pngSignature ++ (((walkedChunks bytes).filter fun c => ¬ IsOurs c).flatten ++ tail)

theorem Walks.walkedChunks_eq (h : Walks bytes chunks tail) : walkedChunks bytes = chunks := by
  rw [walkedChunks, if_pos h.signed, h.split.frames_eq]

theorem Walks.excised_excise (h : Walks bytes chunks tail) :
    Excised bytes (excise chunks tail) := by
  refine ⟨tail, ?_, ?_⟩
  · rw [h.walkedChunks_eq]
    exact h.bytes_eq
  · rw [h.walkedChunks_eq, excise]

theorem exists_walks (h : pngSignature <+: bytes) : ∃ chunks tail, Walks bytes chunks tail :=
  ⟨_, _, h, Framer.splits_frames _⟩

theorem hasEnvelope_iff : hasEnvelope chunks = true ↔ ∃ chunk ∈ chunks, IsEnvelope chunk := by
  unfold hasEnvelope
  rw [List.any_eq_true]
  simp only [beq_iff_eq, chunkOwner_eq_envelope_iff]

theorem Walks.carriesWorkflow_iff (h : Walks bytes chunks tail) :
    CarriesWorkflow bytes ↔ hasEnvelope chunks = true := by
  rw [CarriesWorkflow, h.walkedChunks_eq, hasEnvelope_iff]

theorem not_carriesWorkflow_of_unsigned (h : ¬ pngSignature <+: bytes) :
    ¬ CarriesWorkflow bytes := by
  rintro ⟨chunk, hchunk, -⟩
  rw [walkedChunks, if_neg h] at hchunk
  cases hchunk

theorem hasEnvelope_excised (chunks : List Bytes) :
    hasEnvelope (chunks.filter fun c => ¬ IsOurs c) = false := by
  rw [← Bool.not_eq_true, hasEnvelope_iff]
  rintro ⟨chunk, hchunk, henvelope⟩
  have hnot : ¬ IsOurs chunk := by simpa using List.of_mem_filter hchunk
  exact hnot (.inl henvelope)

theorem any_isIend_excised (h : chunks.any isIend = true) :
    (chunks.filter fun c => ¬ IsOurs c).any isIend = true := by
  obtain ⟨chunk, hchunk, hiend⟩ := List.any_eq_true.mp h
  refine List.any_eq_true.mpr ⟨chunk, List.mem_filter.mpr ⟨hchunk, ?_⟩, hiend⟩
  simpa using not_isOurs_of_isIend hiend

theorem strip_some {copy : Bytes} (h : stripWorkflowChunk bytes = .ok (some copy)) :
    Excised bytes copy ∧ ¬ CarriesWorkflow copy ∧ stripWorkflowChunk copy = .ok none := by
  have hsigned : pngSignature <+: bytes := by
    by_contra hnot
    rw [strip_unsigned hnot] at h
    cases h
  obtain ⟨chunks, tail, hwalks⟩ := exists_walks hsigned
  obtain ⟨hiend, hhidden, hcopy⟩ := hwalks.strip_ok_iff.mp h
  cases henvelope : hasEnvelope chunks with
  | false =>
      rw [henvelope, if_neg Bool.false_ne_true] at hcopy
      cases hcopy
  | true =>
      rw [henvelope, if_pos rfl] at hcopy
      cases hcopy
      rw [henvelope] at hhidden
      have hclean := hasEnvelope_excised chunks
      refine ⟨hwalks.excised_excise, ?_, ?_⟩
      · rw [hwalks.excised.carriesWorkflow_iff, hclean]
        exact Bool.false_ne_true
      · refine hwalks.excised.strip_ok_iff.mpr ⟨any_isIend_excised hiend, ?_, ?_⟩
        · rw [hclean]
          exact hiddenKeyword_false hhidden
        · rw [hclean]
          rfl

theorem strip_none (h : stripWorkflowChunk bytes = .ok none) : ¬ CarriesWorkflow bytes := by
  by_cases hsigned : pngSignature <+: bytes
  · obtain ⟨chunks, tail, hwalks⟩ := exists_walks hsigned
    obtain ⟨-, -, hresult⟩ := hwalks.strip_ok_iff.mp h
    rw [hwalks.carriesWorkflow_iff]
    intro henvelope
    rw [henvelope, if_pos rfl] at hresult
    cases hresult
  · exact not_carriesWorkflow_of_unsigned hsigned

theorem copy_not_carriesWorkflow {report : Bool} {copy : Bytes}
    (h : copyWithoutWorkflowChunk bytes = .ok (report, copy)) : ¬ CarriesWorkflow copy := by
  obtain ⟨result, hstrip, hcopy⟩ := bind_eq_ok.mp h
  cases result with
  | none =>
      cases hcopy
      exact strip_none hstrip
  | some stripped =>
      cases hcopy
      exact (strip_some hstrip).2.1

end Outcome

section Written

variable {haystack needle rest ihdr envelope parameters : Bytes}

theorem contains_iff : contains haystack needle = true ↔ needle <:+: haystack := by
  unfold contains windows
  rw [Bool.and_eq_true, decide_eq_true_iff, List.any_map, List.any_eq_true]
  constructor
  · rintro ⟨-, i, -, hi⟩
    have hslice : (haystack.drop i).take (i + needle.length - i) = needle := beq_iff_eq.mp hi
    rw [← hslice]
    exact (List.take_prefix _ _).isInfix.trans (List.drop_suffix _ _).isInfix
  · rintro ⟨front, back, rfl⟩
    have hlen : (front ++ needle ++ back).length =
        front.length + needle.length + back.length := by
      rw [List.length_append, List.length_append]
    refine ⟨by omega, front.length, List.mem_range.mpr (by omega), beq_iff_eq.mpr ?_⟩
    show slice (front ++ needle ++ back) front.length (front.length + needle.length) = needle
    rw [List.append_assoc, slice, List.drop_left, Nat.add_sub_cancel_left, List.take_left]

/-- What follows our two chunks in a file we wrote: chunks up to the end marker, and
neither keyword in any of it. -/
structure FreeOfOurs (rest : Bytes) : Prop where
  iend : ∃ chunk ∈ (chunkFramer.frames rest).1, isIend chunk = true
  chunks : ∀ chunk ∈ (chunkFramer.frames rest).1, ¬ IsOurs chunk
  tailWorkflow : ¬ asBytes workflowChunkKeyword <:+: (chunkFramer.frames rest).2
  tailParameters : ¬ (asBytes parametersChunkKeyword ++ [0]) <:+: (chunkFramer.frames rest).2

theorem FreeOfOurs.hiddenKeyword_eq (h : FreeOfOurs rest) (ours : Bool) :
    hiddenKeyword (chunkFramer.frames rest).2 ours = none := by
  have hworkflow := mt contains_iff.mp h.tailWorkflow
  have hparameters := mt contains_iff.mp h.tailParameters
  unfold hiddenKeyword
  rw [if_neg hworkflow]
  simp [hparameters]

/-- The header, our two chunks and a rest of other chunks: the strip is an exact undo. -/
theorem strip_written (hihdr : chunkFramer.IsFrame ihdr) (hkind : chunkKind ihdr = asBytes "IHDR")
    (henvelope : chunkFramer.IsFrame envelope) (henvelope' : IsEnvelope envelope)
    (hparameters : chunkFramer.IsFrame parameters) (hparameters' : IsParameters parameters)
    (hrest : FreeOfOurs rest) :
    stripWorkflowChunk (pngSignature ++ (ihdr ++ (envelope ++ (parameters ++ rest)))) =
      .ok (some (pngSignature ++ (ihdr ++ rest))) := by
  have hsplit : chunkFramer.Splits rest _ _ := Framer.splits_frames rest
  have hours : IsOurs envelope := .inl henvelope'
  have hours' : IsOurs parameters := .inr hparameters'
  have hwalks := walks_append (((hsplit.cons hparameters).cons henvelope).cons hihdr)
  have hheader : ¬ IsOurs ihdr := by
    intro hheader
    exact ihdr_not_text (hkind ▸ hheader.text)
  have hkept : (chunkFramer.frames rest).1.filter (fun c => ¬ IsOurs c) =
      (chunkFramer.frames rest).1 := by
    rw [List.filter_eq_self]
    intro chunk hchunk
    simpa using hrest.chunks chunk hchunk
  obtain ⟨iend, hmem, hiend⟩ := hrest.iend
  have henvelopes : hasEnvelope (ihdr :: envelope :: parameters :: (chunkFramer.frames rest).1) =
      true :=
    hasEnvelope_iff.mpr ⟨envelope, by simp, henvelope'⟩
  refine hwalks.strip_ok_iff.mpr ⟨?_, hrest.hiddenKeyword_eq _, ?_⟩
  · exact List.any_eq_true.mpr ⟨iend, by simp [hmem], hiend⟩
  · rw [henvelopes, if_pos rfl, excise, List.filter_cons_of_pos (by simpa using hheader),
      List.filter_cons_of_neg (by simpa using hours),
      List.filter_cons_of_neg (by simpa using hours'), hkept, List.flatten_cons,
      List.append_assoc, hsplit.join]

end Written

section Reader

/-- The code points of a Latin-1 keyword. -/
def latin1 (bytes : Bytes) : String :=
  String.ofList (bytes.map fun byte => Char.ofNat byte.toNat)

theorem toNat_byteChar (byte : UInt8) : (Char.ofNat byte.toNat).toNat = byte.toNat := by
  have hvalid : byte.toNat.isValidChar := .inl (Nat.lt_trans byte.toNat_lt (by decide))
  rw [Char.ofNat, dif_pos hvalid]
  rfl

theorem latin1_injective {a b : Bytes} (h : latin1 a = latin1 b) : a = b := by
  have hbyte : Function.Injective fun byte : UInt8 => Char.ofNat byte.toNat := by
    intro x y hxy
    have hnat := congrArg Char.toNat hxy
    rw [toNat_byteChar, toNat_byteChar] at hnat
    exact UInt8.toNat_inj.mp hnat
  exact List.map_injective_iff.mpr hbyte (String.ofList_injective h)

theorem latin1_workflowChunkKeyword :
    latin1 (asBytes workflowChunkKeyword) = workflowChunkKeyword := by
  decide +kernel

/-- The chunks met by declared length before the first end marker. -/
def visitedChunks (bytes : Bytes) : List Bytes :=
  (walkedChunks bytes).takeWhile fun chunk => !isIend chunk

variable (decoder : PngDecoder) (parser : ShareParser)

/-- The collected text was read from an international text chunk among the visited. -/
def ReadFrom (bytes : Bytes) (text : decoder.ITXtChunk) : Prop :=
  ∃ chunk ∈ visitedChunks bytes, chunkKind chunk = asBytes "iTXt" ∧
    decoder.keyword text = latin1 (chunkKeyword chunk)

/-- What the code relies on: the library steps through a file chunk by chunk, by the
length each declares, and no further than the first end marker. -/
structure VisitsByDeclaredLength : Prop where
  readInfo : ∀ bytes limit ignoreIccp reader,
    decoder.readInfo bytes limit ignoreIccp = .ok reader →
    ∀ text ∈ decoder.utf8Text reader, ReadFrom decoder bytes text
  finish : ∀ bytes limit ignoreIccp reader finished,
    decoder.readInfo bytes limit ignoreIccp = .ok reader → decoder.finish reader = .ok finished →
    ∀ text ∈ decoder.utf8Text finished, ReadFrom decoder bytes text

variable {decoder parser} {bytes : Bytes}

theorem selectWorkflowChunk_some {reader : decoder.Reader} {text : decoder.ITXtChunk}
    (h : selectWorkflowChunk decoder reader = .ok (some text)) :
    text ∈ decoder.utf8Text reader ∧ decoder.keyword text = workflowChunkKeyword := by
  unfold selectWorkflowChunk at h
  split at h
  · cases h
  · next only hmatching =>
      cases h
      have hmem : text ∈ (decoder.utf8Text reader).filter
          fun chunk => decoder.keyword chunk = workflowChunkKeyword := by
        rw [hmatching]
        exact List.mem_singleton_self text
      exact ⟨List.mem_of_mem_filter hmem, by simpa using List.of_mem_filter hmem⟩
  · cases h

/-- Either pass picks a chunk of our keyword out of what the decoder collected. -/
theorem findWorkflowChunk_some {reader : decoder.Reader} {text : decoder.ITXtChunk}
    (h : findWorkflowChunk decoder reader = .ok (some text)) :
    decoder.keyword text = workflowChunkKeyword ∧ (text ∈ decoder.utf8Text reader ∨
      ∃ finished, decoder.finish reader = .ok finished ∧ text ∈ decoder.utf8Text finished) := by
  obtain ⟨found, hfirst, hrest⟩ := bind_eq_ok.mp h
  cases found with
  | some chunk =>
      cases hrest
      obtain ⟨hmem, hkeyword⟩ := selectWorkflowChunk_some hfirst
      exact ⟨hkeyword, .inl hmem⟩
  | none =>
      have hsecond : workflowChunkAfterImageData decoder reader = .ok (some text) := hrest
      unfold workflowChunkAfterImageData at hsecond
      split at hsecond
      · cases hsecond
      · next finished hfinish =>
          obtain ⟨hmem, hkeyword⟩ := selectWorkflowChunk_some hsecond
          exact ⟨hkeyword, .inr ⟨finished, hfinish, hmem⟩⟩

theorem openReader_ok {reader : decoder.Reader} (h : openReader decoder bytes = .ok reader) :
    decoder.readInfo bytes maxMetadataBytes true = .ok reader := by
  unfold openReader at h
  cases hread : decoder.readInfo bytes maxMetadataBytes true with
  | error e =>
      rw [hread] at h
      cases h
  | ok reader' =>
      rw [hread] at h
      cases h
      rfl

theorem readWorkflowChunk_some {share : parser.WorkflowShare}
    (h : readWorkflowChunk decoder parser bytes = .ok (some share)) :
    ∃ reader text, openReader decoder bytes = .ok reader ∧
      findWorkflowChunk decoder reader = .ok (some text) := by
  unfold readWorkflowChunk at h
  split at h
  · cases h
  · obtain ⟨reader, hopen, hrest⟩ := bind_eq_ok.mp h
    obtain ⟨found, hfind, hshare⟩ := bind_eq_ok.mp hrest
    cases found with
    | none => cases hshare
    | some text => exact ⟨reader, text, hopen, hfind⟩

theorem carriesWorkflow_of_readFrom {text : decoder.ITXtChunk} (h : ReadFrom decoder bytes text)
    (hkeyword : decoder.keyword text = workflowChunkKeyword) : CarriesWorkflow bytes := by
  obtain ⟨chunk, hvisited, hkind, hlatin⟩ := h
  have hbytes : chunkKeyword chunk = asBytes workflowChunkKeyword := by
    apply latin1_injective
    rw [← hlatin, hkeyword, latin1_workflowChunkKeyword]
  refine ⟨chunk, (List.takeWhile_sublist _).subset hvisited, ?_, hbytes⟩
  rw [hkind, textChunkTypes]
  exact List.mem_cons_self

/-- The reader returns a workflow only from a file that carries one. -/
theorem carriesWorkflow_of_read (hvisits : VisitsByDeclaredLength decoder)
    {share : parser.WorkflowShare}
    (h : readWorkflowChunk decoder parser bytes = .ok (some share)) : CarriesWorkflow bytes := by
  obtain ⟨reader, text, hopen, hfind⟩ := readWorkflowChunk_some h
  have hread := openReader_ok hopen
  obtain ⟨hkeyword, hfirst | ⟨finished, hfinish, hsecond⟩⟩ := findWorkflowChunk_some hfind
  · exact carriesWorkflow_of_readFrom (hvisits.readInfo _ _ _ _ hread text hfirst) hkeyword
  · exact carriesWorkflow_of_readFrom
      (hvisits.finish _ _ _ _ _ hread hfinish text hsecond) hkeyword

end Reader

/-- Stripping is an exact, idempotent excision that the reader cannot see past. -/
theorem strip_is_exact_excision (decoder : PngDecoder) (parser : ShareParser)
    (hvisits : VisitsByDeclaredLength decoder) (bytes : Bytes) :
    (∀ copy, stripWorkflowChunk bytes = .ok (some copy) →
      Excised bytes copy ∧ ¬ CarriesWorkflow copy ∧ stripWorkflowChunk copy = .ok none) ∧
    (stripWorkflowChunk bytes = .ok none → ¬ CarriesWorkflow bytes) ∧
    (∀ ihdr envelope parameters rest, chunkFramer.IsFrame ihdr →
      chunkKind ihdr = asBytes "IHDR" → chunkFramer.IsFrame envelope → IsEnvelope envelope →
      chunkFramer.IsFrame parameters → IsParameters parameters → FreeOfOurs rest →
      bytes = pngSignature ++ (ihdr ++ (envelope ++ (parameters ++ rest))) →
      stripWorkflowChunk bytes = .ok (some (pngSignature ++ (ihdr ++ rest)))) ∧
    (∀ report copy, copyWithoutWorkflowChunk bytes = .ok (report, copy) →
      ∀ share, readWorkflowChunk decoder parser copy ≠ .ok (some share)) := by
  refine ⟨fun copy h => strip_some h, strip_none, ?_, ?_⟩
  · rintro ihdr envelope parameters rest hihdr hkind henv henv' hpar hpar' hrest rfl
    exact strip_written hihdr hkind henv henv' hpar hpar' hrest
  · intro report copy hcopy share hread
    exact copy_not_carriesWorkflow hcopy (carriesWorkflow_of_read hvisits hread)

section Instance

def isKind (kind : String) (chunk : Bytes) : Bool := chunkKind chunk == asBytes kind

/-- A decoder that collects the international text chunks it steps over. -/
def walkingDecoder : PngDecoder where
  Reader := Bytes × List Bytes
  ITXtChunk := Bytes
  readInfo bytes _ _ :=
    if (visitedChunks bytes).any (isKind "IDAT") then
      .ok (bytes, ((visitedChunks bytes).takeWhile fun c => !isKind "IDAT" c).filter
        (isKind "iTXt"))
    else .error (.other "unexpected end of file")
  finish reader :=
    if (walkedChunks reader.1).any isIend then
      .ok (reader.1, (visitedChunks reader.1).filter (isKind "iTXt"))
    else .error (.other "unexpected end of file")
  utf8Text := Prod.snd
  keyword chunk := latin1 (chunkKeyword chunk)
  decompressTextWithLimit chunk _ := .ok chunk
  -- Keyword, compression flag and method, language tag, translated keyword, text.
  getText chunk :=
    .ok (latin1 (((((chunkData chunk).dropWhile (· ≠ 0)).drop 3).dropWhile (· ≠ 0)).drop 2))

theorem walkingDecoder_visits : VisitsByDeclaredLength walkingDecoder where
  readInfo := by
    intro bytes limit ignoreIccp reader h text hmem
    simp only [walkingDecoder] at h
    split at h
    · cases h
      have hvisited := (List.takeWhile_sublist _).subset (List.mem_of_mem_filter hmem)
      have hkind : isKind "iTXt" text = true := List.of_mem_filter hmem
      exact ⟨text, hvisited, beq_iff_eq.mp hkind, rfl⟩
    · cases h
  finish := by
    intro bytes limit ignoreIccp reader finished hread h text hmem
    simp only [walkingDecoder] at hread h
    split at hread
    · cases hread
      split at h
      · cases h
        have hkind : isKind "iTXt" text = true := List.of_mem_filter hmem
        exact ⟨text, List.mem_of_mem_filter hmem, beq_iff_eq.mp hkind, rfl⟩
      · cases h
    · cases hread

def textParser : ShareParser where
  WorkflowShare := String
  kind _ := workflowKindImage
  parseWorkflowShareJson := .ok

instance : DecidableEq textParser.WorkflowShare := inferInstanceAs (DecidableEq String)

def framed (kind : String) (data crc : Bytes) : Bytes :=
  [0, 0, 0, UInt8.ofNat data.length] ++ asBytes kind ++ data ++ crc

/-- The chunks of a one-pixel image, and a note appended to it. -/
def pixelHeader : Bytes :=
  framed "IHDR" [0, 0, 0, 1, 0, 0, 0, 1, 8, 2, 0, 0, 0] [0x90, 0x77, 0x53, 0xDE]

def pixelRest : Bytes :=
  framed "IDAT" [0x78, 0x9C, 0x63, 0x10, 0x50, 0x30, 0, 0, 0, 0xA4, 0, 0x61]
    [0x34, 0x66, 0x7D, 0x72] ++
  framed "IEND" [] [0xAE, 0x42, 0x60, 0x82] ++ asBytes "parameters of the shoot"

def pixelEnvelope : Bytes :=
  framed "iTXt" (asBytes workflowChunkKeyword ++ [0, 0, 0, 0, 0] ++ asBytes "\x7b\x7d")
    [0xB8, 0x81, 0x66, 0xC3]

def pixelParameters : Bytes :=
  framed "tEXt" (asBytes parametersChunkKeyword ++ [0] ++ asBytes "a lighthouse")
    [0x88, 0x6B, 0xB5, 0xC4]

def pixelPng : Bytes := pngSignature ++ (pixelHeader ++ pixelRest)

def sharedPixelPng : Bytes :=
  pngSignature ++ (pixelHeader ++ (pixelEnvelope ++ (pixelParameters ++ pixelRest)))

theorem shared_pixel_strips_clean :
    readWorkflowChunk walkingDecoder textParser sharedPixelPng = .ok (some "\x7b\x7d") ∧
      stripWorkflowChunk sharedPixelPng = .ok (some pixelPng) ∧
      Excised sharedPixelPng pixelPng ∧ stripWorkflowChunk pixelPng = .ok none ∧
      ∀ share, readWorkflowChunk walkingDecoder textParser pixelPng ≠ .ok (some share) := by
  obtain ⟨hsome, -, -, hreader⟩ :=
    strip_is_exact_excision walkingDecoder textParser walkingDecoder_visits sharedPixelPng
  have hstrip : stripWorkflowChunk sharedPixelPng = .ok (some pixelPng) := by
    decide +kernel
  have hcopy : copyWithoutWorkflowChunk sharedPixelPng = .ok (true, pixelPng) := by
    decide +kernel
  exact ⟨by decide +kernel, hstrip, (hsome _ hstrip).1, (hsome _ hstrip).2.2, hreader _ _ hcopy⟩

end Instance

end SceneWorks.WorkflowPng
