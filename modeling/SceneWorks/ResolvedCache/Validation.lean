import SceneWorks.ResolvedCache.Accounting

/-!
The full validation of a complete entry. A content pass leaves a receipt of its verdict
beside the journal, and a receipt that still stands spares the next pass the bytes. The
validation touches no other file, and a document that passed passes again after it was
pinned (`Steady`).
-/

namespace SceneWorks.ResolvedCache

variable {World Artifact : Type}

def contentReceiptFile : String := "content.verification.json"

/-- What the validation asks of the artifact and of the present files. -/
structure BundleChecks (World Artifact : Type) extends CacheChecks World Artifact where
  -- The location is the local root at the bundle of this digest.
  atLocalRoot : Artifact → String → Bool
  -- `validate_completion_confinement`.
  confined : World → String → Artifact → Bool
  -- `checked_artifact_bytes`.
  artifactBytes : Artifact → Option Nat
  -- The recorded verdict is of this key, of the closure as it stands, and has not expired.
  receiptStands : World → Option (Node Artifact) → String → Artifact → Bool
  -- The verdict of a content pass; none when the closure cannot be measured as a whole.
  contentReceipt : World → String → Artifact → Option (Node Artifact)

section Complete

variable (checks : BundleChecks World Artifact)

def validateCompleteMetadataInner (world : World) (metadata : ResolvedCacheMetadata Artifact)
    (verification : ContentVerification) : Bool :=
  match cacheKeyDigest metadata.cacheKey with
  | none => false
  | some digest =>
      validateMetadataShapeWith checks.toCacheChecks world metadata digest .pathsAndSizesOnly &&
        metadata.state = .complete && metadata.reservationId.isNone &&
        metadata.reservationOwner.isNone && metadata.sessionId.isNone &&
        checks.atLocalRoot metadata.artifact digest &&
        checks.confined world digest metadata.artifact &&
        checks.validate world verification metadata.artifact &&
        checks.cacheKey metadata.artifact = some metadata.cacheKey &&
        checks.artifactBytes metadata.artifact = some metadata.verifiedBytes

def validateCompleteMetadata (world : World) (children : Children Artifact)
    (metadata : ResolvedCacheMetadata Artifact) : Option (Children Artifact) :=
  if checks.receiptStands world (children.child contentReceiptFile) metadata.cacheKey
      metadata.artifact then
    if validateCompleteMetadataInner checks world metadata .pathsAndSizesOnly then some children
    else none
  -- The old verdict is retracted before the bytes are read.
  else if validateCompleteMetadataInner checks world metadata .rehashEveryFile then
    match checks.contentReceipt world metadata.cacheKey metadata.artifact with
    | some receipt =>
        some ((children.removeChild contentReceiptFile).writeChild contentReceiptFile receipt)
    | none => some (children.removeChild contentReceiptFile)
  else none

def storeChecks : RecoveryChecks World Artifact :=
  { checks.toCacheChecks with
    completeShape := fun world _ metadata =>
      validateCompleteMetadataInner checks world metadata .pathsAndSizesOnly
    completeContent := validateCompleteMetadata checks }

end Complete

section Documents

variable {checks : CacheChecks World Artifact} {world : World} {digest : String}
  {metadata : ResolvedCacheMetadata Artifact} {verification : ContentVerification}

theorem shape_pinRecovered (status : RecoveryStatus) (now : Nat)
    (h : validateMetadataShapeWith checks world metadata digest verification = true) :
    validateMetadataShapeWith checks world
      { metadata.pinRecovered status with updatedAt := now } digest verification = true := by
  simp only [validateMetadataShapeWith, Bool.and_eq_true, decide_eq_true_eq] at h ⊢
  obtain ⟨⟨⟨⟨⟨⟨hfront, -⟩, hreservation⟩, hid⟩, hsession⟩, howner⟩, howners⟩ := h
  exact ⟨⟨⟨⟨⟨⟨hfront, rfl⟩, hreservation⟩, hid⟩, hsession⟩, howner⟩, howners⟩

theorem shape_interrupt (now : Nat) (hstate : metadata.state = .materializing)
    (h : validateMetadataShapeWith checks world metadata digest verification = true) :
    validateMetadataShapeWith checks world
      { metadata.interrupt with updatedAt := now } digest verification = true := by
  have hartifact : artifactShape checks world verification
      { metadata.interrupt with updatedAt := now } =
        artifactShape checks world verification metadata := by
    have hpending : ResolvedCacheMetadata.isPendingDerivative
        { metadata.interrupt with updatedAt := now } = metadata.isPendingDerivative := by
      rw [ResolvedCacheMetadata.isPendingDerivative, ResolvedCacheMetadata.isPendingDerivative,
        hstate]
      rfl
    rw [artifactShape, artifactShape, hpending]
    rfl
  simp only [validateMetadataShapeWith, Bool.and_eq_true, decide_eq_true_eq, hartifact] at h ⊢
  obtain ⟨⟨⟨⟨⟨⟨⟨⟨⟨⟨⟨⟨hkey, hshape⟩, hversion⟩, -⟩, hdigest⟩, hentry⟩, hbundle⟩,
    hpin⟩, -⟩, -⟩, -⟩, -⟩, howners⟩ := h
  have hinterrupted : ResolvedCacheEntryState.interrupted ≠ .evicting := by decide
  exact ⟨⟨⟨⟨⟨⟨⟨⟨⟨⟨⟨⟨hkey, hshape⟩, hversion⟩, hinterrupted⟩, hdigest⟩, hentry⟩, hbundle⟩, hpin⟩,
    rfl⟩, rfl⟩, rfl⟩, rfl⟩, howners⟩

end Documents

/-- What recovery relies on in the validation of a complete entry. -/
structure Steady (checks : RecoveryChecks World Artifact) : Prop where
  shape_marked : ∀ world children metadata node,
    checks.completeShape world (children.writeChild corruptMarkerFile node) metadata =
      checks.completeShape world children metadata
  content_marked : ∀ world children metadata node,
    checks.completeContent world children metadata = none →
      checks.completeContent world (children.writeChild corruptMarkerFile node) metadata = none
  frame : ∀ world children metadata left,
    checks.completeContent world children metadata = some left →
      ∀ name, name ≠ contentReceiptFile → left.child name = children.child name
  again : ∀ world children metadata left,
    checks.completeContent world children metadata = some left →
      ∀ (present : Children Artifact) (status : RecoveryStatus) (now : Nat),
        present.child contentReceiptFile = left.child contentReceiptFile →
          checks.completeShape world present
              { metadata.pinRecovered status with updatedAt := now } = true ∧
            ∃ found, checks.completeContent world present
              { metadata.pinRecovered status with updatedAt := now } = some found

section Store

variable {checks : BundleChecks World Artifact} {world : World}
  {metadata : ResolvedCacheMetadata Artifact} {verification : ContentVerification}

theorem inner_pinRecovered (status : RecoveryStatus) (now : Nat)
    (h : validateCompleteMetadataInner checks world metadata verification = true) :
    validateCompleteMetadataInner checks world
      { metadata.pinRecovered status with updatedAt := now } verification = true := by
  rw [validateCompleteMetadataInner] at h ⊢
  cases hdigest : cacheKeyDigest metadata.cacheKey with
  | none =>
      rw [hdigest] at h
      cases h
  | some digest =>
      have hsame : cacheKeyDigest
          { metadata.pinRecovered status with updatedAt := now }.cacheKey = some digest := hdigest
      rw [hdigest] at h
      rw [hsame]
      simp only [Bool.and_eq_true] at h ⊢
      obtain ⟨⟨⟨⟨⟨⟨⟨⟨⟨hshape, hstate⟩, hid⟩, howner⟩, hsession⟩, hroot⟩, hconfined⟩, hvalid⟩, hkey⟩,
        hbytes⟩ := h
      exact ⟨⟨⟨⟨⟨⟨⟨⟨⟨shape_pinRecovered status now hshape, hstate⟩, hid⟩, howner⟩, hsession⟩,
        hroot⟩, hconfined⟩, hvalid⟩, hkey⟩, hbytes⟩

/-- The shape check of a complete document looks at paths and sizes already. -/
theorem inner_of_rehash
    (h : validateCompleteMetadataInner checks world metadata .rehashEveryFile = true) :
    validateCompleteMetadataInner checks world metadata .pathsAndSizesOnly = true := by
  rw [validateCompleteMetadataInner] at h ⊢
  cases hdigest : cacheKeyDigest metadata.cacheKey with
  | none =>
      rw [hdigest] at h
      cases h
  | some digest =>
      rw [hdigest] at h
      simp only [Bool.and_eq_true, decide_eq_true_eq] at h ⊢
      obtain ⟨⟨⟨⟨⟨⟨⟨⟨⟨hshape, hstate⟩, hid⟩, howner⟩, hsession⟩, hroot⟩, hconfined⟩, -⟩, hkey⟩,
        hbytes⟩ := h
      have hvalid : checks.validate world .pathsAndSizesOnly metadata.artifact = true := by
        simp only [validateMetadataShapeWith, Bool.and_eq_true, artifactShape,
          ResolvedCacheMetadata.isPendingDerivative, hstate] at hshape
        simpa using hshape.1.1.1.1.1.1.1.1.1.1.1.2
      exact ⟨⟨⟨⟨⟨⟨⟨⟨⟨hshape, hstate⟩, hid⟩, howner⟩, hsession⟩, hroot⟩, hconfined⟩, hvalid⟩, hkey⟩,
        hbytes⟩

theorem contentReceiptFile_ne_marker : corruptMarkerFile ≠ contentReceiptFile := by decide

theorem child_contentReceipt_marked (children : Children Artifact) (node : Node Artifact) :
    (children.writeChild corruptMarkerFile node).child contentReceiptFile =
      children.child contentReceiptFile := by
  rw [Children.child_writeChild, if_neg contentReceiptFile_ne_marker]

/-- A verdict is refused for the document and the present files alone. -/
theorem validateCompleteMetadata_eq_none {children : Children Artifact} :
    validateCompleteMetadata checks world children metadata = none ↔
      validateCompleteMetadataInner checks world metadata
        (if checks.receiptStands world (children.child contentReceiptFile) metadata.cacheKey
          metadata.artifact then .pathsAndSizesOnly else .rehashEveryFile) = false := by
  rw [validateCompleteMetadata]
  by_cases hstands : checks.receiptStands world (children.child contentReceiptFile)
      metadata.cacheKey metadata.artifact = true
  · rw [if_pos hstands, if_pos hstands]
    cases validateCompleteMetadataInner checks world metadata .pathsAndSizesOnly <;> simp
  · rw [if_neg hstands, if_neg hstands]
    cases hinner : validateCompleteMetadataInner checks world metadata .rehashEveryFile with
    | false => simp
    | true =>
        cases checks.contentReceipt world metadata.cacheKey metadata.artifact <;> simp

theorem validateCompleteMetadata_frame {children left : Children Artifact}
    (h : validateCompleteMetadata checks world children metadata = some left) {name : String}
    (hname : name ≠ contentReceiptFile) : left.child name = children.child name := by
  rw [validateCompleteMetadata] at h
  split at h
  · split at h
    · rw [Option.some.inj h]
    · cases h
  · split at h
    · split at h
      · rw [← Option.some.inj h, Children.child_writeChild, if_neg hname.symm,
          Children.child_removeChild, if_neg hname.symm]
      · rw [← Option.some.inj h, Children.child_removeChild, if_neg hname.symm]
    · cases h

/-- A document that passed passes again once it is pinned: by the same verdict, or because the
bytes are read again. -/
theorem validateCompleteMetadata_again {children left : Children Artifact}
    (h : validateCompleteMetadata checks world children metadata = some left)
    (present : Children Artifact) (status : RecoveryStatus) (now : Nat)
    (hpresent : present.child contentReceiptFile = left.child contentReceiptFile) :
    validateCompleteMetadataInner checks world
        { metadata.pinRecovered status with updatedAt := now } .pathsAndSizesOnly = true ∧
      ∃ found, validateCompleteMetadata checks world present
        { metadata.pinRecovered status with updatedAt := now } = some found := by
  have hinner : validateCompleteMetadataInner checks world metadata .pathsAndSizesOnly = true ∧
      (checks.receiptStands world (present.child contentReceiptFile) metadata.cacheKey
          metadata.artifact = false →
        validateCompleteMetadataInner checks world metadata .rehashEveryFile = true) := by
    rw [validateCompleteMetadata] at h
    split at h
    · next hstands =>
        split at h
        · next hinner =>
            obtain rfl := Option.some.inj h
            rw [hpresent, hstands]
            exact ⟨hinner, nofun⟩
        · cases h
    · split at h
      · next hinner => exact ⟨inner_of_rehash hinner, fun _ => hinner⟩
      · cases h
  refine ⟨inner_pinRecovered status now hinner.1, Option.ne_none_iff_exists'.mp ?_⟩
  rw [Ne, validateCompleteMetadata_eq_none, Bool.not_eq_false]
  apply inner_pinRecovered
  split
  · exact hinner.1
  · next hstands => exact hinner.2 (Bool.not_eq_true _ ▸ hstands)

theorem steady_storeChecks (checks : BundleChecks World Artifact) :
    Steady (storeChecks checks) where
  shape_marked _ _ _ _ := rfl
  content_marked world children metadata node h := by
    have hnone := validateCompleteMetadata_eq_none.mp h
    apply validateCompleteMetadata_eq_none.mpr
    rw [child_contentReceipt_marked]
    exact hnone
  frame _ _ _ _ h _ hname := validateCompleteMetadata_frame h hname
  again _ _ _ _ h present status now hpresent :=
    validateCompleteMetadata_again h present status now hpresent

end Store

end SceneWorks.ResolvedCache
