import SceneWorks.ResolvedCache.Journal

/-!
Removing an entry, and what a later pass makes of an entry whose removal was interrupted.
`remove_entry_at` unlinks the children of the entry in the order of the directory, the
tombstone among them; the trace holds what is left after each unlink. `recover` and the
retention scan decide from what they find.
-/

namespace SceneWorks.ResolvedCache

variable {World Artifact : Type}

mutual

/-- What is left of a tree after each unlink of its removal. -/
def Node.removeTrace : Node Artifact → List (Option (Node Artifact))
  | .file _ => [none]
  | .dir children => (removeChildrenTrace children).map (fun left => some (.dir left)) ++ [none]

def removeChildrenTrace : List (String × Node Artifact) → List (List (String × Node Artifact))
  | [] => []
  | (name, node) :: rest =>
      node.removeTrace.map (fun
        | some left => (name, left) :: rest
        | none => rest) ++ removeChildrenTrace rest

end

/-- The entry directory before the first unlink and after each one. -/
def evictionStates (children : Children Artifact) : List (Option (Children Artifact)) :=
  some children :: (removeChildrenTrace children).map some ++ [none]

/-- The entry directory when the removal is cut off after that many unlinks. -/
def afterUnlinks (children : Children Artifact) (unlinks : Nat) : Option (Children Artifact) :=
  ((evictionStates children)[unlinks]?).join

def completeReceiptFile : String := "complete.receipt.json"

def corruptMarkerFile : String := "corrupt.marker.json"

def canceledCleanupFile : String := "canceled-publication.cleanup.json"

def bundleDir : String := "bundle"

/-- What a pass over the entries looks at beside the entry itself. -/
structure RecoveryChecks (World Artifact : Type) extends CacheChecks World Artifact where
  -- `validate_complete_metadata_inner`, paths and sizes only.
  completeShape : World → Children Artifact → ResolvedCacheMetadata Artifact → Bool
  -- `validate_complete_metadata`: refused, or the entry with the content receipt it leaves.
  completeContent : World → Children Artifact → ResolvedCacheMetadata Artifact →
    Option (Children Artifact)

structure RecoverEnv (World : Type) where
  world : World
  now : Nat
  sessionId : String
  sessionFree : String → Bool

section Recover

variable (checks : RecoveryChecks World Artifact) (env : RecoverEnv World)

def ReceiptEnvelope.isValid (envelope : ReceiptEnvelope Artifact) : Bool :=
  envelope.schemaVersion = envelope.metadata.schemaVersion &&
    envelope.metadata.state = .complete &&
    envelope.checksum = checks.metadataChecksum envelope.metadata

def readCompleteReceipt (children : Children Artifact) : Option (ResolvedCacheMetadata Artifact) :=
  match children.child completeReceiptFile with
  | some (.file (.receipt envelope)) =>
      if envelope.isValid checks then some envelope.metadata else none
  | _ => none

def canceledCleanupReceipt (cacheKey : String) (children : Children Artifact) :
    Except CacheError (Option CanceledCleanupReceipt) :=
  match children.child canceledCleanupFile with
  | none => .ok none
  | some (.file (.cleanup receipt)) =>
      if receipt.schemaVersion = 1 && receipt.cacheKey = cacheKey &&
          isValidSessionId receipt.sessionId && isValidSessionId receipt.reservationId then
        .ok (some receipt)
      else .error (.internal "invalid canceled-cleanup receipt identity")
  | some _ => .error (.internal "decode canceled-cleanup receipt")

def writeCorruptMarker (children : Children Artifact) : Children Artifact :=
  children.writeChild corruptMarkerFile (.file (.corrupt env.now))

/-- Finishing a removal that a tombstone sanctions; the audit trail lies outside the entry. -/
def finishPendingEviction (digest : String) (children : Children Artifact) :
    Except CacheError (Option (Children Artifact)) := do
  match ← readEvictionMarker checks.toCacheChecks digest children with
  | none => .error (.internal "cache entry has no eviction tombstone to finish")
  | some _ => .ok ((evictionStates children).getLast?.join)

def ResolvedCacheMetadata.pinRecovered (status : RecoveryStatus)
    (metadata : ResolvedCacheMetadata Artifact) : ResolvedCacheMetadata Artifact :=
  { metadata with recoveryStatus := status, artifactPinned := true, effectivePin := true }

def ResolvedCacheMetadata.interrupt (metadata : ResolvedCacheMetadata Artifact) :
    ResolvedCacheMetadata Artifact :=
  { metadata with
    state := .interrupted
    recoveryStatus := .interruptedReservation
    reservationId := none
    reservationOwner := none
    sessionId := none }

def materializingSessionIsStale (metadata : ResolvedCacheMetadata Artifact) : Bool :=
  metadata.state = .materializing && metadata.sessionId.any env.sessionFree

/-- The cleanup receipt speaks for this very reservation, and its owner asks again or is gone. -/
def cleanupApplies (metadata : ResolvedCacheMetadata Artifact) (receipt : CanceledCleanupReceipt) :
    Bool :=
  metadata.state = .materializing && metadata.reservationId = some receipt.reservationId &&
    metadata.sessionId = some receipt.sessionId &&
    (receipt.state = .needsRetry && receipt.sessionId = env.sessionId ||
      materializingSessionIsStale env metadata)

/-- An entry whose journal fell back to its older slot is pinned, once its bytes are proven. -/
def recoverOlderSlot (children : Children Artifact) (metadata : ResolvedCacheMetadata Artifact)
    (hadInvalidSlot : Bool) : Children Artifact × ResolvedCacheMetadata Artifact × Bool :=
  if !hadInvalidSlot then (children, metadata, false)
  else if metadata.state = .complete then
    match checks.completeContent env.world children metadata with
    | none => (writeCorruptMarker env children, metadata, false)
    | some children => (children, metadata.pinRecovered .recoveredFromOlderSlot, true)
  else (children, metadata.pinRecovered .recoveredFromOlderSlot, true)

def settleCleanup (digest : String) (children : Children Artifact)
    (metadata : ResolvedCacheMetadata Artifact) (receipt : CanceledCleanupReceipt) :
    Except CacheError (Children Artifact) := do
  let children := if receipt.cleanupUnpublished then children.removeChild bundleDir else children
  let children ← writeMetadataUnlocked checks.toCacheChecks env.world digest children
    { metadata.interrupt with updatedAt := env.now }
  .ok (children.writeChild canceledCleanupFile (.file (.cleanup { receipt with
    state := .cleaned
    processExitBeforeCleanupPossible := false
    detail :=
      "Recovery verified the canceled reservation, cleaned its unpublished bundle and recorded " ++
      "interruption; no source reads or publication." })))

def recoverReadable (digest : String) (cleanup : Option CanceledCleanupReceipt)
    (children : Children Artifact) (metadata : ResolvedCacheMetadata Artifact)
    (hadInvalidSlot : Bool) : Except CacheError (Children Artifact) :=
  -- The opening listing reports such an entry as corrupt.
  if metadata.state = .complete && !(checks.completeShape env.world children metadata) then
    .ok (writeCorruptMarker env children)
  else
    let (children, metadata, changed) :=
      recoverOlderSlot checks env children metadata hadInvalidSlot
    match cleanup.filter (cleanupApplies env metadata) with
    | some receipt => settleCleanup checks env digest children metadata receipt
    | none =>
        let stale := materializingSessionIsStale env metadata
        if changed || stale then
          writeMetadataUnlocked checks.toCacheChecks env.world digest children
            { if stale then metadata.interrupt else metadata with updatedAt := env.now }
        else .ok children

/-- An unreadable entry: resurrected from its complete receipt if its bytes are proven. -/
def recoverUnreadable (digest : String) (children : Children Artifact) :
    Except CacheError (Children Artifact) :=
  match (readCompleteReceipt checks children).bind fun metadata =>
      (checks.completeContent env.world children metadata).map fun children =>
          (children, metadata) with
  | none => .ok (writeCorruptMarker env children)
  | some (children, metadata) =>
      writeMetadataUnlocked checks.toCacheChecks env.world digest
        (children.removeChild evictedMarkerFile)
        { metadata.pinRecovered .reconstructedFromCompleteReceipt with updatedAt := env.now }

/-- `recover` at one entry whose locks it got; none once the directory is removed. -/
def recoverEntry (digest : String) (children : Children Artifact) :
    Except CacheError (Option (Children Artifact)) := do
  let cleanup ← canceledCleanupReceipt ("sha256:" ++ digest) children
  match readMetadataUnlocked checks.toCacheChecks env.world digest children with
  | .ok (.valid metadata hadInvalidSlot) =>
      some <$> recoverReadable checks env digest cleanup children metadata hadInvalidSlot
  | .ok (.evicted _) => finishPendingEviction checks digest children
  | .ok .missing => .ok (some (writeCorruptMarker env children))
  | .error _ => some <$> recoverUnreadable checks env digest children

inductive RetentionHold where
  | activeUse | pinned | materializationInProgress | recoveryCandidate | sourceUnverified | fresh
  deriving DecidableEq

inductive ScanOutcome where
  | retained (hold : RetentionHold)
  | candidate
  | evicted
  | ignored
  deriving DecidableEq

/-- The retention scan at one entry whose locks it got. -/
def scanEntry (digest : String) (children : Children Artifact) :
    Except CacheError (ScanOutcome × Option (Children Artifact)) :=
  match readMetadataUnlocked checks.toCacheChecks env.world digest children with
  | .ok (.valid metadata _) =>
      let outcome : ScanOutcome :=
        match metadata.state with
        | .complete =>
            if !(checks.completeShape env.world children metadata) then .retained .recoveryCandidate
            else if metadata.effectivePin then .retained .pinned
            else .candidate
        | .materializing =>
            if metadata.sessionId.any fun session => !(env.sessionFree session) then
              .retained .materializationInProgress
            else .retained .recoveryCandidate
        | _ => .retained .recoveryCandidate
      .ok (outcome, some children)
  | .ok (.evicted _) => do
      let left ← finishPendingEviction checks digest children
      .ok (.evicted, left)
  | .ok .missing => .ok (.ignored, some children)
  | .error _ => .ok (.retained .recoveryCandidate, some children)

end Recover

end SceneWorks.ResolvedCache
