import SceneWorks.Library.Text
import Mathlib.Data.List.Sort

/-!
The managed directory of one entry of the resolved cache and the documents it holds: the
metadata of the entry, the envelopes of the journal slots, of the complete receipt and of
the eviction tombstone, and the shape check of a metadata document. What the check asks of
the artifact, and the checksums of the envelopes, are parameters (`CacheChecks`).
-/

namespace SceneWorks.ResolvedCache

def resolvedCacheStoreVersion : Nat := 1

def resolvedCacheDerivedStoreVersion : Nat := 2

inductive CacheError where
  | unsupportedJournalVersion (version : Nat)
  | bothMetadataSlotsCorrupt
  | request (message : String)
  | internal (message : String)
  deriving DecidableEq

inductive ResolvedCacheEntryState where
  | pending | materializing | interrupted | complete | corrupt | evicting
  deriving DecidableEq

inductive RecoveryStatus where
  | clean | recoveredFromOlderSlot | reconstructedFromCompleteReceipt | interruptedReservation
  | corruptUnrecoverable
  deriving DecidableEq

/-- How the bundle of an entry came to exist. -/
inductive ResolvedCacheProduction where
  | sourceCopy | derived
  deriving DecidableEq

def ResolvedCacheProduction.storeVersion : ResolvedCacheProduction → Nat
  | .sourceCopy => resolvedCacheStoreVersion
  | .derived => resolvedCacheDerivedStoreVersion

structure ResolvedCacheMetadata (Artifact : Type) where
  schemaVersion : Nat
  cacheKey : String
  production : ResolvedCacheProduction
  artifact : Artifact
  entryRelativePath : List String
  bundleRelativePath : List String
  state : ResolvedCacheEntryState
  verifiedBytes : Nat
  createdAt : Nat
  updatedAt : Nat
  lastUsedAt : Option Nat
  artifactPinned : Bool
  modelPinOwners : List String
  effectivePin : Bool
  reservationId : Option String
  reservationOwner : Option String
  sessionId : Option String
  recoveryStatus : RecoveryStatus
  deriving DecidableEq

inductive EvictionCause where
  | ttlExpired | sizePressure | manualRemove | sourceRemoved
  deriving DecidableEq

structure EvictionMarker where
  schemaVersion : Nat
  cacheKey : String
  cause : EvictionCause
  reclaimableBytes : Nat
  requestedAt : Nat
  sessionId : String
  deriving DecidableEq

structure JournalEnvelope (Artifact : Type) where
  schemaVersion : Nat
  generation : Nat
  checksum : String
  metadata : ResolvedCacheMetadata Artifact
  deriving DecidableEq

structure ReceiptEnvelope (Artifact : Type) where
  schemaVersion : Nat
  checksum : String
  metadata : ResolvedCacheMetadata Artifact
  deriving DecidableEq

structure EvictionMarkerEnvelope where
  schemaVersion : Nat
  checksum : String
  marker : EvictionMarker
  deriving DecidableEq

inductive CanceledCleanupState where
  | pending | needsRetry | cleaned | ownershipChanged
  deriving DecidableEq

structure CanceledCleanupReceipt where
  schemaVersion : Nat
  cacheKey : String
  reservationId : String
  sessionId : String
  state : CanceledCleanupState
  cleanupUnpublished : Bool
  processExitBeforeCleanupPossible : Bool
  detail : String
  deriving DecidableEq

/-- What the bytes of a file decode to. Bytes that are none of the documents still answer
the version probe when they hold a `schemaVersion`. -/
inductive Content (Artifact : Type) where
  | journal (envelope : JournalEnvelope Artifact)
  | receipt (envelope : ReceiptEnvelope Artifact)
  | marker (envelope : EvictionMarkerEnvelope)
  | cleanup (document : CanceledCleanupReceipt)
  | corrupt (observedAt : Nat)
  | other (probe : Option Nat)

def Content.probe {Artifact : Type} : Content Artifact → Option Nat
  | .journal envelope => some envelope.schemaVersion
  | .receipt envelope => some envelope.schemaVersion
  | .marker envelope => some envelope.schemaVersion
  | .cleanup document => some document.schemaVersion
  | .corrupt _ => some resolvedCacheStoreVersion
  | .other probe => probe

/-- A managed tree of regular files and directories; the children of a directory stand in
the order in which it is read. -/
inductive Node (Artifact : Type) where
  | file (content : Content Artifact)
  | dir (children : List (String × Node Artifact))

abbrev Children (Artifact : Type) := List (String × Node Artifact)

namespace Children

variable {Artifact : Type}

def child (children : Children Artifact) (name : String) : Option (Node Artifact) :=
  (children.find? fun entry => entry.1 = name).map Prod.snd

/-- An atomic write replaces the file of that name, or adds it. -/
def writeChild (children : Children Artifact) (name : String) (node : Node Artifact) :
    Children Artifact :=
  match children with
  | [] => [(name, node)]
  | (other, old) :: rest =>
      if other = name then (name, node) :: rest else (other, old) :: writeChild rest name node

def removeChild (children : Children Artifact) (name : String) : Children Artifact :=
  children.filter fun entry => entry.1 ≠ name

theorem child_cons (name other : String) (node : Node Artifact) (children : Children Artifact) :
    child ((name, node) :: children) other =
      if name = other then some node else child children other := by
  by_cases h : name = other
  · simp [child, h]
  · simp [child, h]

theorem child_append (xs ys : Children Artifact) (name : String) :
    child (xs ++ ys) name = (xs.child name).or (ys.child name) := by
  rw [child, child, child, List.find?_append]
  cases xs.find? fun entry => decide (entry.1 = name) <;> rfl

theorem child_writeChild (children : Children Artifact) (name other : String)
    (node : Node Artifact) :
    child (writeChild children name node) other =
      if name = other then some node else child children other := by
  induction children with
  | nil => exact child_cons name other node []
  | cons entry rest ih =>
      obtain ⟨first, old⟩ := entry
      by_cases hfirst : first = name
      · rw [writeChild, if_pos hfirst, child_cons, child_cons, hfirst]
        by_cases h : name = other
        · rw [if_pos h, if_pos h]
        · rw [if_neg h, if_neg h, if_neg h]
      · rw [writeChild, if_neg hfirst, child_cons, ih, child_cons]
        by_cases h : first = other
        · rw [if_pos h, if_pos h, if_neg fun e => hfirst (h.trans e.symm)]
        · rw [if_neg h, if_neg h]

end Children

inductive ContentVerification where
  | rehashEveryFile | pathsAndSizesOnly
  deriving DecidableEq

/-- What the documents are checked with: the artifact against the present file system, and
the checksum functions. -/
structure CacheChecks (World Artifact : Type) where
  cacheKey : Artifact → Option String
  pendingDerivativeShape : Artifact → Bool
  validate : World → ContentVerification → Artifact → Bool
  journalChecksum : Nat → ResolvedCacheMetadata Artifact → String
  metadataChecksum : ResolvedCacheMetadata Artifact → String
  evictionMarkerChecksum : EvictionMarker → String

def isLowerHex (c : Char) : Bool := c.isDigit || ('a' ≤ c && c ≤ 'f')

def isLowerHexOf (length : Nat) (chars : List Char) : Bool :=
  chars.length == length && chars.all isLowerHex

def isValidSessionId (value : String) : Bool := isLowerHexOf 32 value.toList

/-- The digest a cache key names. -/
def cacheKeyDigest (cacheKey : String) : Option String :=
  match cacheKey.toList with
  | 's' :: 'h' :: 'a' :: '2' :: '5' :: '6' :: ':' :: digest =>
      if isLowerHexOf 64 digest then some (String.ofList digest) else none
  | _ => none

/-- The trimmed text, when it is a nonempty logical id without control characters. -/
def validateModelOwner (owner : String) : Option String :=
  let owner := Text.trim owner
  if owner = "" || owner.utf8ByteSize > 256 || owner.toList.any Text.isControl then none
    else some owner

section Shape

variable {World Artifact : Type} (checks : CacheChecks World Artifact)

def ResolvedCacheMetadata.reservationShape (metadata : ResolvedCacheMetadata Artifact) : Bool :=
  if metadata.state = .materializing then
    metadata.reservationId.isSome && metadata.reservationOwner.isSome && metadata.sessionId.isSome
  else
    metadata.reservationId.isNone && metadata.reservationOwner.isNone && metadata.sessionId.isNone

def ResolvedCacheMetadata.isPendingDerivative (metadata : ResolvedCacheMetadata Artifact) : Bool :=
  metadata.production = .derived && metadata.state ≠ .complete

/-- The part of the shape check that looks at the present files. -/
def artifactShape (world : World) (verification : ContentVerification)
    (metadata : ResolvedCacheMetadata Artifact) : Bool :=
  if metadata.isPendingDerivative then checks.pendingDerivativeShape metadata.artifact
  else checks.validate world verification metadata.artifact

def validateMetadataShapeWith (world : World) (metadata : ResolvedCacheMetadata Artifact)
    (digest : String) (verification : ContentVerification) : Bool :=
  (checks.cacheKey metadata.artifact).any (fun artifactKey => artifactKey = metadata.cacheKey) &&
    artifactShape checks world verification metadata &&
    metadata.schemaVersion = metadata.production.storeVersion &&
    metadata.state ≠ .evicting &&
    cacheKeyDigest metadata.cacheKey = some digest &&
    metadata.entryRelativePath = ["entries", digest] &&
    metadata.bundleRelativePath = ["entries", digest, "bundle"] &&
    metadata.effectivePin = (metadata.artifactPinned || !metadata.modelPinOwners.isEmpty) &&
    metadata.reservationShape &&
    metadata.reservationId.all isValidSessionId &&
    metadata.sessionId.all isValidSessionId &&
    metadata.reservationOwner.all (fun owner => validateModelOwner owner = some owner) &&
    metadata.modelPinOwners.all fun owner => validateModelOwner owner = some owner

/-- A document that passes is one this build can read back. -/
theorem schemaVersion_le_of_shape {world : World} {metadata : ResolvedCacheMetadata Artifact}
    {digest : String} {verification : ContentVerification}
    (h : validateMetadataShapeWith checks world metadata digest verification = true) :
    metadata.schemaVersion ≤ resolvedCacheDerivedStoreVersion := by
  simp only [validateMetadataShapeWith, Bool.and_eq_true, decide_eq_true_eq] at h
  have hversion : metadata.schemaVersion = metadata.production.storeVersion := by tauto
  rw [hversion]
  cases metadata.production with
  | sourceCopy => decide
  | derived => decide

end Shape

end SceneWorks.ResolvedCache
