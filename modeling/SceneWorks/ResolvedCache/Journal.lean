import SceneWorks.ResolvedCache.Metadata
import SceneWorks.Library.Run

/-!
The journal of an entry: two slots that are written in turn, the tombstone that stands
before them, and how one of the slots is chosen. A slot counts while its envelope is
intact and its document passes the shape check against the present files.
-/

namespace SceneWorks.ResolvedCache

variable {World Artifact : Type}

def evictedMarkerFile : String := "evicted.marker.json"

def slotFile : Nat → String
  | 0 => "metadata.0.json"
  | 1 => "metadata.1.json"
  | slot => "metadata." ++ toString slot ++ ".json"

inductive JournalRead (Artifact : Type) where
  | missing
  | evicted (marker : EvictionMarker)
  | valid (metadata : ResolvedCacheMetadata Artifact) (hadInvalidSlot : Bool)
  deriving DecidableEq

section Read

variable (checks : CacheChecks World Artifact)

def JournalEnvelope.new (generation : Nat) (metadata : ResolvedCacheMetadata Artifact) :
    JournalEnvelope Artifact where
  schemaVersion := metadata.schemaVersion
  generation := generation
  checksum := checks.journalChecksum generation metadata
  metadata := metadata

def JournalEnvelope.isValid (envelope : JournalEnvelope Artifact) : Bool :=
  envelope.schemaVersion = envelope.metadata.schemaVersion &&
    envelope.checksum = checks.journalChecksum envelope.generation envelope.metadata

def EvictionMarkerEnvelope.isValid (envelope : EvictionMarkerEnvelope) (digest : String) : Bool :=
  envelope.schemaVersion = resolvedCacheStoreVersion &&
    envelope.marker.schemaVersion = resolvedCacheStoreVersion &&
    envelope.checksum = checks.evictionMarkerChecksum envelope.marker &&
    cacheKeyDigest envelope.marker.cacheKey = some digest

/-- No tombstone, the tombstone, or an error for anything else at its place. -/
def readEvictionMarker (digest : String) (children : Children Artifact) :
    Except CacheError (Option EvictionMarker) :=
  match children.child evictedMarkerFile with
  | none => .ok none
  | some (.dir _) => .error (.internal "eviction tombstone is a link or not a regular file")
  | some (.file (.marker envelope)) =>
      if envelope.isValid checks digest then .ok (some envelope.marker)
      else .error (.internal "eviction tombstone checksum is invalid")
  | some (.file _) => .error (.internal "decode eviction tombstone")

def readJournal : Node Artifact → Except CacheError (JournalEnvelope Artifact)
  | .dir _ => .error (.internal "is a directory")
  | .file content =>
      match content.probe.filter (resolvedCacheDerivedStoreVersion < ·) with
      | some version => .error (.unsupportedJournalVersion version)
      | none =>
          match content with
          | .journal envelope =>
              if envelope.isValid checks then .ok envelope
              else .error (.internal "cache metadata checksum is invalid")
          | _ => .error (.internal "decode cache metadata")

/-- What a slot says: nothing, a document to choose from, or why it does not count. -/
inductive SlotRead (Artifact : Type) where
  | absent
  | valid (envelope : JournalEnvelope Artifact)
  | unsupported (version : Nat)
  | invalid

def readSlot (world : World) (digest : String) (children : Children Artifact) (slot : Nat) :
    SlotRead Artifact :=
  match children.child (slotFile slot) with
  | none => .absent
  | some node =>
      match readJournal checks node with
      | .ok envelope =>
          if validateMetadataShapeWith checks world envelope.metadata digest .pathsAndSizesOnly then
            .valid envelope
          else .invalid
      | .error (.unsupportedJournalVersion version) => .unsupported version
      | .error _ => .invalid

def SlotRead.envelope? : SlotRead Artifact → Option (JournalEnvelope Artifact)
  | .valid envelope => some envelope
  | _ => none

def SlotRead.unsupported? : SlotRead Artifact → Option Nat
  | .unsupported version => some version
  | _ => none

def SlotRead.isPresent : SlotRead Artifact → Bool
  | .absent => false
  | _ => true

def SlotRead.isInvalid : SlotRead Artifact → Bool
  | .unsupported _ | .invalid => true
  | _ => false

/-- The last of the documents in the order of their generations. -/
def newest (envelopes : List (JournalEnvelope Artifact)) : Option (JournalEnvelope Artifact) :=
  (envelopes.insertionSort fun a b => a.generation ≤ b.generation).getLast?

def readSlots (slots : List (SlotRead Artifact)) : Except CacheError (JournalRead Artifact) :=
  match newest (slots.filterMap SlotRead.envelope?) with
  | some envelope => .ok (.valid envelope.metadata (slots.any SlotRead.isInvalid))
  | none =>
      match (slots.filterMap SlotRead.unsupported?).getLast? with
      | some version => .error (.unsupportedJournalVersion version)
      | none =>
          if slots.any SlotRead.isPresent then .error .bothMetadataSlotsCorrupt else .ok .missing

def readMetadataUnlocked (world : World) (digest : String) (children : Children Artifact) :
    Except CacheError (JournalRead Artifact) := do
  match ← readEvictionMarker checks digest children with
  | some marker => .ok (.evicted marker)
  | none => readSlots ([0, 1].map (readSlot checks world digest children))

def highestGeneration (children : Children Artifact) : Nat :=
  [0, 1].foldl (fun highest slot =>
    match (children.child (slotFile slot)).map (readJournal checks) with
    | some (.ok envelope) => max highest envelope.generation
    | _ => highest) 0

def u64Max : Nat := 2 ^ 64 - 1

/-- The generation restarts when no slot can be read at present. -/
def nextGeneration (world : World) (digest : String) (children : Children Artifact) :
    Except CacheError Nat :=
  match readMetadataUnlocked checks world digest children with
  | .ok (.valid _ _) =>
      if highestGeneration checks children < u64Max then .ok (highestGeneration checks children + 1)
      else .error (.internal "cache metadata generation overflow")
  | _ => .ok 1

def writeMetadataUnlocked (world : World) (digest : String) (children : Children Artifact)
    (metadata : ResolvedCacheMetadata Artifact) : Except CacheError (Children Artifact) := do
  if validateMetadataShapeWith checks world metadata digest .pathsAndSizesOnly then
    let generation ← nextGeneration checks world digest children
    .ok (children.writeChild (slotFile (generation % 2))
      (.file (.journal (.new checks generation metadata))))
  else .error (.internal "cache metadata invariant is invalid")

end Read

end SceneWorks.ResolvedCache
