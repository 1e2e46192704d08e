import SceneWorks.ResolvedCache.Eviction
import SceneWorks.ResolvedCache.Generations

/-!
Manual removal of an entry: the preview that says whether a removal is blocked, and the
removal itself. Both classify the same journal read. A read that calls both slots corrupt
passes the pin check, and a pinned slot whose files are away at present reads so.
-/

namespace SceneWorks.ResolvedCache

variable {World Artifact : Type}

def CacheError.text : CacheError → String
  | .unsupportedJournalVersion version =>
      "cache metadata was written by a newer SceneWorks (journal version " ++ toString version ++
        ", newest supported " ++ toString resolvedCacheDerivedStoreVersion ++ ")"
  | .bothMetadataSlotsCorrupt => "both cache metadata slots are corrupt"
  | .request message => message
  | .internal message => message

def CacheError.isUnrecoverableMetadata (error : CacheError) : Bool :=
  error = .bothMetadataSlotsCorrupt

inductive ManualRemovalPins where
  | known (artifactPinned : Bool) (owners : List String)
  | unknown

structure ManualRemovalPreview where
  cacheKey : String
  state : ResolvedCacheEntryState
  reclaimableBytes : Nat
  pins : ManualRemovalPins
  sourceUnavailableWarning : Option String
  blocked : Option String

structure ManualRemovalOutcome where
  cacheKey : String
  reclaimedBytes : Nat
  sourceUnavailableWarning : Option String

/-- What a removal looks at beside the entry itself. -/
structure RemovalChecks (World Artifact : Type) extends RecoveryChecks World Artifact where
  -- `measure_entry_bytes` of a tree that can be walked.
  measure : Children Artifact → Nat
  -- `probe_source_reachable`, its complaint.
  sourceWarning : World → ResolvedCacheMetadata Artifact → Option String

structure RemovalEnv (World : Type) extends RecoverEnv World where
  -- A lease or a reservation holds the artifact lock of the entry.
  contended : Bool

def EvictionMarkerEnvelope.new (checks : CacheChecks World Artifact) (marker : EvictionMarker) :
    EvictionMarkerEnvelope :=
  ⟨resolvedCacheStoreVersion, checks.evictionMarkerChecksum marker, marker⟩

/-- Finishing a removal, with the tombstone it found. -/
def finishMarked (checks : CacheChecks World Artifact) (digest : String)
    (children : Children Artifact) :
    Except CacheError (EvictionMarker × Option (Children Artifact)) := do
  match ← readEvictionMarker checks digest children with
  | none => .error (.internal "cache entry has no eviction tombstone to finish")
  | some marker => .ok (marker, (evictionStates children).getLast?.join)

section Removal

variable (checks : RemovalChecks World Artifact) (env : RemovalEnv World)

def keyDigest (cacheKey : String) : Except CacheError String :=
  match cacheKeyDigest cacheKey with
  | some digest => .ok digest
  | none => .error (.request "resolved-cache key must be sha256:<64 lower hex>")

def materializingSessionIsLive (metadata : ResolvedCacheMetadata Artifact) : Bool :=
  metadata.sessionId.any fun session => !(env.sessionFree session)

/-- A live session is materializing the entry. -/
def liveMaterializing (metadata : ResolvedCacheMetadata Artifact) : Bool :=
  metadata.state = .materializing && materializingSessionIsLive env metadata

def activeBlock : Option String :=
  if env.contended then some "an active lease or reservation holds this entry" else none

/-- The state, the pins, the warning and the block a preview reads off the journal. -/
def classify (read : Except CacheError (JournalRead Artifact)) :
    ResolvedCacheEntryState × ManualRemovalPins × Option String × Option String :=
  match read with
  | .ok (.valid metadata _) =>
      (metadata.state, .known metadata.artifactPinned metadata.modelPinOwners,
        if metadata.state = .complete then checks.sourceWarning env.world metadata else none,
        if env.contended then activeBlock env
        else if liveMaterializing env metadata then
          some "a live session is materializing this entry"
        else if metadata.effectivePin then some "entry is pinned; unpin it before removal"
        else none)
  | .ok (.evicted _) => (.evicting, .known false [], none, activeBlock env)
  | .ok .missing => (.corrupt, .known false [], none, activeBlock env)
  | .error error =>
      if error.isUnrecoverableMetadata then (.corrupt, .known false [], none, activeBlock env)
      else (.corrupt, .unknown, none, some
        ("cannot remove a resolved-cache entry whose state cannot be read: " ++ error.text))

def manualRemovalPreview (cacheKey : String) (entry : Option (Children Artifact)) :
    Except CacheError ManualRemovalPreview := do
  let digest ← keyDigest cacheKey
  match entry with
  | none => .error (.request "no such resolved-cache entry")
  | some children =>
      let read := readMetadataUnlocked checks.toCacheChecks env.world digest children
      let (state, pins, warning, blocked) := classify checks env read
      .ok ⟨cacheKey, state, checks.measure children, pins, warning, blocked⟩

/-- What a removal does once it is let through: finish an old tombstone, or write one. -/
inductive Removal where
  | finish
  | tombstone (marker : EvictionMarker) (warning : Option String)

/-- The checks of `remove_entry` on what it read. -/
def authorizeRemoval (read : Except CacheError (JournalRead Artifact)) :
    Except CacheError (Option (Option String)) :=
  match read with
  | .ok (.evicted _) => .ok none
  | .ok (.valid metadata _) =>
      if liveMaterializing env metadata then
        .error (.request
          "cannot remove a resolved-cache entry that a live session is materializing")
      else if metadata.effectivePin then
        .error (.request "resolved-cache entry is pinned; unpin it before removal")
      else .ok (some
        (if metadata.state = .complete then checks.sourceWarning env.world metadata else none))
  | .ok .missing => .ok (some none)
  | .error error =>
      if error.isUnrecoverableMetadata then .ok (some none)
      else .error (.internal
        ("cannot remove a resolved-cache entry whose state cannot be read: " ++ error.text))

def planRemoval (cacheKey : String) (entry : Option (Children Artifact)) :
    Except CacheError Removal := do
  let digest ← keyDigest cacheKey
  if env.contended then
    .error (.request "cannot remove a resolved-cache entry with an active lease or reservation")
  else
    match entry with
    | none => .error (.request "no such resolved-cache entry")
    | some children =>
        match ← authorizeRemoval checks env
            (readMetadataUnlocked checks.toCacheChecks env.world digest children) with
        | none => .ok .finish
        | some warning =>
            .ok (.tombstone ⟨resolvedCacheStoreVersion, cacheKey, .manualRemove,
              checks.measure children, env.now, env.sessionId⟩ warning)

def removeEntry (cacheKey : String) (entry : Option (Children Artifact)) :
    Except CacheError (ManualRemovalOutcome × Option (Children Artifact)) := do
  let digest ← keyDigest cacheKey
  let children := entry.getD []
  match ← planRemoval checks env cacheKey entry with
  | .finish => do
      let (marker, left) ← finishMarked checks.toCacheChecks digest children
      .ok (⟨cacheKey, marker.reclaimableBytes, none⟩, left)
  | .tombstone marker warning => do
      let marked :=
        children.writeChild evictedMarkerFile (.file (.marker (.new checks.toCacheChecks marker)))
      let (_, left) ← finishMarked checks.toCacheChecks digest marked
      .ok (⟨cacheKey, marker.reclaimableBytes, warning⟩, left)

variable {checks env}

theorem classify_unblocked (read : Except CacheError (JournalRead Artifact)) :
    (classify checks env read).2.2.2 = none ↔
      env.contended = false ∧ ∃ warning, authorizeRemoval checks env read = .ok warning := by
  cases hheld : env.contended with
  | true =>
      match read with
      | .ok (.valid metadata _) => simp [classify, activeBlock, hheld]
      | .ok (.evicted _) | .ok .missing => simp [classify, activeBlock, hheld]
      | .error error =>
          cases herror : error.isUnrecoverableMetadata <;>
            simp [classify, activeBlock, hheld, herror]
  | false =>
      match read with
      | .ok (.valid metadata _) =>
          cases hlive : liveMaterializing env metadata <;> cases hpin : metadata.effectivePin <;>
            simp [classify, authorizeRemoval, hheld, hlive, hpin]
      | .ok (.evicted _) | .ok .missing =>
          simp [classify, activeBlock, authorizeRemoval, hheld]
      | .error error =>
          cases herror : error.isUnrecoverableMetadata <;>
            simp [classify, activeBlock, authorizeRemoval, hheld, herror]

theorem keyDigest_eq_ok {cacheKey digest : String} :
    keyDigest cacheKey = .ok digest ↔ cacheKeyDigest cacheKey = some digest := by
  rw [keyDigest]
  cases cacheKeyDigest cacheKey <;> simp

/-- A tombstone just written is one the reader accepts. -/
theorem readEvictionMarker_written (checks : CacheChecks World Artifact) {digest : String}
    {marker : EvictionMarker} (hversion : marker.schemaVersion = resolvedCacheStoreVersion)
    (hkey : cacheKeyDigest marker.cacheKey = some digest) (children : Children Artifact) :
    readEvictionMarker checks digest
      (children.writeChild evictedMarkerFile (.file (.marker (.new checks marker)))) =
        .ok (some marker) := by
  have hvalid : (EvictionMarkerEnvelope.new checks marker).isValid checks digest = true := by
    simp [EvictionMarkerEnvelope.isValid, EvictionMarkerEnvelope.new, hversion, hkey]
  rw [readEvictionMarker, Children.child_writeChild, if_pos rfl]
  exact if_pos hvalid

theorem readEvictionMarker_of_evicted {checks : CacheChecks World Artifact} {world : World}
    {digest : String} {children : Children Artifact} {marker : EvictionMarker}
    (h : readMetadataUnlocked checks world digest children = .ok (.evicted marker)) :
    readEvictionMarker checks digest children = .ok (some marker) := by
  rw [readMetadataUnlocked] at h
  cases hread : readEvictionMarker checks digest children with
  | error e =>
      rw [hread] at h
      cases h
  | ok found =>
      rw [hread] at h
      cases found with
      | some found =>
          cases h
          rfl
      | none =>
          exfalso
          change readSlots _ = _ at h
          rw [readSlots] at h
          split at h
          · cases h
          · split at h
            · cases h
            · split at h <;> cases h

theorem evicted_of_authorize {read : Except CacheError (JournalRead Artifact)}
    (h : authorizeRemoval checks env read = .ok none) :
    ∃ marker, read = .ok (.evicted marker) := by
  match read with
  | .ok (.evicted marker) => exact ⟨marker, rfl⟩
  | .ok (.valid metadata _) =>
      simp only [authorizeRemoval] at h
      split at h
      · cases h
      · split at h <;> cases h
  | .ok .missing => cases h
  | .error error =>
      simp only [authorizeRemoval] at h
      split at h <;> cases h

/-- A removal that is let through goes through. -/
theorem removeEntry_ok_iff {cacheKey digest : String} (hkey : cacheKeyDigest cacheKey = some digest)
    (children : Children Artifact) :
    (∃ result, removeEntry checks env cacheKey (some children) = .ok result) ↔
      env.contended = false ∧ ∃ warning, authorizeRemoval checks env
        (readMetadataUnlocked checks.toCacheChecks env.world digest children) = .ok warning := by
  have hdigest := keyDigest_eq_ok.mpr hkey
  cases hheld : env.contended with
  | true => simp [removeEntry, planRemoval, hdigest, hheld, bind, Except.bind]
  | false =>
      cases hauthorized : authorizeRemoval checks env
          (readMetadataUnlocked checks.toCacheChecks env.world digest children) with
      | error e =>
          simp [removeEntry, planRemoval, hdigest, hheld, hauthorized, bind, Except.bind]
      | ok warning =>
          refine ⟨fun _ => ⟨rfl, warning, rfl⟩, fun _ => ?_⟩
          cases warning with
          | some warning =>
              let marker : EvictionMarker := ⟨resolvedCacheStoreVersion, cacheKey, .manualRemove,
                checks.measure children, env.now, env.sessionId⟩
              have hversion : marker.schemaVersion = resolvedCacheStoreVersion := rfl
              have hmarked := readEvictionMarker_written checks.toCacheChecks hversion hkey children
              refine ⟨(⟨cacheKey, checks.measure children, warning⟩, (evictionStates
                (children.writeChild evictedMarkerFile
                  (.file (.marker (.new checks.toCacheChecks marker))))).getLast?.join), ?_⟩
              simp [removeEntry, planRemoval, hdigest, hheld, hauthorized, bind, Except.bind,
                marker, finishMarked, hmarked]
          | none =>
              obtain ⟨marker, hread⟩ := evicted_of_authorize hauthorized
              have hmarker := readEvictionMarker_of_evicted hread
              refine ⟨(⟨cacheKey, marker.reclaimableBytes, none⟩,
                (evictionStates children).getLast?.join), ?_⟩
              simp [removeEntry, planRemoval, hdigest, hheld, hauthorized, bind, Except.bind,
                finishMarked, hmarker]

/-- The preview reports no block exactly when the removal would succeed. -/
theorem preview_agrees (checks : RemovalChecks World Artifact) (env : RemovalEnv World)
    (cacheKey : String) (entry : Option (Children Artifact)) :
    (∃ preview, manualRemovalPreview checks env cacheKey entry = .ok preview ∧
      preview.blocked = none) ↔ ∃ result, removeEntry checks env cacheKey entry = .ok result := by
  cases hdigest : keyDigest cacheKey with
  | error e => simp [manualRemovalPreview, removeEntry, hdigest, bind, Except.bind]
  | ok digest =>
      cases entry with
      | none =>
          cases hheld : env.contended <;>
            simp [manualRemovalPreview, removeEntry, planRemoval, hdigest, hheld, bind, Except.bind]
      | some children =>
          rw [removeEntry_ok_iff (keyDigest_eq_ok.mp hdigest), ← classify_unblocked]
          simp [manualRemovalPreview, hdigest, bind, Except.bind]

variable (checks env)

/-- A slot intact by its checksum, of the highest generation there is, that records a pin. -/
def PinnedTop (children : Children Artifact) (slot : Nat) : Prop :=
  ∃ envelope, (children.child (slotFile slot)).map (readJournal checks.toCacheChecks) =
      some (.ok envelope) ∧
    envelope.generation = highestGeneration checks.toCacheChecks children ∧
    envelope.metadata.effectivePin = true

/-- What the property asks of one entry and one state of the files. -/
structure HonoursPins (cacheKey : String) (entry : Option (Children Artifact)) : Prop where
  agrees : (∃ preview, manualRemovalPreview checks env cacheKey entry = .ok preview ∧
    preview.blocked = none) ↔ ∃ result, removeEntry checks env cacheKey entry = .ok result
  keeps : ∀ children marker warning, entry = some children →
    planRemoval checks env cacheKey entry = .ok (.tombstone marker warning) →
    ∀ slot < 2, ¬ PinnedTop checks children slot

/-- The document of a slot is in the way of a removal. -/
def Blocks (digest : String) (children : Children Artifact) (slot : Nat) : Prop :=
  (∃ version, readSlot checks.toCacheChecks env.world digest children slot =
      .unsupported version) ∨
    ∃ envelope, readSlot checks.toCacheChecks env.world digest children slot = .valid envelope ∧
      (liveMaterializing env envelope.metadata = true ∨ envelope.metadata.effectivePin = true)

/-- A pinned slot's files are there, and the reader does not prefer the other slot to it. -/
def Readable (digest : String) (children : Children Artifact) (slot : Nat) : Prop :=
  (∃ envelope, readSlot checks.toCacheChecks env.world digest children slot = .valid envelope) ∧
    ¬ (slot = 0 ∧ ∃ envelope,
      readSlot checks.toCacheChecks env.world digest children 1 = .valid envelope ∧
        envelope.generation = highestGeneration checks.toCacheChecks children)

/-- Every pinned slot of the highest generation is the one that is read, or the other slot is in
the way of the removal. -/
def PinsStand (cacheKey : String) (entry : Option (Children Artifact)) : Prop :=
  ∀ digest children, cacheKeyDigest cacheKey = some digest → entry = some children →
    env.contended = true ∨ ¬ NoTombstone children ∨
      ∀ slot < 2, PinnedTop checks children slot →
        Readable checks env digest children slot ∨ Blocks checks env digest children (1 - slot)

variable {checks env}

theorem planRemoval_tombstone {cacheKey digest : String}
    (hkey : cacheKeyDigest cacheKey = some digest) (children : Children Artifact) :
    (∃ marker warning, planRemoval checks env cacheKey (some children) =
      .ok (.tombstone marker warning)) ↔ env.contended = false ∧ ∃ warning,
        authorizeRemoval checks env
          (readMetadataUnlocked checks.toCacheChecks env.world digest children) =
            .ok (some warning) := by
  have hdigest := keyDigest_eq_ok.mpr hkey
  cases hheld : env.contended with
  | true => simp [planRemoval, hdigest, hheld, bind, Except.bind]
  | false =>
      cases hauthorized : authorizeRemoval checks env
          (readMetadataUnlocked checks.toCacheChecks env.world digest children) with
      | error e => simp [planRemoval, hdigest, hheld, hauthorized, bind, Except.bind]
      | ok warning =>
          cases warning <;> simp [planRemoval, hdigest, hheld, hauthorized, bind, Except.bind]

/-- What is read lets a removal write its tombstone. -/
def LetsThrough (checks : RemovalChecks World Artifact) (env : RemovalEnv World)
    (read : Except CacheError (JournalRead Artifact)) : Prop :=
  ∃ warning, authorizeRemoval checks env read = .ok (some warning)

theorem letsThrough_valid (metadata : ResolvedCacheMetadata Artifact) (hadInvalid : Bool) :
    LetsThrough checks env (.ok (.valid metadata hadInvalid)) ↔
      ¬ (liveMaterializing env metadata = true ∨ metadata.effectivePin = true) := by
  cases hlive : liveMaterializing env metadata <;> cases hpin : metadata.effectivePin <;>
    simp [LetsThrough, authorizeRemoval, hlive, hpin]

theorem letsThrough_corrupt : LetsThrough checks env (.error .bothMetadataSlotsCorrupt) :=
  ⟨none, rfl⟩

theorem not_letsThrough_unsupported (version : Nat) :
    ¬ LetsThrough checks env (.error (.unsupportedJournalVersion version)) := by
  rintro ⟨warning, h⟩
  cases h

section Slots

variable {digest : String} {children : Children Artifact}

theorem generation_le_of_journal {checks : CacheChecks World Artifact} {slot : Nat}
    (hslot : slot < 2) {envelope : JournalEnvelope Artifact}
    (h : (children.child (slotFile slot)).map (readJournal checks) = some (.ok envelope)) :
    envelope.generation ≤ highestGeneration checks children := by
  rw [highestGeneration, List.foldl_cons, List.foldl_cons, List.foldl_nil]
  obtain rfl | rfl : slot = 0 ∨ slot = 1 := by omega
  · rw [h]
    dsimp only
    split
    · exact le_trans (le_max_right _ _) (le_max_left _ _)
    · exact le_max_right _ _
  · rw [h]
    exact le_max_right _ _

theorem journal_of_readSlot {checks : CacheChecks World Artifact} {world : World} {slot : Nat}
    {envelope : JournalEnvelope Artifact}
    (h : readSlot checks world digest children slot = .valid envelope) :
    (children.child (slotFile slot)).map (readJournal checks) = some (.ok envelope) := by
  rw [readSlot] at h
  split at h
  · cases h
  · next node hnode =>
      rw [hnode, Option.map_some]
      split at h
      · next found hfound =>
          rw [hfound]
          split at h
          · cases h
            rfl
          · cases h
      · cases h
      · cases h

theorem generation_le_highest {checks : CacheChecks World Artifact} {world : World} {slot : Nat}
    (hslot : slot < 2) {envelope : JournalEnvelope Artifact}
    (h : readSlot checks world digest children slot = .valid envelope) :
    envelope.generation ≤ highestGeneration checks children :=
  generation_le_of_journal hslot (journal_of_readSlot h)

variable (env digest) in
/-- A pinned slot is read when its files are there, and counts as invalid when they are not. -/
theorem pinnedTop_readSlot {slot : Nat} (h : PinnedTop checks children slot) :
    (∃ envelope, readSlot checks.toCacheChecks env.world digest children slot = .valid envelope ∧
        envelope.generation = highestGeneration checks.toCacheChecks children ∧
        envelope.metadata.effectivePin = true) ∨
      readSlot checks.toCacheChecks env.world digest children slot = .invalid := by
  obtain ⟨envelope, hjournal, htop, hpin⟩ := h
  obtain ⟨node, hnode, hread⟩ := Option.map_eq_some_iff.mp hjournal
  rw [readSlot, hnode]
  dsimp only
  rw [hread]
  dsimp only
  split
  · exact .inl ⟨envelope, rfl, htop, hpin⟩
  · exact .inr rfl

theorem readSlots_pair (a b : JournalEnvelope Artifact) :
    readSlots [.valid a, .valid b] =
      .ok (.valid (if a.generation ≤ b.generation then b else a).metadata false) := by
  rw [readSlots]
  simp only [List.filterMap_cons, SlotRead.envelope?, List.filterMap_nil, newest_pair]
  rfl

theorem readSlots_first {other : SlotRead Artifact} (h : ∀ envelope, other ≠ .valid envelope)
    (a : JournalEnvelope Artifact) :
    ∃ hadInvalid, readSlots [.valid a, other] = .ok (.valid a.metadata hadInvalid) := by
  cases other with
  | valid envelope => exact absurd rfl (h envelope)
  | absent | unsupported _ | invalid => exact ⟨_, rfl⟩

theorem readSlots_second {other : SlotRead Artifact} (h : ∀ envelope, other ≠ .valid envelope)
    (b : JournalEnvelope Artifact) :
    ∃ hadInvalid, readSlots [other, .valid b] = .ok (.valid b.metadata hadInvalid) := by
  cases other with
  | valid envelope => exact absurd rfl (h envelope)
  | absent | unsupported _ | invalid => exact ⟨_, rfl⟩

variable (checks env) in
/-- With a pinned top slot whose files are away, the other slot alone decides. -/
theorem letsThrough_of_invalid (other : SlotRead Artifact) (slots : List (SlotRead Artifact))
    (hslots : slots = [.invalid, other] ∨ slots = [other, .invalid]) :
    LetsThrough checks env (readSlots slots) ↔
      ¬ ((∃ version, other = .unsupported version) ∨ ∃ envelope, other = .valid envelope ∧
        (liveMaterializing env envelope.metadata = true ∨
          envelope.metadata.effectivePin = true)) := by
  cases other with
  | valid envelope =>
      have hread : ∃ hadInvalid, readSlots slots = .ok (.valid envelope.metadata hadInvalid) := by
        obtain rfl | rfl := hslots
        · exact readSlots_second (by simp) envelope
        · exact readSlots_first (by simp) envelope
      obtain ⟨hadInvalid, hread⟩ := hread
      rw [hread, letsThrough_valid]
      simp
  | unsupported version =>
      have hread : readSlots slots = .error (.unsupportedJournalVersion version) := by
        obtain rfl | rfl := hslots <;> rfl
      rw [hread]
      simp [not_letsThrough_unsupported]
  | absent | invalid =>
      have hread : readSlots slots = .error .bothMetadataSlotsCorrupt := by
        obtain rfl | rfl := hslots <;> rfl
      rw [hread]
      simp [letsThrough_corrupt]

theorem letsThrough_zero (h : PinnedTop checks children 0) :
    LetsThrough checks env
        (readSlots ([0, 1].map (readSlot checks.toCacheChecks env.world digest children))) ↔
      ¬ (Readable checks env digest children 0 ∨ Blocks checks env digest children 1) := by
  simp only [List.map_cons, List.map_nil]
  obtain ⟨envelope, hvalid, htop, hpin⟩ | hinvalid := pinnedTop_readSlot env digest h
  · by_cases hother : ∃ other,
        readSlot checks.toCacheChecks env.world digest children 1 = .valid other
    · obtain ⟨other, hother⟩ := hother
      have hle := generation_le_highest (by decide) hother
      rw [hvalid, hother, readSlots_pair, letsThrough_valid]
      by_cases htie : envelope.generation ≤ other.generation
      · -- The reader takes the second of two slots of one generation.
        have heq : other.generation = highestGeneration checks.toCacheChecks children :=
          le_antisymm hle (htop ▸ htie)
        rw [if_pos htie]
        simp [Readable, Blocks, hvalid, hother, heq]
      · have hne : other.generation ≠ highestGeneration checks.toCacheChecks children :=
          fun heq => htie (htop.trans heq.symm).le
        rw [if_neg htie]
        simp [Readable, hvalid, hother, hne, hpin]
    · obtain ⟨hadInvalid, hread⟩ := readSlots_first (fun other h => hother ⟨other, h⟩) envelope
      rw [hvalid, hread, letsThrough_valid]
      have hreadable : Readable checks env digest children 0 :=
        ⟨⟨envelope, hvalid⟩, fun h => hother ⟨h.2.choose, h.2.choose_spec.1⟩⟩
      simp [hreadable, hpin]
  · have hslots := letsThrough_of_invalid checks env
      (readSlot checks.toCacheChecks env.world digest children 1) _ (.inl rfl)
    rw [hinvalid, hslots]
    simp [Readable, Blocks, hinvalid]

theorem letsThrough_one (h : PinnedTop checks children 1) :
    LetsThrough checks env
        (readSlots ([0, 1].map (readSlot checks.toCacheChecks env.world digest children))) ↔
      ¬ (Readable checks env digest children 1 ∨ Blocks checks env digest children 0) := by
  simp only [List.map_cons, List.map_nil]
  obtain ⟨envelope, hvalid, htop, hpin⟩ | hinvalid := pinnedTop_readSlot env digest h
  · have hreadable : Readable checks env digest children 1 := ⟨⟨envelope, hvalid⟩, by simp⟩
    by_cases hother : ∃ other,
        readSlot checks.toCacheChecks env.world digest children 0 = .valid other
    · obtain ⟨other, hother⟩ := hother
      have hle := generation_le_highest (by decide) hother
      rw [hvalid, hother, readSlots_pair, letsThrough_valid, if_pos (htop ▸ hle)]
      simp [hreadable, hpin]
    · obtain ⟨hadInvalid, hread⟩ := readSlots_second (fun other h => hother ⟨other, h⟩) envelope
      rw [hvalid, hread, letsThrough_valid]
      simp [hreadable, hpin]
  · have hslots := letsThrough_of_invalid checks env
      (readSlot checks.toCacheChecks env.world digest children 0) _ (.inr rfl)
    rw [hinvalid, hslots]
    simp [Readable, Blocks, hinvalid]

theorem letsThrough_slot {slot : Nat} (hslot : slot < 2) (h : PinnedTop checks children slot) :
    LetsThrough checks env
        (readSlots ([0, 1].map (readSlot checks.toCacheChecks env.world digest children))) ↔
      ¬ (Readable checks env digest children slot ∨
        Blocks checks env digest children (1 - slot)) := by
  obtain rfl | rfl : slot = 0 ∨ slot = 1 := by omega
  · exact letsThrough_zero h
  · exact letsThrough_one h

/-- An entry with a tombstone is finished or refused. -/
theorem not_letsThrough_of_tombstone (h : ¬ NoTombstone children) :
    ¬ LetsThrough checks env
      (readMetadataUnlocked checks.toCacheChecks env.world digest children) := by
  rintro ⟨warning, hwarning⟩
  obtain ⟨marker, hread⟩ | ⟨message, hread⟩ :=
    read_of_tombstone checks.toCacheChecks digest env.world h
  · rw [hread] at hwarning
    cases hwarning
  · rw [hread] at hwarning
    cases hwarning

end Slots

/-- The preview and the removal agree on every entry; the removal honours the pins of exactly the
entries whose pinned slots stand. -/
theorem manual_removal_honours_pins_iff {World Artifact : Type}
    (checks : RemovalChecks World Artifact) (env : RemovalEnv World) (cacheKey : String)
    (entry : Option (Children Artifact)) :
    HonoursPins checks env cacheKey entry ↔ PinsStand checks env cacheKey entry := by
  constructor
  · intro h digest children hkey hentry
    by_cases hheld : env.contended = true
    · exact .inl hheld
    by_cases hmarker : NoTombstone children
    · refine .inr (.inr fun slot hslot hpinned => ?_)
      by_contra hnot
      have hthrough := (letsThrough_slot hslot hpinned).mpr hnot
      rw [← read_of_noTombstone checks.toCacheChecks digest env.world hmarker] at hthrough
      obtain ⟨marker, warning, hplan⟩ := (planRemoval_tombstone hkey children).mpr
        ⟨Bool.eq_false_iff.mpr hheld, hthrough⟩
      rw [← hentry] at hplan
      exact h.keeps children marker warning hentry hplan slot hslot hpinned
    · exact .inr (.inl hmarker)
  · intro h
    refine ⟨preview_agrees checks env cacheKey entry, ?_⟩
    intro children marker warning hentry hplan slot hslot hpinned
    subst hentry
    cases hkey : cacheKeyDigest cacheKey with
    | none => simp [planRemoval, keyDigest, hkey, bind, Except.bind] at hplan
    | some digest =>
        obtain ⟨hheld, hthrough⟩ :=
          (planRemoval_tombstone hkey children).mp ⟨marker, warning, hplan⟩
        obtain hcontended | htombstone | hstand := h digest children hkey rfl
        · rw [hheld] at hcontended
          cases hcontended
        · exact not_letsThrough_of_tombstone htombstone hthrough
        · by_cases hmarker : NoTombstone children
          · rw [read_of_noTombstone checks.toCacheChecks digest env.world hmarker] at hthrough
            exact (letsThrough_slot hslot hpinned).mp hthrough (hstand slot hslot hpinned)
          · exact not_letsThrough_of_tombstone hmarker hthrough

end Removal

def sampleRemoval : RemovalChecks (List String) String :=
  { sampleChecks with
    completeShape := fun present _ metadata => present.contains metadata.artifact
    completeContent := fun present children metadata =>
      if present.contains metadata.artifact then some children else none
    measure := List.length
    sourceWarning := fun _ _ => none }

def sampleKey : String := "sha256:" ++ sampleDigest

/-- A complete entry, pinned, with one slot of the journal. -/
def pinnedEntry : Children String :=
  [(slotFile 1, .file (.journal (.new sampleChecks 1
    { sampleMetadata .complete "bundle" 1 with artifactPinned := true, effectivePin := true })))]

/-- No lease is held and no file of the bundle is there. -/
def bundleAway : RemovalEnv (List String) := ⟨⟨[], 2, "", fun _ => true⟩, false⟩

/-- The pinned slot is intact, but reads as corrupt while a file it names is missing; the preview
calls the entry unpinned and the removal writes its tombstone. -/
theorem pinned_entry_removed_while_bundle_away :
    (∃ preview, manualRemovalPreview sampleRemoval bundleAway sampleKey (some pinnedEntry) =
        .ok preview ∧ preview.pins = .known false [] ∧ preview.blocked = none) ∧
      planRemoval sampleRemoval bundleAway sampleKey (some pinnedEntry) =
        .ok (.tombstone ⟨1, sampleKey, .manualRemove, 1, 2, ""⟩ none) ∧
      PinnedTop sampleRemoval pinnedEntry 1 ∧
      ¬ HonoursPins sampleRemoval bundleAway sampleKey (some pinnedEntry) := by
  have hkey : keyDigest sampleKey = .ok sampleDigest := by
    rw [keyDigest_eq_ok]
    decide +kernel
  have hread : readMetadataUnlocked sampleRemoval.toCacheChecks bundleAway.world sampleDigest
      pinnedEntry = .error .bothMetadataSlotsCorrupt := by decide +kernel
  have hplan : planRemoval sampleRemoval bundleAway sampleKey (some pinnedEntry) =
      .ok (.tombstone ⟨1, sampleKey, .manualRemove, 1, 2, ""⟩ none) := by
    simp only [planRemoval, hkey, hread, bind, Except.bind]
    rfl
  have hpinned : PinnedTop sampleRemoval pinnedEntry 1 :=
    ⟨_, rfl, by decide +kernel, rfl⟩
  refine ⟨?_, hplan, hpinned, fun h => h.keeps pinnedEntry _ _ rfl hplan 1 (by decide) hpinned⟩
  simp only [manualRemovalPreview, hkey, hread, bind, Except.bind]
  exact ⟨_, rfl, rfl, rfl⟩

end SceneWorks.ResolvedCache
