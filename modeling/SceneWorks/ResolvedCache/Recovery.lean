import SceneWorks.ResolvedCache.Convergence
import SceneWorks.ResolvedCache.Validation

/-!
What one pass of `recover` leaves of an entry, and what the next pass makes of that. A slot
counts as invalid for damage, for the absence of the files it names and for a newer version
alike, so a pass falls back and pins in all three cases; and the write that ends a pass need
not take the place of the invalid slot, which the next pass then finds again.
-/

namespace SceneWorks.ResolvedCache

variable {World Artifact : Type}

section Journal

variable {checks : CacheChecks World Artifact} {world : World} {digest : String}
  {children left : Children Artifact} {metadata : ResolvedCacheMetadata Artifact}

/-- The files the journal consists of are the same in both. -/
structure SameJournal (children left : Children Artifact) : Prop where
  slot : ∀ slot < 2, left.child (slotFile slot) = children.child (slotFile slot)
  tombstone : left.child evictedMarkerFile = children.child evictedMarkerFile

theorem SameJournal.of_write {name : String} (node : Node Artifact)
    (hslot : ∀ slot < 2, name ≠ slotFile slot) (htombstone : name ≠ evictedMarkerFile) :
    SameJournal children (children.writeChild name node) where
  slot slot h := by rw [Children.child_writeChild, if_neg (hslot slot h)]
  tombstone := by rw [Children.child_writeChild, if_neg htombstone]

theorem readSlot_congr {slot : Nat}
    (h : left.child (slotFile slot) = children.child (slotFile slot)) :
    readSlot checks world digest left slot = readSlot checks world digest children slot := by
  rw [readSlot, readSlot, h]

theorem slots_congr (h : ∀ slot < 2, left.child (slotFile slot) = children.child (slotFile slot)) :
    [0, 1].map (readSlot checks world digest left) =
      [0, 1].map (readSlot checks world digest children) := by
  simp only [List.map_cons, List.map_nil, readSlot_congr (h 0 (by decide)),
    readSlot_congr (h 1 (by decide))]

theorem highestGeneration_congr
    (h : ∀ slot < 2, left.child (slotFile slot) = children.child (slotFile slot)) :
    highestGeneration checks left = highestGeneration checks children := by
  simp only [highestGeneration, List.foldl_cons, List.foldl_nil, h 0 (by decide), h 1 (by decide)]

theorem SameJournal.read (h : SameJournal children left) :
    readMetadataUnlocked checks world digest left =
      readMetadataUnlocked checks world digest children := by
  rw [readMetadataUnlocked, readMetadataUnlocked, readEvictionMarker_congr h.tombstone,
    slots_congr h.slot]

theorem SameJournal.nextGeneration (h : SameJournal children left) :
    nextGeneration checks world digest left = nextGeneration checks world digest children := by
  rw [ResolvedCache.nextGeneration, ResolvedCache.nextGeneration, h.read,
    highestGeneration_congr h.slot]

/-- A slot that counts makes the journal readable. -/
theorem read_valid_of_slot (htombstone : NoTombstone children) {slot : Nat} (hslot : slot < 2)
    {envelope : JournalEnvelope Artifact}
    (h : readSlot checks world digest children slot = .valid envelope) :
    ∃ found hadInvalid, readMetadataUnlocked checks world digest children =
      .ok (.valid found hadInvalid) := by
  have hmem : envelope ∈ ([0, 1].map (readSlot checks world digest children)).filterMap
      SlotRead.envelope? := by
    refine List.mem_filterMap.mpr ⟨.valid envelope, List.mem_map.mpr ⟨slot, ?_, h⟩, rfl⟩
    obtain rfl | rfl : slot = 0 ∨ slot = 1 := by omega
    · exact List.mem_cons_self
    · exact List.mem_cons_of_mem _ List.mem_cons_self
  rw [read_of_noTombstone checks digest world htombstone, readSlots]
  cases hnewest : newest (([0, 1].map (readSlot checks world digest children)).filterMap
      SlotRead.envelope?) with
  | some found => exact ⟨_, _, rfl⟩
  | none =>
      rw [newest, List.getLast?_eq_none_iff] at hnewest
      have hempty := (List.mem_insertionSort fun a b : JournalEnvelope Artifact =>
        a.generation ≤ b.generation).mpr hmem
      rw [hnewest] at hempty
      cases hempty

theorem invalid_of_read {found : ResolvedCacheMetadata Artifact} {hadInvalid : Bool}
    (h : readMetadataUnlocked checks world digest children = .ok (.valid found hadInvalid)) :
    hadInvalid = ([0, 1].map (readSlot checks world digest children)).any SlotRead.isInvalid ∧
      NoTombstone children := by
  by_cases htombstone : NoTombstone children
  · refine ⟨?_, htombstone⟩
    rw [read_of_noTombstone checks digest world htombstone, readSlots] at h
    split at h
    · cases h
      rfl
    · split at h
      · cases h
      · split at h <;> cases h
  · obtain ⟨marker, hread⟩ | ⟨message, hread⟩ := read_of_tombstone checks digest world htombstone
    · rw [hread] at h
      cases h
    · rw [hread] at h
      cases h

/-- The next generation is above every document that counts. -/
theorem generation_lt_next (htombstone : NoTombstone children) {slot : Nat} (hslot : slot < 2)
    {envelope : JournalEnvelope Artifact} {generation : Nat}
    (h : readSlot checks world digest children slot = .valid envelope)
    (hnext : nextGeneration checks world digest children = .ok generation) :
    envelope.generation < generation := by
  obtain ⟨found, hadInvalid, hread⟩ := read_valid_of_slot htombstone hslot h
  rw [nextGeneration, hread] at hnext
  dsimp only at hnext
  split at hnext
  · obtain rfl := Except.ok.inj hnext
    exact Nat.lt_succ_of_le (generation_le_highest hslot h)
  · cases hnext

/-- A write of that document has taken place, at that generation. -/
structure Rewritten (checks : CacheChecks World Artifact) (world : World) (digest : String)
    (children left : Children Artifact) (generation : Nat)
    (metadata : ResolvedCacheMetadata Artifact) : Prop where
  next : nextGeneration checks world digest children = .ok generation
  shape : validateMetadataShapeWith checks world metadata digest .pathsAndSizesOnly = true
  written : Written checks left generation metadata
  other : left.child (slotFile ((generation + 1) % 2)) =
    children.child (slotFile ((generation + 1) % 2))
  before : NoTombstone children
  after : NoTombstone left

theorem ne_slotFile {name : String} (h : isSlot name = false) :
    ∀ slot < 2, name ≠ slotFile slot := by
  intro slot hslot heq
  rw [heq, isSlot_slotFile hslot] at h
  cases h

theorem write_of_next {generation : Nat}
    (hshape : validateMetadataShapeWith checks world metadata digest .pathsAndSizesOnly = true)
    (hnext : nextGeneration checks world digest children = .ok generation) :
    writeMetadataUnlocked checks world digest children metadata =
      .ok (children.writeChild (slotFile (generation % 2))
        (.file (.journal (.new checks generation metadata)))) := by
  rw [writeMetadataUnlocked, if_pos hshape, hnext]
  rfl

theorem write_eq_ok (h : writeMetadataUnlocked checks world digest children metadata = .ok left) :
    validateMetadataShapeWith checks world metadata digest .pathsAndSizesOnly = true ∧
      ∃ generation, nextGeneration checks world digest children = .ok generation := by
  rw [writeMetadataUnlocked] at h
  split at h
  · next hshape =>
      refine ⟨hshape, ?_⟩
      cases hnext : nextGeneration checks world digest children with
      | error e =>
          rw [hnext] at h
          cases h
      | ok generation => exact ⟨generation, rfl⟩
  · cases h

theorem rewritten_of_next {generation : Nat} (htombstone : NoTombstone children)
    (hshape : validateMetadataShapeWith checks world metadata digest .pathsAndSizesOnly = true)
    (hnext : nextGeneration checks world digest children = .ok generation) :
    Rewritten checks world digest children
      (children.writeChild (slotFile (generation % 2))
        (.file (.journal (.new checks generation metadata)))) generation metadata := by
  have hparity : generation % 2 ≠ (generation + 1) % 2 := by omega
  refine ⟨hnext, hshape, ⟨?_, schemaVersion_le_of_shape checks hshape⟩, ?_, htombstone, ?_⟩
  · rw [Children.child_writeChild, if_pos rfl]
  · rw [Children.child_writeChild, if_neg fun heq => hparity (slotFile_injective
      (Nat.mod_lt _ (by decide)) (Nat.mod_lt _ (by decide)) heq)]
  · rw [NoTombstone, Children.child_writeChild,
      if_neg (slotFile_ne_marker (Nat.mod_lt _ (by decide)))]
    exact htombstone

/-- A write leaves every other file. -/
theorem child_write {name : String} (hname : isSlot name = false) (generation : Nat)
    (node : Node Artifact) :
    (children.writeChild (slotFile (generation % 2)) node).child name = children.child name := by
  rw [Children.child_writeChild, if_neg fun heq =>
    ne_slotFile hname _ (Nat.mod_lt generation (by decide)) heq.symm]

/-- A document just written is read, and the slot beside it stands as it stood. -/
theorem read_rewritten {generation : Nat}
    (h : Rewritten checks world digest children left generation metadata) :
    readMetadataUnlocked checks world digest left = .ok (.valid metadata
      (readSlot checks world digest children ((generation + 1) % 2)).isInvalid) := by
  have hnew := h.written.readSlot checks digest world
  rw [if_pos h.shape] at hnew
  have hother : readSlot checks world digest left ((generation + 1) % 2) =
      readSlot checks world digest children ((generation + 1) % 2) := readSlot_congr h.other
  rw [read_of_noTombstone checks digest world h.after]
  refine slots_cases generation (fun slots => readSlots slots = .ok (.valid metadata _)) _ ?_ ?_
  · rw [hnew, hother]
    cases hslot : readSlot checks world digest children ((generation + 1) % 2) with
    | valid envelope =>
        have hlt := generation_lt_next h.before (Nat.mod_lt _ (by decide)) hslot h.next
        have hnewer : ¬ (JournalEnvelope.new checks generation metadata).generation ≤
            envelope.generation := Nat.not_le.mpr hlt
        rw [readSlots_pair, if_neg hnewer]
        rfl
    | absent | unsupported _ | invalid => rfl
  · rw [hnew, hother]
    cases hslot : readSlot checks world digest children ((generation + 1) % 2) with
    | valid envelope =>
        have hlt := generation_lt_next h.before (Nat.mod_lt _ (by decide)) hslot h.next
        have hnewer : envelope.generation ≤
            (JournalEnvelope.new checks generation metadata).generation := hlt.le
        rw [readSlots_pair, if_pos hnewer]
        rfl
    | absent | unsupported _ | invalid => rfl

/-- A write changes the journal. -/
theorem not_same_of_rewritten {generation : Nat} (hread : ∃ found hadInvalid,
      readMetadataUnlocked checks world digest children = .ok (.valid found hadInvalid))
    (h : Rewritten checks world digest children left generation metadata) :
    left.child (slotFile (generation % 2)) ≠ children.child (slotFile (generation % 2)) := by
  intro hsame
  have hwritten : Written checks children generation metadata := ⟨hsame.symm.trans h.written.1,
    h.written.2⟩
  have hle := generation_le_of_journal (Nat.mod_lt _ (by decide)) hwritten.generation
  obtain ⟨found, hadInvalid, hread⟩ := hread
  have hnext := h.next
  rw [nextGeneration, hread] at hnext
  dsimp only at hnext
  split at hnext
  · obtain rfl := Except.ok.inj hnext
    exact absurd hle (Nat.not_succ_le_self _)
  · cases hnext

theorem Rewritten.congr {present after : Children Artifact} {generation : Nat}
    (h : Rewritten checks world digest children left generation metadata)
    (hbefore : SameJournal present children) (hafter : SameJournal left after) :
    Rewritten checks world digest present after generation metadata where
  next := hbefore.nextGeneration ▸ h.next
  shape := h.shape
  written := h.written.congr hafter.slot
  other := (hafter.slot _ (Nat.mod_lt _ (by decide))).trans
    (h.other.trans (hbefore.slot _ (Nat.mod_lt _ (by decide))))
  before := hbefore.tombstone.symm.trans h.before
  after := hafter.tombstone.trans h.after

theorem SameJournal.refl (children : Children Artifact) : SameJournal children children :=
  ⟨fun _ _ => rfl, rfl⟩

theorem SameJournal.of_remove {name : String} (hslot : ∀ slot < 2, name ≠ slotFile slot)
    (htombstone : name ≠ evictedMarkerFile) : SameJournal children (children.removeChild name) where
  slot slot h := by rw [Children.child_removeChild, if_neg (hslot slot h)]
  tombstone := by rw [Children.child_removeChild, if_neg htombstone]

end Journal

section Settle

variable {checks : RecoveryChecks World Artifact} {env : RecoverEnv World} {digest : String}
  {children left : Children Artifact} {metadata : ResolvedCacheMetadata Artifact}
  {cleanup : Option CanceledCleanupReceipt}

/-- The pass records that the reservation of the document was interrupted. -/
def Interrupts (env : RecoverEnv World) (cleanup : Option CanceledCleanupReceipt)
    (metadata : ResolvedCacheMetadata Artifact) : Bool :=
  (cleanup.filter (cleanupApplies env metadata)).isSome || materializingSessionIsStale env metadata

/-- The second half of `recoverReadable`, after the fallback. -/
def settleReadable (checks : RecoveryChecks World Artifact) (env : RecoverEnv World)
    (digest : String) (cleanup : Option CanceledCleanupReceipt)
    (found : Children Artifact × ResolvedCacheMetadata Artifact × Bool) :
    Except CacheError (Children Artifact) :=
  match cleanup.filter (cleanupApplies env found.2.1) with
  | some receipt => settleCleanup checks env digest found.1 found.2.1 receipt
  | none =>
      let stale := materializingSessionIsStale env found.2.1
      if found.2.2 || stale then
        writeMetadataUnlocked checks.toCacheChecks env.world digest found.1
          { if stale then found.2.1.interrupt else found.2.1 with updatedAt := env.now }
      else .ok found.1

theorem recoverReadable_eq (hadInvalid : Bool) :
    recoverReadable checks env digest cleanup children metadata hadInvalid =
      if metadata.state = .complete && !(checks.completeShape env.world children metadata) then
        .ok (writeCorruptMarker env children)
      else settleReadable checks env digest cleanup
        (recoverOlderSlot checks env children metadata hadInvalid) := rfl

/-- The document a pass writes. -/
def settledDocument (env : RecoverEnv World) (cleanup : Option CanceledCleanupReceipt)
    (metadata : ResolvedCacheMetadata Artifact) : ResolvedCacheMetadata Artifact :=
  { if Interrupts env cleanup metadata then metadata.interrupt else metadata with
    updatedAt := env.now }

theorem materializing_of_interrupts (h : Interrupts env cleanup metadata = true) :
    metadata.state = .materializing := by
  rw [Interrupts, Bool.or_eq_true] at h
  obtain h | h := h
  · obtain ⟨receipt, hreceipt⟩ := Option.isSome_iff_exists.mp h
    have happlies := (Option.filter_eq_some_iff.mp hreceipt).2
    simp only [cleanupApplies, Bool.and_eq_true, decide_eq_true_eq] at happlies
    exact happlies.1.1.1
  · simp only [materializingSessionIsStale, Bool.and_eq_true, decide_eq_true_eq] at h
    exact h.1

theorem not_interrupts (h : metadata.state ≠ .materializing) :
    Interrupts env cleanup metadata = false := by
  rw [← Bool.not_eq_true]
  exact fun hinterrupts => h (materializing_of_interrupts hinterrupts)

variable (cleanup) in
theorem shape_settled (hshape : validateMetadataShapeWith checks.toCacheChecks env.world metadata
      digest .pathsAndSizesOnly = true) :
    validateMetadataShapeWith checks.toCacheChecks env.world (settledDocument env cleanup metadata)
      digest .pathsAndSizesOnly = true := by
  rw [settledDocument]
  cases hinterrupts : Interrupts env cleanup metadata with
  | true => exact shape_interrupt env.now (materializing_of_interrupts hinterrupts) hshape
  | false => exact hshape

theorem settled_quiet_of_interrupts {found : Option CanceledCleanupReceipt}
    (h : Interrupts env cleanup metadata = true) :
    Interrupts env found (settledDocument env cleanup metadata) = false := by
  apply not_interrupts
  rw [settledDocument, h]
  nofun

/-- A document that was settled has nothing left to interrupt. -/
theorem settled_quiet : Interrupts env cleanup (settledDocument env cleanup metadata) = false := by
  cases hinterrupts : Interrupts env cleanup metadata with
  | true => exact settled_quiet_of_interrupts hinterrupts
  | false =>
      rw [settledDocument, hinterrupts]
      exact hinterrupts

theorem canceledCleanupReceipt_congr {cacheKey : String}
    (h : left.child canceledCleanupFile = children.child canceledCleanupFile) :
    canceledCleanupReceipt cacheKey left = canceledCleanupReceipt cacheKey children := by
  rw [canceledCleanupReceipt, canceledCleanupReceipt, h]

/-- What the receipt must say to be the entry's own does not change with its state. -/
theorem cleanup_written {cacheKey : String} {receipt : CanceledCleanupReceipt}
    (h : canceledCleanupReceipt cacheKey children = .ok (some receipt))
    (state : CanceledCleanupState) (possible : Bool) (detail : String) :
    canceledCleanupReceipt cacheKey (left.writeChild canceledCleanupFile (.file (.cleanup
        { receipt with
          state := state
          processExitBeforeCleanupPossible := possible
          detail := detail }))) =
      .ok (some { receipt with
        state := state
        processExitBeforeCleanupPossible := possible
        detail := detail }) := by
  rw [canceledCleanupReceipt] at h
  split at h
  · cases h
  · split at h
    · next hidentity =>
        obtain rfl := Option.some.inj (Except.ok.inj h)
        rw [canceledCleanupReceipt, Children.child_writeChild, if_pos rfl]
        exact if_pos hidentity
    · cases h
  · cases h

/-- The outcome of a pass that writes: the document, with the receipts as they stood. -/
structure SettledAs (checks : RecoveryChecks World Artifact) (env : RecoverEnv World)
    (digest : String) (cleanup : Option CanceledCleanupReceipt) (children left : Children Artifact)
    (generation : Nat) (metadata : ResolvedCacheMetadata Artifact) : Prop where
  rewritten : Rewritten checks.toCacheChecks env.world digest children left generation
    (settledDocument env cleanup metadata)
  receipt : left.child contentReceiptFile = children.child contentReceiptFile
  cleanup : ∃ found, canceledCleanupReceipt ("sha256:" ++ digest) left = .ok found ∧
    Interrupts env found (settledDocument env cleanup metadata) = false

theorem interrupts_of_filter {receipt : CanceledCleanupReceipt}
    (h : cleanup.filter (cleanupApplies env metadata) = some receipt) :
    Interrupts env cleanup metadata = true := by
  rw [Interrupts, h]
  rfl

theorem interrupts_of_none (h : cleanup.filter (cleanupApplies env metadata) = none) :
    Interrupts env cleanup metadata = materializingSessionIsStale env metadata := by
  rw [Interrupts, h]
  rfl

theorem settleReadable_idle (h : Interrupts env cleanup metadata = false) :
    settleReadable checks env digest cleanup (children, metadata, false) = .ok children := by
  rw [settleReadable]
  cases hfilter : cleanup.filter (cleanupApplies env metadata) with
  | some receipt =>
      rw [interrupts_of_filter hfilter] at h
      cases h
  | none =>
      rw [interrupts_of_none hfilter] at h
      simp only [h]
      rfl

theorem sameJournal_unpublished (children : Children Artifact) (receipt : CanceledCleanupReceipt) :
    SameJournal children
      (if receipt.cleanupUnpublished then children.removeChild bundleDir else children) := by
  split
  · exact .of_remove (ne_slotFile (by decide)) (by decide)
  · exact .refl children

/-- The bundle of the canceled reservation aside, a pass that settles a receipt writes the
document and the receipt. -/
theorem settleCleanup_writes {receipt : CanceledCleanupReceipt} {generation : Nat}
    (hreceipt : canceledCleanupReceipt ("sha256:" ++ digest) children = .ok (some receipt))
    (hinterrupts : Interrupts env cleanup metadata = true) (htombstone : NoTombstone children)
    (hshape : validateMetadataShapeWith checks.toCacheChecks env.world metadata digest
      .pathsAndSizesOnly = true)
    (hnext : nextGeneration checks.toCacheChecks env.world digest children = .ok generation) :
    ∃ left, settleCleanup checks env digest children metadata receipt = .ok left ∧
      SettledAs checks env digest cleanup children left generation metadata := by
  have hbefore := sameJournal_unpublished children receipt
  have hdocument : settledDocument env cleanup metadata =
      { metadata.interrupt with updatedAt := env.now } := by
    rw [settledDocument, if_pos hinterrupts]
  have hsettled := shape_settled cleanup hshape
  have hbeforeNext : nextGeneration checks.toCacheChecks env.world digest
      (if receipt.cleanupUnpublished then children.removeChild bundleDir else children) =
        .ok generation := hbefore.nextGeneration.trans hnext
  have hrewritten := rewritten_of_next (hbefore.tombstone.trans htombstone) hsettled hbeforeNext
  rw [settleCleanup, ← hdocument, write_of_next hsettled hbeforeNext]
  refine ⟨_, rfl, hrewritten.congr hbefore (.of_write _ (ne_slotFile (by decide)) (by decide)), ?_,
    ?_⟩
  · rw [Children.child_writeChild, if_neg (by decide : canceledCleanupFile ≠ contentReceiptFile),
      child_write (by decide)]
    split
    · rw [Children.child_removeChild, if_neg (by decide)]
    · rfl
  · exact ⟨_, cleanup_written hreceipt .cleaned false _, settled_quiet_of_interrupts hinterrupts⟩

/-- A pass that falls back or interrupts writes, as long as a generation is left. -/
theorem settleReadable_writes {changed : Bool} {generation : Nat}
    (hcleanup : canceledCleanupReceipt ("sha256:" ++ digest) children = .ok cleanup)
    (hactive : changed = true ∨ Interrupts env cleanup metadata = true)
    (htombstone : NoTombstone children)
    (hshape : validateMetadataShapeWith checks.toCacheChecks env.world metadata digest
      .pathsAndSizesOnly = true)
    (hnext : nextGeneration checks.toCacheChecks env.world digest children = .ok generation) :
    ∃ left, settleReadable checks env digest cleanup (children, metadata, changed) = .ok left ∧
      SettledAs checks env digest cleanup children left generation metadata := by
  rw [settleReadable]
  dsimp only
  cases hfilter : cleanup.filter (cleanupApplies env metadata) with
  | some receipt =>
      obtain rfl := (Option.filter_eq_some_iff.mp hfilter).1
      exact settleCleanup_writes hcleanup (interrupts_of_filter hfilter) htombstone hshape hnext
  | none =>
      have hstale := interrupts_of_none hfilter
      have hsettled := shape_settled cleanup hshape
      have hwrites : (changed || materializingSessionIsStale env metadata) = true := by
        rw [← hstale, Bool.or_eq_true]
        exact hactive
      have hrewritten := rewritten_of_next htombstone hsettled hnext
      dsimp only
      rw [if_pos hwrites, ← hstale]
      refine ⟨_, write_of_next hsettled hnext, hrewritten, child_write (by decide) _ _, cleanup, ?_,
        settled_quiet⟩
      rw [canceledCleanupReceipt_congr (child_write (by decide) _ _)]
      exact hcleanup

/-- A pass that falls back or interrupts fails when no generation is left. -/
theorem next_of_settled {changed : Bool}
    (hactive : changed = true ∨ Interrupts env cleanup metadata = true)
    (h : settleReadable checks env digest cleanup (children, metadata, changed) = .ok left) :
    ∃ generation, nextGeneration checks.toCacheChecks env.world digest children =
      .ok generation := by
  rw [settleReadable] at h
  dsimp only at h
  cases hfilter : cleanup.filter (cleanupApplies env metadata) with
  | some receipt =>
      rw [hfilter] at h
      dsimp only at h
      rw [settleCleanup] at h
      cases hwrite : writeMetadataUnlocked checks.toCacheChecks env.world digest
          (if receipt.cleanupUnpublished then children.removeChild bundleDir else children)
          { metadata.interrupt with updatedAt := env.now } with
      | error e =>
          rw [hwrite] at h
          cases h
      | ok written =>
          obtain ⟨-, generation, hnext⟩ := write_eq_ok hwrite
          exact ⟨generation,
            (sameJournal_unpublished children receipt).nextGeneration.symm.trans hnext⟩
  | none =>
      rw [hfilter] at h
      dsimp only at h
      rw [interrupts_of_none hfilter, ← Bool.or_eq_true] at hactive
      rw [if_pos hactive] at h
      exact (write_eq_ok h).2

end Settle

section Readable

variable {checks : RecoveryChecks World Artifact} {env : RecoverEnv World} {digest : String}
  {children left : Children Artifact} {metadata : ResolvedCacheMetadata Artifact}
  {cleanup : Option CanceledCleanupReceipt} {hadInvalid : Bool}

/-- The bytes of a complete document are proven; no other document needs a proof. -/
def Proven (checks : RecoveryChecks World Artifact) (world : World) (children : Children Artifact)
    (metadata : ResolvedCacheMetadata Artifact) : Prop :=
  metadata.state = .complete → checks.completeShape world children metadata = true ∧
    ∃ found, checks.completeContent world children metadata = some found

/-- The document a pass goes on with: pinned, when an invalid slot stands beside it. -/
def fallbackDocument (hadInvalid : Bool) (metadata : ResolvedCacheMetadata Artifact) :
    ResolvedCacheMetadata Artifact :=
  if hadInvalid then metadata.pinRecovered .recoveredFromOlderSlot else metadata

theorem fallbackDocument_interrupts :
    Interrupts env cleanup (fallbackDocument hadInvalid metadata) =
    Interrupts env cleanup metadata := by
  cases hadInvalid <;> rfl

/-- The pass goes on to write: it falls back, or it interrupts. -/
def Active (checks : RecoveryChecks World Artifact) (env : RecoverEnv World)
    (cleanup : Option CanceledCleanupReceipt) (children : Children Artifact)
    (metadata : ResolvedCacheMetadata Artifact) (hadInvalid : Bool) : Prop :=
  (hadInvalid = true ∧ Proven checks env.world children metadata) ∨
    (hadInvalid = false ∧ Interrupts env cleanup metadata = true)

variable (digest) in
theorem recoverReadable_active (steady : Steady checks)
    (h : Active checks env cleanup children metadata hadInvalid) :
    ∃ present, recoverReadable checks env digest cleanup children metadata hadInvalid =
        settleReadable checks env digest cleanup
          (present, fallbackDocument hadInvalid metadata, hadInvalid) ∧
      (∀ name, name ≠ contentReceiptFile → present.child name = children.child name) ∧
      (metadata.state = .complete →
        checks.completeContent env.world children metadata = some present) := by
  rw [recoverReadable_eq]
  obtain ⟨rfl, hproven⟩ | ⟨rfl, hinterrupts⟩ := h
  · by_cases hstate : metadata.state = .complete
    · obtain ⟨hshape, present, hcontent⟩ := hproven hstate
      refine ⟨present, ?_, fun name hname => steady.frame _ _ _ _ hcontent name hname,
        fun _ => hcontent⟩
      rw [if_neg (by simp [hshape]), recoverOlderSlot, if_neg (by simp), if_pos hstate, hcontent]
      rfl
    · refine ⟨children, ?_, fun _ _ => rfl, fun h => absurd h hstate⟩
      rw [if_neg (by simp [hstate]), recoverOlderSlot, if_neg (by simp), if_neg hstate]
      rfl
  · have hstate : metadata.state ≠ .complete := by
      rw [materializing_of_interrupts hinterrupts]
      nofun
    refine ⟨children, ?_, fun _ _ => rfl, fun h => absurd h hstate⟩
    rw [if_neg (by simp [hstate]), recoverOlderSlot, if_pos (by simp)]
    rfl

theorem shape_fallback (h : validateMetadataShapeWith checks.toCacheChecks env.world metadata digest
      .pathsAndSizesOnly = true) :
    validateMetadataShapeWith checks.toCacheChecks env.world
      (fallbackDocument hadInvalid metadata) digest .pathsAndSizesOnly = true := by
  cases hadInvalid with
  | false => exact h
  | true => exact shape_pinRecovered .recoveredFromOlderSlot metadata.updatedAt h

theorem sameJournal_of_frame
    (h : ∀ name, name ≠ contentReceiptFile → left.child name = children.child name) :
    SameJournal children left where
  slot slot hslot := h _ (ne_slotFile (by decide) slot hslot).symm
  tombstone := h _ (by decide)

/-- What a pass that writes leaves: the document is read back, nothing is left to interrupt,
and the validation of a complete document passes again. -/
structure Wrote (checks : RecoveryChecks World Artifact) (env : RecoverEnv World)
    (digest : String) (children left : Children Artifact) (generation : Nat)
    (document : ResolvedCacheMetadata Artifact) : Prop where
  rewritten : Rewritten checks.toCacheChecks env.world digest children left generation document
  quiet : ∃ found, canceledCleanupReceipt ("sha256:" ++ digest) left = .ok found ∧
    Interrupts env found document = false
  proven : Proven checks env.world left document

theorem recoverReadable_writes (steady : Steady checks) {generation : Nat}
    (hread : readMetadataUnlocked checks.toCacheChecks env.world digest children =
      .ok (.valid metadata hadInvalid))
    (hcleanup : canceledCleanupReceipt ("sha256:" ++ digest) children = .ok cleanup)
    (hactive : Active checks env cleanup children metadata hadInvalid)
    (hnext : nextGeneration checks.toCacheChecks env.world digest children = .ok generation) :
    ∃ left, recoverReadable checks env digest cleanup children metadata hadInvalid = .ok left ∧
      Wrote checks env digest children left generation
        (settledDocument env cleanup (fallbackDocument hadInvalid metadata)) := by
  obtain ⟨present, hpass, hframe, hcontent⟩ := recoverReadable_active digest steady hactive
  have hjournal := sameJournal_of_frame hframe
  have hsettles : hadInvalid = true ∨
      Interrupts env cleanup (fallbackDocument hadInvalid metadata) = true := by
    rw [fallbackDocument_interrupts]
    exact hactive.imp And.left And.right
  obtain ⟨left, hleft, hsettled⟩ := settleReadable_writes
    ((canceledCleanupReceipt_congr (hframe _ (by decide))).trans hcleanup) hsettles
    (hjournal.tombstone.trans (invalid_of_read hread).2)
    (shape_fallback (shape_of_readMetadata hread)) (hjournal.nextGeneration.trans hnext)
  refine ⟨left, hpass.trans hleft, hsettled.rewritten.congr hjournal (.refl left),
    hsettled.cleanup, fun hstate => ?_⟩
  cases hinterrupts : Interrupts env cleanup (fallbackDocument hadInvalid metadata) with
  | true =>
      rw [settledDocument, hinterrupts] at hstate
      cases hstate
  | false =>
      obtain ⟨rfl, -⟩ | ⟨-, hcut⟩ := hactive
      · have hdocument : settledDocument env cleanup (fallbackDocument true metadata) =
            { metadata.pinRecovered .recoveredFromOlderSlot with updatedAt := env.now } := by
          rw [settledDocument, hinterrupts]
          rfl
        rw [hdocument] at hstate ⊢
        exact steady.again _ _ _ _ (hcontent hstate) left _ _ hsettled.receipt
      · rw [fallbackDocument_interrupts, hcut] at hinterrupts
        cases hinterrupts

theorem next_of_recoverReadable (steady : Steady checks)
    (hactive : Active checks env cleanup children metadata hadInvalid)
    (h : recoverReadable checks env digest cleanup children metadata hadInvalid = .ok left) :
    ∃ generation, nextGeneration checks.toCacheChecks env.world digest children =
      .ok generation := by
  obtain ⟨present, hpass, hframe, -⟩ := recoverReadable_active digest steady hactive
  have hsettles : hadInvalid = true ∨
      Interrupts env cleanup (fallbackDocument hadInvalid metadata) = true := by
    rw [fallbackDocument_interrupts]
    exact hactive.imp And.left And.right
  obtain ⟨generation, hnext⟩ := next_of_settled hsettles (hpass.symm.trans h)
  exact ⟨generation, (sameJournal_of_frame hframe).nextGeneration.symm.trans hnext⟩

variable (digest) in
/-- A pass that does not go on to write leaves the entry, or notes that it is corrupt. -/
theorem recoverReadable_inactive (h : ¬ Active checks env cleanup children metadata hadInvalid) :
    recoverReadable checks env digest cleanup children metadata hadInvalid =
        .ok (writeCorruptMarker env children) ∧ metadata.state = .complete ∧
          (hadInvalid = true ∨ checks.completeShape env.world children metadata = false) ∨
      recoverReadable checks env digest cleanup children metadata hadInvalid = .ok children ∧
        hadInvalid = false := by
  rw [Active, not_or] at h
  rw [recoverReadable_eq]
  split
  · next hbroken =>
      simp only [Bool.and_eq_true, decide_eq_true_eq, Bool.not_eq_true'] at hbroken
      exact .inl ⟨rfl, hbroken.1, .inr hbroken.2⟩
  · next hwhole =>
      cases hadInvalid with
      | false =>
          have hquiet : Interrupts env cleanup metadata = false := by
            rw [← Bool.not_eq_true]
            exact fun hcut => h.2 ⟨rfl, hcut⟩
          refine .inr ⟨?_, rfl⟩
          rw [recoverOlderSlot, if_pos (by simp)]
          exact settleReadable_idle hquiet
      | true =>
          have hrefused : metadata.state = .complete ∧
              checks.completeContent env.world children metadata = none := by
            have hproven : ¬ Proven checks env.world children metadata := fun hp => h.1 ⟨rfl, hp⟩
            rw [Proven, Classical.not_imp] at hproven
            obtain ⟨hstate, hproven⟩ := hproven
            refine ⟨hstate, ?_⟩
            have hshape : checks.completeShape env.world children metadata = true := by
              simpa [hstate] using hwhole
            cases hcontent : checks.completeContent env.world children metadata with
            | none => rfl
            | some found => exact absurd ⟨hshape, found, hcontent⟩ hproven
          have hquiet : Interrupts env cleanup metadata = false := by
            apply not_interrupts
            rw [hrefused.1]
            nofun
          refine .inl ⟨?_, hrefused.1, .inl rfl⟩
          rw [recoverOlderSlot, if_neg (by simp), if_pos hrefused.1, hrefused.2]
          exact settleReadable_idle hquiet

end Readable

end SceneWorks.ResolvedCache
