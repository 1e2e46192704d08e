import SceneWorks.ResolvedCache.Recovery

/-!
What `recover` promises of one entry: a second pass changes nothing, a pin is set for a
damaged journal only, and a journal of a newer build is left alone. The promises hold
exactly where no slot is taken for damaged that is not, and where the write of a pass takes
the place of the invalid slot.
-/

namespace SceneWorks.ResolvedCache

variable {World Artifact : Type}

/-- Everything but the observation that the entry is corrupt is the same in both. -/
def SameRecords (children left : Children Artifact) : Prop :=
  ∀ name, name ≠ corruptMarkerFile → left.child name = children.child name

section Pass

variable {checks : RecoveryChecks World Artifact} {env : RecoverEnv World} {digest : String}
  {children left : Children Artifact} {metadata : ResolvedCacheMetadata Artifact}
  {cleanup : Option CanceledCleanupReceipt} {hadInvalid : Bool}

theorem sameRecords_marked (env : RecoverEnv World) (children : Children Artifact) :
    SameRecords children (writeCorruptMarker env children) := fun name hname => by
  rw [writeCorruptMarker, Children.child_writeChild, if_neg hname.symm]

theorem SameRecords.journal (h : SameRecords children left) : SameJournal children left where
  slot slot hslot := h _ (ne_slotFile (by decide) slot hslot).symm
  tombstone := h _ (by decide)

variable (env) in
theorem recoverEntry_of_cleanup
    (hcleanup : canceledCleanupReceipt ("sha256:" ++ digest) children = .ok cleanup) :
    recoverEntry checks env digest children =
      match readMetadataUnlocked checks.toCacheChecks env.world digest children with
      | .ok (.valid metadata hadInvalidSlot) =>
          some <$> recoverReadable checks env digest cleanup children metadata hadInvalidSlot
      | .ok (.evicted _) => finishPendingEviction checks digest children
      | .ok .missing => .ok (some (writeCorruptMarker env children))
      | .error _ => some <$> recoverUnreadable checks env digest children := by
  rw [recoverEntry, hcleanup]
  rfl

variable (env) in
theorem recoverEntry_read
    (hcleanup : canceledCleanupReceipt ("sha256:" ++ digest) children = .ok cleanup)
    (hread : readMetadataUnlocked checks.toCacheChecks env.world digest children =
      .ok (.valid metadata hadInvalid)) :
    recoverEntry checks env digest children =
      some <$> recoverReadable checks env digest cleanup children metadata hadInvalid := by
  rw [recoverEntry_of_cleanup env hcleanup, hread]

theorem map_some_eq_ok {result : Except CacheError (Children Artifact)} :
    some <$> result = .ok (some left) ↔ result = .ok left := by
  cases result with
  | error e => exact ⟨nofun, nofun⟩
  | ok found =>
      constructor
      · rintro ⟨⟩
        rfl
      · rintro ⟨⟩
        rfl

/-- A pass over a journal without an invalid slot and without a reservation to interrupt. -/
theorem recoverEntry_quiet {found : Option CanceledCleanupReceipt}
    (hread : readMetadataUnlocked checks.toCacheChecks env.world digest children =
      .ok (.valid metadata false))
    (hcleanup : canceledCleanupReceipt ("sha256:" ++ digest) children = .ok found)
    (hquiet : Interrupts env found metadata = false) :
    ∃ left, recoverEntry checks env digest children = .ok (some left) ∧
      SameRecords children left := by
  have hinactive : ¬ Active checks env found children metadata false := by
    rintro (⟨h, -⟩ | ⟨-, h⟩)
    · cases h
    · rw [hquiet] at h
      cases h
  rw [recoverEntry_read env hcleanup hread]
  obtain ⟨hpass, -⟩ | ⟨hpass, -⟩ := recoverReadable_inactive digest hinactive
  · rw [hpass]
    exact ⟨_, rfl, sameRecords_marked env children⟩
  · rw [hpass]
    exact ⟨_, rfl, fun _ _ => rfl⟩

/-- A pass over a journal that falls back changes it. -/
theorem recoverEntry_fallback (steady : Steady checks)
    (hread : readMetadataUnlocked checks.toCacheChecks env.world digest children =
      .ok (.valid metadata true))
    (hcleanup : canceledCleanupReceipt ("sha256:" ++ digest) children = .ok cleanup)
    (hproven : Proven checks env.world children metadata)
    (h : recoverEntry checks env digest children = .ok (some left)) :
    ∃ generation, Wrote checks env digest children left generation
      (settledDocument env cleanup (fallbackDocument true metadata)) := by
  rw [recoverEntry_read env hcleanup hread, map_some_eq_ok] at h
  obtain ⟨generation, hnext⟩ := next_of_recoverReadable steady (.inl ⟨rfl, hproven⟩) h
  obtain ⟨found, hfound, hwrote⟩ :=
    recoverReadable_writes steady hread hcleanup (.inl ⟨rfl, hproven⟩) hnext
  obtain rfl := Except.ok.inj (hfound.symm.trans h)
  exact ⟨generation, hwrote⟩

/-- After a pass that wrote, the next one changes nothing exactly when the slot that was not
written is not invalid. -/
theorem again_iff (steady : Steady checks) {generation : Nat} (later : Nat)
    {document : ResolvedCacheMetadata Artifact}
    (h : Wrote checks env digest children left generation document) :
    (∃ again, recoverEntry checks { env with now := later } digest left = .ok (some again) ∧
        SameRecords left again) ↔
      (readSlot checks.toCacheChecks env.world digest children
        ((generation + 1) % 2)).isInvalid = false := by
  obtain ⟨found, hcleanup, hquiet⟩ := h.quiet
  have hread := read_rewritten h.rewritten
  cases hinvalid : (readSlot checks.toCacheChecks env.world digest children
      ((generation + 1) % 2)).isInvalid with
  | false =>
      rw [hinvalid] at hread
      exact iff_of_true (recoverEntry_quiet hread hcleanup hquiet) rfl
  | true =>
      rw [hinvalid] at hread
      refine iff_of_false ?_ nofun
      rintro ⟨again, hagain, hsame⟩
      have hlater : readMetadataUnlocked checks.toCacheChecks
          ({ env with now := later } : RecoverEnv World).world digest left =
            .ok (.valid document true) := hread
      obtain ⟨next, hwrote⟩ := recoverEntry_fallback steady hlater hcleanup h.proven hagain
      exact not_same_of_rewritten ⟨_, _, hread⟩ hwrote.rewritten
        (hsame.journal.slot _ (Nat.mod_lt _ (by decide)))

end Pass

section Receipt

variable {checks : RecoveryChecks World Artifact} {env : RecoverEnv World} {digest : String}
  {children left : Children Artifact} {metadata : ResolvedCacheMetadata Artifact}
  {cleanup : Option CanceledCleanupReceipt}

def provenReceipt (checks : RecoveryChecks World Artifact) (world : World)
    (children : Children Artifact) : Option (Children Artifact × ResolvedCacheMetadata Artifact) :=
  (readCompleteReceipt checks children).bind fun metadata =>
    (checks.completeContent world children metadata).map fun children => (children, metadata)

/-- The document the complete receipt is resurrected with. -/
def resurrected (env : RecoverEnv World) (metadata : ResolvedCacheMetadata Artifact) :
    ResolvedCacheMetadata Artifact :=
  { metadata.pinRecovered .reconstructedFromCompleteReceipt with updatedAt := env.now }

/-- The receipt of this entry is proven, and a generation is left for its document. -/
structure Resurrects (checks : RecoveryChecks World Artifact) (env : RecoverEnv World)
    (digest : String) (children : Children Artifact) (metadata : ResolvedCacheMetadata Artifact)
    (generation : Nat) : Prop where
  unread : ∃ error, readMetadataUnlocked checks.toCacheChecks env.world digest children =
    .error error
  proven : ∃ present, provenReceipt checks env.world children = some (present, metadata)
  shape : validateMetadataShapeWith checks.toCacheChecks env.world (resurrected env metadata) digest
    .pathsAndSizesOnly = true
  next : nextGeneration checks.toCacheChecks env.world digest
    (children.removeChild evictedMarkerFile) = .ok generation

variable (env) in
theorem recoverEntry_unread {error : CacheError}
    (hcleanup : canceledCleanupReceipt ("sha256:" ++ digest) children = .ok cleanup)
    (hread : readMetadataUnlocked checks.toCacheChecks env.world digest children = .error error) :
    recoverEntry checks env digest children =
      some <$> recoverUnreadable checks env digest children := by
  rw [recoverEntry_of_cleanup env hcleanup, hread]

theorem recoverUnreadable_eq : recoverUnreadable checks env digest children =
    match provenReceipt checks env.world children with
    | none => .ok (writeCorruptMarker env children)
    | some (children, metadata) =>
        writeMetadataUnlocked checks.toCacheChecks env.world digest
          (children.removeChild evictedMarkerFile) (resurrected env metadata) := rfl

theorem complete_of_receipt (h : readCompleteReceipt checks children = some metadata) :
    metadata.state = .complete := by
  rw [readCompleteReceipt] at h
  split at h
  · split at h
    · next hvalid =>
        obtain rfl := Option.some.inj h
        simp only [ReceiptEnvelope.isValid, Bool.and_eq_true, decide_eq_true_eq] at hvalid
        exact hvalid.1.2
    · cases h
  · cases h

theorem provenReceipt_eq_some {present : Children Artifact}
    (h : provenReceipt checks env.world children = some (present, metadata)) :
    readCompleteReceipt checks children = some metadata ∧
      checks.completeContent env.world children metadata = some present := by
  rw [provenReceipt, Option.bind_eq_some_iff] at h
  obtain ⟨found, hreceipt, hcontent⟩ := h
  obtain ⟨after, hafter, heq⟩ := Option.map_eq_some_iff.mp hcontent
  cases heq
  exact ⟨hreceipt, hafter⟩

/-- Without its tombstone an entry stands as the validation of its receipt left it. -/
theorem sameJournal_proven (steady : Steady checks) {present : Children Artifact}
    (h : checks.completeContent env.world children metadata = some present) :
    SameJournal (children.removeChild evictedMarkerFile)
      (present.removeChild evictedMarkerFile) where
  slot slot hslot := by
    rw [Children.child_removeChild, Children.child_removeChild,
      steady.frame _ _ _ _ h _ (ne_slotFile (by decide) slot hslot).symm]
  tombstone :=
    by rw [Children.child_removeChild, Children.child_removeChild, if_pos rfl, if_pos rfl]

theorem recoverUnreadable_writes (steady : Steady checks) {generation : Nat}
    (hcleanup : canceledCleanupReceipt ("sha256:" ++ digest) children = .ok cleanup)
    (h : Resurrects checks env digest children metadata generation) :
    ∃ left, recoverUnreadable checks env digest children = .ok left ∧
      Wrote checks env digest (children.removeChild evictedMarkerFile) left generation
        (resurrected env metadata) := by
  obtain ⟨present, hproven⟩ := h.proven
  obtain ⟨hreceipt, hcontent⟩ := provenReceipt_eq_some hproven
  have hjournal := sameJournal_proven steady hcontent
  have hnext := hjournal.nextGeneration.trans h.next
  have htombstone : NoTombstone (present.removeChild evictedMarkerFile) := by
    rw [NoTombstone, Children.child_removeChild, if_pos rfl]
  have hcomplete := complete_of_receipt hreceipt
  have hstate : (resurrected env metadata).state = .complete := hcomplete
  rw [recoverUnreadable_eq, hproven]
  dsimp only
  refine ⟨_, write_of_next h.shape hnext,
    (rewritten_of_next htombstone h.shape hnext).congr hjournal (.refl _), ⟨cleanup, ?_, ?_⟩,
    fun _ => ?_⟩
  · rw [← hcleanup]
    apply canceledCleanupReceipt_congr
    rw [child_write (by decide), Children.child_removeChild, if_neg (by decide)]
    exact steady.frame _ _ _ _ hcontent _ (by decide)
  · apply not_interrupts
    rw [hstate]
    decide
  · refine steady.again _ _ _ _ hcontent _ _ _ ?_
    rw [child_write (by decide), Children.child_removeChild, if_neg (by decide)]

/-- A pass over an unreadable entry notes that it is corrupt, fails, or resurrects it. -/
theorem recoverUnreadable_cases (steady : Steady checks) {error : CacheError}
    (hread : readMetadataUnlocked checks.toCacheChecks env.world digest children = .error error)
    (h : recoverUnreadable checks env digest children = .ok left) :
    provenReceipt checks env.world children = none ∧ left = writeCorruptMarker env children ∨
      ∃ metadata generation, Resurrects checks env digest children metadata generation := by
  rw [recoverUnreadable_eq] at h
  cases hproven : provenReceipt checks env.world children with
  | none =>
      rw [hproven] at h
      exact .inl ⟨rfl, (Except.ok.inj h).symm⟩
  | some found =>
      obtain ⟨present, metadata⟩ := found
      rw [hproven] at h
      dsimp only at h
      obtain ⟨hshape, generation, hnext⟩ := write_eq_ok h
      obtain ⟨-, hcontent⟩ := provenReceipt_eq_some hproven
      exact .inr ⟨metadata, generation, ⟨error, hread⟩, ⟨present, hproven⟩, hshape,
        (sameJournal_proven steady hcontent).nextGeneration.symm.trans hnext⟩

theorem provenReceipt_marked (steady : Steady checks)
    (h : provenReceipt checks env.world children = none) :
    provenReceipt checks env.world (writeCorruptMarker env children) = none := by
  have hreceipt : readCompleteReceipt checks (writeCorruptMarker env children) =
      readCompleteReceipt checks children := by
    rw [readCompleteReceipt, readCompleteReceipt,
      sameRecords_marked env children completeReceiptFile (by decide)]
  rw [provenReceipt, Option.bind_eq_none_iff] at h ⊢
  intro metadata hmetadata
  rw [hreceipt] at hmetadata
  have hnone := h metadata hmetadata
  rw [Option.map_eq_none_iff] at hnone ⊢
  exact steady.content_marked _ _ _ _ hnone

end Receipt

section Damage

variable (checks : RecoveryChecks World Artifact) (env : RecoverEnv World) (digest : String)
  (children : Children Artifact)

def recordedGeneration : Node Artifact → Option Nat
  | .file (.journal envelope) => some envelope.generation
  | _ => none

/-- A slot cannot be read or fails its checksum and is not recorded as the older one, or no
slot is reached because of what stands at the place of the tombstone. -/
def Damaged : Prop :=
  (∃ error, readEvictionMarker checks.toCacheChecks digest children = .error error) ∨
    ∃ slot < 2, ∃ node error, children.child (slotFile slot) = some node ∧
      readJournal checks.toCacheChecks node = .error error ∧
      ∀ other < 2, ∀ beside, children.child (slotFile other) = some beside →
        ∀ mine ∈ recordedGeneration node, ∀ theirs ∈ recordedGeneration beside, theirs ≤ mine

/-- There is a journal, and a newer version wrote every slot of it. -/
def AllNewer : Prop :=
  (∃ slot < 2, children.child (slotFile slot) ≠ none) ∧
    ∀ slot < 2, ∀ node, children.child (slotFile slot) = some node →
      ∃ version, readJournal checks.toCacheChecks node = .error (.unsupportedJournalVersion version)

def journalDocument : Option (ResolvedCacheMetadata Artifact) :=
  match readMetadataUnlocked checks.toCacheChecks env.world digest children with
  | .ok (.valid metadata _) => some metadata
  | _ => none

/-- The entry left reads as pinned, or as recovered from its older slot, and did not before. -/
def SetsPin (left : Children Artifact) : Prop :=
  ∃ after, journalDocument checks env digest left = some after ∧
    (after.artifactPinned = true ∧
        (∀ before, journalDocument checks env digest children = some before →
          before.artifactPinned = false) ∨
      after.recoveryStatus = .recoveredFromOlderSlot ∧
        ∀ before, journalDocument checks env digest children = some before →
          before.recoveryStatus ≠ .recoveredFromOlderSlot)

/-- A second pass changes no record, a pin needs damage, a newer journal is left as it is. -/
structure RecoversSoundly (later : Nat) : Prop where
  twice : ∀ left, recoverEntry checks env digest children = .ok (some left) →
    ∃ again, recoverEntry checks { env with now := later } digest left = .ok (some again) ∧
      SameRecords left again
  pins : ∀ left, recoverEntry checks env digest children = .ok (some left) →
    SetsPin checks env digest children left → Damaged checks digest children
  newer : AllNewer checks children →
    ∀ left, recoverEntry checks env digest children = .ok left → left = some children

/-- A document counts beside an invalid slot, its bytes are proven, a generation is left. -/
structure FallsBack (metadata : ResolvedCacheMetadata Artifact) : Prop where
  read : readMetadataUnlocked checks.toCacheChecks env.world digest children =
    .ok (.valid metadata true)
  proven : Proven checks env.world children metadata
  room : highestGeneration checks.toCacheChecks children < u64Max

/-- Where recovery intervenes, the journal is damaged and the next write takes the place of the
invalid slot; a newer journal has nothing a pass would write to. -/
structure Warranted (cleanup : Option CanceledCleanupReceipt) : Prop where
  fallback : ∀ metadata, FallsBack checks env digest children metadata →
    (readSlot checks.toCacheChecks env.world digest children
        (highestGeneration checks.toCacheChecks children % 2)).isInvalid = false ∧
      (Damaged checks digest children ∨ metadata.artifactPinned = true ∧
        (metadata.recoveryStatus = .recoveredFromOlderSlot ∨
          Interrupts env cleanup metadata = true))
  receipt : ∀ metadata generation, Resurrects checks env digest children metadata generation →
    (readSlot checks.toCacheChecks env.world digest children
        ((generation + 1) % 2)).isInvalid = false ∧ Damaged checks digest children
  newer : AllNewer checks children →
    (∀ marker, readEvictionMarker checks.toCacheChecks digest children ≠ .ok (some marker)) ∧
      (∀ metadata generation, ¬ Resurrects checks env digest children metadata generation) ∧
      (provenReceipt checks env.world children = none → writeCorruptMarker env children = children)

end Damage

section Outcomes

variable {checks : RecoveryChecks World Artifact} {env : RecoverEnv World} {digest : String}
  {children left : Children Artifact} {metadata : ResolvedCacheMetadata Artifact}
  {cleanup : Option CanceledCleanupReceipt} {hadInvalid : Bool}

theorem active_marked (steady : Steady checks) {later : Nat}
    (h : Active checks { env with now := later } cleanup (writeCorruptMarker env children) metadata
      hadInvalid) : Active checks env cleanup children metadata hadInvalid := by
  obtain ⟨rfl, hproven⟩ | ⟨rfl, hcut⟩ := h
  · refine .inl ⟨rfl, fun hstate => ?_⟩
    obtain ⟨hshape, found, hcontent⟩ := hproven hstate
    refine ⟨(steady.shape_marked _ _ _ _).symm.trans hshape, Option.ne_none_iff_exists'.mp ?_⟩
    intro hnone
    cases (steady.content_marked _ _ _ _ hnone).symm.trans hcontent
  · exact .inr ⟨rfl, hcut⟩

theorem cleanup_marked :
    canceledCleanupReceipt ("sha256:" ++ digest) (writeCorruptMarker env children) =
    canceledCleanupReceipt ("sha256:" ++ digest) children :=
  canceledCleanupReceipt_congr (sameRecords_marked env children _ (by decide))

theorem read_marked : readMetadataUnlocked checks.toCacheChecks env.world digest
    (writeCorruptMarker env children) =
      readMetadataUnlocked checks.toCacheChecks env.world digest children :=
  (sameRecords_marked env children).journal.read

/-- A pass that wrote no document, and what the next one makes of what it left. -/
def Idle (checks : RecoveryChecks World Artifact) (env : RecoverEnv World) (digest : String)
    (children left : Children Artifact) : Prop :=
  SameRecords children left ∧
    ∀ later, ∃ again, recoverEntry checks { env with now := later } digest left = .ok (some again) ∧
      SameRecords left again

theorem idle_of_inactive (steady : Steady checks)
    (hcleanup : canceledCleanupReceipt ("sha256:" ++ digest) children = .ok cleanup)
    (hread : readMetadataUnlocked checks.toCacheChecks env.world digest children =
      .ok (.valid metadata hadInvalid))
    (hinactive : ¬ Active checks env cleanup children metadata hadInvalid)
    (h : recoverReadable checks env digest cleanup children metadata hadInvalid = .ok left) :
    Idle checks env digest children left := by
  have hagain : ∀ (later : Nat) (present : Children Artifact),
      ¬ Active checks { env with now := later } cleanup present metadata hadInvalid →
      ∃ again, recoverReadable checks { env with now := later } digest cleanup present metadata
        hadInvalid = .ok again ∧ SameRecords present again := by
    intro later present hnot
    obtain ⟨hpass, -⟩ | ⟨hpass, -⟩ := recoverReadable_inactive digest hnot
    · exact ⟨_, hpass, sameRecords_marked _ _⟩
    · exact ⟨_, hpass, fun _ _ => rfl⟩
  obtain ⟨hpass, -⟩ | ⟨hpass, -⟩ := recoverReadable_inactive digest hinactive
  · obtain rfl := Except.ok.inj (hpass.symm.trans h)
    refine ⟨sameRecords_marked env children, fun later => ?_⟩
    obtain ⟨again, hpassAgain, hsame⟩ :=
      hagain later _ fun hactive => hinactive (active_marked steady hactive)
    refine ⟨again, ?_, hsame⟩
    have hreadAgain : readMetadataUnlocked checks.toCacheChecks env.world digest
        (writeCorruptMarker env children) = _ := read_marked.trans hread
    rw [recoverEntry_read { env with now := later } (cleanup_marked.trans hcleanup) hreadAgain,
      hpassAgain]
    rfl
  · obtain rfl := Except.ok.inj (hpass.symm.trans h)
    refine ⟨fun _ _ => rfl, fun later => ?_⟩
    obtain ⟨again, hpassAgain, hsame⟩ := hagain later _ hinactive
    refine ⟨again, ?_, hsame⟩
    rw [recoverEntry_read { env with now := later } hcleanup hread, hpassAgain]
    rfl

theorem idle_of_missing
    (hcleanup : canceledCleanupReceipt ("sha256:" ++ digest) children = .ok cleanup)
    (hread : readMetadataUnlocked checks.toCacheChecks env.world digest children = .ok .missing) :
    Idle checks env digest children (writeCorruptMarker env children) := by
  refine ⟨sameRecords_marked env children, fun later => ⟨_, ?_, sameRecords_marked
    { env with now := later } _⟩⟩
  have hreadAgain : readMetadataUnlocked checks.toCacheChecks env.world digest
      (writeCorruptMarker env children) = _ := read_marked.trans hread
  rw [recoverEntry_of_cleanup { env with now := later } (cleanup_marked.trans hcleanup), hreadAgain]

theorem idle_of_refused (steady : Steady checks) {error : CacheError}
    (hcleanup : canceledCleanupReceipt ("sha256:" ++ digest) children = .ok cleanup)
    (hread : readMetadataUnlocked checks.toCacheChecks env.world digest children = .error error)
    (hrefused : provenReceipt checks env.world children = none) :
    Idle checks env digest children (writeCorruptMarker env children) := by
  refine ⟨sameRecords_marked env children, fun later => ⟨_, ?_, sameRecords_marked
    { env with now := later } _⟩⟩
  have hreadAgain : readMetadataUnlocked checks.toCacheChecks env.world digest
      (writeCorruptMarker env children) = _ := read_marked.trans hread
  rw [recoverEntry_unread { env with now := later } (cleanup_marked.trans hcleanup) hreadAgain,
    recoverUnreadable_eq, provenReceipt_marked steady hrefused]
  rfl

/-- What a pass that leaves an entry did. -/
inductive Outcome (checks : RecoveryChecks World Artifact) (env : RecoverEnv World)
    (digest : String) (cleanup : Option CanceledCleanupReceipt)
    (children left : Children Artifact) : Prop where
  | idle (h : Idle checks env digest children left)
  | settled {metadata : ResolvedCacheMetadata Artifact} {hadInvalid : Bool} {generation : Nat}
      (hread : readMetadataUnlocked checks.toCacheChecks env.world digest children =
        .ok (.valid metadata hadInvalid))
      (hactive : Active checks env cleanup children metadata hadInvalid)
      (hwrote : Wrote checks env digest children left generation
        (settledDocument env cleanup (fallbackDocument hadInvalid metadata)))
  | resurrected {metadata : ResolvedCacheMetadata Artifact} {generation : Nat}
      (h : Resurrects checks env digest children metadata generation)
      (hwrote : Wrote checks env digest (children.removeChild evictedMarkerFile) left generation
        (resurrected env metadata))

theorem finishPendingEviction_ok
    (h : finishPendingEviction checks digest children = .ok (some left)) : False := by
  rw [finishPendingEviction] at h
  cases hmarker : readEvictionMarker checks.toCacheChecks digest children with
  | error e =>
      rw [hmarker] at h
      cases h
  | ok found =>
      rw [hmarker] at h
      cases found with
      | none => cases h
      | some marker =>
          have hlast := (congrArg Except.ok (evictionStates_last children)).symm.trans h
          cases hlast

theorem recoverEntry_outcome (steady : Steady checks)
    (hcleanup : canceledCleanupReceipt ("sha256:" ++ digest) children = .ok cleanup)
    (h : recoverEntry checks env digest children = .ok (some left)) :
    Outcome checks env digest cleanup children left := by
  cases hread : readMetadataUnlocked checks.toCacheChecks env.world digest children with
  | error error =>
      rw [recoverEntry_unread env hcleanup hread, map_some_eq_ok] at h
      obtain ⟨hrefused, rfl⟩ | ⟨metadata, generation, hresurrects⟩ :=
        recoverUnreadable_cases steady hread h
      · exact .idle (idle_of_refused steady hcleanup hread hrefused)
      · obtain ⟨found, hfound, hwrote⟩ := recoverUnreadable_writes steady hcleanup hresurrects
        obtain rfl := Except.ok.inj (hfound.symm.trans h)
        exact .resurrected hresurrects hwrote
  | ok read =>
      cases read with
      | missing =>
          rw [recoverEntry_of_cleanup env hcleanup, hread] at h
          obtain rfl := Option.some.inj (Except.ok.inj h)
          exact .idle (idle_of_missing hcleanup hread)
      | evicted marker =>
          rw [recoverEntry_of_cleanup env hcleanup, hread] at h
          exact (finishPendingEviction_ok h).elim
      | valid metadata hadInvalid =>
          rw [recoverEntry_read env hcleanup hread, map_some_eq_ok] at h
          by_cases hactive : Active checks env cleanup children metadata hadInvalid
          · obtain ⟨generation, hnext⟩ := next_of_recoverReadable steady hactive h
            obtain ⟨found, hfound, hwrote⟩ :=
              recoverReadable_writes steady hread hcleanup hactive hnext
            obtain rfl := Except.ok.inj (hfound.symm.trans h)
            exact .settled hread hactive hwrote
          · exact .idle (idle_of_inactive steady hcleanup hread hactive h)

theorem next_of_room
    (hread : readMetadataUnlocked checks.toCacheChecks env.world digest children =
      .ok (.valid metadata hadInvalid)) {generation : Nat} :
    nextGeneration checks.toCacheChecks env.world digest children = .ok generation ↔
      highestGeneration checks.toCacheChecks children < u64Max ∧
        generation = highestGeneration checks.toCacheChecks children + 1 := by
  rw [nextGeneration, hread]
  dsimp only
  split
  · next hroom =>
      constructor
      · rintro ⟨⟩
        exact ⟨hroom, rfl⟩
      · rintro ⟨-, rfl⟩
        rfl
  · next hfull => exact ⟨fun h => (by cases h), fun h => absurd h.1 hfull⟩

theorem fallsBack_of_wrote {generation : Nat} {document : ResolvedCacheMetadata Artifact}
    (hread : readMetadataUnlocked checks.toCacheChecks env.world digest children =
      .ok (.valid metadata true))
    (hactive : Active checks env cleanup children metadata true)
    (hwrote : Wrote checks env digest children left generation document) :
    FallsBack checks env digest children metadata ∧
      (generation + 1) % 2 = highestGeneration checks.toCacheChecks children % 2 := by
  obtain ⟨hroom, rfl⟩ := (next_of_room hread).mp hwrote.rewritten.next
  refine ⟨⟨hread, ?_, hroom⟩, by omega⟩
  obtain ⟨-, hproven⟩ | ⟨hfalse, -⟩ := hactive
  · exact hproven
  · cases hfalse

theorem wrote_of_fallsBack (steady : Steady checks)
    (hcleanup : canceledCleanupReceipt ("sha256:" ++ digest) children = .ok cleanup)
    (h : FallsBack checks env digest children metadata) :
    ∃ left, recoverEntry checks env digest children = .ok (some left) ∧
      Wrote checks env digest children left (highestGeneration checks.toCacheChecks children + 1)
        (settledDocument env cleanup (fallbackDocument true metadata)) := by
  obtain ⟨left, hpass, hwrote⟩ := recoverReadable_writes steady h.read hcleanup
    (.inl ⟨rfl, h.proven⟩) ((next_of_room h.read).mpr ⟨h.room, rfl⟩)
  refine ⟨left, ?_, hwrote⟩
  rw [recoverEntry_read env hcleanup h.read, hpass]
  rfl

theorem wrote_of_resurrects (steady : Steady checks) {generation : Nat}
    (hcleanup : canceledCleanupReceipt ("sha256:" ++ digest) children = .ok cleanup)
    (h : Resurrects checks env digest children metadata generation) :
    ∃ left, recoverEntry checks env digest children = .ok (some left) ∧
      Wrote checks env digest (children.removeChild evictedMarkerFile) left generation
        (resurrected env metadata) := by
  obtain ⟨left, hpass, hwrote⟩ := recoverUnreadable_writes steady hcleanup h
  obtain ⟨error, hread⟩ := h.unread
  refine ⟨left, ?_, hwrote⟩
  rw [recoverEntry_unread env hcleanup hread, hpass]
  rfl

theorem readSlot_untombstoned {slot : Nat} (hslot : slot < 2) :
    readSlot checks.toCacheChecks env.world digest (children.removeChild evictedMarkerFile) slot =
      readSlot checks.toCacheChecks env.world digest children slot := by
  apply readSlot_congr
  rw [Children.child_removeChild, if_neg (slotFile_ne_marker hslot).symm]

theorem not_invalid_of_read
    (hread : readMetadataUnlocked checks.toCacheChecks env.world digest children =
      .ok (.valid metadata false)) {slot : Nat} (hslot : slot < 2) :
    (readSlot checks.toCacheChecks env.world digest children slot).isInvalid = false := by
  have hall := List.any_eq_false.mp (invalid_of_read hread).1.symm
  rw [← Bool.not_eq_true]
  refine hall _ (List.mem_map.mpr ⟨slot, ?_, rfl⟩)
  obtain rfl | rfl : slot = 0 ∨ slot = 1 := by omega
  · exact List.mem_cons_self
  · exact List.mem_cons_of_mem _ List.mem_cons_self

/-- Two passes in a row, and the slot that the write of the first does not take. -/
theorem twice_iff (steady : Steady checks) (later : Nat)
    (hcleanup : canceledCleanupReceipt ("sha256:" ++ digest) children = .ok cleanup) :
    (∀ left, recoverEntry checks env digest children = .ok (some left) →
      ∃ again, recoverEntry checks { env with now := later } digest left = .ok (some again) ∧
        SameRecords left again) ↔
      (∀ metadata, FallsBack checks env digest children metadata →
        (readSlot checks.toCacheChecks env.world digest children
          (highestGeneration checks.toCacheChecks children % 2)).isInvalid = false) ∧
      ∀ metadata generation, Resurrects checks env digest children metadata generation →
        (readSlot checks.toCacheChecks env.world digest children
          ((generation + 1) % 2)).isInvalid = false := by
  have hslot : ∀ n : Nat, n % 2 < 2 := fun n => Nat.mod_lt n (by decide)
  constructor
  · intro h
    constructor
    · intro metadata hfalls
      obtain ⟨left, hpass, hwrote⟩ := wrote_of_fallsBack steady hcleanup hfalls
      have hother := (again_iff steady later hwrote).mp (h left hpass)
      rwa [Nat.add_assoc, Nat.add_mod_right] at hother
    · intro metadata generation hresurrects
      obtain ⟨left, hpass, hwrote⟩ := wrote_of_resurrects steady hcleanup hresurrects
      have hother := (again_iff steady later hwrote).mp (h left hpass)
      rwa [readSlot_untombstoned (hslot _)] at hother
  · rintro ⟨hfallback, hreceipt⟩ left h
    cases recoverEntry_outcome steady hcleanup h with
    | idle h => exact h.2 later
    | @settled metadata hadInvalid generation hread hactive hwrote =>
        refine (again_iff steady later hwrote).mpr ?_
        cases hadInvalid with
        | false => exact not_invalid_of_read hread (hslot _)
        | true =>
            obtain ⟨hfalls, hparity⟩ := fallsBack_of_wrote hread hactive hwrote
            rw [hparity]
            exact hfallback metadata hfalls
    | resurrected h hwrote =>
        refine (again_iff steady later hwrote).mpr ?_
        rw [readSlot_untombstoned (hslot _)]
        exact hreceipt _ _ h

theorem journalDocument_of_read
    (hread : readMetadataUnlocked checks.toCacheChecks env.world digest children =
      .ok (.valid metadata hadInvalid)) :
    journalDocument checks env digest children = some metadata := by
  rw [journalDocument, hread]

theorem settled_artifactPinned :
    (settledDocument env cleanup metadata).artifactPinned = metadata.artifactPinned := by
  rw [settledDocument]
  split <;> rfl

theorem settled_recoveryStatus : (settledDocument env cleanup metadata).recoveryStatus =
    if Interrupts env cleanup metadata then .interruptedReservation
    else metadata.recoveryStatus := by
  rw [settledDocument]
  split <;> rfl

theorem not_setsPin_of_same (h : SameRecords children left) :
    ¬ SetsPin checks env digest children left := by
  have hdocument : journalDocument checks env digest left =
      journalDocument checks env digest children := by
    rw [journalDocument, journalDocument, h.journal.read]
  rintro ⟨after, hafter, ⟨hpinned, hbefore⟩ | ⟨hstatus, hbefore⟩⟩
  · rw [hbefore after (hdocument.symm.trans hafter)] at hpinned
    cases hpinned
  · exact hbefore after (hdocument.symm.trans hafter) hstatus

theorem not_setsPin_of_interrupt {generation : Nat}
    (hread : readMetadataUnlocked checks.toCacheChecks env.world digest children =
      .ok (.valid metadata false))
    (hcut : Interrupts env cleanup metadata = true)
    (hwrote : Wrote checks env digest children left generation
      (settledDocument env cleanup metadata)) : ¬ SetsPin checks env digest children left := by
  have hleft := journalDocument_of_read (read_rewritten hwrote.rewritten)
  rintro ⟨after, hafter, hsets⟩
  obtain rfl := Option.some.inj (hleft.symm.trans hafter)
  obtain ⟨hpinned, hbefore⟩ | ⟨hstatus, -⟩ := hsets
  · rw [settled_artifactPinned, hbefore _ (journalDocument_of_read hread)] at hpinned
    cases hpinned
  · rw [settled_recoveryStatus, if_pos hcut] at hstatus
    cases hstatus

theorem setsPin_of_fallback {generation : Nat}
    (hread : readMetadataUnlocked checks.toCacheChecks env.world digest children =
      .ok (.valid metadata true))
    (hwrote : Wrote checks env digest children left generation
      (settledDocument env cleanup (fallbackDocument true metadata))) :
    SetsPin checks env digest children left ↔
      ¬ (metadata.artifactPinned = true ∧ (metadata.recoveryStatus = .recoveredFromOlderSlot ∨
        Interrupts env cleanup metadata = true)) := by
  have hbefore := journalDocument_of_read hread
  have hleft := journalDocument_of_read (read_rewritten hwrote.rewritten)
  have hpinned : (settledDocument env cleanup (fallbackDocument true metadata)).artifactPinned =
      true := settled_artifactPinned
  have hstatus : (settledDocument env cleanup (fallbackDocument true metadata)).recoveryStatus =
      if Interrupts env cleanup metadata then .interruptedReservation
      else .recoveredFromOlderSlot := settled_recoveryStatus
  constructor
  · rintro ⟨after, hafter, hsets⟩ ⟨halready, hsettled⟩
    obtain rfl := Option.some.inj (hleft.symm.trans hafter)
    obtain ⟨-, hnot⟩ | ⟨hset, hnot⟩ := hsets
    · rw [hnot metadata hbefore] at halready
      cases halready
    · obtain hold | hcut := hsettled
      · exact hnot metadata hbefore hold
      · rw [hstatus, if_pos hcut] at hset
        cases hset
  · intro hnew
    refine ⟨_, hleft, ?_⟩
    cases halready : metadata.artifactPinned with
    | false =>
        refine .inl ⟨hpinned, fun before hfound => ?_⟩
        rwa [← Option.some.inj (hbefore.symm.trans hfound)]
    | true =>
        rw [not_and, not_or] at hnew
        obtain ⟨hold, hcut⟩ := hnew halready
        refine .inr ⟨by rw [hstatus, if_neg hcut], fun before hfound => ?_⟩
        rwa [← Option.some.inj (hbefore.symm.trans hfound)]

theorem setsPin_of_resurrected {generation : Nat}
    (h : Resurrects checks env digest children metadata generation)
    (hwrote : Wrote checks env digest (children.removeChild evictedMarkerFile) left generation
      (resurrected env metadata)) : SetsPin checks env digest children left := by
  obtain ⟨error, hread⟩ := h.unread
  refine ⟨_, journalDocument_of_read (read_rewritten hwrote.rewritten), .inl ⟨rfl, ?_⟩⟩
  intro before hbefore
  rw [journalDocument, hread] at hbefore
  cases hbefore

/-- The pins a pass sets, and the damage they need. -/
theorem pins_iff (steady : Steady checks)
    (hcleanup : canceledCleanupReceipt ("sha256:" ++ digest) children = .ok cleanup) :
    (∀ left, recoverEntry checks env digest children = .ok (some left) →
      SetsPin checks env digest children left → Damaged checks digest children) ↔
      (∀ metadata, FallsBack checks env digest children metadata →
        Damaged checks digest children ∨ metadata.artifactPinned = true ∧
          (metadata.recoveryStatus = .recoveredFromOlderSlot ∨
            Interrupts env cleanup metadata = true)) ∧
      ∀ metadata generation, Resurrects checks env digest children metadata generation →
        Damaged checks digest children := by
  constructor
  · intro h
    constructor
    · intro metadata hfalls
      obtain ⟨left, hpass, hwrote⟩ := wrote_of_fallsBack steady hcleanup hfalls
      rw [Classical.or_iff_not_imp_right]
      exact fun hnew => h left hpass ((setsPin_of_fallback hfalls.read hwrote).mpr hnew)
    · intro metadata generation hresurrects
      obtain ⟨left, hpass, hwrote⟩ := wrote_of_resurrects steady hcleanup hresurrects
      exact h left hpass (setsPin_of_resurrected hresurrects hwrote)
  · rintro ⟨hfallback, hreceipt⟩ left h hsets
    cases recoverEntry_outcome steady hcleanup h with
    | idle h => exact absurd hsets (not_setsPin_of_same h.1)
    | @settled metadata hadInvalid generation hread hactive hwrote =>
        cases hadInvalid with
        | false =>
            obtain ⟨htrue, -⟩ | ⟨-, hcut⟩ := hactive
            · cases htrue
            · exact absurd hsets (not_setsPin_of_interrupt hread hcut hwrote)
        | true =>
            obtain ⟨hfalls, -⟩ := fallsBack_of_wrote hread hactive hwrote
            exact (hfallback metadata hfalls).resolve_right
              ((setsPin_of_fallback hread hwrote).mp hsets)
    | resurrected h _ => exact hreceipt _ _ h

theorem recoverEntry_evicted {marker : EvictionMarker}
    (hcleanup : canceledCleanupReceipt ("sha256:" ++ digest) children = .ok cleanup)
    (hmarker : readEvictionMarker checks.toCacheChecks digest children = .ok (some marker)) :
    recoverEntry checks env digest children = .ok none := by
  have hread : readMetadataUnlocked checks.toCacheChecks env.world digest children =
      .ok (.evicted marker) := by
    rw [readMetadataUnlocked, hmarker]
    rfl
  rw [recoverEntry_of_cleanup env hcleanup, hread]
  dsimp only
  rw [finishPendingEviction, hmarker]
  exact congrArg Except.ok (evictionStates_last children)

variable (env) in
theorem read_of_newer (h : AllNewer checks children)
    (hmarker : ∀ marker,
      readEvictionMarker checks.toCacheChecks digest children ≠ .ok (some marker)) :
    ∃ error, readMetadataUnlocked checks.toCacheChecks env.world digest children =
      .error error := by
  by_cases htombstone : NoTombstone children
  · have hslot : ∀ slot < 2,
        (children.child (slotFile slot) = none ∧
          readSlot checks.toCacheChecks env.world digest children slot = .absent) ∨
        ∃ version, readSlot checks.toCacheChecks env.world digest children slot =
          .unsupported version := by
      intro slot hslot
      cases hchild : children.child (slotFile slot) with
      | none => exact .inl ⟨rfl, by rw [readSlot, hchild]⟩
      | some node =>
          obtain ⟨version, hversion⟩ := h.2 slot hslot node hchild
          exact .inr ⟨version, by rw [readSlot, hchild]; dsimp only; rw [hversion]⟩
    obtain ⟨slot, hlt, hpresent⟩ := h.1
    rw [read_of_noTombstone checks.toCacheChecks digest env.world htombstone]
    simp only [List.map_cons, List.map_nil]
    obtain ⟨hzero, hfirst⟩ | ⟨first, hfirst⟩ := hslot 0 (by decide)
    · obtain ⟨hone, -⟩ | ⟨second, hsecond⟩ := hslot 1 (by decide)
      · obtain rfl | rfl : slot = 0 ∨ slot = 1 := by omega
        · exact absurd hzero hpresent
        · exact absurd hone hpresent
      · exact ⟨_, by rw [hfirst, hsecond]; rfl⟩
    · obtain ⟨-, hsecond⟩ | ⟨second, hsecond⟩ := hslot 1 (by decide)
      · exact ⟨_, by rw [hfirst, hsecond]; rfl⟩
      · exact ⟨_, by rw [hfirst, hsecond]; rfl⟩
  · obtain ⟨marker, hread⟩ | ⟨message, hread⟩ :=
      read_of_tombstone checks.toCacheChecks digest env.world htombstone
    · exact absurd (readEvictionMarker_of_evicted hread) (hmarker marker)
    · exact ⟨_, hread⟩

theorem newer_iff (steady : Steady checks)
    (hcleanup : canceledCleanupReceipt ("sha256:" ++ digest) children = .ok cleanup)
    (hnewer : AllNewer checks children) :
    (∀ left, recoverEntry checks env digest children = .ok left → left = some children) ↔
      (∀ marker, readEvictionMarker checks.toCacheChecks digest children ≠ .ok (some marker)) ∧
      (∀ metadata generation, ¬ Resurrects checks env digest children metadata generation) ∧
      (provenReceipt checks env.world children = none →
        writeCorruptMarker env children = children) := by
  constructor
  · intro h
    have hmarker : ∀ marker,
        readEvictionMarker checks.toCacheChecks digest children ≠ .ok (some marker) := by
      intro marker hmarker
      cases h none (recoverEntry_evicted hcleanup hmarker)
    refine ⟨hmarker, ?_, ?_⟩
    · intro metadata generation hresurrects
      obtain ⟨left, hpass, hwrote⟩ := wrote_of_resurrects steady hcleanup hresurrects
      obtain rfl := Option.some.inj (h _ hpass)
      have hparity : generation % 2 < 2 := Nat.mod_lt _ (by decide)
      obtain ⟨version, hversion⟩ := hnewer.2 _ hparity _ hwrote.rewritten.written.1
      rw [readJournal_new _ generation hwrote.rewritten.written.2] at hversion
      cases hversion
    · intro hrefused
      obtain ⟨error, hread⟩ := read_of_newer env hnewer hmarker
      refine Option.some.inj (h (some (writeCorruptMarker env children)) ?_)
      rw [recoverEntry_unread env hcleanup hread, recoverUnreadable_eq, hrefused]
      rfl
  · rintro ⟨hmarker, hreceipt, hrefused⟩ left h
    obtain ⟨error, hread⟩ := read_of_newer env hnewer hmarker
    rw [recoverEntry_unread env hcleanup hread] at h
    cases hpass : recoverUnreadable checks env digest children with
    | error e =>
        rw [hpass] at h
        cases h
    | ok found =>
        rw [hpass] at h
        obtain rfl := Except.ok.inj h
        obtain ⟨hnone, rfl⟩ | ⟨metadata, generation, hresurrects⟩ :=
          recoverUnreadable_cases steady hread hpass
        · rw [hrefused hnone]
        · exact absurd hresurrects (hreceipt metadata generation)

end Outcomes

/-- Sample bundles are read at their root, and every content pass reads the bytes. -/
def sampleBundle : BundleChecks (List String) String :=
  { sampleChecks with
    atLocalRoot := fun root _ => root = "bundle"
    confined := fun _ _ _ => true
    artifactBytes := fun _ => some 0
    receiptStands := fun _ _ _ _ => false
    contentReceipt := fun _ _ _ => none }

/-- A published bundle; the slot before it still names the library, which is away. -/
def publishedEntry : Children String :=
  [(slotFile 1, .file (.journal (.new sampleChecks 1
      { sampleMetadata .materializing "library" 1 with
        reservationId := some "00000000000000000000000000000000"
        reservationOwner := some "worker"
        sessionId := some "00000000000000000000000000000000" }))),
    (slotFile 0, .file (.journal (.new sampleChecks 2 (sampleMetadata .complete "bundle" 2))))]

/-- Both slots are damaged, the receipt and the bundle are whole. -/
def damagedEntry : Children String :=
  [(completeReceiptFile, .file (.receipt ⟨1, "", sampleMetadata .complete "bundle" 2⟩)),
    (slotFile 0, .file (.other none)), (slotFile 1, .file (.other none))]

/-- The one slot is from a newer build. -/
def newerEntry : Children String := [(slotFile 1, .file (.other (some 3)))]

theorem published_not_damaged :
    ¬ Damaged (storeChecks sampleBundle) sampleDigest publishedEntry := by
  rintro (⟨error, h⟩ | ⟨slot, hslot, node, error, hnode, hread, -⟩)
  · cases h
  · obtain rfl | rfl : slot = 0 ∨ slot = 1 := by omega
    · obtain rfl := Option.some.inj ((rfl : publishedEntry.child (slotFile 0) = _).symm.trans hnode)
      cases (readJournal_new sampleChecks 2 (by decide)).symm.trans hread
    · obtain rfl := Option.some.inj ((rfl : publishedEntry.child (slotFile 1) = _).symm.trans hnode)
      cases (readJournal_new sampleChecks 1 (by decide)).symm.trans hread

end SceneWorks.ResolvedCache
