import SceneWorks.ResolvedCache.Retention

/-!
The bookkeeping of a retention pass. The scan reads each entry as it stands in the
directory, an attempt touches the entry of its candidate alone, so a candidate is tried
in the state it was scanned in; keys, bytes and order follow by walking the two sweeps.
-/

namespace SceneWorks.ResolvedCache

variable {World Artifact : Type}

theorem Children.child_removeChild (children : Children Artifact) (name other : String) :
    (children.removeChild name).child other =
      if name = other then none else children.child other := by
  rw [child, child, removeChild, List.find?_filter]
  by_cases h : name = other
  · rw [if_pos h, Option.map_eq_none_iff, List.find?_eq_none]
    intro entry _
    simp [h]
  · rw [if_neg h]
    congr 2
    funext entry
    by_cases hentry : entry.1 = other
    · simp [hentry, Ne.symm h]
    · simp [hentry]

theorem entryAt_congr {entries entries' : Children Artifact} {digest : String}
    (h : entries.child digest = entries'.child digest) :
    entryAt entries digest = entryAt entries' digest := by rw [entryAt, entryAt, h]

theorem key_of_digest {cacheKey digest : String} (h : cacheKeyDigest cacheKey = some digest) :
    cacheKey = "sha256:" ++ digest := by
  rw [cacheKeyDigest] at h
  split at h
  · next rest hlist =>
      split at h
      · cases h
        apply String.toList_inj.mp
        rw [String.toList_append, hlist]
        simp
      · cases h
  · cases h

section Scan

variable {checks : RetentionChecks World Artifact} {env : RetentionEnv World}

theorem mem_newest {envelopes : List (JournalEnvelope Artifact)}
    {envelope : JournalEnvelope Artifact}
    (h : newest envelopes = some envelope) : envelope ∈ envelopes := by
  rw [newest] at h
  exact (List.perm_insertionSort _ _).mem_iff.mp (List.mem_of_getLast? h)

theorem shape_of_readMetadata {checks : CacheChecks World Artifact} {world : World}
    {digest : String}
    {children : Children Artifact} {metadata : ResolvedCacheMetadata Artifact} {hadInvalid : Bool}
    (h : readMetadataUnlocked checks world digest children = .ok (.valid metadata hadInvalid)) :
    validateMetadataShapeWith checks world metadata digest .pathsAndSizesOnly = true := by
  by_cases hmarker : NoTombstone children
  · rw [read_of_noTombstone checks digest world hmarker, readSlots] at h
    split at h
    · next envelope hnewest =>
        cases h
        obtain ⟨read, hread, henvelope⟩ := List.mem_filterMap.mp (mem_newest hnewest)
        obtain ⟨slot, -, rfl⟩ := List.mem_map.mp hread
        rw [readSlot] at henvelope
        split at henvelope
        · cases henvelope
        · split at henvelope
          · split at henvelope
            · next hshape =>
                cases henvelope
                exact hshape
            · cases henvelope
          · cases henvelope
          · cases henvelope
    · split at h
      · cases h
      · split at h <;> cases h
  · obtain ⟨marker, hread⟩ | ⟨message, hread⟩ := read_of_tombstone checks digest world hmarker
    · rw [hread] at h
      cases h
    · rw [hread] at h
      cases h

theorem cacheKeyDigest_of_shape {checks : CacheChecks World Artifact} {world : World}
    {digest : String} {metadata : ResolvedCacheMetadata Artifact}
    {verification : ContentVerification}
    (h : validateMetadataShapeWith checks world metadata digest verification = true) :
    cacheKeyDigest metadata.cacheKey = some digest := by
  simp only [validateMetadataShapeWith, Bool.and_eq_true, decide_eq_true_eq] at h
  tauto

theorem cacheKeyDigest_of_marker {checks : CacheChecks World Artifact} {digest : String}
    {children : Children Artifact} {marker : EvictionMarker}
    (h : readEvictionMarker checks digest children = .ok (some marker)) :
    cacheKeyDigest marker.cacheKey = some digest := by
  rw [readEvictionMarker] at h
  split at h
  · cases h
  · cases h
  · split at h
    · next hvalid =>
        cases h
        simp only [EvictionMarkerEnvelope.isValid, Bool.and_eq_true, decide_eq_true_eq] at hvalid
        exact hvalid.2
    · cases h
  · cases h

def Scanned.key? : Scanned → Option String
  | .candidate found => some found.cacheKey
  | .retained record => some record.cacheKey
  | .evicted record => some record.cacheKey
  | .failed cacheKey _ => some cacheKey
  | .ignored => none

theorem scanReadable_key (digest : String) (children : Children Artifact)
    (metadata : ResolvedCacheMetadata Artifact) :
    (scanReadable checks env digest children metadata).key? = some metadata.cacheKey := by
  simp only [scanReadable]
  split
  · split
    · rfl
    · split
      · rfl
      · split <;> rfl
  · rfl
  · rfl

theorem readEntry_congr {entries entries' : Children Artifact} {digest : String}
    (h : entries.child digest = entries'.child digest) :
    readEntry checks env entries digest = readEntry checks env entries' digest := by
  rw [readEntry, readEntry, entryAt_congr h]

variable (checks env) in
theorem finishIn_congr {entries entries' : Children Artifact} {digest : String}
    (h : entries.child digest = entries'.child digest) :
    (finishIn checks env entries digest).1 = (finishIn checks env entries' digest).1 := by
  simp only [finishIn, entryAt_congr h]
  split
  · rfl
  · split <;> rfl

variable (checks env) in
/-- A removal is refused and leaves the entries as they are, or finishes the tombstone it reads. -/
theorem finishIn_cases (entries : Children Artifact) (digest : String) :
    (∃ error, finishIn checks env entries digest = (.error error, entries)) ∨
      ∃ marker, readEvictionMarker checks.toCacheChecks digest
          ((entryAt entries digest).getD []) = .ok (some marker) ∧
        finishIn checks env entries digest = (.ok marker, entries.removeChild digest) := by
  simp only [finishIn, finishMarked]
  cases env.removalRefused digest with
  | some error => exact .inl ⟨_, rfl⟩
  | none =>
      cases hread : readEvictionMarker checks.toCacheChecks digest
          ((entryAt entries digest).getD []) with
      | error error => exact .inl ⟨error, rfl⟩
      | ok marker =>
          cases marker with
          | none => exact .inl ⟨_, rfl⟩
          | some marker => exact .inr ⟨marker, rfl, rfl⟩

variable (checks env) in
theorem finishIn_frame (entries : Children Artifact) {digest other : String} (h : digest ≠ other) :
    (finishIn checks env entries digest).2.child other = entries.child other := by
  obtain ⟨error, hfinish⟩ | ⟨marker, -, hfinish⟩ := finishIn_cases checks env entries digest
  · rw [hfinish]
  · rw [hfinish, Children.child_removeChild, if_neg h]

variable (checks env) in
theorem scanOne_congr {entries entries' : Children Artifact} {digest : String}
    (h : entries.child digest = entries'.child digest) :
    (scanOne checks env entries digest).1 = (scanOne checks env entries' digest).1 := by
  have hfinish := finishIn_congr checks env h
  simp only [scanOne, readEntry_congr h, entryAt_congr h]
  split
  · rfl
  · split
    · rfl
    · cases hleft : finishIn checks env entries digest with
      | mk result left =>
          cases hright : finishIn checks env entries' digest with
          | mk result' left' =>
              rw [hleft, hright] at hfinish
              cases hfinish
              cases result <;> rfl
  · rfl
  · rfl

variable (checks env) in
theorem scanOne_frame (entries : Children Artifact) {digest other : String} (h : digest ≠ other) :
    (scanOne checks env entries digest).2.child other = entries.child other := by
  simp only [scanOne]
  split
  · rfl
  · split
    · rfl
    · have hframe := finishIn_frame checks env entries h
      cases hfinish : finishIn checks env entries digest with
      | mk result left =>
          rw [hfinish] at hframe
          cases result <;> exact hframe
  · rfl
  · rfl

theorem scanOne_key {entries : Children Artifact} {digest : String}
    (h : readEntry checks env entries digest ≠ .ok .missing) :
    (scanOne checks env entries digest).1.key? = some ("sha256:" ++ digest) := by
  simp only [scanOne]
  split
  · next metadata hadInvalid hread =>
      rw [scanReadable_key, key_of_digest (cacheKeyDigest_of_shape (shape_of_readMetadata hread))]
  · next marker hread =>
      have hmarker := readEvictionMarker_of_evicted hread
      have hkey := key_of_digest (cacheKeyDigest_of_marker hmarker)
      split
      · rw [← hkey]
        rfl
      · obtain ⟨error, hfinish⟩ | ⟨found, hfound, hfinish⟩ :=
          finishIn_cases checks env entries digest
        · rw [hfinish, ← hkey]
          rfl
        · rw [hmarker] at hfound
          cases hfound
          rw [hfinish, ← hkey]
          rfl
  · next hread => exact absurd hread h
  · rfl

theorem scanOne_missing {entries : Children Artifact} {digest : String}
    (h : readEntry checks env entries digest = .ok .missing) :
    (scanOne checks env entries digest).1 = .ignored := by rw [scanOne, h]

theorem scanOne_key_some {entries : Children Artifact} {digest key : String}
    (h : (scanOne checks env entries digest).1.key? = some key) : key = "sha256:" ++ digest := by
  by_cases hread : readEntry checks env entries digest = .ok .missing
  · rw [scanOne_missing hread] at h
    cases h
  · rw [scanOne_key hread] at h
    exact (Option.some.inj h).symm

/-- A candidate is an entry that is complete, sound, unpinned and free, with what the scan noted
of it. -/
theorem scanOne_candidate {entries : Children Artifact} {digest : String}
    {candidate : EvictionCandidate}
    (h : (scanOne checks env entries digest).1 = .candidate candidate) :
    (scanOne checks env entries digest).2 = entries ∧ ∃ metadata hadInvalid,
      readEntry checks env entries digest = .ok (.valid metadata hadInvalid) ∧
      metadata.state = .complete ∧
      checks.completeShape env.world ((entryAt entries digest).getD []) metadata = true ∧
      metadata.effectivePin = false ∧ env.contended digest = false ∧
      candidate = ⟨metadata.cacheKey,
        entryBytes checks ((entryAt entries digest).getD []) metadata, entryActivity metadata,
        metadata.createdAt⟩ := by
  simp only [scanOne] at h ⊢
  split at h
  · next metadata hadInvalid hread =>
      refine ⟨rfl, metadata, hadInvalid, hread, ?_⟩
      simp only [scanReadable] at h
      split at h
      · next hstate =>
          split at h
          · cases h
          · next hshape =>
              split at h
              · cases h
              · next hpin =>
                  split at h
                  · cases h
                  · next hheld =>
                      cases h
                      refine ⟨hstate, by simpa using hshape, by simpa using hpin,
                        by simpa using hheld, rfl⟩
      · cases h
      · cases h
  · split at h
    · cases h
    · split at h <;> cases h
  · cases h
  · cases h

theorem scanAll_scanned {digests : List String} (h : digests.Nodup) (entries : Children Artifact) :
    (scanAll checks env digests entries).1 =
      digests.map fun digest => (scanOne checks env entries digest).1 := by
  induction digests generalizing entries with
  | nil => rfl
  | cons digest rest ih =>
      obtain ⟨hnot, hrest⟩ := List.nodup_cons.mp h
      have hsame : ∀ other ∈ rest, (scanOne checks env
          (scanOne checks env entries digest).2 other).1 = (scanOne checks env entries other).1 :=
        fun other hother => scanOne_congr checks env
          (scanOne_frame checks env entries fun heq => hnot (heq ▸ hother))
      rw [scanAll, List.map_cons]
      refine congrArg (_ :: ·) ?_
      rw [ih hrest, List.map_congr_left hsame]

variable (checks env) in
theorem scanAll_left_cons (digest : String) (rest : List String) (entries : Children Artifact) :
    (scanAll checks env (digest :: rest) entries).2 =
      (scanAll checks env rest (scanOne checks env entries digest).2).2 := rfl

theorem scanAll_frame {digests : List String} {digest : String} (h : digest ∉ digests)
    (entries : Children Artifact) :
    (scanAll checks env digests entries).2.child digest = entries.child digest := by
  induction digests generalizing entries with
  | nil => rfl
  | cons other rest ih =>
      simp only [List.mem_cons, not_or] at h
      rw [scanAll_left_cons]
      exact (ih h.2 _).trans (scanOne_frame checks env entries (Ne.symm h.1))

def Finished (checks : RetentionChecks World Artifact) (env : RetentionEnv World)
    (entries : Children Artifact) (digest : String) (record : EvictedRecord) : Prop :=
  ∃ marker, readEntry checks env entries digest = .ok (.evicted marker) ∧
    env.contended digest = false ∧ record = ⟨marker.cacheKey, marker.reclaimableBytes, marker.cause⟩

variable (checks env) in
/-- The scan removes the directory of a tombstone it finishes and touches nothing else. -/
theorem scanOne_left (entries : Children Artifact) (digest : String) :
    (∃ record, (scanOne checks env entries digest).1 = .evicted record ∧
      Finished checks env entries digest record ∧
      (scanOne checks env entries digest).2.child digest = none) ∨
    (scanOne checks env entries digest).1.evicted? = none ∧
      (scanOne checks env entries digest).2 = entries := by
  simp only [scanOne]
  split
  · next metadata hadInvalid hread =>
      refine .inr ⟨?_, rfl⟩
      simp only [scanReadable]
      split
      · split
        · rfl
        · split
          · rfl
          · split <;> rfl
      · rfl
      · rfl
  · next marker hread =>
      split
      · exact .inr ⟨rfl, rfl⟩
      · next hheld =>
          obtain ⟨error, hfinish⟩ | ⟨found, hfound, hfinish⟩ :=
            finishIn_cases checks env entries digest
          · rw [hfinish]
            exact .inr ⟨rfl, rfl⟩
          · rw [readEvictionMarker_of_evicted hread] at hfound
            cases hfound
            rw [hfinish]
            refine .inl ⟨_, rfl, ⟨marker, hread, by simpa using hheld, rfl⟩, ?_⟩
            rw [Children.child_removeChild, if_pos rfl]
  · exact .inr ⟨rfl, rfl⟩
  · exact .inr ⟨rfl, rfl⟩

variable (checks env) in
theorem scanOne_child_congr {entries entries' : Children Artifact} {digest : String}
    (h : entries.child digest = entries'.child digest) :
    (scanOne checks env entries digest).2.child digest =
      (scanOne checks env entries' digest).2.child digest := by
  have hscanned := scanOne_congr checks env h
  obtain ⟨record, hrecord, -, hgone⟩ | ⟨hnone, hleft⟩ :=
    scanOne_left checks env entries digest
  · obtain ⟨_, -, -, hgone'⟩ | ⟨hnone', -⟩ :=
      scanOne_left checks env entries' digest
    · rw [hgone, hgone']
    · rw [← hscanned, hrecord] at hnone'
      cases hnone'
  · obtain ⟨_, hrecord', -, -⟩ | ⟨-, hleft'⟩ :=
      scanOne_left checks env entries' digest
    · rw [hscanned, hrecord'] at hnone
      cases hnone
    · rw [hleft, hleft', h]

/-- The scan leaves at an entry what its own look at the entry left there. -/
theorem scanAll_child {digests : List String} (h : digests.Nodup) {digest : String}
    (hmem : digest ∈ digests) (entries : Children Artifact) :
    (scanAll checks env digests entries).2.child digest =
      (scanOne checks env entries digest).2.child digest := by
  induction digests generalizing entries with
  | nil => exact absurd hmem List.not_mem_nil
  | cons other rest ih =>
      obtain ⟨hnot, hrest⟩ := List.nodup_cons.mp h
      rw [scanAll_left_cons]
      by_cases heq : digest = other
      · rw [heq]
        exact scanAll_frame hnot _
      · have hframe := scanOne_frame checks env entries (Ne.symm heq)
        rw [ih hrest ((List.mem_cons.mp hmem).resolve_left heq)]
        exact scanOne_child_congr checks env hframe

theorem scanAll_candidate {digests : List String} (h : digests.Nodup) {digest : String}
    (hmem : digest ∈ digests) {entries : Children Artifact} {candidate : EvictionCandidate}
    (hscan : (scanOne checks env entries digest).1 = .candidate candidate) :
    (scanAll checks env digests entries).2.child digest = entries.child digest := by
  rw [scanAll_child h hmem, (scanOne_candidate hscan).1]

end Scan

section Attempts

variable {checks : RetentionChecks World Artifact} {env : RetentionEnv World}

/-- What a candidate has to pass to be let go: the entry reads complete and sound, unpinned, free
and unused since the scan, and unless it is derived its source is proven. -/
def Releasable (checks : RetentionChecks World Artifact) (env : RetentionEnv World)
    (entries : Children Artifact) (digest : String) (candidate : EvictionCandidate) : Prop :=
  ∃ metadata hadInvalid, readEntry checks env entries digest = .ok (.valid metadata hadInvalid) ∧
    metadata.state = .complete ∧
    checks.completeShape env.world ((entryAt entries digest).getD []) metadata = true ∧
    metadata.effectivePin = false ∧ env.contended digest = false ∧
    candidate = ⟨metadata.cacheKey, entryBytes checks ((entryAt entries digest).getD []) metadata,
      entryActivity metadata, metadata.createdAt⟩ ∧
    (metadata.production ≠ .derived → checks.verifySource env.world metadata = none ∧
      checks.revalidateSource env.world metadata = none)

/-- The entry of a candidate with the tombstone its removal starts from. -/
def tombstoned (checks : RetentionChecks World Artifact) (env : RetentionEnv World)
    (children : Children Artifact) (candidate : EvictionCandidate) (cause : EvictionCause) :
    Children Artifact :=
  children.writeChild evictedMarkerFile (.file (.marker (.new checks.toCacheChecks
    ⟨resolvedCacheStoreVersion, candidate.cacheKey, cause, candidate.bytes, env.now,
      env.sessionId⟩)))

/-- What can come of an attempt on a candidate that stands as it was scanned, and what is left of
its entry. -/
inductive Tried (checks : RetentionChecks World Artifact) (env : RetentionEnv World)
    (entries : Children Artifact) (digest : String) (candidate : EvictionCandidate)
    (cause : EvictionCause) :
    Except CacheError EvictAttempt → Option (Node Artifact) → Prop where
  | evicted (released : Releasable checks env entries digest candidate) :
      Tried checks env entries digest candidate cause
        (.ok (.evicted ⟨candidate.cacheKey, candidate.bytes, cause⟩)) none
  | retained (held : ¬ Releasable checks env entries digest candidate) (hold : RetentionHold)
      (detail : Option String) : Tried checks env entries digest candidate cause
        (.ok (.retained ⟨candidate.cacheKey, candidate.bytes, hold, detail⟩)) (entries.child digest)
  | failed (released : Releasable checks env entries digest candidate) (error : String) :
      Tried checks env entries digest candidate cause (.ok (.failed error))
        (some (.dir (tombstoned checks env ((entryAt entries digest).getD []) candidate cause)))
  | refused (released : Releasable checks env entries digest candidate) (error : CacheError) :
      Tried checks env entries digest candidate cause (.error error) (entries.child digest)

theorem Tried.kept {entries : Children Artifact} {digest : String} {candidate : EvictionCandidate}
    {cause : EvictionCause} {result : Except CacheError EvictAttempt}
    {left : Option (Node Artifact)}
    (h : Tried checks env entries digest candidate cause result left)
    (hevicted : result ≠ .ok (.evicted ⟨candidate.cacheKey, candidate.bytes, cause⟩))
    (hfailed : ∀ error, result ≠ .ok (.failed error)) : left = entries.child digest := by
  cases h with
  | evicted => exact absurd rfl hevicted
  | failed _ error => exact absurd rfl (hfailed error)
  | retained | refused => rfl

/-- A candidate is read from a journal, a finished entry from a tombstone. -/
theorem not_finished_of_candidate {entries : Children Artifact} {digest : String}
    {candidate : EvictionCandidate} {record : EvictedRecord}
    (h : (scanOne checks env entries digest).1 = .candidate candidate) :
    ¬ Finished checks env entries digest record := by
  intro hfinished
  obtain ⟨marker, hmarker, -, -⟩ := hfinished
  obtain ⟨-, metadata, hadInvalid, hread, -⟩ := scanOne_candidate h
  rw [hread] at hmarker
  cases hmarker

theorem entryAt_writeChild (entries : Children Artifact) (digest : String)
    (children : Children Artifact) :
    entryAt (entries.writeChild digest (.dir children)) digest = some children := by
  rw [entryAt, Children.child_writeChild, if_pos rfl]

variable (env) in
/-- Nothing changed since the scan, so what is left to ask of a candidate is its source. -/
theorem sourceHold_eq_none {children : Children Artifact} {candidate : EvictionCandidate}
    {metadata : ResolvedCacheMetadata Artifact} (hstate : metadata.state = .complete)
    (hshape : checks.completeShape env.world children metadata = true)
    (hpin : metadata.effectivePin = false)
      (hactivity : entryActivity metadata = candidate.activity) :
    sourceHold checks env (some metadata) (sourceProof checks env candidate (some metadata))
        children metadata = none ↔
      (metadata.production ≠ .derived → checks.verifySource env.world metadata = none ∧
        checks.revalidateSource env.world metadata = none) := by
  by_cases hderived : metadata.production = .derived
  · simp [sourceHold, hderived, hshape]
  · cases hverify : checks.verifySource env.world metadata with
    | none => simp [sourceHold, sourceProof, hderived, hstate, hpin, hactivity, hverify, hshape]
    | some detail => simp [sourceHold, sourceProof, hderived, hstate, hpin, hactivity, hverify]

variable (checks env) in
/-- Writing the tombstone of a candidate fails, or the directory with the tombstone is left behind,
or it is removed. The bytes of the tombstone are those the scan counted. -/
theorem evictMarked_cases (present : Children Artifact) {children : Children Artifact}
    {digest : String} {metadata : ResolvedCacheMetadata Artifact} {candidate : EvictionCandidate}
    (cause : EvictionCause) (hdigest : cacheKeyDigest metadata.cacheKey = some digest)
    (hkey : metadata.cacheKey = candidate.cacheKey)
    (hbytes : entryBytes checks children metadata = candidate.bytes) :
    (∃ error, evictMarked checks env present digest children metadata cause =
      (.error error, present)) ∨
      (∃ error, evictMarked checks env present digest children metadata cause =
        (.ok (.failed error),
          present.writeChild digest (.dir (tombstoned checks env children candidate cause)))) ∨
      evictMarked checks env present digest children metadata cause =
        (.ok (.evicted ⟨candidate.cacheKey, candidate.bytes, cause⟩),
          (present.writeChild digest
            (.dir (tombstoned checks env children candidate cause))).removeChild digest) := by
  rw [hkey] at hdigest
  simp only [evictMarked, hkey, hbytes]
  cases env.markRefused digest with
  | some error => exact .inl ⟨_, rfl⟩
  | none =>
      let marker : EvictionMarker := ⟨resolvedCacheStoreVersion, candidate.cacheKey, cause,
        candidate.bytes, env.now, env.sessionId⟩
      have hmarked := readEvictionMarker_written checks.toCacheChecks
        (show marker.schemaVersion = resolvedCacheStoreVersion from rfl) hdigest children
      obtain ⟨error, hfinish⟩ | ⟨found, hfound, hfinish⟩ := finishIn_cases checks env
        (present.writeChild digest (.dir (tombstoned checks env children candidate cause))) digest
      · rw [tombstoned] at hfinish
        simp only [hfinish]
        exact .inr (.inl ⟨_, rfl⟩)
      · rw [entryAt_writeChild, Option.getD_some, tombstoned, hmarked] at hfound
        cases hfound
        rw [tombstoned] at hfinish
        simp only [hfinish]
        exact .inr (.inr rfl)

/-- An attempt on a candidate that stands as it was scanned touches no other entry. -/
theorem evictCandidate_tried {entries present : Children Artifact} {digest : String}
    {candidate : EvictionCandidate} (cause : EvictionCause)
    (hscan : (scanOne checks env entries digest).1 = .candidate candidate)
    (hsame : present.child digest = entries.child digest) :
    Tried checks env entries digest candidate cause
        (evictCandidate checks env candidate cause present).1
        ((evictCandidate checks env candidate cause present).2.child digest) ∧
      ∀ other, digest ≠ other →
        (evictCandidate checks env candidate cause present).2.child other =
          present.child other := by
  obtain ⟨-, metadata, hadInvalid, hread, hstate, hshape, hpin, hheld, hcandidate⟩ :=
    scanOne_candidate hscan
  have hdigest := cacheKeyDigest_of_shape (shape_of_readMetadata hread)
  have hkey : keyDigest candidate.cacheKey = .ok digest := by
    rw [keyDigest_eq_ok, hcandidate]
    exact hdigest
  have hactivity : entryActivity metadata = candidate.activity := by rw [hcandidate]
  have hsource := sourceHold_eq_none env hstate hshape hpin hactivity
  have hreleasable : Releasable checks env entries digest candidate ↔
      (metadata.production ≠ .derived → checks.verifySource env.world metadata = none ∧
        checks.revalidateSource env.world metadata = none) := by
    constructor
    · rintro ⟨_, _, hread', -, -, -, -, -, hproven⟩
      rw [hread] at hread'
      cases hread'
      exact hproven
    · intro hproven
      exact ⟨metadata, hadInvalid, hread, hstate, hshape, hpin, hheld, hcandidate, hproven⟩
  have hpresent := hread
  rw [← readEntry_congr hsame] at hpresent
  simp only [evictCandidate, hkey, hpresent, hheld, hpin, hstate, hactivity, ne_eq,
    not_true_eq_false, if_false, Bool.false_eq_true, entryAt_congr hsame]
  split
  · next hold detail hkept =>
      refine ⟨?_, fun _ _ => rfl⟩
      rw [hsame]
      refine .retained (fun hreleased => ?_) _ _
      rw [hsource.mpr (hreleasable.mp hreleased)] at hkept
      cases hkept
  · next hnone =>
      have hreleased := hreleasable.mpr (hsource.mp hnone)
      have hbytes : entryBytes checks ((entryAt entries digest).getD []) metadata =
          candidate.bytes := by rw [hcandidate]
      obtain ⟨error, hmarked⟩ | ⟨error, hmarked⟩ | hmarked := evictMarked_cases checks env present
        cause hdigest (show metadata.cacheKey = candidate.cacheKey by rw [hcandidate]) hbytes
      · rw [hmarked, hsame]
        exact ⟨.refused hreleased _, fun _ _ => rfl⟩
      · rw [hmarked, Children.child_writeChild, if_pos rfl]
        refine ⟨.failed hreleased _, fun other hother => ?_⟩
        rw [Children.child_writeChild, if_neg hother]
      · rw [hmarked, Children.child_removeChild, if_pos rfl]
        refine ⟨.evicted hreleased, fun other hother => ?_⟩
        rw [Children.child_removeChild, if_neg hother, Children.child_writeChild, if_neg hother]

end Attempts

end SceneWorks.ResolvedCache
