import SceneWorks.ResolvedCache.Removal

/-!
One retention pass over the entries: the scan that finds the candidates and finishes old
tombstones, the sweep of the expired candidates, and the sweep of the least recently used
ones while the store is above its limit. No other session works on the store; a removal
the file system refuses is an outcome of the pass. The log of the attempts stands beside
the report.
-/

namespace SceneWorks.ResolvedCache

variable {World Artifact : Type}

structure ResolvedCachePolicy where
  maxBytes : Nat
  inactivitySeconds : Nat

def ResolvedCachePolicy.validate (policy : ResolvedCachePolicy) : Except CacheError Unit :=
  if policy.maxBytes = 0 then
    .error (.internal "resolved cache maxBytes must be finite and greater than zero")
  else if policy.inactivitySeconds = 0 then
    .error (.internal "resolved cache inactivitySeconds must be greater than zero")
  else .ok ()

structure EvictedRecord where
  cacheKey : String
  bytes : Nat
  cause : EvictionCause

structure RetainedRecord where
  cacheKey : String
  bytes : Nat
  hold : RetentionHold
  detail : Option String

structure RetentionReport where
  evicted : List EvictedRecord
  retained : List RetainedRecord
  failed : List (String × String)
  completeBytesBefore : Nat
  completeBytesAfter : Nat
  limitSatisfied : Bool

structure EvictionCandidate where
  cacheKey : String
  bytes : Nat
  activity : Nat
  createdAt : Nat

inductive EvictAttempt where
  | evicted (record : EvictedRecord)
  | retained (record : RetainedRecord)
  | alreadyGone
  | failed (error : String)

/-- What a pass looks at beside the entry itself. -/
structure RetentionChecks (World Artifact : Type) extends RecoveryChecks World Artifact where
  -- The complaint of `validate_complete_metadata_inner` where `completeShape` fails.
  completeComplaint : World → Children Artifact → ResolvedCacheMetadata Artifact → String
  -- `measure_entry_bytes`; none for a tree that cannot be walked.
  measure : Children Artifact → Option Nat
  -- `verify_source_complete` and `revalidate_source_snapshot`, their complaints.
  verifySource : World → ResolvedCacheMetadata Artifact → Option String
  revalidateSource : World → ResolvedCacheMetadata Artifact → Option String

structure RetentionEnv (World : Type) extends RecoverEnv World where
  -- A lease of this session holds the artifact lock.
  contended : String → Bool
  -- The tombstone cannot be written, or the tree cannot be removed.
  markRefused : String → Option String
  removalRefused : String → Option String

section Pass

variable (checks : RetentionChecks World Artifact) (env : RetentionEnv World)

def isLowerHex64 (name : String) : Bool := isLowerHexOf 64 name.toList

/-- The directory of an entry among the entries. -/
def entryAt (entries : Children Artifact) (digest : String) : Option (Children Artifact) :=
  match entries.child digest with
  | some (.dir children) => some children
  | _ => none

def entryDigests (entries : Children Artifact) : List String :=
  ((entries.map Prod.fst).filter fun name =>
    isLowerHex64 name && (entryAt entries name).isSome).insertionSort (· ≤ ·)

def readEntry (entries : Children Artifact) (digest : String) :
    Except CacheError (JournalRead Artifact) :=
  readMetadataUnlocked checks.toCacheChecks env.world digest ((entryAt entries digest).getD [])

def entryBytes (children : Children Artifact) (metadata : ResolvedCacheMetadata Artifact) : Nat :=
  (checks.measure children).getD metadata.verifiedBytes

def entryActivity (metadata : ResolvedCacheMetadata Artifact) : Nat :=
  metadata.lastUsedAt.getD metadata.createdAt

/-- `finish_pending_eviction` in the entries directory. -/
def finishIn (entries : Children Artifact) (digest : String) :
    Except CacheError EvictionMarker × Children Artifact :=
  match env.removalRefused digest with
  | some error => (.error (.internal error), entries)
  | none =>
      match finishMarked checks.toCacheChecks digest ((entryAt entries digest).getD []) with
      | .error error => (.error error, entries)
      | .ok (marker, _) => (.ok marker, entries.removeChild digest)

/-- What the scan makes of one entry. -/
inductive Scanned where
  | candidate (found : EvictionCandidate)
  | retained (record : RetainedRecord)
  | evicted (record : EvictedRecord)
  | failed (cacheKey error : String)
  | ignored

/-- A readable entry: a candidate, or why it is kept. -/
def scanReadable (digest : String) (children : Children Artifact)
    (metadata : ResolvedCacheMetadata Artifact) : Scanned :=
  let kept (hold : RetentionHold) (detail : Option String) : Scanned :=
    .retained ⟨metadata.cacheKey, entryBytes checks children metadata, hold, detail⟩
  match metadata.state with
  | .complete =>
      if !(checks.completeShape env.world children metadata) then
        kept .recoveryCandidate (some (checks.completeComplaint env.world children metadata))
      else if metadata.effectivePin then kept .pinned none
      else if env.contended digest then kept .activeUse none
      else .candidate ⟨metadata.cacheKey, entryBytes checks children metadata,
        entryActivity metadata, metadata.createdAt⟩
  | .materializing =>
      kept (if metadata.sessionId.any fun session => !(env.sessionFree session) then
        .materializationInProgress else .recoveryCandidate) none
  | _ => kept .recoveryCandidate none

/-- `scan_entry`; a tombstone is finished unless its lock is held. -/
def scanOne (entries : Children Artifact) (digest : String) : Scanned × Children Artifact :=
  match readEntry checks env entries digest with
  | .ok (.valid metadata _) =>
      (scanReadable checks env digest ((entryAt entries digest).getD []) metadata, entries)
  | .ok (.evicted marker) =>
      if env.contended digest then
        (.retained ⟨marker.cacheKey, 0, .activeUse,
          some "pending eviction awaiting artifact lock"⟩, entries)
      else
        match finishIn checks env entries digest with
        | (.ok finished, entries) =>
            (.evicted ⟨finished.cacheKey, finished.reclaimableBytes, finished.cause⟩, entries)
        | (.error error, entries) => (.failed marker.cacheKey error.text, entries)
  | .ok .missing => (.ignored, entries)
  | .error error =>
      (.retained ⟨"sha256:" ++ digest, 0, .recoveryCandidate, some error.text⟩, entries)

def scanAll : List String → Children Artifact → List Scanned × Children Artifact
  | [], entries => ([], entries)
  | digest :: rest, entries =>
      let (scanned, entries) := scanOne checks env entries digest
      let (others, entries) := scanAll rest entries
      (scanned :: others, entries)

def Scanned.candidate? : Scanned → Option EvictionCandidate
  | .candidate found => some found
  | _ => none

def Scanned.retained? : Scanned → Option RetainedRecord
  | .retained record => some record
  | _ => none

def Scanned.evicted? : Scanned → Option EvictedRecord
  | .evicted record => some record
  | _ => none

def Scanned.failed? : Scanned → Option (String × String)
  | .failed cacheKey error => some (cacheKey, error)
  | _ => none

def checkedTotal (sizes : List Nat) : Except CacheError Nat :=
  sizes.foldlM (fun total bytes =>
    if total + bytes ≤ u64Max then .ok (total + bytes)
    else .error (.internal "resolved-cache retention byte total overflow")) 0

/-- The proof of a second copy, taken while the artifact lock is free: none without a proof, else
the complaint it came to. -/
def sourceProof (candidate : EvictionCandidate)
    (scanned : Option (ResolvedCacheMetadata Artifact)) : Option (Option String) :=
  match scanned with
  | none => none
  | some scanned =>
      if scanned.production = .derived then none
      else if scanned.state = .complete && !scanned.effectivePin &&
          entryActivity scanned = candidate.activity then
        some (checks.verifySource env.world scanned)
      else none

/-- The last protections of a candidate that is complete, unpinned and unused since the scan:
none to let it go, or why it is kept. -/
def sourceHold (scanned : Option (ResolvedCacheMetadata Artifact)) (proof : Option (Option String))
    (children : Children Artifact) (metadata : ResolvedCacheMetadata Artifact) :
    Option (RetentionHold × Option String) :=
  let changed := (.fresh, some "entry changed while its source was being verified")
  let unproven : Option (RetentionHold × Option String) :=
    if metadata.production = .derived then none
    else
      match proof with
      | some none =>
          if scanned.any fun scanned => scanned.updatedAt = metadata.updatedAt then none
          else some changed
      | some (some detail) => some (.sourceUnverified, some detail)
      | none => some changed
  match unproven with
  | some hold => some hold
  | none =>
      if !(checks.completeShape env.world children metadata) then
        some (.recoveryCandidate, some (checks.completeComplaint env.world children metadata))
      else if metadata.production = .derived then none
      else
        (checks.revalidateSource env.world metadata).map fun detail =>
          (.sourceUnverified, some detail)

/-- Writing the tombstone of a candidate that is let go, and removing its directory. -/
def evictMarked (entries : Children Artifact) (digest : String) (children : Children Artifact)
    (metadata : ResolvedCacheMetadata Artifact) (cause : EvictionCause) :
    Except CacheError EvictAttempt × Children Artifact :=
  match env.markRefused digest with
  | some error => (.error (.internal error), entries)
  | none =>
      let marker : EvictionMarker := ⟨resolvedCacheStoreVersion, metadata.cacheKey, cause,
        entryBytes checks children metadata, env.now, env.sessionId⟩
      let marked := children.writeChild evictedMarkerFile
        (.file (.marker (.new checks.toCacheChecks marker)))
      match finishIn checks env (entries.writeChild digest (.dir marked)) digest with
      | (.ok marker, entries) =>
          (.ok (.evicted ⟨marker.cacheKey, marker.reclaimableBytes, marker.cause⟩), entries)
      | (.error error, entries) => (.ok (.failed error.text), entries)

def evictCandidate (candidate : EvictionCandidate) (cause : EvictionCause)
    (entries : Children Artifact) : Except CacheError EvictAttempt × Children Artifact :=
  let retained (hold : RetentionHold) (detail : Option String) :
      Except CacheError EvictAttempt × Children Artifact :=
    (.ok (.retained ⟨candidate.cacheKey, candidate.bytes, hold, detail⟩), entries)
  match keyDigest candidate.cacheKey with
  | .error error => (.error error, entries)
  | .ok digest =>
      let scanned : Option (ResolvedCacheMetadata Artifact) :=
        match readEntry checks env entries digest with
        | .ok (.valid metadata _) => some metadata
        | _ => none
      let proof := sourceProof checks env candidate scanned
      if env.contended digest then retained .activeUse none
      else
        match readEntry checks env entries digest with
        | .ok (.evicted _) =>
            match finishIn checks env entries digest with
            | (.ok marker, entries) =>
                (.ok (.evicted ⟨marker.cacheKey, marker.reclaimableBytes, marker.cause⟩), entries)
            | (.error error, entries) => (.error error, entries)
        | .ok .missing =>
            if (entries.child digest).isNone then (.ok .alreadyGone, entries)
            else retained .recoveryCandidate (some "entry has no readable journal")
        | .error error => retained .recoveryCandidate (some error.text)
        | .ok (.valid metadata _) =>
            let children := (entryAt entries digest).getD []
            if metadata.state ≠ .complete then retained .recoveryCandidate none
            else if metadata.effectivePin then retained .pinned none
            else if entryActivity metadata ≠ candidate.activity then
              retained .fresh (some "entry was used after it was scanned")
            else
              match sourceHold checks env scanned proof children metadata with
              | some (hold, detail) => retained hold detail
              | none => evictMarked checks env entries digest children metadata cause

/-- One line of the log: the candidate, why it was tried, the total it was tried at, and what came
of it. -/
structure Attempt where
  candidate : EvictionCandidate
  cause : EvictionCause
  totalBefore : Nat
  result : Except CacheError EvictAttempt

structure Sweep (Artifact : Type) where
  entries : Children Artifact
  report : RetentionReport
  total : Nat
  attempts : List Attempt

def applyEvictionAttempt (candidate : EvictionCandidate) (result : Except CacheError EvictAttempt)
    (report : RetentionReport) (total : Nat) : RetentionReport × Nat :=
  match result with
  | .ok (.evicted record) =>
      ({ report with evicted := report.evicted ++ [record] }, total - record.bytes)
  | .ok (.retained record) => ({ report with retained := report.retained ++ [record] }, total)
  | .ok .alreadyGone => (report, total - candidate.bytes)
  | .ok (.failed error) =>
      ({ report with failed := report.failed ++ [(candidate.cacheKey, error)] }, total)
  | .error error =>
      ({ report with failed := report.failed ++ [(candidate.cacheKey, error.text)] }, total)

def attempt (candidate : EvictionCandidate) (cause : EvictionCause) (sweep : Sweep Artifact) :
    Sweep Artifact :=
  let (result, entries) := evictCandidate checks env candidate cause sweep.entries
  let (report, total) := applyEvictionAttempt candidate result sweep.report sweep.total
  ⟨entries, report, total, sweep.attempts ++ [⟨candidate, cause, sweep.total, result⟩]⟩

def isExpired (policy : ResolvedCachePolicy) (candidate : EvictionCandidate) : Bool :=
  policy.inactivitySeconds ≤ env.now - candidate.activity

/-- The least recently used first, then the oldest, then by key. -/
def EvictionCandidate.before (left right : EvictionCandidate) : Prop :=
  left.activity < right.activity ∨ left.activity = right.activity ∧
    (left.createdAt < right.createdAt ∨ left.createdAt = right.createdAt ∧
      left.cacheKey ≤ right.cacheKey)

instance : DecidableRel EvictionCandidate.before := fun _ _ =>
  inferInstanceAs (Decidable (_ ∨ _ ∧ (_ ∨ _ ∧ _)))

/-- One survivor of the first sweep: kept once the store is below its limit. -/
def pressOne (policy : ResolvedCachePolicy) (sweep : Sweep Artifact)
    (candidate : EvictionCandidate) : Sweep Artifact :=
  if sweep.total ≤ policy.maxBytes then
    { sweep with report := { sweep.report with
        retained :=
          sweep.report.retained ++ [⟨candidate.cacheKey, candidate.bytes, .fresh, none⟩] } }
  else attempt checks env candidate .sizePressure sweep

def scannedReport (scanned : List Scanned) (total : Nat) : RetentionReport :=
  { evicted := scanned.filterMap Scanned.evicted?
    retained := scanned.filterMap Scanned.retained?
    failed := scanned.filterMap Scanned.failed?
    completeBytesBefore := total
    completeBytesAfter := 0
    limitSatisfied := false }

/-- The pass once the scan is done and its total is known. -/
def sweepAll (policy : ResolvedCachePolicy) (scanned : List Scanned) (entries : Children Artifact)
    (total : Nat) : Sweep Artifact :=
  let candidates := (scanned.filterMap Scanned.candidate?).insertionSort EvictionCandidate.before
  let expired := candidates.filter (isExpired env policy)
  let survivors := candidates.filter fun candidate => !isExpired env policy candidate
  let swept := expired.foldl (fun sweep candidate => attempt checks env candidate .ttlExpired sweep)
    ⟨entries, scannedReport scanned total, total, []⟩
  let pressed := survivors.foldl (pressOne checks env policy) swept
  { pressed with report := { pressed.report with
      completeBytesAfter := pressed.total
      limitSatisfied := pressed.total ≤ policy.maxBytes } }

def enforceRetention (policy : ResolvedCachePolicy) (entries : Children Artifact) :
    Except CacheError (Sweep Artifact) := do
  policy.validate
  let (scanned, left) := scanAll checks env (entryDigests entries) entries
  let total ← checkedTotal ((scanned.filterMap Scanned.candidate?).map EvictionCandidate.bytes ++
    (scanned.filterMap Scanned.retained?).map RetainedRecord.bytes)
  .ok (sweepAll checks env policy scanned left total)

end Pass

end SceneWorks.ResolvedCache
