import SceneWorks.CheckpointStore.PlanStore
import SceneWorks.ResolvedCache.Listing

/-!
Taking a checkpoint, a managed install or a library root away: first the derivatives the cache lists
for it, then its plans. Each derivative is removed by itself, so that a refusal of a later one, or
of the plan store, comes when the earlier ones are gone.
-/

namespace SceneWorks.CheckpointStore

open ResolvedCache

variable {World Artifact Document Tree : Type}

/-- The directory of the entries: a list of children under different names. -/
structure EntryDirectory (Artifact : Type) where
  children : Children (Derivation Artifact)
  distinct : (children.map Prod.fst).Nodup

structure DerivativeStore (Artifact Document Tree : Type) where
  entries : Children (Derivation Artifact)
  plans : PlanStore Document Tree

inductive DerivativeError where
  | cache (error : CacheError)
  | plans (error : CheckpointPlanError)

def DerivativeError.isInUse : DerivativeError → Bool
  | .cache error => error.isInUse
  | .plans error => error.isInUse

abbrev Teardown (Artifact Document Tree α : Type) :=
  EStateM DerivativeError (DerivativeStore Artifact Document Tree) α

def onEntries {α : Type} (program : EStateM CacheError (Children (Derivation Artifact)) α) :
    Teardown Artifact Document Tree α := fun store =>
  match program store.entries with
  | .ok a entries => .ok a { store with entries := entries }
  | .error error entries => .error (.cache error) { store with entries := entries }

def onPlans {α : Type} (step : PlanStore.Step Document Tree α) :
    Teardown Artifact Document Tree α := fun store =>
  match step store.plans with
  | .ok a plans => .ok a { store with plans := plans }
  | .error error plans => .error (.plans error) { store with plans := plans }

section Operations

variable (checks : RemovalChecks World (Derivation Artifact)) (env : EntriesEnv World)
  (leased : String → Bool)

def ofCheckpoint (checkpointId : String) (metadata : ResolvedCacheMetadata (Derivation Artifact)) :
    Bool :=
  metadata.artifact.derivedFrom = some checkpointId

def underRoot (rootId : String) (metadata : ResolvedCacheMetadata (Derivation Artifact)) : Bool :=
  metadata.artifact.derivedFrom.any (Text.startsWith (PlanStore.rootStart rootId))

/-- The derivatives first, and then what the plan store holds. -/
def tearDown {α : Type} (picks : ResolvedCacheMetadata (Derivation Artifact) → Bool)
    (step : PlanStore.Step Document Tree α) :
    Teardown Artifact Document Tree (α × List ManualRemovalOutcome) := do
  let derivatives ← onEntries (removeMatching checks env picks)
  let removed ← onPlans step
  return (removed, derivatives)

def invalidateCheckpoint (checkpointId : String) :
    Teardown Artifact Document Tree (Bool × List ManualRemovalOutcome) :=
  tearDown checks env (ofCheckpoint checkpointId) (PlanStore.invalidate leased checkpointId)

def removeManagedInstall (installId : String) :
    Teardown Artifact Document Tree (Bool × List ManualRemovalOutcome) :=
  tearDown checks env (ofCheckpoint (managedCheckpointId installId))
    (PlanStore.removeManaged leased installId)

def removeRoot (rootId : String) :
    Teardown Artifact Document Tree (PlanStore.RootRemoval × List ManualRemovalOutcome) :=
  tearDown checks env (underRoot rootId) (PlanStore.removeRoot leased rootId)

end Operations

section Property

variable (checks : RemovalChecks World (Derivation Artifact))

/-- The journal of an entry that is not withdrawn says, in its newest intact document, that it was
derived from one of these checkpoints. -/
def RecordsDerivation (removed : String → Prop) (digest : String)
    (children : Children (Derivation Artifact)) : Prop :=
  (∀ marker, readEvictionMarker checks.toCacheChecks digest children ≠ .ok (some marker)) ∧
    ∃ slot < 2, ∃ envelope checkpointId,
      (children.child (slotFile slot)).map (readJournal checks.toCacheChecks) =
          some (.ok envelope) ∧
        envelope.generation = highestGeneration checks.toCacheChecks children ∧
        envelope.metadata.production = .derived ∧
        envelope.metadata.artifact.derivedFrom = some checkpointId ∧ removed checkpointId

/-- An entry among the entries that records one of these derivations. -/
def Remains (removed : String → Prop) (entries : Children (Derivation Artifact))
    (digest : String) : Prop :=
  isLowerHex64 digest = true ∧ ∃ children, entryAt entries digest = some children ∧
    RecordsDerivation checks removed digest children

/-- A teardown that is refused for a use or a pin changes nothing, and one that goes through leaves
no derivative. -/
structure AllOrNothing {α : Type} (removed : String → Prop)
    (before : DerivativeStore Artifact Document Tree)
    (result : EStateM.Result DerivativeError (DerivativeStore Artifact Document Tree) α) :
    Prop where
  refused : ∀ error after, result = .error error after → error.isInUse = true → after = before
  gone : ∀ a after, result = .ok a after → ∀ digest, ¬ Remains checks removed after.entries digest

variable (env : EntriesEnv World)

/-- The state before in which a teardown is all or nothing: of the derivatives it goes through, in
the order of their keys, none is free before one that is held; there are none where the plan store
refuses; and where all goes through they are all that is recorded. -/
structure TearsDownWhole (picks : ResolvedCacheMetadata (Derivation Artifact) → Bool)
    (removed : String → Prop) (busy passes : PlanStore Document Tree → Prop)
    (entries : Children (Derivation Artifact)) (plans : PlanStore Document Tree) : Prop where
  heldFirst : (∃ metadata ∈ picked checks env picks entries, heldAt env metadata = true) →
    ∃ first rest, picked checks env picks entries = first :: rest ∧ heldAt env first = true
  noneLost : (∀ metadata ∈ picked checks env picks entries, heldAt env metadata = false) →
    busy plans → picked checks env picks entries = []
  allListed : (∀ metadata ∈ picked checks env picks entries, heldAt env metadata = false) →
    passes plans → ∀ digest, Remains checks removed entries digest →
      ∃ metadata ∈ picked checks env picks entries, cacheKeyDigest metadata.cacheKey = some digest

end Property

section Proof

variable {checks : RemovalChecks World (Derivation Artifact)} {env : EntriesEnv World}
  {picks : ResolvedCacheMetadata (Derivation Artifact) → Bool} {removed : String → Prop}
  {α : Type} {step : PlanStore.Step Document Tree α} {busy passes : PlanStore Document Tree → Prop}

theorem entryAt_dropped {documents : List (ResolvedCacheMetadata (Derivation Artifact))}
    {entries : Children (Derivation Artifact)} {digest : String} :
    entryAt (FirstRefusal.dropped dropEntry documents entries) digest =
      if ∃ metadata ∈ documents, cacheKeyDigest metadata.cacheKey = some digest then none
      else entryAt entries digest := by
  by_cases hgone : ∃ metadata ∈ documents, cacheKeyDigest metadata.cacheKey = some digest
  · rw [if_pos hgone, entryAt, child_dropped, if_pos hgone]
  · rw [if_neg hgone]
    apply entryAt_congr
    rw [child_dropped, if_neg hgone]

/-- What was picked and removed is missed. -/
theorem dropped_ne {entries : Children (Derivation Artifact)}
    {first : ResolvedCacheMetadata (Derivation Artifact)}
    {front : List (ResolvedCacheMetadata (Derivation Artifact))}
    (hfirst : first ∈ picked checks env picks entries) :
    FirstRefusal.dropped dropEntry (first :: front) entries ≠ entries := by
  obtain ⟨⟨digest, children, hlisted, -⟩, -⟩ := mem_picked.mp hfirst
  intro hsame
  have hfound := hlisted.found
  rw [← hsame, entryAt_dropped, if_pos ⟨first, List.mem_cons_self, hlisted.key⟩] at hfound
  cases hfound

theorem remains_dropped {documents : List (ResolvedCacheMetadata (Derivation Artifact))}
    {entries : Children (Derivation Artifact)} {digest : String} :
    Remains checks removed (FirstRefusal.dropped dropEntry documents entries) digest ↔
      Remains checks removed entries digest ∧
        ¬ ∃ metadata ∈ documents, cacheKeyDigest metadata.cacheKey = some digest := by
  rw [Remains, Remains, entryAt_dropped]
  split
  · rename_i hgone
    exact ⟨nofun, fun h => absurd hgone h.2⟩
  · rename_i hkept
    exact ⟨fun h => ⟨h, hkept⟩, fun h => h.1⟩

section Run

variable {entries after : Children (Derivation Artifact)} {plans plans' : PlanStore Document Tree}
  {outcomes : List ManualRemovalOutcome}

theorem tearDown_held {error : CacheError}
    (h : removeMatching checks env picks entries = .error error after) :
    tearDown checks env picks step ⟨entries, plans⟩ = .error (.cache error) ⟨after, plans⟩ := by
  have hentries : (onEntries (removeMatching checks env picks) :
      Teardown Artifact Document Tree _) ⟨entries, plans⟩ =
        .error (.cache error) ⟨after, plans⟩ := by
    rw [onEntries, h]
  rw [tearDown, Crash.bind_of_error hentries]

theorem onEntries_ok (h : removeMatching checks env picks entries = .ok outcomes after) :
    (onEntries (removeMatching checks env picks) : Teardown Artifact Document Tree _)
      ⟨entries, plans⟩ = .ok outcomes ⟨after, plans⟩ := by
  rw [onEntries, h]

theorem tearDown_refused {error : CheckpointPlanError}
    (h : removeMatching checks env picks entries = .ok outcomes after)
    (hstep : step plans = .error error plans') :
    tearDown checks env picks step ⟨entries, plans⟩ = .error (.plans error) ⟨after, plans'⟩ := by
  have hplans : (onPlans step : Teardown Artifact Document Tree α) ⟨after, plans⟩ =
      .error (.plans error) ⟨after, plans'⟩ := by
    rw [onPlans, hstep]
  rw [tearDown, Crash.bind_of_ok (onEntries_ok h), Crash.bind_of_error hplans]

theorem tearDown_goes {a : α} (h : removeMatching checks env picks entries = .ok outcomes after)
    (hstep : step plans = .ok a plans') :
    tearDown checks env picks step ⟨entries, plans⟩ = .ok (a, outcomes) ⟨after, plans'⟩ := by
  have hplans : (onPlans step : Teardown Artifact Document Tree α) ⟨after, plans⟩ =
      .ok a ⟨after, plans'⟩ := by
    rw [onPlans, hstep]
  rw [tearDown, Crash.bind_of_ok (onEntries_ok h), Crash.bind_of_ok hplans]
  rfl

end Run

section Cases

variable {entries after : Children (Derivation Artifact)} {plans plans' : PlanStore Document Tree}

theorem allOrNothing_of_refused {error : DerivativeError} (hinUse : error.isInUse = true) :
    AllOrNothing checks removed (α := α) ⟨entries, plans⟩ (.error error ⟨after, plans⟩) ↔
      after = entries := by
  constructor
  · intro h
    exact congrArg DerivativeStore.entries (h.refused error _ rfl hinUse)
  · rintro rfl
    refine ⟨fun other store hresult _ => ?_, nofun⟩
    cases hresult
    rfl

theorem allOrNothing_of_failed {error : DerivativeError} (hother : error.isInUse = false) :
    AllOrNothing checks removed (α := α) ⟨entries, plans⟩ (.error error ⟨after, plans'⟩) := by
  refine ⟨fun error' store hresult hinUse => ?_, nofun⟩
  cases hresult
  rw [hother] at hinUse
  cases hinUse

theorem allOrNothing_of_ok {a : α} :
    AllOrNothing checks removed ⟨entries, plans⟩ (.ok a ⟨after, plans'⟩) ↔
      ∀ digest, ¬ Remains checks removed after digest := by
  constructor
  · exact fun h => h.gone a _ rfl
  · intro h
    refine ⟨nofun, fun a' store hresult => ?_⟩
    cases hresult
    exact h

/-- A derivative that is held stops the teardown, and what was picked before it is gone. -/
theorem allOrNothing_of_held (directory : EntryDirectory Artifact)
    {front back : List (ResolvedCacheMetadata (Derivation Artifact))}
    {metadata : ResolvedCacheMetadata (Derivation Artifact)}
    (hpicked : picked checks env picks directory.children = front ++ metadata :: back)
    (hfree : ∀ other ∈ front, heldAt env other = false) (hheld : heldAt env metadata = true) :
    AllOrNothing checks removed ⟨directory.children, plans⟩
        (tearDown checks env picks step ⟨directory.children, plans⟩) ↔ front = [] := by
  obtain ⟨error, hstopped, hinUse⟩ :=
    removeMatching_error directory.distinct hpicked hfree hheld
  have hinUse' : (DerivativeError.cache error).isInUse = true := hinUse
  rw [tearDown_held hstopped, allOrNothing_of_refused hinUse']
  cases front with
  | nil => exact ⟨fun _ => rfl, fun _ => rfl⟩
  | cons first front =>
      have hfirst : first ∈ picked checks env picks directory.children := by
        rw [hpicked]
        exact List.mem_cons_self
      exact ⟨fun hsame => absurd hsame (dropped_ne hfirst), nofun⟩

end Cases

/-- A teardown is all or nothing in exactly these states. -/
theorem tearDown_allOrNothing_iff (hstep : PlanStore.Refusable step busy passes)
    (directory : EntryDirectory Artifact) (plans : PlanStore Document Tree) :
    AllOrNothing checks removed ⟨directory.children, plans⟩
        (tearDown checks env picks step ⟨directory.children, plans⟩) ↔
      TearsDownWhole checks env picks removed busy passes directory.children plans := by
  rcases FirstRefusal.ready_or_first (fun metadata => heldAt env metadata = false)
    (picked checks env picks directory.children) with hfree | ⟨front, metadata, back, hpicked,
      hfront, hheld⟩
  · obtain ⟨outcomes, hremoved⟩ := removeMatching_ok directory.distinct hfree
    have hnone : ¬ ∃ metadata ∈ picked checks env picks directory.children,
        heldAt env metadata = true := by
      rintro ⟨metadata, hmetadata, hheld⟩
      rw [hfree metadata hmetadata] at hheld
      cases hheld
    cases hresult : step plans with
    | ok a plans' =>
        have hpasses : passes plans := hstep.goes.mp ⟨a, plans', hresult⟩
        rw [tearDown_goes hremoved hresult, allOrNothing_of_ok]
        constructor
        · intro hgone
          refine ⟨fun h => absurd h hnone, fun _ hbusy => ?_, fun _ _ digest hremains => ?_⟩
          · obtain ⟨error, hrefused, -⟩ := hstep.refuses hbusy
            rw [hresult] at hrefused
            cases hrefused
          · by_contra hmissed
            exact hgone digest (remains_dropped.mpr ⟨hremains, hmissed⟩)
        · intro h digest hremains
          obtain ⟨hthere, hmissed⟩ := remains_dropped.mp hremains
          exact hmissed (h.allListed hfree hpasses digest hthere)
    | error error plans' =>
        have hfails : ¬ passes plans := by
          intro hpasses
          obtain ⟨a, store', hok⟩ := hstep.goes.mpr hpasses
          rw [hresult] at hok
          cases hok
        rw [tearDown_refused hremoved hresult]
        by_cases hbusy : busy plans
        · obtain ⟨error', hrefused, hinUse⟩ := hstep.refuses hbusy
          rw [hresult] at hrefused
          cases hrefused
          have hinUse' : (DerivativeError.plans error).isInUse = true := hinUse
          rw [allOrNothing_of_refused hinUse']
          constructor
          · intro hsame
            refine ⟨fun h => absurd h hnone, fun _ _ => ?_, fun _ h => absurd h hfails⟩
            cases hpicked : picked checks env picks directory.children with
            | nil => rfl
            | cons first rest =>
                rw [hpicked] at hsame
                exact absurd hsame (dropped_ne (by rw [hpicked]; exact List.mem_cons_self))
          · intro h
            rw [h.noneLost hfree hbusy]
            rfl
        · have hother : (DerivativeError.plans error).isInUse = false :=
            hstep.otherwise hbusy hresult
          exact ⟨fun _ => ⟨fun h => absurd h hnone, fun _ h => absurd h hbusy,
            fun _ h => absurd h hfails⟩, fun _ => allOrNothing_of_failed hother⟩
  · have hheld' : heldAt env metadata = true := by simpa using hheld
    have hmem : metadata ∈ picked checks env picks directory.children := by
      rw [hpicked]
      exact List.mem_append_right _ List.mem_cons_self
    have hheldOne : ¬ ∀ metadata ∈ picked checks env picks directory.children,
        heldAt env metadata = false := fun hall => hheld (hall metadata hmem)
    rw [allOrNothing_of_held directory hpicked hfront hheld']
    constructor
    · rintro rfl
      exact ⟨fun _ => ⟨metadata, back, hpicked, hheld'⟩, fun h => absurd h hheldOne,
        fun h => absurd h hheldOne⟩
    · intro h
      obtain ⟨first, rest, hfirst, hheldFirst⟩ := h.heldFirst ⟨metadata, hmem, hheld'⟩
      cases front with
      | nil => rfl
      | cons other front =>
          rw [hpicked] at hfirst
          obtain rfl := (List.cons.inj hfirst).1
          rw [hfront other List.mem_cons_self] at hheldFirst
          cases hheldFirst

end Proof

/-- Of each of the three removals: it is all or nothing in exactly the states in which none of the
derivatives listed for what it removes is free before one that is held, none is listed where the
plan store refuses, and all that are recorded are listed where it goes through. -/
theorem teardown_allOrNothing_iff (checks : RemovalChecks World (Derivation Artifact))
    (env : EntriesEnv World) (leased : String → Bool) (directory : EntryDirectory Artifact)
    (plans : PlanStore Document Tree) :
    (∀ checkpointId, AllOrNothing checks (· = checkpointId) ⟨directory.children, plans⟩
        (invalidateCheckpoint checks env leased checkpointId ⟨directory.children, plans⟩) ↔
      TearsDownWhole checks env (ofCheckpoint checkpointId) (· = checkpointId)
        (fun _ => leased checkpointId = true)
        (fun store => leased checkpointId = false ∧ PlanStore.Addressed checkpointId store)
        directory.children plans) ∧
      (∀ installId, AllOrNothing checks (· = managedCheckpointId installId)
          ⟨directory.children, plans⟩
          (removeManagedInstall checks env leased installId ⟨directory.children, plans⟩) ↔
        TearsDownWhole checks env (ofCheckpoint (managedCheckpointId installId))
          (· = managedCheckpointId installId)
          (fun _ => installIdFault installId = none ∧
            leased (managedCheckpointId installId) = true)
          (fun store => installIdFault installId = none ∧
            leased (managedCheckpointId installId) = false ∧
              PlanStore.Addressed (managedCheckpointId installId) store)
          directory.children plans) ∧
      ∀ rootId, AllOrNothing checks
          (fun checkpointId => ∃ path, parseLinkedCheckpointId checkpointId = some (rootId, path))
          ⟨directory.children, plans⟩
          (removeRoot checks env leased rootId ⟨directory.children, plans⟩) ↔
        TearsDownWhole checks env (underRoot rootId)
          (fun checkpointId => ∃ path, parseLinkedCheckpointId checkpointId = some (rootId, path))
          (PlanStore.RootLeased leased rootId)
          (fun store => ¬ PlanStore.RootLeased leased rootId store ∧
            PlanStore.RootRemovable rootId store)
          directory.children plans :=
  ⟨fun checkpointId =>
      tearDown_allOrNothing_iff (PlanStore.refusable_invalidate leased checkpointId) directory
        plans,
    fun installId =>
      tearDown_allOrNothing_iff (PlanStore.refusable_removeManaged leased installId) directory
        plans,
    fun rootId =>
      tearDown_allOrNothing_iff (PlanStore.refusable_removeRoot leased rootId) directory plans⟩

section Counterexample

def sampleKeyOf (digit : Char) : String := "sha256:" ++ String.ofList (List.replicate 64 digit)

/-- Artifacts are named by the digit their digest repeats. -/
def derivedChecks : RemovalChecks Unit (Derivation Char) where
  cacheKey := fun derivation => some (sampleKeyOf derivation.artifact)
  pendingDerivativeShape := fun _ => true
  validate := fun _ _ _ => true
  journalChecksum := fun generation _ => toString generation
  metadataChecksum := fun _ => ""
  evictionMarkerChecksum := fun _ => ""
  completeShape := fun _ _ _ => true
  completeContent := fun _ children _ => some children
  measure := List.length
  sourceWarning := fun _ _ => none

def derivedMetadata (digit : Char) : ResolvedCacheMetadata (Derivation Char) where
  schemaVersion := 2
  cacheKey := sampleKeyOf digit
  production := .derived
  artifact := ⟨digit, some "managed/a"⟩
  entryRelativePath := ["entries", String.ofList (List.replicate 64 digit)]
  bundleRelativePath := ["entries", String.ofList (List.replicate 64 digit), "bundle"]
  state := .complete
  verifiedBytes := 0
  createdAt := 1
  updatedAt := 1
  lastUsedAt := none
  artifactPinned := false
  modelPinOwners := []
  effectivePin := false
  reservationId := none
  reservationOwner := none
  sessionId := none
  recoveryStatus := .clean

def derivedEntry (digit : Char) : Children (Derivation Char) :=
  [(slotFile 1, .file (.journal (.new derivedChecks.toCacheChecks 1 (derivedMetadata digit))))]

/-- Two complete derivatives of one managed checkpoint. -/
def twoDerivatives : EntryDirectory Char where
  children := ['0', '1'].map fun digit =>
    (String.ofList (List.replicate 64 digit), .dir (derivedEntry digit))
  distinct := by decide +kernel

/-- The second of them is leased. -/
def secondLeased : EntriesEnv Unit :=
  ⟨⟨(), 2, "", fun _ => true⟩, fun digest => digest = String.ofList (List.replicate 64 '1')⟩

def noPlans : PlanStore Unit Unit :=
  ⟨some ⟨[], List.nodup_nil, List.nodup_nil⟩, some [], fun _ => none, fun _ => none,
    fun _ => some ()⟩

/-- The lease of the second refuses the removal of the install, and the first is gone. -/
theorem secondLeased_half_removed :
    ¬ AllOrNothing derivedChecks (· = managedCheckpointId "a") ⟨twoDerivatives.children, noPlans⟩
      (removeManagedInstall derivedChecks secondLeased (fun _ => false) "a"
        ⟨twoDerivatives.children, noPlans⟩) := by
  have hpicked : (picked derivedChecks secondLeased (ofCheckpoint (managedCheckpointId "a"))
      twoDerivatives.children) = [derivedMetadata '0'] ++ derivedMetadata '1' :: [] := by
    decide +kernel
  rw [removeManagedInstall, allOrNothing_of_held twoDerivatives hpicked (by decide +kernel)
    (by decide +kernel)]
  exact List.cons_ne_nil _ _

end Counterexample

end SceneWorks.CheckpointStore
