import Mathlib.Data.List.Sort
import Mathlib.Data.String.Basic
import SceneWorks.Library.Crash
import SceneWorks.Library.Text

/-!
The plan store of the imported checkpoints: the inventory of their records, the plan and bindings
documents, the approved library roots, and the installs of managed checkpoints. A removal takes the
source lease of every checkpoint it removes before it writes anything.
-/

namespace SceneWorks.CheckpointStore

inductive CheckpointPlanError where
  | inUse (checkpointId : String)
  | invalidInstallId (installId reason : String)
  | invalidPlanId (planId reason : String)
  | unknownRoot (rootId : String)
  | corrupt (what : String)
  deriving DecidableEq

def CheckpointPlanError.isInUse : CheckpointPlanError → Bool
  | .inUse _ => true
  | _ => false

section Ids

def approvedRootsFile : String := "approved-roots.json"

def inventoryFile : String := "inventory.json"

def planIdStart : String := "checkpoint-plan-"

def linkedStart : String := "linked/"

/-- A linked checkpoint id back into the root's id and the relative path. -/
def parseLinkedCheckpointId (checkpointId : String) : Option (String × String) :=
  ((Text.stripFront linkedStart checkpointId).bind (Text.splitOnce '/')).filter
    fun (rootId, path) =>
    rootId ≠ "" && path ≠ ""

def managedCheckpointId (installId : String) : String := "managed/" ++ installId

def isWindowsReservedDeviceName (stem : String) : Bool :=
  let numbered (front : String) :=
    stem.toList.length = 4 &&
      Text.eqIgnoreAsciiCase (String.ofList (stem.toList.take 3)) front &&
        (stem.toList.getLast?.any fun c => c.isDigit && c ≠ '0')
  (["CON", "PRN", "AUX", "NUL"].any fun reserved => Text.eqIgnoreAsciiCase stem reserved) ||
    numbered "COM" || numbered "LPT"

/-- Why an install id may not name a directory. -/
def installIdFault (installId : String) : Option String :=
  if installId = "" || 128 < installId.utf8ByteSize then some "must be 1..=128 characters"
  else if !(installId.toList.all fun c => c.isAlphanum || ['_', '-', '.'].contains c) then
    some "must be ASCII alphanumeric, '_', '-', or '.'"
  else if Text.startsWith "." installId || Text.startsWith "-" installId then
    some "must not start with '.' or '-'"
  else if Text.containsText ".." installId then some "must not contain '..'"
  else if installId.toList.getLast? = some '.' then some "must not end with '.'"
  else if isWindowsReservedDeviceName
      (((Text.splitOnce '.' installId).map Prod.fst).getD installId) then
    some "must not be a Windows reserved device name"
  else none

/-- Why a plan id may not name a document. -/
def planIdFault (planId : String) : Option String :=
  match Text.stripFront planIdStart planId with
  | none => some "must start with 'checkpoint-plan-'"
  | some digest =>
      if digest = "" || 64 < digest.utf8ByteSize then some "digest must be 1..=64 characters"
      else if !(digest.toList.all fun c => c.isDigit || ('a' ≤ c && c ≤ 'f')) then
        some "digest must be lowercase hex"
      else none

end Ids

/-- The record of a checkpoint, and what else it carries. -/
structure CheckpointCatalogRecord (Document : Type) where
  checkpointId : String
  planId : String
  document : Document

structure CheckpointInventory (Document : Type) where
  records : List (CheckpointCatalogRecord Document)
  checkpointIds : (records.map CheckpointCatalogRecord.checkpointId).Nodup
  planIds : (records.map CheckpointCatalogRecord.planId).Nodup

structure ApprovedRoot where
  rootId : String
  path : String
  label : String
  deriving DecidableEq

/-- The documents of the store as they stand on the disk: the inventory and the roots, where they
read, and the plan, bindings and install under each id. -/
structure PlanStore (Document Tree : Type) where
  inventory : Option (CheckpointInventory Document)
  approvedRoots : Option (List ApprovedRoot)
  plans : String → Option Document
  bindings : String → Option Document
  installs : String → Option Tree

variable {Document Tree : Type}

/-- What is left of an inventory, in the order in which it is written. -/
def CheckpointInventory.keep (inventory : CheckpointInventory Document)
    (kept : CheckpointCatalogRecord Document → Bool) : CheckpointInventory Document where
  records := (inventory.records.filter kept).insertionSort
    fun left right => left.checkpointId ≤ right.checkpointId
  checkpointIds := ((List.perm_insertionSort _ _).map _).nodup_iff.mpr
    (inventory.checkpointIds.sublist (List.filter_sublist.map _))
  planIds := ((List.perm_insertionSort _ _).map _).nodup_iff.mpr
    (inventory.planIds.sublist (List.filter_sublist.map _))

namespace PlanStore

abbrev Step (Document Tree α : Type) := EStateM CheckpointPlanError (PlanStore Document Tree) α

-- The source lease of a checkpoint is held elsewhere.
variable (leased : String → Bool)

def lockSourceForRemoval (checkpointId : String) : Step Document Tree Unit :=
  if leased checkpointId then throw (.inUse checkpointId) else return ()

def readInventory : Step Document Tree (CheckpointInventory Document) := do
  match (← get).inventory with
  | none => throw (.corrupt inventoryFile)
  | some inventory => return inventory

def readApprovedRoots : Step Document Tree (List ApprovedRoot) := do
  match (← get).approvedRoots with
  | none => throw (.corrupt approvedRootsFile)
  | some roots => return roots

def removePlanDocuments (planId : String) : Step Document Tree Unit := do
  match planIdFault planId with
  | some reason => throw (.invalidPlanId planId reason)
  | none =>
      modify fun store => { store with
        plans := fun other => if other = planId then none else store.plans other
        bindings := fun other => if other = planId then none else store.bindings other }

def invalidateUnleased (checkpointId : String) : Step Document Tree Bool := do
  let inventory ← readInventory
  match inventory.records.find? fun record => record.checkpointId = checkpointId with
  | none => return false
  | some record => do
      modify fun store => { store with
        inventory := some (inventory.keep fun existing => existing.checkpointId ≠ checkpointId) }
      removePlanDocuments record.planId
      return true

def invalidate (checkpointId : String) : Step Document Tree Bool := do
  lockSourceForRemoval leased checkpointId
  invalidateUnleased checkpointId

def removeManaged (installId : String) : Step Document Tree Bool := do
  match installIdFault installId with
  | some reason => throw (.invalidInstallId installId reason)
  | none => do
      lockSourceForRemoval leased (managedCheckpointId installId)
      let removedRecord ← invalidateUnleased (managedCheckpointId installId)
      let removedBytes := ((← get).installs installId).isSome
      modify fun store => { store with
        installs := fun other => if other = installId then none else store.installs other }
      return removedRecord || removedBytes

structure RootRemoval where
  root : ApprovedRoot
  removedCheckpoints : List String

def rootStart (rootId : String) : String := linkedStart ++ rootId ++ "/"

def ofRoot (rootId : String) (record : CheckpointCatalogRecord Document) : Bool :=
  (parseLinkedCheckpointId record.checkpointId).any fun (id, _) => id = rootId

def removeRoot (rootId : String) : Step Document Tree RootRemoval := do
  let inventory ← readInventory
  let guarded := inventory.records.filter fun record =>
    Text.startsWith (rootStart rootId) record.checkpointId
  guarded.forM fun record => lockSourceForRemoval leased record.checkpointId
  let roots ← readApprovedRoots
  match roots.find? fun root => root.rootId = rootId with
  | none => throw (.unknownRoot rootId)
  | some root => do
      let orphaned := inventory.records.filter (ofRoot rootId)
      modify fun store => { store with
        inventory := some (inventory.keep fun record => !ofRoot rootId record) }
      modify fun store => { store with
        approvedRoots := some (roots.filter fun existing => existing.rootId ≠ rootId) }
      orphaned.forM fun record => removePlanDocuments record.planId
      return ⟨root, orphaned.map CheckpointCatalogRecord.checkpointId⟩

/-- What is known of a removal beforehand: when a source lease refuses it, and with nothing done,
and when it goes through. -/
structure Refusable {α : Type} (step : Step Document Tree α)
    (busy passes : PlanStore Document Tree → Prop) : Prop where
  refuses : ∀ {store}, busy store → ∃ error, step store = .error error store ∧ error.isInUse = true
  otherwise : ∀ {store store' error}, ¬ busy store → step store = .error error store' →
    error.isInUse = false
  goes : ∀ {store}, (∃ a store', step store = .ok a store') ↔ passes store

variable {leased} {store : PlanStore Document Tree}

theorem lockSourceForRemoval_held {checkpointId : String} (h : leased checkpointId = true) :
    lockSourceForRemoval leased checkpointId store = .error (.inUse checkpointId) store := by
  rw [lockSourceForRemoval, if_pos h]
  rfl

theorem lockSourceForRemoval_free {checkpointId : String} (h : leased checkpointId = false) :
    lockSourceForRemoval leased checkpointId store = .ok () store := by
  rw [lockSourceForRemoval, h]
  rfl

theorem removePlanDocuments_fault {planId reason : String} (h : planIdFault planId = some reason) :
    removePlanDocuments planId store = .error (.invalidPlanId planId reason) store := by
  rw [removePlanDocuments, h]
  rfl

theorem removePlanDocuments_ok {planId : String} (h : planIdFault planId = none) :
    ∃ store', removePlanDocuments planId store = .ok () store' := by
  rw [removePlanDocuments, h]
  exact ⟨_, rfl⟩

theorem readInventory_none (h : store.inventory = none) :
    readInventory store = .error (.corrupt inventoryFile) store := by
  rw [readInventory]
  change (match store.inventory with
    | none => throw (.corrupt inventoryFile)
    | some inventory => return inventory : Step Document Tree _) store = _
  rw [h]
  rfl

theorem readInventory_some {inventory : CheckpointInventory Document}
    (h : store.inventory = some inventory) : readInventory store = .ok inventory store := by
  rw [readInventory]
  change (match store.inventory with
    | none => throw (.corrupt inventoryFile)
    | some inventory => return inventory : Step Document Tree _) store = _
  rw [h]
  rfl

theorem readApprovedRoots_none (h : store.approvedRoots = none) :
    readApprovedRoots store = .error (.corrupt approvedRootsFile) store := by
  rw [readApprovedRoots]
  change (match store.approvedRoots with
    | none => throw (.corrupt approvedRootsFile)
    | some roots => return roots : Step Document Tree _) store = _
  rw [h]
  rfl

theorem readApprovedRoots_some {roots : List ApprovedRoot}
    (h : store.approvedRoots = some roots) : readApprovedRoots store = .ok roots store := by
  rw [readApprovedRoots]
  change (match store.approvedRoots with
    | none => throw (.corrupt approvedRootsFile)
    | some roots => return roots : Step Document Tree _) store = _
  rw [h]
  rfl

/-- The documents of a checkpoint's plan can be addressed. -/
def Addressed (checkpointId : String) (store : PlanStore Document Tree) : Prop :=
  ∃ inventory, store.inventory = some inventory ∧ ∀ record ∈ inventory.records,
    record.checkpointId = checkpointId → planIdFault record.planId = none

theorem addressed_iff {checkpointId : String} {inventory : CheckpointInventory Document}
    {record : CheckpointCatalogRecord Document} (hinventory : store.inventory = some inventory)
    (hfind : inventory.records.find? (fun record => record.checkpointId = checkpointId) =
      some record) : Addressed checkpointId store ↔ planIdFault record.planId = none := by
  have hmem := List.mem_of_find?_eq_some hfind
  have hid : record.checkpointId = checkpointId := by simpa using List.find?_some hfind
  constructor
  · rintro ⟨found, hfound, haddressed⟩
    obtain rfl := Option.some.inj (hinventory.symm.trans hfound)
    exact haddressed record hmem hid
  · intro hplan
    refine ⟨inventory, hinventory, fun other hother hsame => ?_⟩
    obtain rfl := List.inj_on_of_nodup_map inventory.checkpointIds hother hmem
      (hsame.trans hid.symm)
    exact hplan

/-- A record is forgotten where its documents can be addressed, and installs are not touched. -/
theorem invalidateUnleased_ok {checkpointId : String} (h : Addressed checkpointId store) :
    ∃ removed store', invalidateUnleased checkpointId store = .ok removed store' := by
  obtain ⟨inventory, hinventory, haddressed⟩ := h
  rw [invalidateUnleased, Crash.bind_of_ok (readInventory_some hinventory)]
  cases hfind : inventory.records.find? fun record => record.checkpointId = checkpointId with
  | none => exact ⟨false, store, rfl⟩
  | some record =>
      have hplan := (addressed_iff hinventory hfind).mp ⟨inventory, hinventory, haddressed⟩
      dsimp only
      rw [Crash.bind_modify]
      obtain ⟨store', hremoved⟩ := removePlanDocuments_ok hplan
      rw [Crash.bind_of_ok hremoved]
      exact ⟨true, store', rfl⟩

theorem invalidateUnleased_error {checkpointId : String} (h : ¬ Addressed checkpointId store) :
    ∃ error store', invalidateUnleased checkpointId store = .error error store' ∧
      error.isInUse = false := by
  cases hinventory : store.inventory with
  | none =>
      rw [invalidateUnleased, Crash.bind_of_error (readInventory_none hinventory)]
      exact ⟨_, _, rfl, rfl⟩
  | some inventory =>
      rw [invalidateUnleased, Crash.bind_of_ok (readInventory_some hinventory)]
      cases hfind : inventory.records.find? fun record => record.checkpointId = checkpointId with
      | none =>
          refine absurd ⟨inventory, hinventory, fun record hrecord hid => ?_⟩ h
          exact absurd hid (by simpa using List.find?_eq_none.mp hfind record hrecord)
      | some record =>
          cases hplan : planIdFault record.planId with
          | none => exact absurd ((addressed_iff hinventory hfind).mpr hplan) h
          | some reason =>
              dsimp only
              rw [Crash.bind_modify, Crash.bind_of_error (removePlanDocuments_fault hplan)]
              exact ⟨_, _, rfl, rfl⟩

/-- Forgetting one checkpoint. -/
theorem refusable_invalidate (leased : String → Bool) (checkpointId : String) :
    Refusable (invalidate leased checkpointId : Step Document Tree Bool)
      (fun _ => leased checkpointId = true)
      (fun store => leased checkpointId = false ∧ Addressed checkpointId store) where
  refuses := by
    intro store hheld
    refine ⟨.inUse checkpointId, ?_, rfl⟩
    rw [invalidate, Crash.bind_of_error (lockSourceForRemoval_held hheld)]
  otherwise := by
    intro store store' error hfree herror
    rw [invalidate, Crash.bind_of_ok (lockSourceForRemoval_free (by simpa using hfree))] at herror
    by_cases haddressed : Addressed checkpointId store
    · obtain ⟨_, _, hok⟩ := invalidateUnleased_ok haddressed
      rw [hok] at herror
      cases herror
    · obtain ⟨_, _, hother, hinUse⟩ := invalidateUnleased_error haddressed
      rw [hother] at herror
      cases herror
      exact hinUse
  goes := by
    intro store
    cases hheld : leased checkpointId with
    | true =>
        rw [invalidate, Crash.bind_of_error (lockSourceForRemoval_held hheld)]
        exact ⟨nofun, nofun⟩
    | false =>
        rw [invalidate, Crash.bind_of_ok (lockSourceForRemoval_free hheld)]
        refine ⟨fun ⟨removed, store', hok⟩ => ⟨rfl, ?_⟩, fun ⟨_, haddressed⟩ =>
          invalidateUnleased_ok haddressed⟩
        by_contra haddressed
        obtain ⟨_, _, herror, -⟩ := invalidateUnleased_error haddressed
        rw [hok] at herror
        cases herror

/-- Forgetting a managed checkpoint, and its install with it. -/
theorem refusable_removeManaged (leased : String → Bool) (installId : String) :
    Refusable (removeManaged leased installId : Step Document Tree Bool)
      (fun _ => installIdFault installId = none ∧ leased (managedCheckpointId installId) = true)
      (fun store => installIdFault installId = none ∧
        leased (managedCheckpointId installId) = false ∧
          Addressed (managedCheckpointId installId) store) where
  refuses := by
    rintro store ⟨hname, hheld⟩
    refine ⟨.inUse (managedCheckpointId installId), ?_, rfl⟩
    rw [removeManaged, hname]
    dsimp only
    rw [Crash.bind_of_error (lockSourceForRemoval_held hheld)]
  otherwise := by
    intro store store' error hfree herror
    cases hname : installIdFault installId with
    | some reason =>
        rw [removeManaged, hname] at herror
        cases herror
        rfl
    | none =>
        have hlease : leased (managedCheckpointId installId) = false := by simpa [hname] using hfree
        rw [removeManaged, hname] at herror
        dsimp only at herror
        rw [Crash.bind_of_ok (lockSourceForRemoval_free hlease)] at herror
        by_cases haddressed : Addressed (managedCheckpointId installId) store
        · obtain ⟨_, _, hok⟩ := invalidateUnleased_ok haddressed
          rw [Crash.bind_of_ok hok] at herror
          cases herror
        · obtain ⟨_, _, hother, hinUse⟩ := invalidateUnleased_error haddressed
          rw [Crash.bind_of_error hother] at herror
          cases herror
          exact hinUse
  goes := by
    intro store
    cases hname : installIdFault installId with
    | some reason =>
        rw [removeManaged, hname]
        exact ⟨nofun, nofun⟩
    | none =>
        rw [removeManaged, hname]
        dsimp only
        cases hheld : leased (managedCheckpointId installId) with
        | true =>
            rw [Crash.bind_of_error (lockSourceForRemoval_held hheld)]
            exact ⟨nofun, nofun⟩
        | false =>
            rw [Crash.bind_of_ok (lockSourceForRemoval_free hheld)]
            by_cases haddressed : Addressed (managedCheckpointId installId) store
            · obtain ⟨_, _, hok⟩ := invalidateUnleased_ok haddressed
              rw [Crash.bind_of_ok hok]
              exact ⟨fun _ => ⟨rfl, rfl, haddressed⟩, fun _ => ⟨_, _, rfl⟩⟩
            · obtain ⟨_, _, hother, -⟩ := invalidateUnleased_error haddressed
              rw [Crash.bind_of_error hother]
              exact ⟨nofun, fun h => absurd h.2.2 haddressed⟩

section Root

variable {records : List (CheckpointCatalogRecord Document)}

theorem guards_free (h : ∀ record ∈ records, leased record.checkpointId = false) :
    records.forM (fun record => lockSourceForRemoval leased record.checkpointId) store =
      .ok () store := by
  induction records with
  | nil => rfl
  | cons record records ih =>
      have hfirst : lockSourceForRemoval leased record.checkpointId store = .ok () store :=
        lockSourceForRemoval_free (h record List.mem_cons_self)
      exact (Crash.bind_of_ok hfirst).trans
        (ih fun other hother => h other (List.mem_cons_of_mem _ hother))

theorem guards_held (store : PlanStore Document Tree)
    (h : ∃ record ∈ records, leased record.checkpointId = true) :
    ∃ checkpointId,
      records.forM (fun record => lockSourceForRemoval leased record.checkpointId) store =
        .error (.inUse checkpointId) store := by
  induction records with
  | nil => simp at h
  | cons record records ih =>
      cases hheld : leased record.checkpointId with
      | true =>
          have hfirst : lockSourceForRemoval leased record.checkpointId store = _ :=
            lockSourceForRemoval_held hheld
          exact ⟨_, Crash.bind_of_error hfirst⟩
      | false =>
          have hfirst : lockSourceForRemoval leased record.checkpointId store = _ :=
            lockSourceForRemoval_free hheld
          obtain ⟨checkpointId, hlater⟩ := ih (by simpa [hheld] using h)
          exact ⟨checkpointId, (Crash.bind_of_ok hfirst).trans hlater⟩

theorem documents_ok (h : ∀ record ∈ records, planIdFault record.planId = none) :
    ∃ store', records.forM (fun record => removePlanDocuments record.planId) store =
      .ok () store' := by
  induction records generalizing store with
  | nil => exact ⟨store, rfl⟩
  | cons record records ih =>
      obtain ⟨middle, hfirst⟩ : ∃ middle, removePlanDocuments record.planId store = .ok () middle :=
        removePlanDocuments_ok (h record List.mem_cons_self)
      obtain ⟨store', hlater⟩ : ∃ store', records.forM
          (fun record => removePlanDocuments record.planId) middle = .ok () store' :=
        ih fun other hother => h other (List.mem_cons_of_mem _ hother)
      exact ⟨store', (Crash.bind_of_ok hfirst).trans hlater⟩

theorem documents_error (h : ∃ record ∈ records, planIdFault record.planId ≠ none) :
    ∃ error store', records.forM (fun record => removePlanDocuments record.planId) store =
      .error error store' ∧ error.isInUse = false := by
  induction records generalizing store with
  | nil => simp at h
  | cons record records ih =>
      cases hplan : planIdFault record.planId with
      | some reason =>
          have hfirst : removePlanDocuments record.planId store = _ :=
            removePlanDocuments_fault hplan
          exact ⟨_, _, Crash.bind_of_error hfirst, rfl⟩
      | none =>
          obtain ⟨middle, hfirst⟩ :
              ∃ middle, removePlanDocuments record.planId store = .ok () middle :=
            removePlanDocuments_ok hplan
          obtain ⟨error, store', hlater, hinUse⟩ : ∃ error store', records.forM
              (fun record => removePlanDocuments record.planId) middle = .error error store' ∧
                error.isInUse = false := ih (by simpa [hplan] using h)
          exact ⟨error, store', (Crash.bind_of_ok hfirst).trans hlater, hinUse⟩

end Root

/-- The source of a checkpoint of the root is leased. -/
def RootLeased (leased : String → Bool) (rootId : String) (store : PlanStore Document Tree) :
    Prop :=
  ∃ inventory, store.inventory = some inventory ∧ ∃ record ∈ inventory.records,
    Text.startsWith (rootStart rootId) record.checkpointId = true ∧
    leased record.checkpointId = true

structure RootRemovable (rootId : String) (store : PlanStore Document Tree) : Prop where
  approved : ∃ roots, store.approvedRoots = some roots ∧ ∃ root ∈ roots, root.rootId = rootId
  addressed : ∃ inventory, store.inventory = some inventory ∧ ∀ record ∈ inventory.records,
    ofRoot rootId record = true → planIdFault record.planId = none

theorem guards_of_free {rootId : String} {inventory : CheckpointInventory Document}
    (hinventory : store.inventory = some inventory) (hfree : ¬ RootLeased leased rootId store) :
    (inventory.records.filter fun record =>
      Text.startsWith (rootStart rootId) record.checkpointId).forM
      (fun record => lockSourceForRemoval leased record.checkpointId) store = .ok () store := by
  apply guards_free
  intro record hrecord
  obtain ⟨hmem, hstart⟩ := List.mem_filter.mp hrecord
  cases hheld : leased record.checkpointId with
  | false => rfl
  | true => exact absurd ⟨inventory, hinventory, record, hmem, hstart, hheld⟩ hfree

theorem removeRoot_leased {rootId : String} (h : RootLeased leased rootId store) :
    ∃ checkpointId, removeRoot leased rootId store = .error (.inUse checkpointId) store := by
  obtain ⟨inventory, hinventory, record, hrecord, hstart, hheld⟩ := h
  have hguarded : ∃ record ∈ inventory.records.filter fun record =>
      Text.startsWith (rootStart rootId) record.checkpointId, leased record.checkpointId = true :=
    ⟨record, List.mem_filter.mpr ⟨hrecord, hstart⟩, hheld⟩
  obtain ⟨checkpointId, hguards⟩ := guards_held store hguarded
  refine ⟨checkpointId, ?_⟩
  rw [removeRoot, Crash.bind_of_ok (readInventory_some hinventory)]
  dsimp only
  rw [Crash.bind_of_error hguards]

theorem removeRoot_ok {rootId : String} (hfree : ¬ RootLeased leased rootId store)
    (h : RootRemovable rootId store) :
    ∃ removal store', removeRoot leased rootId store = .ok removal store' := by
  obtain ⟨roots, hroots, root, hroot, hid⟩ := h.approved
  obtain ⟨inventory, hinventory, haddressed⟩ := h.addressed
  rw [removeRoot, Crash.bind_of_ok (readInventory_some hinventory)]
  dsimp only
  rw [Crash.bind_of_ok (guards_of_free hinventory hfree),
    Crash.bind_of_ok (readApprovedRoots_some hroots)]
  cases hfind : roots.find? fun root => root.rootId = rootId with
  | none => exact absurd hid (by simpa using List.find?_eq_none.mp hfind root hroot)
  | some found =>
      dsimp only
      rw [Crash.bind_modify, Crash.bind_modify]
      obtain ⟨store', hdocuments⟩ := documents_ok fun record hrecord =>
        haddressed record (List.mem_filter.mp hrecord).1 (List.mem_filter.mp hrecord).2
      rw [Crash.bind_of_ok hdocuments]
      exact ⟨_, _, rfl⟩

theorem removeRoot_error {rootId : String} (hfree : ¬ RootLeased leased rootId store)
    (h : ¬ RootRemovable rootId store) :
    ∃ error store', removeRoot leased rootId store = .error error store' ∧
      error.isInUse = false := by
  rw [removeRoot]
  cases hinventory : store.inventory with
  | none =>
      rw [Crash.bind_of_error (readInventory_none hinventory)]
      exact ⟨_, _, rfl, rfl⟩
  | some inventory =>
      rw [Crash.bind_of_ok (readInventory_some hinventory)]
      dsimp only
      rw [Crash.bind_of_ok (guards_of_free hinventory hfree)]
      cases hroots : store.approvedRoots with
      | none =>
          rw [Crash.bind_of_error (readApprovedRoots_none hroots)]
          exact ⟨_, _, rfl, rfl⟩
      | some roots =>
          rw [Crash.bind_of_ok (readApprovedRoots_some hroots)]
          cases hfind : roots.find? fun root => root.rootId = rootId with
          | none => exact ⟨_, _, rfl, rfl⟩
          | some found =>
              have hfound : found.rootId = rootId := by simpa using List.find?_some hfind
              have hmem := List.mem_of_find?_eq_some hfind
              have hfault : ∃ record ∈ inventory.records.filter (ofRoot rootId),
                  planIdFault record.planId ≠ none := by
                by_contra hnone
                refine h ⟨⟨roots, hroots, found, hmem, hfound⟩, inventory, hinventory,
                  fun record hrecord hroot => ?_⟩
                by_contra hplan
                exact hnone ⟨record, List.mem_filter.mpr ⟨hrecord, hroot⟩, hplan⟩
              dsimp only
              rw [Crash.bind_modify, Crash.bind_modify]
              obtain ⟨error, store', hdocuments, hinUse⟩ := documents_error hfault
              rw [Crash.bind_of_error hdocuments]
              exact ⟨_, _, rfl, hinUse⟩

/-- Forgetting a root, and every checkpoint under it. -/
theorem refusable_removeRoot (leased : String → Bool) (rootId : String) :
    Refusable (removeRoot leased rootId : Step Document Tree RootRemoval)
      (RootLeased leased rootId)
      (fun store => ¬ RootLeased leased rootId store ∧ RootRemovable rootId store) where
  refuses := fun hheld =>
    let ⟨_, hrefused⟩ := removeRoot_leased hheld
    ⟨_, hrefused, rfl⟩
  otherwise := by
    intro store store' error hfree herror
    by_cases hremovable : RootRemovable rootId store
    · obtain ⟨_, _, hok⟩ := removeRoot_ok hfree hremovable
      rw [hok] at herror
      cases herror
    · obtain ⟨_, _, hother, hinUse⟩ := removeRoot_error hfree hremovable
      rw [hother] at herror
      cases herror
      exact hinUse
  goes := by
    intro store
    constructor
    · rintro ⟨removal, store', hok⟩
      have hfree : ¬ RootLeased leased rootId store := by
        intro hheld
        obtain ⟨_, hrefused⟩ := removeRoot_leased hheld
        rw [hok] at hrefused
        cases hrefused
      refine ⟨hfree, ?_⟩
      by_contra hremovable
      obtain ⟨_, _, herror, -⟩ := removeRoot_error hfree hremovable
      rw [hok] at herror
      cases herror
    · rintro ⟨hfree, hremovable⟩
      exact removeRoot_ok hfree hremovable

end PlanStore

end SceneWorks.CheckpointStore
