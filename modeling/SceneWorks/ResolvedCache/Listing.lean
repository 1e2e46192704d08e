import SceneWorks.Library.Fallible
import SceneWorks.Library.FirstRefusal
import SceneWorks.ResolvedCache.Accounting
import SceneWorks.ResolvedCache.Convergence

/-!
The listing of the entries, and the removal of those a caller picks from it. An entry is listed with
its metadata while its journal reads and, where it is complete, its bundle passes; one that does not
is listed without, and nobody picks it.
-/

namespace SceneWorks.ResolvedCache

variable {World Artifact : Type}

/-- The artifact of a derivative's document, and the checkpoint it says it was made from. -/
structure Derivation (Artifact : Type) where
  artifact : Artifact
  derivedFrom : Option String
  deriving DecidableEq

structure ResolvedCacheEntrySummary (Artifact : Type) where
  cacheKey : String
  state : ResolvedCacheEntryState
  metadata : Option (ResolvedCacheMetadata Artifact)

/-- What a removal of several entries looks at beside the entries. -/
structure EntriesEnv (World : Type) extends RecoverEnv World where
  -- A lease or a reservation holds the artifact lock of the entry of this digest.
  contended : String → Bool

def EntriesEnv.forEntry (env : EntriesEnv World) (digest : String) : RemovalEnv World :=
  ⟨env.toRecoverEnv, env.contended digest⟩

section Listing

variable (checks : RemovalChecks World Artifact) (env : EntriesEnv World)

def corruptSummary (digest : String) : ResolvedCacheEntrySummary Artifact :=
  ⟨"sha256:" ++ digest, .corrupt, none⟩

def summarize (digest : String) (children : Children Artifact) :
    ResolvedCacheEntrySummary Artifact :=
  match readMetadataUnlocked checks.toCacheChecks env.world digest children with
  | .ok (.valid metadata _) =>
      if metadata.state = .complete && !(checks.completeShape env.world children metadata) then
        corruptSummary digest
      else ⟨metadata.cacheKey, metadata.state, some metadata⟩
  | .ok (.evicted _) => ⟨"sha256:" ++ digest, .evicting, none⟩
  | .ok .missing => corruptSummary digest
  | .error _ => corruptSummary digest

/-- The entries in the order in which the directory is read. -/
def entryNames (entries : Children Artifact) : List String :=
  (entries.map Prod.fst).filter fun name => isLowerHex64 name && (entryAt entries name).isSome

def enumerate (entries : Children Artifact) : List (ResolvedCacheEntrySummary Artifact) :=
  ((entryNames entries).map fun digest =>
    summarize checks env digest ((entryAt entries digest).getD [])).insertionSort
      fun left right => left.cacheKey ≤ right.cacheKey

/-- `remove_entry` among the entries. -/
def removeIn (cacheKey : String) : EStateM CacheError (Children Artifact) ManualRemovalOutcome :=
  fun entries =>
    match keyDigest cacheKey with
    | .error error => .error error entries
    | .ok digest =>
        match removeEntry checks (env.forEntry digest) cacheKey (entryAt entries digest) with
        | .error error => .error error entries
        | .ok (outcome, none) => .ok outcome (entries.removeChild digest)
        | .ok (outcome, some left) => .ok outcome (entries.writeChild digest (.dir left))

end Listing

section Matching

variable (checks : RemovalChecks World (Derivation Artifact)) (env : EntriesEnv World)
  (picks : ResolvedCacheMetadata (Derivation Artifact) → Bool)

/-- The documents a pass goes through: those that are listed, derived and picked. -/
def picked (entries : Children (Derivation Artifact)) :
    List (ResolvedCacheMetadata (Derivation Artifact)) :=
  ((enumerate checks env entries).filterMap ResolvedCacheEntrySummary.metadata).filter
    fun metadata => metadata.production = .derived && picks metadata

def removeMatching : EStateM CacheError (Children (Derivation Artifact))
    (List ManualRemovalOutcome) := do
  let entries ← get
  FirstRefusal.each (fun metadata => removeIn checks env metadata.cacheKey)
    (picked checks env picks entries)

end Matching

section Listed

variable {checks : RemovalChecks World Artifact} {env : EntriesEnv World}
  {entries : Children Artifact}

theorem mem_entryNames {digest : String} : digest ∈ entryNames entries ↔
    isLowerHex64 digest = true ∧ ∃ children, entryAt entries digest = some children := by
  simp only [entryNames, List.mem_filter, Bool.and_eq_true, Option.isSome_iff_exists]
  refine ⟨fun h => h.2, fun h => ⟨?_, h⟩⟩
  obtain ⟨-, children, hchildren⟩ := h
  rw [entryAt, Children.child] at hchildren
  cases hfound : entries.find? fun entry => entry.1 = digest with
  | none =>
      rw [hfound] at hchildren
      cases hchildren
  | some entry =>
      have hname := List.find?_some hfound
      exact List.mem_map.mpr ⟨entry, List.mem_of_find?_eq_some hfound, of_decide_eq_true hname⟩

theorem summarize_cacheKey (digest : String) (children : Children Artifact) :
    (summarize checks env digest children).cacheKey = "sha256:" ++ digest := by
  unfold summarize
  split
  · rename_i metadata _ hread
    split
    · rfl
    · exact key_of_digest (cacheKeyDigest_of_shape (shape_of_readMetadata hread))
  all_goals rfl

/-- An entry is listed with the document that is read, and is not listed broken. -/
theorem summarize_metadata {digest : String} {children : Children Artifact}
    {metadata : ResolvedCacheMetadata Artifact} :
    (summarize checks env digest children).metadata = some metadata ↔
      (∃ hadInvalid, readMetadataUnlocked checks.toCacheChecks env.world digest children =
        .ok (.valid metadata hadInvalid)) ∧
      (metadata.state = .complete → checks.completeShape env.world children metadata = true) := by
  unfold summarize
  split
  · rename_i found hadInvalid hread
    split
    · rename_i hbroken
      refine ⟨nofun, ?_⟩
      rintro ⟨⟨_, hsame⟩, hshape⟩
      rw [hread] at hsame
      cases hsame
      simp only [Bool.and_eq_true, decide_eq_true_eq, Bool.not_eq_true'] at hbroken
      rw [hshape hbroken.1] at hbroken
      cases hbroken.2
    · rename_i hwhole
      constructor
      · intro h
        obtain rfl := Option.some.inj h
        refine ⟨⟨hadInvalid, hread⟩, fun hcomplete => ?_⟩
        simpa [hcomplete] using hwhole
      · rintro ⟨⟨_, hsame⟩, -⟩
        rw [hread] at hsame
        cases hsame
        rfl
  all_goals
    rename_i hread
    refine ⟨nofun, ?_⟩
    rintro ⟨⟨_, hsame⟩, -⟩
    rw [hread] at hsame
    cases hsame

theorem mem_enumerate {summary : ResolvedCacheEntrySummary Artifact} :
    summary ∈ enumerate checks env entries ↔ ∃ digest ∈ entryNames entries,
      summarize checks env digest ((entryAt entries digest).getD []) = summary := by
  rw [enumerate, (List.perm_insertionSort _ _).mem_iff, List.mem_map]

/-- No two entries are listed under one key. -/
theorem nodup_enumerate (hnames : (entries.map Prod.fst).Nodup) :
    ((enumerate checks env entries).map ResolvedCacheEntrySummary.cacheKey).Nodup := by
  have hkeys : ((entryNames entries).map fun digest =>
      summarize checks env digest ((entryAt entries digest).getD [])).map
        ResolvedCacheEntrySummary.cacheKey = (entryNames entries).map ("sha256:" ++ ·) := by
    rw [List.map_map]
    exact List.map_congr_left fun digest _ => summarize_cacheKey digest _
  rw [enumerate, ((List.perm_insertionSort _ _).map _).nodup_iff, hkeys]
  refine (hnames.filter _).map fun a b hab => ?_
  exact (String.append_right_inj "sha256:").mp hab

end Listed

section Picked

variable {checks : RemovalChecks World (Derivation Artifact)} {env : EntriesEnv World}
  {picks : ResolvedCacheMetadata (Derivation Artifact) → Bool}
  {entries : Children (Derivation Artifact)}

/-- The entry a document is listed from. -/
structure ListedAt (checks : RemovalChecks World Artifact) (env : EntriesEnv World)
    (entries : Children Artifact) (metadata : ResolvedCacheMetadata Artifact) (digest : String)
    (children : Children Artifact) : Prop where
  key : cacheKeyDigest metadata.cacheKey = some digest
  found : entryAt entries digest = some children
  read : ∃ hadInvalid, readMetadataUnlocked checks.toCacheChecks env.world digest children =
    .ok (.valid metadata hadInvalid)

theorem isLowerHex64_of_key {cacheKey digest : String}
    (h : cacheKeyDigest cacheKey = some digest) : isLowerHex64 digest = true := by
  unfold cacheKeyDigest at h
  split at h
  · obtain ⟨hhex, hdigest⟩ := Option.ite_none_right_eq_some.mp h
    obtain rfl := Option.some.inj hdigest
    rwa [isLowerHex64, String.toList_ofList]
  · cases h

theorem mem_picked {metadata : ResolvedCacheMetadata (Derivation Artifact)} :
    metadata ∈ picked checks env picks entries ↔
      (∃ digest children, ListedAt checks env entries metadata digest children ∧
        (metadata.state = .complete → checks.completeShape env.world children metadata = true)) ∧
      metadata.production = .derived ∧ picks metadata = true := by
  simp only [picked, List.mem_filter, Bool.and_eq_true, decide_eq_true_eq, List.mem_filterMap,
    mem_enumerate]
  refine and_congr ?_ Iff.rfl
  constructor
  · rintro ⟨summary, ⟨digest, hdigest, rfl⟩, hmetadata⟩
    obtain ⟨-, children, hchildren⟩ := mem_entryNames.mp hdigest
    rw [hchildren, Option.getD_some] at hmetadata
    obtain ⟨hread, hwhole⟩ := summarize_metadata.mp hmetadata
    obtain ⟨hadInvalid, hvalid⟩ := hread
    exact ⟨digest, children, ⟨cacheKeyDigest_of_shape (shape_of_readMetadata hvalid), hchildren,
      hadInvalid, hvalid⟩, hwhole⟩
  · rintro ⟨digest, children, ⟨hkey, hfound, hread⟩, hwhole⟩
    refine ⟨_, ⟨digest, mem_entryNames.mpr ⟨?_, children, hfound⟩, rfl⟩, ?_⟩
    · exact isLowerHex64_of_key hkey
    · rw [hfound, Option.getD_some]
      exact summarize_metadata.mpr ⟨hread, hwhole⟩

theorem pairwise_picked (hnames : (entries.map Prod.fst).Nodup) :
    (picked checks env picks entries).Pairwise fun a b => a.cacheKey ≠ b.cacheKey := by
  have hlisted : ∀ summary ∈ enumerate checks env entries, ∀ metadata,
      summary.metadata = some metadata → metadata.cacheKey = summary.cacheKey := by
    intro summary hsummary metadata hmetadata
    obtain ⟨digest, -, rfl⟩ := mem_enumerate.mp hsummary
    obtain ⟨⟨_, hread⟩, -⟩ := summarize_metadata.mp hmetadata
    rw [summarize_cacheKey]
    exact key_of_digest (cacheKeyDigest_of_shape (shape_of_readMetadata hread))
  refine (List.pairwise_filterMap.mpr ?_).filter _
  refine (List.pairwise_map.mp (nodup_enumerate hnames)).imp_of_mem ?_
  intro a b ha hb hne metadata hmetadata other hother
  rw [hlisted a ha metadata hmetadata, hlisted b hb other hother]
  exact hne

/-- What holds an entry: a lease, a live session that makes it, or a pin. -/
def heldAt (env : EntriesEnv World) (metadata : ResolvedCacheMetadata Artifact) : Bool :=
  (cacheKeyDigest metadata.cacheKey).any env.contended ||
    metadata.state = .materializing && metadata.sessionId.any (fun id => !(env.sessionFree id)) ||
    metadata.effectivePin

/-- The refusals of an entry that is in use or pinned. -/
def inUseMessages : List String :=
  ["cannot remove a resolved-cache entry with an active lease or reservation",
    "cannot remove a resolved-cache entry that a live session is materializing",
    "resolved-cache entry is pinned; unpin it before removal"]

def CacheError.isInUse : CacheError → Bool
  | .request message => inUseMessages.contains message
  | _ => false

def dropEntry (metadata : ResolvedCacheMetadata Artifact) (entries : Children Artifact) :
    Children Artifact :=
  match cacheKeyDigest metadata.cacheKey with
  | some digest => entries.removeChild digest
  | none => entries

theorem finishMarked_left {checks : CacheChecks World Artifact} {digest : String}
    {children : Children Artifact} {marker : EvictionMarker} {left : Option (Children Artifact)}
    (h : finishMarked checks digest children = .ok (marker, left)) : left = none := by
  rw [finishMarked, Fallible.bind_eq_ok] at h
  obtain ⟨found, -, hrest⟩ := h
  cases found with
  | none => cases hrest
  | some found =>
      obtain ⟨-, rfl⟩ := Prod.mk.inj (Except.ok.inj hrest)
      exact evictionStates_last children

/-- A removal leaves nothing of the entry. -/
theorem removeEntry_left {checks : RemovalChecks World Artifact} {env : RemovalEnv World}
    {cacheKey : String} {entry : Option (Children Artifact)} {outcome : ManualRemovalOutcome}
    {left : Option (Children Artifact)}
    (h : removeEntry checks env cacheKey entry = .ok (outcome, left)) : left = none := by
  rw [removeEntry, Fallible.bind_eq_ok] at h
  obtain ⟨digest, -, hplan⟩ := h
  dsimp only at hplan
  rw [Fallible.bind_eq_ok] at hplan
  obtain ⟨removal, -, hrest⟩ := hplan
  cases removal with
  | finish =>
      dsimp only at hrest
      rw [Fallible.bind_eq_ok] at hrest
      obtain ⟨⟨marker, found⟩, hfinish, hresult⟩ := hrest
      obtain ⟨-, rfl⟩ := Prod.mk.inj (Except.ok.inj hresult)
      exact finishMarked_left hfinish
  | tombstone marker warning =>
      dsimp only at hrest
      rw [Fallible.bind_eq_ok] at hrest
      obtain ⟨⟨marker, found⟩, hfinish, hresult⟩ := hrest
      obtain ⟨-, rfl⟩ := Prod.mk.inj (Except.ok.inj hresult)
      exact finishMarked_left hfinish

section Step

variable {entries : Children Artifact} {checks : RemovalChecks World Artifact}
  {metadata : ResolvedCacheMetadata Artifact} {digest : String} {children : Children Artifact}

theorem heldAt_eq (hkey : cacheKeyDigest metadata.cacheKey = some digest) :
    heldAt env metadata = (env.contended digest ||
      liveMaterializing (env.forEntry digest) metadata || metadata.effectivePin) := by
  rw [heldAt, hkey]
  rfl

theorem removeIn_goes (h : ListedAt checks env entries metadata digest children)
    (hfree : heldAt env metadata = false) :
    ∃ outcome, removeIn checks env metadata.cacheKey entries =
      .ok outcome (dropEntry metadata entries) := by
  rw [heldAt_eq h.key, Bool.or_eq_false_iff, Bool.or_eq_false_iff] at hfree
  obtain ⟨⟨hcontended, hlive⟩, hpin⟩ := hfree
  obtain ⟨hadInvalid, hread⟩ := h.read
  have hread' : readMetadataUnlocked checks.toCacheChecks (env.forEntry digest).world digest
      children = .ok (.valid metadata hadInvalid) := hread
  have hok : ∃ result, removeEntry checks (env.forEntry digest) metadata.cacheKey (some children) =
      .ok result := by
    rw [removeEntry_ok_iff h.key, hread']
    refine ⟨hcontended, ?_⟩
    rw [authorizeRemoval, hlive, hpin]
    exact ⟨_, rfl⟩
  obtain ⟨⟨outcome, left⟩, hremoved⟩ := hok
  obtain rfl := removeEntry_left hremoved
  refine ⟨outcome, ?_⟩
  rw [removeIn, keyDigest_eq_ok.mpr h.key]
  dsimp only
  rw [h.found, hremoved, dropEntry, h.key]

theorem removeEntry_refused (hkey : cacheKeyDigest metadata.cacheKey = some digest)
    (hread : ∃ hadInvalid, readMetadataUnlocked checks.toCacheChecks env.world digest children =
      .ok (.valid metadata hadInvalid))
    (hheld : heldAt env metadata = true) :
    ∃ error, removeEntry checks (env.forEntry digest) metadata.cacheKey (some children) =
      .error error ∧ error.isInUse = true := by
  obtain ⟨hadInvalid, hread⟩ := hread
  have hread' : readMetadataUnlocked checks.toCacheChecks (env.forEntry digest).world digest
      children = .ok (.valid metadata hadInvalid) := hread
  have hrefused : ∀ error, planRemoval checks (env.forEntry digest) metadata.cacheKey
      (some children) = .error error →
        removeEntry checks (env.forEntry digest) metadata.cacheKey (some children) =
          .error error := by
    intro error hplan
    rw [removeEntry, keyDigest_eq_ok.mpr hkey, Fallible.ok_bind, hplan]
    rfl
  rw [heldAt_eq hkey, Bool.or_eq_true, Bool.or_eq_true] at hheld
  cases hcontended : env.contended digest with
  | true =>
      have hleased : planRemoval checks (env.forEntry digest) metadata.cacheKey (some children) =
          .error (.request
            "cannot remove a resolved-cache entry with an active lease or reservation") := by
        rw [planRemoval, keyDigest_eq_ok.mpr hkey, Fallible.ok_bind]
        exact if_pos hcontended
      exact ⟨_, hrefused _ hleased, by decide⟩
  | false =>
      have hfree : ¬ (env.forEntry digest).contended = true := Bool.eq_false_iff.mp hcontended
      have hplan : ∀ error, authorizeRemoval checks (env.forEntry digest)
          (.ok (.valid metadata hadInvalid)) = .error error →
            planRemoval checks (env.forEntry digest) metadata.cacheKey (some children) =
              .error error := by
        intro error hrefusal
        rw [planRemoval, keyDigest_eq_ok.mpr hkey, Fallible.ok_bind, if_neg hfree]
        dsimp only
        rw [hread', hrefusal]
        rfl
      cases hlive : liveMaterializing (env.forEntry digest) metadata with
      | true =>
          have hmaking : planRemoval checks (env.forEntry digest) metadata.cacheKey
              (some children) = .error (.request
                "cannot remove a resolved-cache entry that a live session is materializing") := by
            refine hplan _ ?_
            rw [authorizeRemoval, if_pos hlive]
          exact ⟨_, hrefused _ hmaking, by decide⟩
      | false =>
          have hpin : metadata.effectivePin = true := by
            rw [hcontended, hlive] at hheld
            simpa using hheld
          have hpinned : planRemoval checks (env.forEntry digest) metadata.cacheKey
              (some children) = .error (.request
                "resolved-cache entry is pinned; unpin it before removal") := by
            refine hplan _ ?_
            rw [authorizeRemoval, hlive, if_neg Bool.false_ne_true, if_pos hpin]
          exact ⟨_, hrefused _ hpinned, by decide⟩

theorem removeIn_refused (h : ListedAt checks env entries metadata digest children)
    (hheld : heldAt env metadata = true) :
    ∃ error, removeIn checks env metadata.cacheKey entries = .error error entries ∧
      error.isInUse = true := by
  obtain ⟨error, hrefused, hinUse⟩ := removeEntry_refused h.key h.read hheld
  refine ⟨error, ?_, hinUse⟩
  rw [removeIn, keyDigest_eq_ok.mpr h.key]
  dsimp only
  rw [h.found, hrefused]

/-- Each removal goes by its own entry. -/
theorem apart_removals (checks : RemovalChecks World Artifact) (env : EntriesEnv World) :
    FirstRefusal.Apart (fun metadata => removeIn checks env metadata.cacheKey)
      (fun metadata => heldAt env metadata = false) dropEntry (fun error => error.isInUse = true)
      (fun metadata entries => ∃ digest children,
        ListedAt checks env entries metadata digest children)
      (fun a b => a.cacheKey ≠ b.cacheKey) where
  goes := fun ⟨_, _, hlisted⟩ hfree => removeIn_goes hlisted hfree
  refused := fun ⟨_, _, hlisted⟩ hheld => removeIn_refused hlisted (by simpa using hheld)
  frame := by
    rintro a b entries hne ⟨digest, children, hkey, hfound, hread⟩
    refine ⟨digest, children, hkey, ?_, hread⟩
    unfold dropEntry
    split
    · rename_i other hother
      rw [← hfound]
      apply entryAt_congr
      rw [Children.child_removeChild, if_neg]
      rintro rfl
      exact hne ((key_of_digest hother).trans (key_of_digest hkey).symm)
    · exact hfound

end Step

end Picked

section Pass

variable {checks : RemovalChecks World (Derivation Artifact)} {env : EntriesEnv World}
  {picks : ResolvedCacheMetadata (Derivation Artifact) → Bool}
  {entries : Children (Derivation Artifact)}

theorem child_dropped {Artifact : Type} {documents : List (ResolvedCacheMetadata Artifact)}
    {entries : Children Artifact} {digest : String} :
    (FirstRefusal.dropped dropEntry documents entries).child digest =
      if ∃ metadata ∈ documents, cacheKeyDigest metadata.cacheKey = some digest then none
      else entries.child digest := by
  induction documents generalizing entries with
  | nil => rw [if_neg (by simp)]; rfl
  | cons metadata documents ih =>
      have hlater : (FirstRefusal.dropped dropEntry documents (dropEntry metadata entries)).child
          digest = _ := ih
      refine hlater.trans ?_
      simp only [List.exists_mem_cons_iff]
      by_cases hthere : ∃ metadata ∈ documents, cacheKeyDigest metadata.cacheKey = some digest
      · rw [if_pos hthere, if_pos (.inr hthere)]
      · rw [if_neg hthere, dropEntry]
        cases hkey : cacheKeyDigest metadata.cacheKey with
        | none => rw [if_neg (by simp [hthere])]
        | some other =>
            dsimp only
            rw [Children.child_removeChild]
            simp [hthere]

/-- What is picked and free is gone when the pass is over. -/
theorem removeMatching_ok (hnames : (entries.map Prod.fst).Nodup)
    (hfree : ∀ metadata ∈ picked checks env picks entries, heldAt env metadata = false) :
    ∃ outcomes, removeMatching checks env picks entries =
      .ok outcomes (FirstRefusal.dropped dropEntry (picked checks env picks entries) entries) :=
  (apart_removals checks env).each_ok (pairwise_picked hnames)
    (fun _ hmetadata =>
      let ⟨⟨digest, children, hlisted, _⟩, _⟩ := mem_picked.mp hmetadata
      ⟨digest, children, hlisted⟩) hfree

/-- The first that is held stops the pass, and what was picked before it is gone. -/
theorem removeMatching_error {front back : List (ResolvedCacheMetadata (Derivation Artifact))}
    {metadata : ResolvedCacheMetadata (Derivation Artifact)}
    (hnames : (entries.map Prod.fst).Nodup)
    (hpicked : picked checks env picks entries = front ++ metadata :: back)
    (hfree : ∀ other ∈ front, heldAt env other = false) (hheld : heldAt env metadata = true) :
    ∃ error, removeMatching checks env picks entries =
      .error error (FirstRefusal.dropped dropEntry front entries) ∧ error.isInUse = true := by
  have hapart : (picked checks env picks entries).Pairwise fun a b => a.cacheKey ≠ b.cacheKey :=
    pairwise_picked hnames
  have hstands : ∀ other ∈ picked checks env picks entries, ∃ digest children,
      ListedAt checks env entries other digest children := by
    intro other hother
    obtain ⟨⟨digest, children, hlisted, -⟩, -⟩ := mem_picked.mp hother
    exact ⟨digest, children, hlisted⟩
  rw [hpicked] at hapart hstands
  obtain ⟨error, herror, hinUse⟩ :=
    (apart_removals checks env).each_error hapart hstands hfree (by simpa using hheld)
  refine ⟨error, ?_, hinUse⟩
  rw [← herror, ← hpicked]
  rfl

end Pass

end SceneWorks.ResolvedCache
