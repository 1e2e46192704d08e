import SceneWorks.Library.Fallible
import SceneWorks.ResolvedCache.Eviction
import SceneWorks.ResolvedCache.Generations

/-!
Which interruptions of a removal a later pass makes good. As long as the tombstone is
there, every reader takes the entry for evicted and every pass finishes the removal; once
it is unlinked before the directory, what is left is read, resurrected or parked as
corrupt like any other entry.
-/

namespace SceneWorks.ResolvedCache

variable {World Artifact : Type}

theorem removeChildrenTrace_append (xs ys : Children Artifact) :
    removeChildrenTrace (xs ++ ys) =
      (removeChildrenTrace xs).map (· ++ ys) ++ removeChildrenTrace ys := by
  induction xs with
  | nil => rfl
  | cons entry xs ih =>
      obtain ⟨name, node⟩ := entry
      rw [List.cons_append, removeChildrenTrace, ih, removeChildrenTrace, List.map_append,
        List.append_assoc, List.map_map]
      congr 1
      refine List.map_congr_left fun left _ => ?_
      cases left <;> rfl

/-- No removal adds a name. -/
theorem names_of_mem_trace {xs left : Children Artifact} (h : left ∈ removeChildrenTrace xs) :
    left.map Prod.fst ⊆ xs.map Prod.fst := by
  induction xs generalizing left with
  | nil => simp [removeChildrenTrace] at h
  | cons entry xs ih =>
      obtain ⟨name, node⟩ := entry
      rw [removeChildrenTrace, List.mem_append, List.mem_map] at h
      obtain ⟨child, -, rfl⟩ | h := h
      · cases child with
        | some child => exact fun _ h => h
        | none => exact fun _ h => List.mem_cons_of_mem _ h
      · exact fun _ hname => List.mem_cons_of_mem _ (ih h hname)

theorem child_eq_none {xs : Children Artifact} {name : String} (h : name ∉ xs.map Prod.fst) :
    xs.child name = none := by
  rw [Children.child, Option.map_eq_none_iff, List.find?_eq_none]
  intro entry hentry heq
  exact h (List.mem_map.mpr ⟨entry, hentry, by simpa using heq⟩)

/-- The children enumerated before the tombstone. -/
def beforeTombstone (children : Children Artifact) : Children Artifact :=
  children.takeWhile fun entry => entry.1 ≠ evictedMarkerFile

theorem split_tombstone {children : Children Artifact} {node : Node Artifact}
    (hnames : (children.map Prod.fst).Nodup) (h : children.child evictedMarkerFile = some node) :
    ∃ after, children = beforeTombstone children ++ (evictedMarkerFile, node) :: after ∧
      evictedMarkerFile ∉ (beforeTombstone children).map Prod.fst ∧
      evictedMarkerFile ∉ after.map Prod.fst := by
  induction children with
  | nil => simp [Children.child] at h
  | cons entry rest ih =>
      obtain ⟨name, first⟩ := entry
      rw [List.map_cons, List.nodup_cons] at hnames
      by_cases hname : name = evictedMarkerFile
      · subst hname
        rw [Children.child_cons, if_pos rfl] at h
        obtain rfl := Option.some.inj h
        exact ⟨rest, by simp [beforeTombstone], by simp [beforeTombstone], hnames.1⟩
      · rw [Children.child_cons, if_neg hname] at h
        obtain ⟨after, hrest, hbefore, hafter⟩ := ih hnames.2 h
        have hcons :
            beforeTombstone ((name, first) :: rest) = (name, first) :: beforeTombstone rest := by
          simp [beforeTombstone, hname]
        refine ⟨after, ?_, ?_, hafter⟩
        · rw [hcons, List.cons_append, ← hrest]
        · rw [hcons, List.map_cons, List.mem_cons, not_or]
          exact ⟨Ne.symm hname, hbefore⟩

theorem afterUnlinks_succ {children : Children Artifact} {n : Nat}
    (h : n < (removeChildrenTrace children).length) :
    afterUnlinks children (n + 1) = (removeChildrenTrace children)[n]? := by
  simp [afterUnlinks, evictionStates, List.getElem?_append, h]

theorem afterUnlinks_last (children : Children Artifact) :
    afterUnlinks children ((removeChildrenTrace children).length + 1) = none := by
  simp [afterUnlinks, evictionStates]

theorem evictionStates_last (children : Children Artifact) :
    (evictionStates children).getLast?.join = none := by
  rw [evictionStates, List.getLast?_append]
  rfl

/-- The tombstone is there until its own unlink, and nowhere after. -/
theorem tombstone_after_unlinks {children : Children Artifact} {content : Content Artifact}
    (hnames : (children.map Prod.fst).Nodup)
    (hmarker : children.child evictedMarkerFile = some (.file content)) {n : Nat}
    (hn : n ≤ (removeChildrenTrace children).length) :
    ∃ left, afterUnlinks children n = some left ∧
      left.child evictedMarkerFile =
        if n ≤ (removeChildrenTrace (beforeTombstone children)).length then some (.file content)
        else none := by
  obtain ⟨after, hsplit, hbefore, hafter⟩ := split_tombstone hnames hmarker
  cases n with
  | zero => exact ⟨children, rfl, by rw [hmarker, if_pos (Nat.zero_le _)]⟩
  | succ n =>
      have htrace : removeChildrenTrace children =
          (removeChildrenTrace (beforeTombstone children)).map
            (· ++ (evictedMarkerFile, .file content) :: after) ++
          (after :: removeChildrenTrace after) := by
        conv_lhs => rw [hsplit, removeChildrenTrace_append]
        rfl
      have hlength := congrArg List.length htrace
      simp only [List.length_append, List.length_map, List.length_cons] at hlength
      rw [afterUnlinks_succ hn, htrace]
      by_cases hpos : n < (removeChildrenTrace (beforeTombstone children)).length
      · obtain ⟨front, hfront⟩ :
            ∃ front, (removeChildrenTrace (beforeTombstone children))[n]? = some front :=
          ⟨_, List.getElem?_eq_getElem hpos⟩
        refine ⟨front ++ (evictedMarkerFile, .file content) :: after, ?_, ?_⟩
        · rw [List.getElem?_append_left (by simpa using hpos), List.getElem?_map, hfront]
          rfl
        · rw [if_pos (Nat.succ_le_of_lt hpos), Children.child_append, child_eq_none,
            Children.child_cons, if_pos rfl]
          · rfl
          · exact fun h => hbefore (names_of_mem_trace (List.mem_of_getElem? hfront) h)
      · have hlt : n - (removeChildrenTrace (beforeTombstone children)).length <
            (after :: removeChildrenTrace after).length := by
          rw [List.length_cons]
          omega
        obtain ⟨left, hleft⟩ : ∃ left, (after :: removeChildrenTrace after)[n -
            (removeChildrenTrace (beforeTombstone children)).length]? = some left :=
          ⟨_, List.getElem?_eq_getElem hlt⟩
        refine ⟨left, ?_, ?_⟩
        · rw [List.getElem?_append_right (by simpa using hpos), List.length_map, hleft]
        · rw [if_neg (by omega)]
          refine child_eq_none fun h => hafter ?_
          obtain rfl | hrest := List.mem_cons.mp (List.mem_of_getElem? hleft)
          · exact h
          · exact names_of_mem_trace hrest h

section Converges

variable (checks : RecoveryChecks World Artifact) (env : RecoverEnv World) (digest : String)

/-- The entry is not read any more, and a pass that finds it removes what is left. -/
def Converges (left : Option (Children Artifact)) : Prop :=
  (∀ metadata hadInvalidSlot,
    readMetadataUnlocked checks.toCacheChecks env.world digest (left.getD []) ≠
      .ok (.valid metadata hadInvalidSlot)) ∧
    ∀ children, left = some children →
      recoverEntry checks env digest children = .ok none ∧
        ∃ outcome, scanEntry checks env digest children = .ok (outcome, none)

variable {checks env digest}

theorem converges_gone : Converges checks env digest none := by
  refine ⟨fun _ _ h => ?_, nofun⟩
  cases h

/-- A pass that finds the tombstone finishes the removal. -/
theorem converges_of_tombstone {children : Children Artifact} {marker : EvictionMarker}
    (hmarker : readEvictionMarker checks.toCacheChecks digest children = .ok (some marker))
    (hcleanup : (canceledCleanupReceipt ("sha256:" ++ digest) children).isOk = true) :
    Converges checks env digest (some children) := by
  have hread : readMetadataUnlocked checks.toCacheChecks env.world digest children =
      .ok (.evicted marker) := by
    rw [readMetadataUnlocked, hmarker]
    rfl
  have hfinish : finishPendingEviction checks digest children = .ok none := by
    rw [finishPendingEviction, hmarker]
    exact congrArg Except.ok (evictionStates_last children)
  refine ⟨?_, ?_⟩
  · intro metadata hadInvalidSlot h
    cases hread.symm.trans h
  · intro found hfound
    obtain rfl := Option.some.inj hfound
    refine ⟨?_, .evicted, ?_⟩
    · cases hreceipt : canceledCleanupReceipt ("sha256:" ++ digest) children with
      | error e => simp [hreceipt, Except.isOk, Except.toBool] at hcleanup
      | ok cleanup =>
          rw [recoverEntry, hreceipt, Fallible.ok_bind, hread]
          exact hfinish
    · rw [scanEntry, hread]
      simp only [hfinish]
      rfl

/-- Without the tombstone the scan leaves an entry that is not read where it is. -/
theorem not_converges_of_noTombstone {children : Children Artifact} (h : NoTombstone children) :
    ¬ Converges checks env digest (some children) := by
  intro hconverges
  obtain ⟨hnot, hpass⟩ := hconverges
  obtain ⟨-, outcome, hscan⟩ := hpass children rfl
  have hread := read_of_noTombstone checks.toCacheChecks digest env.world h
  rw [scanEntry] at hscan
  cases hresult : readMetadataUnlocked checks.toCacheChecks env.world digest children with
  | error e =>
      rw [hresult] at hscan
      cases hscan
  | ok found =>
      cases found with
      | missing =>
          rw [hresult] at hscan
          cases hscan
      | valid metadata hadInvalidSlot => exact hnot metadata hadInvalidSlot hresult
      | evicted marker =>
          have hslots : ∀ slots :
              List (SlotRead Artifact), readSlots slots ≠ .ok (.evicted marker) := by
            intro slots hslots
            rw [readSlots] at hslots
            split at hslots
            · cases hslots
            · split at hslots
              · cases hslots
              · split at hslots <;> cases hslots
          exact hslots _ (hread.symm.trans hresult)

theorem readEvictionMarker_congr {checks : CacheChecks World Artifact}
    {children left : Children Artifact}
    (h : left.child evictedMarkerFile = children.child evictedMarkerFile) :
    readEvictionMarker checks digest left = readEvictionMarker checks digest children := by
  rw [readEvictionMarker, readEvictionMarker, h]

theorem marker_file {children : Children Artifact} {marker : EvictionMarker}
    (h : readEvictionMarker checks.toCacheChecks digest children = .ok (some marker)) :
    ∃ content, children.child evictedMarkerFile = some (.file content) := by
  rw [readEvictionMarker] at h
  cases hchild : children.child evictedMarkerFile with
  | none =>
      rw [hchild] at h
      cases h
  | some node =>
      cases node with
      | file content => exact ⟨content, rfl⟩
      | dir _ =>
          rw [hchild] at h
          cases h

end Converges

/-- What is left of a file is the file or nothing. -/
theorem child_of_trace {xs left : Children Artifact} {name : String} {content : Content Artifact}
    (hnames : (xs.map Prod.fst).Nodup)
    (hchild : ∀ node, xs.child name = some node → node = .file content)
    (h : left ∈ removeChildrenTrace xs) :
    left.child name = none ∨ left.child name = xs.child name := by
  induction xs generalizing left with
  | nil => simp [removeChildrenTrace] at h
  | cons entry xs ih =>
      obtain ⟨first, node⟩ := entry
      rw [List.map_cons, List.nodup_cons] at hnames
      rw [Children.child_cons] at hchild ⊢
      rw [removeChildrenTrace, List.mem_append, List.mem_map] at h
      by_cases hfirst : first = name
      · rw [if_pos hfirst] at hchild ⊢
        have hrest : Children.child xs name = none := child_eq_none (hfirst ▸ hnames.1)
        obtain rfl := hchild node rfl
        obtain ⟨child, hmem, rfl⟩ | h := h
        · obtain rfl : child = none := by simpa [Node.removeTrace] using hmem
          exact .inl hrest
        · refine .inl (child_eq_none fun hname => ?_)
          exact hnames.1 (hfirst ▸ names_of_mem_trace h hname)
      · rw [if_neg hfirst] at hchild ⊢
        obtain ⟨child, -, rfl⟩ | h := h
        · cases child with
          | some child =>
              rw [Children.child_cons, if_neg hfirst]
              exact .inr rfl
          | none => exact .inr rfl
        · exact ih hnames.2 hchild h

theorem mem_of_afterUnlinks {children left : Children Artifact} {n : Nat}
    (h : afterUnlinks children n = some left) :
    left = children ∨ left ∈ removeChildrenTrace children := by
  cases n with
  | zero => exact .inl (Option.some.inj h).symm
  | succ n =>
      by_cases hn : n < (removeChildrenTrace children).length
      · rw [afterUnlinks_succ hn] at h
        exact .inr (List.mem_of_getElem? h)
      · have hnone : afterUnlinks children (n + 1) = none := by
          simp only [afterUnlinks, evictionStates, List.cons_append, List.getElem?_cons_succ]
          rw [List.getElem?_append_right (by simpa using hn)]
          cases hzero : n - (List.map some (removeChildrenTrace children)).length with
          | zero => rfl
          | succ m => rfl
        cases hnone.symm.trans h

theorem cleanup_of_trace {children left : Children Artifact} {cacheKey : String}
    (hnames : (children.map Prod.fst).Nodup)
    (hcleanup : (canceledCleanupReceipt cacheKey children).isOk = true)
    (h : left = children ∨ left ∈ removeChildrenTrace children) :
    (canceledCleanupReceipt cacheKey left).isOk = true := by
  obtain rfl | h := h
  · exact hcleanup
  · have hfile : ∃ content, ∀ node, children.child canceledCleanupFile = some node →
        node = .file content := by
      cases hchild : children.child canceledCleanupFile with
      | none => exact ⟨.other none, nofun⟩
      | some node =>
          cases node with
          | file content => exact ⟨content, fun other hother => (Option.some.inj hother).symm⟩
          | dir _ =>
              rw [canceledCleanupReceipt, hchild] at hcleanup
              cases hcleanup
    obtain ⟨content, hfile⟩ := hfile
    obtain hnone | hsame := child_of_trace hnames hfile h
    · rw [canceledCleanupReceipt, hnone]
      rfl
    · rw [canceledCleanupReceipt, hsame]
      exact hcleanup

/-- A removal cut off after `n` unlinks converges exactly when the tombstone was not unlinked
yet or the directory is gone. -/
theorem interrupted_eviction_converges_iff {World Artifact : Type}
    (checks : RecoveryChecks World Artifact) (env : RecoverEnv World) (digest : String)
    (children : Children Artifact) (marker : EvictionMarker) (n : Nat)
    (hnames : (children.map Prod.fst).Nodup)
    (hmarker : readEvictionMarker checks.toCacheChecks digest children = .ok (some marker))
    (hcleanup : (canceledCleanupReceipt ("sha256:" ++ digest) children).isOk = true)
    (hn : n ≤ (removeChildrenTrace children).length + 1) :
    Converges checks env digest (afterUnlinks children n) ↔
      n ≤ (removeChildrenTrace (beforeTombstone children)).length ∨
        n = (removeChildrenTrace children).length + 1 := by
  by_cases hlast : n = (removeChildrenTrace children).length + 1
  · subst hlast
    rw [afterUnlinks_last]
    exact ⟨fun _ => .inr rfl, fun _ => converges_gone⟩
  · obtain ⟨content, hfile⟩ := marker_file hmarker
    obtain ⟨left, hleft, htombstone⟩ := tombstone_after_unlinks hnames hfile (n := n) (by omega)
    rw [hleft]
    by_cases hbefore : n ≤ (removeChildrenTrace (beforeTombstone children)).length
    · rw [if_pos hbefore, ← hfile] at htombstone
      have hfound : readEvictionMarker checks.toCacheChecks digest left = .ok (some marker) := by
        rw [readEvictionMarker_congr htombstone, hmarker]
      refine ⟨fun _ => .inl hbefore, fun _ => converges_of_tombstone hfound ?_⟩
      exact cleanup_of_trace hnames hcleanup (mem_of_afterUnlinks hleft)
    · rw [if_neg hbefore] at htombstone
      refine ⟨fun h => absurd h (not_converges_of_noTombstone htombstone), fun h => ?_⟩
      exact absurd h (not_or.mpr ⟨hbefore, hlast⟩)

def sampleRecoveryChecks : RecoveryChecks (List String) String :=
  { sampleChecks with
    completeShape := fun _ children _ => (children.child bundleDir).isSome
    completeContent := fun _ children _ => (children.child bundleDir).map fun _ => children }

def sampleRecoverEnv : RecoverEnv (List String) where
  world := ["bundle"]
  now := 9
  sessionId := "00000000000000000000000000000000"
  sessionFree := fun _ => true

def sampleTombstone : EvictionMarker where
  schemaVersion := 1
  cacheKey := "sha256:0000000000000000000000000000000000000000000000000000000000000000"
  cause := .ttlExpired
  reclaimableBytes := 0
  requestedAt := 5
  sessionId := "00000000000000000000000000000000"

/-- A complete entry that the directory lists with its tombstone first. -/
def tombstoneFirst : Children String :=
  [(evictedMarkerFile, .file (.marker ⟨1, "", sampleTombstone⟩)),
    (bundleDir, .dir [("weights", .file (.other none))]),
    (slotFile 1, .file (.journal (.new sampleChecks 1 (sampleMetadata .complete "bundle" 3))))]

/-- Cut off after the first unlink, the removal leaves an entry that is read as complete again;
even with the tombstone last, the empty directory is parked as corrupt. -/
theorem tombstone_first_not_converges :
    readMetadataUnlocked sampleChecks ["bundle"] sampleDigest tombstoneFirst =
        .ok (.evicted sampleTombstone) ∧
      readMetadataUnlocked sampleChecks ["bundle"] sampleDigest
          ((afterUnlinks tombstoneFirst 1).getD []) =
        .ok (.valid (sampleMetadata .complete "bundle" 3) false) ∧
      ¬ Converges sampleRecoveryChecks sampleRecoverEnv sampleDigest
        (afterUnlinks tombstoneFirst 1) ∧
      ¬ Converges sampleRecoveryChecks sampleRecoverEnv sampleDigest
        (afterUnlinks tombstoneFirst.reverse 4) := by
  have hread : readMetadataUnlocked sampleChecks ["bundle"] sampleDigest
      ((afterUnlinks tombstoneFirst 1).getD []) =
        .ok (.valid (sampleMetadata .complete "bundle" 3) false) := by
    decide +kernel
  refine ⟨by decide +kernel, hread, fun h => h.1 _ _ hread, ?_⟩
  exact (not_converges_of_noTombstone (rfl : NoTombstone ([] : Children String)))

theorem tombstone_first_converges_before_unlink :
    Converges sampleRecoveryChecks sampleRecoverEnv sampleDigest
      (afterUnlinks tombstoneFirst.reverse 3) := by
  refine (interrupted_eviction_converges_iff sampleRecoveryChecks sampleRecoverEnv sampleDigest
    tombstoneFirst.reverse sampleTombstone 3 ?_ ?_ ?_ ?_).mpr (.inl ?_)
  all_goals decide +kernel

end SceneWorks.ResolvedCache
