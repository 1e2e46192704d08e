import SceneWorks.ResolvedCache.Journal

/-!
Histories of one journal. The generation of a write follows the highest one on disk as long
as the last document written can be read at present, so that a write always takes the slot
of the older document; once it cannot, the generation restarts and an old document may
win later. `Held` is the journal between the writes of a history in which that never
happens.
-/

namespace SceneWorks.ResolvedCache

variable {World Artifact : Type}

theorem slotFile_ne : slotFile 0 ≠ slotFile 1 := by decide

theorem slotFile_ne_marker {slot : Nat} (h : slot < 2) : slotFile slot ≠ evictedMarkerFile := by
  match slot, h with
  | 0, _ => decide
  | 1, _ => decide

theorem slotFile_injective {i j : Nat} (hi : i < 2) (hj : j < 2) (h : slotFile i = slotFile j) :
    i = j := by
  match i, j, hi, hj with
  | 0, 0, _, _ | 1, 1, _, _ => rfl
  | 0, 1, _, _ => exact absurd h slotFile_ne
  | 1, 0, _, _ => exact absurd h slotFile_ne.symm

theorem newest_pair (a b : JournalEnvelope Artifact) :
    newest [a, b] = some (if a.generation ≤ b.generation then b else a) := by
  by_cases h : a.generation ≤ b.generation
  · simp [newest, h]
  · simp [newest, h]

section Slots

variable (checks : CacheChecks World Artifact) (digest : String) {children : Children Artifact}
  {metadata : ResolvedCacheMetadata Artifact}

/-- The slot holds what a write of that generation leaves. -/
def Written (children : Children Artifact) (generation : Nat)
    (metadata : ResolvedCacheMetadata Artifact) : Prop :=
  children.child (slotFile (generation % 2)) =
      some (.file (.journal (.new checks generation metadata))) ∧
    metadata.schemaVersion ≤ resolvedCacheDerivedStoreVersion

theorem readJournal_new (generation : Nat)
    (h : metadata.schemaVersion ≤ resolvedCacheDerivedStoreVersion) :
    readJournal checks (.file (.journal (.new checks generation metadata))) =
      .ok (.new checks generation metadata) := by
  have hprobe : ((Content.journal (.new checks generation metadata)).probe.filter
      (resolvedCacheDerivedStoreVersion < ·)) = none := by
    simpa [Content.probe, JournalEnvelope.new] using h
  have hvalid : (JournalEnvelope.new checks generation metadata).isValid checks = true := by
    simp [JournalEnvelope.isValid, JournalEnvelope.new]
  rw [readJournal, hprobe]
  exact if_pos hvalid

theorem Written.readSlot {generation : Nat} (h : Written checks children generation metadata)
    (world : World) : readSlot checks world digest children (generation % 2) =
      if validateMetadataShapeWith checks world metadata digest .pathsAndSizesOnly then
        .valid (.new checks generation metadata) else .invalid := by
  rw [ResolvedCache.readSlot, h.1]
  simp only [readJournal_new checks generation h.2]
  rfl

theorem Written.generation {generation : Nat} (h : Written checks children generation metadata) :
    (children.child (slotFile (generation % 2))).map (readJournal checks) =
      some (.ok (.new checks generation metadata)) := by
  rw [h.1, Option.map_some, readJournal_new checks generation h.2]

/-- The journal between two writes: the newest document, and nothing or an older one in the
other slot. -/
inductive Held (children : Children Artifact) (generation : Nat)
    (metadata : ResolvedCacheMetadata Artifact) : Prop where
  | single (hnew : Written checks children generation metadata)
      (hold : children.child (slotFile ((generation + 1) % 2)) = none)
  | pair {older : Nat} {old : ResolvedCacheMetadata Artifact}
      (hnew : Written checks children generation metadata)
      (hold : Written checks children older old) (hslot : older % 2 = (generation + 1) % 2)
      (hlt : older < generation)

theorem Held.written {generation : Nat} (h : Held checks children generation metadata) :
    Written checks children generation metadata := by
  cases h with
  | single hnew hold => exact hnew
  | pair hnew hold hslot hlt => exact hnew

theorem slots_cases (generation : Nat) (P : List (SlotRead Artifact) → Prop)
    (f : Nat → SlotRead Artifact)
    (hfirst : P [f (generation % 2), f ((generation + 1) % 2)])
    (hsecond : P [f ((generation + 1) % 2), f (generation % 2)]) : P ([0, 1].map f) := by
  obtain hparity | hparity := Nat.mod_two_eq_zero_or_one generation
  · have hother : (generation + 1) % 2 = 1 := by omega
    rw [hparity, hother] at hfirst
    exact hfirst
  · have hother : (generation + 1) % 2 = 0 := by omega
    rw [hparity, hother] at hsecond
    exact hsecond

theorem Held.highestGeneration {generation : Nat} (h : Held checks children generation metadata) :
    highestGeneration checks children = generation := by
  have hnew := h.written.generation
  have hparity := Nat.mod_two_eq_zero_or_one generation
  cases h with
  | single hwritten hold =>
      obtain hzero | hone := hparity
      · have hother : (generation + 1) % 2 = 1 := by omega
        rw [hother] at hold
        rw [hzero] at hnew
        simp [ResolvedCache.highestGeneration, hnew, hold, JournalEnvelope.new]
      · have hother : (generation + 1) % 2 = 0 := by omega
        rw [hother] at hold
        rw [hone] at hnew
        simp [ResolvedCache.highestGeneration, hnew, hold, JournalEnvelope.new]
  | @pair older old hwritten hold hslot hlt =>
      have holder := hold.generation
      obtain hzero | hone := hparity
      · have hother : older % 2 = 1 := by omega
        rw [hother] at holder
        rw [hzero] at hnew
        simp only [ResolvedCache.highestGeneration, List.foldl_cons, List.foldl_nil, hnew, holder,
          JournalEnvelope.new]
        omega
      · have hother : older % 2 = 0 := by omega
        rw [hother] at holder
        rw [hone] at hnew
        simp only [ResolvedCache.highestGeneration, List.foldl_cons, List.foldl_nil, hnew, holder,
          JournalEnvelope.new]
        omega

/-- What the other slot says: nothing that counts, or the older document. -/
theorem Held.other {generation : Nat} (h : Held checks children generation metadata)
    (world : World) :
    readSlot checks world digest children ((generation + 1) % 2) = .absent ∨
      readSlot checks world digest children ((generation + 1) % 2) = .invalid ∨
      ∃ older old, older < generation ∧
        validateMetadataShapeWith checks world old digest .pathsAndSizesOnly = true ∧
        readSlot checks world digest children ((generation + 1) % 2) =
          .valid (.new checks older old) := by
  cases h with
  | single hnew hold =>
      refine .inl ?_
      rw [readSlot, hold]
  | @pair older old hnew hold hslot hlt =>
      have hread := hold.readSlot checks digest world
      rw [hslot] at hread
      by_cases hshape : validateMetadataShapeWith checks world old digest .pathsAndSizesOnly = true
      · rw [if_pos hshape] at hread
        exact .inr (.inr ⟨older, old, hlt, hshape, hread⟩)
      · rw [if_neg hshape] at hread
        exact .inr (.inl hread)

/-- The newest document is read while it passes its shape check. -/
theorem Held.read_of_shape {generation : Nat} (h : Held checks children generation metadata)
    {world : World}
    (hshape : validateMetadataShapeWith checks world metadata digest .pathsAndSizesOnly = true) :
    ∃ hadInvalid, readSlots ([0, 1].map (readSlot checks world digest children)) =
      .ok (.valid metadata hadInvalid) := by
  have hnew := h.written.readSlot checks digest world
  rw [if_pos hshape] at hnew
  refine slots_cases generation
    (fun slots => ∃ hadInvalid, readSlots slots = .ok (.valid metadata hadInvalid)) _ ?_ ?_
  · obtain hother | hother | ⟨older, old, hlt, -, hother⟩ := h.other checks digest world
    · exact ⟨false, by rw [hnew, hother]; rfl⟩
    · exact ⟨true, by rw [hnew, hother]; rfl⟩
    · refine ⟨false, ?_⟩
      have hnewest := newest_pair (.new checks generation metadata) (.new checks older old)
      rw [if_neg (by simpa [JournalEnvelope.new] using hlt)] at hnewest
      rw [hnew, hother, readSlots]
      simp only [List.filterMap_cons, SlotRead.envelope?, List.filterMap_nil, hnewest]
      rfl
  · obtain hother | hother | ⟨older, old, hlt, -, hother⟩ := h.other checks digest world
    · exact ⟨false, by rw [hnew, hother]; rfl⟩
    · exact ⟨true, by rw [hnew, hother]; rfl⟩
    · refine ⟨false, ?_⟩
      have hnewest := newest_pair (.new checks older old) (.new checks generation metadata)
      rw [if_pos (by simpa [JournalEnvelope.new] using hlt.le)] at hnewest
      rw [hnew, hother, readSlots]
      simp only [List.filterMap_cons, SlotRead.envelope?, List.filterMap_nil, hnewest]
      rfl

/-- Else an older document is read, or none is and both slots count as corrupt. -/
theorem Held.read_of_not_shape {generation : Nat} (h : Held checks children generation metadata)
    {world : World}
    (hshape : validateMetadataShapeWith checks world metadata digest .pathsAndSizesOnly = false) :
    readSlots ([0, 1].map (readSlot checks world digest children)) =
        .error .bothMetadataSlotsCorrupt ∨
      ∃ old hadInvalid, old ≠ metadata ∧
        readSlots ([0, 1].map (readSlot checks world digest children)) =
          .ok (.valid old hadInvalid) := by
  have hnew := h.written.readSlot checks digest world
  rw [if_neg (by simp [hshape])] at hnew
  refine slots_cases generation (fun slots =>
    readSlots slots = .error .bothMetadataSlotsCorrupt ∨ ∃ old hadInvalid, old ≠ metadata ∧
      readSlots slots = .ok (.valid old hadInvalid)) _ ?_ ?_
  all_goals
    obtain hother | hother | ⟨older, old, -, holdShape, hother⟩ :=
      h.other checks digest world
    · exact .inl (by rw [hnew, hother]; rfl)
    · exact .inl (by rw [hnew, hother]; rfl)
    · refine .inr ⟨old, true, ?_, by rw [hnew, hother]; rfl⟩
      rintro rfl
      rw [hshape] at holdShape
      cases holdShape

end Slots

section History

variable (checks : CacheChecks World Artifact) (digest : String)

/-- An entry in its surroundings, with the document of the last write that succeeded. -/
structure JournalState (World Artifact : Type) where
  world : World
  children : Children Artifact
  last : Option (ResolvedCacheMetadata Artifact)

inductive JournalOp (World Artifact : Type) where
  | write (metadata : ResolvedCacheMetadata Artifact)
  | crash
  -- Anything outside the two slots: the sources, the bundle, receipts and the tombstone.
  | change (world : World) (others : Children Artifact)

def isSlot (name : String) : Bool := name = slotFile 0 || name = slotFile 1

def journalStep (s : JournalState World Artifact) :
    JournalOp World Artifact → JournalState World Artifact
  | .write metadata =>
      match writeMetadataUnlocked checks s.world digest s.children metadata with
      | .ok children => { s with children := children, last := some metadata }
      | .error _ => s
  | .crash => s
  | .change world others =>
      { s with
        world := world
        children := s.children.filter (fun entry => isSlot entry.1) ++
          others.filter fun entry => !(isSlot entry.1) }

/-- A read that returns a document returns the last one written, and no read finds both slots
corrupt. A tombstone, valid or not, is found before the slots are looked at. -/
def NeverBack (s : JournalState World Artifact) : Prop :=
  ∀ metadata, s.last = some metadata →
    (∀ found hadInvalid,
      readMetadataUnlocked checks s.world digest s.children = .ok (.valid found hadInvalid) →
      found = metadata) ∧
    readMetadataUnlocked checks s.world digest s.children ≠ .error .bothMetadataSlotsCorrupt

def NoTombstone (children : Children Artifact) : Prop := children.child evictedMarkerFile = none

/-- Every caller reads the entry first and declines when a tombstone is there. -/
def WritesUntombstoned (s : JournalState World Artifact) : JournalOp World Artifact → Prop
  | .write _ => NoTombstone s.children
  | _ => True

/-- A change that leaves no tombstone leaves what the last document written needs. -/
def KeepsShape (s : JournalState World Artifact) : JournalOp World Artifact → Prop
  | .change world others => NoTombstone others → ∀ metadata, s.last = some metadata →
      validateMetadataShapeWith checks world metadata digest .pathsAndSizesOnly = true
  | _ => True

theorem read_of_noTombstone (world : World) {children : Children Artifact}
    (h : NoTombstone children) : readMetadataUnlocked checks world digest children =
      readSlots ([0, 1].map (readSlot checks world digest children)) := by
  have hmarker : readEvictionMarker checks digest children = .ok none := by
    rw [readEvictionMarker, h]
  rw [readMetadataUnlocked, hmarker]
  rfl

theorem read_of_tombstone (world : World) {children : Children Artifact}
    (h : ¬ NoTombstone children) :
    (∃ marker, readMetadataUnlocked checks world digest children = .ok (.evicted marker)) ∨
      ∃ message, readMetadataUnlocked checks world digest children =
        .error (.internal message) := by
  have hmarker : (∃ marker, readEvictionMarker checks digest children = .ok (some marker)) ∨
      ∃ message, readEvictionMarker checks digest children = .error (.internal message) := by
    rw [readEvictionMarker]
    cases hchild : children.child evictedMarkerFile with
    | none => exact absurd hchild h
    | some node =>
        match node with
        | .dir _ => exact .inr ⟨_, rfl⟩
        | .file (.marker envelope) =>
            by_cases hvalid : envelope.isValid checks digest = true
            · exact .inl ⟨_, if_pos hvalid⟩
            · exact .inr ⟨_, if_neg hvalid⟩
        | .file (.journal _) | .file (.receipt _) | .file (.cleanup _) | .file (.corrupt _)
        | .file (.other _) => exact .inr ⟨_, rfl⟩
  rw [readMetadataUnlocked]
  obtain ⟨marker, hmarker⟩ | ⟨message, hmarker⟩ := hmarker
  · exact .inl ⟨marker, by rw [hmarker]; rfl⟩
  · exact .inr ⟨message, by rw [hmarker]; rfl⟩

theorem neverBack_of_tombstone {s : JournalState World Artifact} (h : ¬ NoTombstone s.children) :
    NeverBack checks digest s := by
  intro metadata _
  obtain ⟨marker, hread⟩ | ⟨message, hread⟩ := read_of_tombstone checks digest s.world h
  · rw [hread]
    exact ⟨fun found hadInvalid he => (nomatch he), nofun⟩
  · rw [hread]
    exact ⟨fun found hadInvalid he => (nomatch he), nofun⟩

/-- The entry of a history in which the last document written could always be read. -/
inductive Kept (s : JournalState World Artifact) : Prop where
  | fresh (hlast : s.last = none) (hslots : ∀ slot < 2, s.children.child (slotFile slot) = none)
  | held {generation : Nat} {metadata : ResolvedCacheMetadata Artifact}
      (hlast : s.last = some metadata) (hheld : Held checks s.children generation metadata)
      (hshape : NoTombstone s.children →
        validateMetadataShapeWith checks s.world metadata digest .pathsAndSizesOnly = true)

theorem child_change (kept others : Children Artifact) (name : String) :
    Children.child (kept.filter (fun entry => isSlot entry.1) ++
        others.filter fun entry => !(isSlot entry.1)) name =
      if isSlot name then kept.child name else others.child name := by
  have hfilter : ∀ (p : String → Bool) (children : Children Artifact),
      Children.child (children.filter fun entry => p entry.1) name =
        if p name then children.child name else none := by
    intro p children
    induction children with
    | nil => simp [Children.child]
    | cons entry rest ih =>
        obtain ⟨first, node⟩ := entry
        rw [List.filter_cons, Children.child_cons]
        by_cases hfirst : p first = true
        · rw [if_pos hfirst, Children.child_cons, ih]
          by_cases heq : first = name
          · rw [if_pos heq, if_pos heq, ← heq, if_pos hfirst]
          · rw [if_neg heq, if_neg heq]
        · rw [if_neg hfirst, ih]
          by_cases heq : first = name
          · rw [← heq, if_neg hfirst, if_neg hfirst]
          · rw [if_neg heq]
  rw [Children.child_append, hfilter isSlot, hfilter fun name => !(isSlot name)]
  by_cases hslot : isSlot name = true
  · simp [hslot]
  · simp [hslot]

theorem not_isSlot_marker : ¬ isSlot evictedMarkerFile = true := by decide

theorem isSlot_slotFile {slot : Nat} (h : slot < 2) : isSlot (slotFile slot) = true := by
  match slot, h with
  | 0, _ => decide
  | 1, _ => decide

/-- A change leaves the slots, and the tombstone is what it says. -/
theorem change_slots (s : JournalState World Artifact) (world : World)
    (others : Children Artifact) :
    (∀ slot < 2,
        (journalStep checks digest s (.change world others)).children.child (slotFile slot) =
        s.children.child (slotFile slot)) ∧
      (NoTombstone (journalStep checks digest s (.change world others)).children ↔
        NoTombstone others) := by
  constructor
  · intro slot hslot
    exact (child_change s.children others (slotFile slot)).trans (if_pos (isSlot_slotFile hslot))
  · have hmarker := (child_change s.children others evictedMarkerFile).trans
      (if_neg not_isSlot_marker)
    exact ⟨fun h => hmarker.symm.trans h, fun h => hmarker.trans h⟩

variable {checks digest}

theorem Written.congr {children children' : Children Artifact} {generation : Nat}
    {metadata : ResolvedCacheMetadata Artifact}
    (h : ∀ slot < 2, children'.child (slotFile slot) = children.child (slotFile slot))
    (hwritten : Written checks children generation metadata) :
    Written checks children' generation metadata :=
  ⟨(h _ (Nat.mod_lt _ (by decide))).trans hwritten.1, hwritten.2⟩

theorem Held.congr {children children' : Children Artifact} {generation : Nat}
    {metadata : ResolvedCacheMetadata Artifact}
    (h : ∀ slot < 2, children'.child (slotFile slot) = children.child (slotFile slot))
    (hheld : Held checks children generation metadata) :
    Held checks children' generation metadata := by
  cases hheld with
  | single hnew hold => exact .single (hnew.congr h) ((h _ (Nat.mod_lt _ (by decide))).trans hold)
  | pair hnew hold hslot hlt => exact .pair (hnew.congr h) (hold.congr h) hslot hlt

/-- A write of the next generation takes the slot of the older document. -/
theorem Held.write {children : Children Artifact} {generation : Nat}
    {metadata next : ResolvedCacheMetadata Artifact}
    (hheld : Held checks children generation metadata)
    (hversion : next.schemaVersion ≤ resolvedCacheDerivedStoreVersion) :
    Held checks (children.writeChild (slotFile ((generation + 1) % 2))
      (.file (.journal (.new checks (generation + 1) next)))) (generation + 1) next := by
  have hparity : (generation + 1) % 2 ≠ generation % 2 := by omega
  refine .pair ⟨?_, hversion⟩ ⟨?_, hheld.written.2⟩ (by omega) (Nat.lt_succ_self _)
  · rw [Children.child_writeChild, if_pos rfl]
  · rw [Children.child_writeChild, if_neg fun h => hparity (slotFile_injective
      (Nat.mod_lt _ (by decide)) (Nat.mod_lt _ (by decide)) h)]
    exact hheld.written.1

theorem kept_write {s : JournalState World Artifact} {next : ResolvedCacheMetadata Artifact}
    (hkept : Kept checks digest s) (htombstone : NoTombstone s.children) :
    Kept checks digest (journalStep checks digest s (.write next)) := by
  have hstep : journalStep checks digest s (.write next) =
      match writeMetadataUnlocked checks s.world digest s.children next with
      | .ok children => { s with children := children, last := some next }
      | .error _ => s := rfl
  rw [hstep]
  cases hwrite : writeMetadataUnlocked checks s.world digest s.children next with
  | error e => exact hkept
  | ok children =>
      simp only [writeMetadataUnlocked] at hwrite
      split at hwrite
      case isFalse => cases hwrite
      case isTrue hshape =>
        have hversion := schemaVersion_le_of_shape checks hshape
        cases hkept with
        | fresh hlast hslots =>
            have hread : readMetadataUnlocked checks s.world digest s.children = .ok .missing := by
              rw [read_of_noTombstone checks digest s.world htombstone]
              simp only [List.map_cons, List.map_nil, readSlot, hslots 0 (by decide),
                hslots 1 (by decide)]
              rfl
            have hgeneration : nextGeneration checks s.world digest s.children = .ok 1 := by
              rw [nextGeneration, hread]
            rw [hgeneration] at hwrite
            obtain rfl := Except.ok.inj hwrite
            have hfirst : Held checks (s.children.writeChild (slotFile (1 % 2))
                (.file (.journal (.new checks 1 next)))) 1 next := by
              refine .single ⟨?_, hversion⟩ ?_
              · rw [Children.child_writeChild, if_pos rfl]
              · rw [Children.child_writeChild, if_neg slotFile_ne.symm]
                exact hslots 0 (by decide)
            exact .held rfl hfirst fun _ => hshape
        | @held generation metadata hlast hheld hshapeLast =>
            obtain ⟨hadInvalid, hread⟩ := hheld.read_of_shape checks digest (hshapeLast htombstone)
            rw [← read_of_noTombstone checks digest s.world htombstone] at hread
            have hgeneration : nextGeneration checks s.world digest s.children =
                if generation < u64Max then .ok (generation + 1)
                else .error (.internal "cache metadata generation overflow") := by
              rw [nextGeneration, hread]
              simp only [hheld.highestGeneration]
            rw [hgeneration] at hwrite
            split at hwrite
            · obtain rfl := Except.ok.inj hwrite
              exact .held rfl (hheld.write hversion) fun _ => hshape
            · cases hwrite

theorem kept_change {s : JournalState World Artifact} {world : World} {others : Children Artifact}
    (hkept : Kept checks digest s) (hshape : KeepsShape checks digest s (.change world others)) :
    Kept checks digest (journalStep checks digest s (.change world others)) := by
  obtain ⟨hslots, hmarker⟩ := change_slots checks digest s world others
  cases hkept with
  | fresh hlast hnone => exact .fresh hlast fun slot hslot =>
      (hslots slot hslot).trans (hnone slot hslot)
  | held hlast hheld _ =>
      exact .held hlast (hheld.congr hslots) fun htombstone =>
        hshape (hmarker.mp htombstone) _ hlast

theorem Kept.neverBack {s : JournalState World Artifact} (h : Kept checks digest s) :
    NeverBack checks digest s := by
  by_cases htombstone : NoTombstone s.children
  · cases h with
    | fresh hlast hnone =>
        intro metadata hmetadata
        cases hlast.symm.trans hmetadata
    | held hlast hheld hshape =>
        intro metadata hmetadata
        obtain rfl := Option.some.inj (hlast.symm.trans hmetadata)
        obtain ⟨hadInvalid, hread⟩ := hheld.read_of_shape checks digest (hshape htombstone)
        rw [read_of_noTombstone checks digest s.world htombstone, hread]
        refine ⟨fun found _ hfound => ?_, nofun⟩
        obtain ⟨rfl, -⟩ := JournalRead.valid.inj (Except.ok.inj hfound)
        rfl
  · exact neverBack_of_tombstone checks digest htombstone

/-- A change after which the last document cannot be read breaks the property at once. -/
theorem keepsShape_of_neverBack {s : JournalState World Artifact} {op : JournalOp World Artifact}
    (hkept : Kept checks digest s) (h : NeverBack checks digest (journalStep checks digest s op)) :
    KeepsShape checks digest s op := by
  cases op with
  | write metadata => trivial
  | crash => trivial
  | change world others =>
      intro htombstone metadata hmetadata
      cases hkept with
      | fresh hlast _ => cases hlast.symm.trans hmetadata
      | @held generation last hlast hheld _ =>
          obtain rfl := Option.some.inj (hlast.symm.trans hmetadata)
          rw [← Bool.not_eq_false]
          intro hshape
          obtain ⟨hslots, hmarker⟩ := change_slots checks digest s world others
          obtain ⟨hsame, hcorrupt⟩ := h last hlast
          rw [read_of_noTombstone checks digest _ (hmarker.mpr htombstone)] at hsame hcorrupt
          obtain hread | ⟨old, hadInvalid, hne, hread⟩ :=
            (hheld.congr hslots).read_of_not_shape checks digest hshape
          · exact hcorrupt hread
          · exact hne (hsame old hadInvalid hread)

/-- In every history of one journal whose writes find no tombstone, the journal never goes back
and is never found corrupt exactly when no change takes away what the last document written
needs to pass its shape check. -/
theorem journal_never_back_iff {World Artifact : Type} (checks : CacheChecks World Artifact)
    (digest : String) (start : JournalState World Artifact) (ops : List (JournalOp World Artifact))
    (hstart : start.last = none ∧ ∀ slot < 2, start.children.child (slotFile slot) = none)
    (hwrites : Run.Along (journalStep checks digest) WritesUntombstoned start ops) :
    Run.Throughout (journalStep checks digest) (NeverBack checks digest) start ops ↔
      Run.Along (journalStep checks digest) (KeepsShape checks digest) start ops := by
  have hkept : Kept checks digest start := .fresh hstart.1 hstart.2
  clear hstart
  induction ops generalizing start with
  | nil => exact ⟨fun _ => trivial, fun _ => hkept.neverBack⟩
  | cons op ops ih =>
      have hnext : KeepsShape checks digest start op →
          Kept checks digest (journalStep checks digest start op) := by
        intro hshape
        cases op with
        | write metadata => exact kept_write hkept hwrites.1
        | crash => exact hkept
        | change world others => exact kept_change hkept hshape
      constructor
      · intro h
        have hshape := keepsShape_of_neverBack hkept h.2.start
        exact ⟨hshape, (ih _ hwrites.2 (hnext hshape)).mp h.2⟩
      · intro h
        exact ⟨hkept.neverBack, (ih _ hwrites.2 (hnext h.1)).mpr h.2⟩

end History

/-- Artifacts of the samples are the roots their files are read from. -/
def sampleChecks : CacheChecks (List String) String where
  cacheKey := fun _ => some
    "sha256:0000000000000000000000000000000000000000000000000000000000000000"
  pendingDerivativeShape := fun _ => true
  validate := fun present _ root => present.contains root
  journalChecksum := fun generation _ => toString generation
  metadataChecksum := fun _ => ""
  evictionMarkerChecksum := fun _ => ""

def sampleDigest : String := "0000000000000000000000000000000000000000000000000000000000000000"

/-- A source copy whose files are read from the given root. -/
def sampleMetadata (state : ResolvedCacheEntryState) (root : String) (updatedAt : Nat) :
    ResolvedCacheMetadata String where
  schemaVersion := 1
  cacheKey := "sha256:0000000000000000000000000000000000000000000000000000000000000000"
  production := .sourceCopy
  artifact := root
  entryRelativePath := ["entries", sampleDigest]
  bundleRelativePath := ["entries", sampleDigest, "bundle"]
  state := state
  verifiedBytes := 0
  createdAt := 1
  updatedAt := updatedAt
  lastUsedAt := none
  artifactPinned := false
  modelPinOwners := []
  effectivePin := false
  reservationId := none
  reservationOwner := none
  sessionId := none
  recoveryStatus := .clean

def freshEntry (present : List String) : JournalState (List String) String := ⟨present, [], none⟩

/-- Two documents read from the library are written, the library goes away, the entry is
reconstructed from its bundle, and the library returns. -/
def returningLibrary : List (JournalOp (List String) String) :=
  [.write (sampleMetadata .interrupted "library" 1),
    .write (sampleMetadata .interrupted "library" 2),
    .change ["bundle"] [], .write (sampleMetadata .complete "bundle" 3),
    .change ["bundle", "library"] []]

/-- Without the library both slots count as corrupt though they are intact; the document of
the reconstruction restarts the generations, and the older one is read once the library is
back. -/
theorem returning_library_goes_back :
    readMetadataUnlocked sampleChecks ["bundle"] sampleDigest
        (Run.exec (journalStep sampleChecks sampleDigest) (freshEntry ["bundle", "library"])
          (returningLibrary.take 3)).children = .error .bothMetadataSlotsCorrupt ∧
      (Run.exec (journalStep sampleChecks sampleDigest) (freshEntry ["bundle", "library"])
        returningLibrary).last = some (sampleMetadata .complete "bundle" 3) ∧
      readMetadataUnlocked sampleChecks ["bundle", "library"] sampleDigest
          (Run.exec (journalStep sampleChecks sampleDigest) (freshEntry ["bundle", "library"])
            returningLibrary).children =
        .ok (.valid (sampleMetadata .interrupted "library" 2) false) := by
  decide +kernel

theorem sample_journal_never_back :
    Run.Throughout (journalStep sampleChecks sampleDigest) (NeverBack sampleChecks sampleDigest)
      (freshEntry ["bundle", "library"])
      [.write (sampleMetadata .complete "bundle" 1), .crash, .change ["bundle"] []] := by
  refine (journal_never_back_iff sampleChecks sampleDigest (freshEntry ["bundle", "library"]) _
    ⟨rfl, fun _ _ => rfl⟩ ?_).mpr ⟨trivial, trivial, ?_, trivial⟩
  · exact ⟨rfl, trivial, trivial, trivial⟩
  · intro _ metadata hmetadata
    have hlast : (journalStep sampleChecks sampleDigest (journalStep sampleChecks sampleDigest
        (freshEntry ["bundle", "library"]) (.write (sampleMetadata .complete "bundle" 1)))
        .crash).last = some (sampleMetadata .complete "bundle" 1) := by
      decide +kernel
    obtain rfl := Option.some.inj (hlast.symm.trans hmetadata)
    decide +kernel

end SceneWorks.ResolvedCache
