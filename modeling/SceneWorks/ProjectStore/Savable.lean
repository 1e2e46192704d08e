import SceneWorks.ProjectStore.Settle

/-!
Whether a stored timeline can be saved again. A save stores metadata that the next save
rejects exactly when its film assembly misses a run the cuts mention, or lists a run
without its slots; a delivery supplies the slots of its own run only.
-/

namespace SceneWorks.ProjectStore

open FilmTimeline

theorem isObject_of_requiredStr {payload : Json} {key value : String}
    (h : requiredStr payload key = .ok value) : payload.isObject = true := by
  rw [requiredStr, orBadRequest_eq_ok] at h
  cases payload with
  | obj fields => rfl
  | _ => simp [Json.get, Json.asObject] at h

theorem metadataValid_congr {a b : Json} (h : a.get "filmAssembly" = b.get "filmAssembly") :
    MetadataValid a ↔ MetadataValid b := by
  rw [MetadataValid, MetadataValid, runs, runs, assembly, assembly, Json.idx_eq_of_get h]

/-- The steps of a save that succeeds. -/
theorem saveTimeline_inv {env : CallEnv} {existing : Option Json} {document after : Json}
    (h : saveTimeline env existing document = .ok after) :
    document.isObject = true ∧ MetadataValid document ∧ ∃ reconciled stamped,
      reconcileStored existing document ((existing.map revision).getD 0 + 1) = .ok reconciled ∧
      reconciled.put ["revision"] (.int ((existing.map revision).getD 0 + 1)) = some stamped ∧
      settleTimeline env stamped = .ok after := by
  simp only [saveTimeline, Fallible.bind_eq_ok] at h
  obtain ⟨id, hid, h⟩ := h
  split at h
  · cases h
  · split at h
    · cases h
    · split at h
      · cases h
      · simp only [Fallible.bind_eq_ok, orPanic_eq_ok] at h
        obtain ⟨⟨⟩, hvalid, reconciled, hreconciled, stamped, hstamped, hsettled⟩ := h
        exact ⟨isObject_of_requiredStr hid, validateMetadata_eq_ok.mp hvalid, reconciled, stamped,
          hreconciled, hstamped, hsettled⟩

/-- The reconciliation touches the film assembly only, and a new timeline not at all. -/
theorem reconcileStored_inv {existing : Option Json} {document reconciled : Json}
    (hobject : document.isObject = true) (hvalid : MetadataValid document)
    (h : reconcileStored existing document ((existing.map revision).getD 0 + 1) = .ok reconciled) :
    (∀ key, key ≠ "filmAssembly" → reconciled.get key = document.get key) ∧
      (existing = none → reconciled = document) ∧
      ∀ previous, existing = some previous → MetadataValid previous ∧
        reconcileCut previous document (revision previous + 1) = some reconciled := by
  cases existing with
  | none =>
      obtain rfl := Except.ok.inj h
      exact ⟨fun _ _ => rfl, fun _ => rfl, fun _ he => by cases he⟩
  | some previous =>
      simp only [reconcileStored, Fallible.bind_eq_ok, orPanic_eq_ok] at h
      obtain ⟨⟨⟩, hprevious, hcut⟩ := h
      have hprevious := validateMetadata_eq_ok.mp hprevious
      obtain ⟨cut, hcut', -, hframe⟩ :=
        reconcileCut_valid (revision previous + 1) hobject hprevious hvalid
      obtain rfl := Option.some.inj (hcut.symm.trans hcut')
      refine ⟨hframe, ?_, ?_⟩
      · intro hnone
        cases hnone
      · intro other hother
        cases hother
        exact ⟨hprevious, hcut⟩

/-- What a save that succeeds has checked and stores. -/
structure Saved (existing : Option Json) (document after : Json) : Prop where
  object : document.isObject = true
  valid : MetadataValid document
  marks : pictureMarks after = pictureMarks document
  assembly_new : existing = none → after.get "filmAssembly" = document.get "filmAssembly"
  assembly_cut : ∀ previous, existing = some previous → MetadataValid previous ∧
    ∃ reconciled, reconcileCut previous document (revision previous + 1) = some reconciled ∧
      after.get "filmAssembly" = reconciled.get "filmAssembly"

theorem saveTimeline_saved {env : CallEnv} {existing : Option Json} {document after : Json}
    (h : saveTimeline env existing document = .ok after) : Saved existing document after := by
  obtain ⟨hobject, hvalid, reconciled, stamped, hreconciled, hstamped, hsettled⟩ :=
    saveTimeline_inv h
  obtain ⟨hframe, hnew, hcut⟩ := reconcileStored_inv hobject hvalid hreconciled
  obtain ⟨hassembly, hmarks⟩ := settleTimeline_spec hsettled
  rw [Json.get_edit_of_ne hstamped (by decide)] at hassembly
  have htracks : stamped.get "tracks" = document.get "tracks" :=
    (Json.get_edit_of_ne hstamped (by decide)).trans (hframe "tracks" (by decide))
  exact
    { object := hobject
      valid := hvalid
      marks := hmarks.trans (pictureMarks_congr htracks)
      assembly_new := fun hnone => hnew hnone ▸ hassembly
      assembly_cut := fun previous hprevious =>
        ⟨(hcut previous hprevious).1, reconciled, (hcut previous hprevious).2, hassembly⟩ }

theorem saved_valid_iff {previous document after : Json}
    (h : Saved (some previous) document after) :
    MetadataValid after ↔ SlotsComplete previous document := by
  obtain ⟨hprevious, reconciled, hcut, hassembly⟩ := h.assembly_cut previous rfl
  obtain ⟨cut, hcut', hiff, -⟩ :=
    reconcileCut_valid (revision previous + 1) h.object hprevious h.valid
  have heq : reconciled = cut := Option.some.inj (hcut.symm.trans hcut')
  rw [metadataValid_congr hassembly, heq, hiff]

/-- What a delivery that succeeds does: nothing, or a save of the merged document. -/
theorem deliverFilmTimeline_cases {env : CallEnv} {film : DeliveryEnv} {timelineId : String}
    {existing : Option Json} {payload after : Json}
    (h : deliverFilmTimeline env film timelineId existing payload = .ok after) :
    ∃ before, existing = some before ∧
      (after = before ∨ ∃ merged, deliver film before payload = .ok merged ∧
        Saved (some before) merged after) := by
  cases existing with
  | none => simp [deliverFilmTimeline, bind, Except.bind] at h
  | some before =>
      refine ⟨before, rfl, ?_⟩
      simp only [deliverFilmTimeline, Fallible.bind_eq_ok] at h
      obtain ⟨_, hbefore, h⟩ := h
      obtain rfl := Except.ok.inj hbefore
      split at h
      · cases h
      · rw [Fallible.bind_eq_ok] at h
        obtain ⟨merged, hmerged, h⟩ := h
        split at h
        · exact .inl (Except.ok.inj h).symm
        · simp only [saveExistingTimeline, Fallible.bind_eq_ok] at h
          obtain ⟨id, -, h⟩ := h
          split at h
          · cases h
          · split at h
            · cases h
            · exact .inr ⟨merged, hmerged, saveTimeline_saved h⟩

/-- The delivered run brings its own slots; every other run of the cut must have them. -/
def SlotsCompleteBut (stored : Json) (run : String) : Prop :=
  (∀ entry ∈ (runEntries stored).eraseP fun entry => entry.1 == run, HasShotOrder entry.2) ∧
    ∀ item ∈ pictures stored, field item "runId" ≠ run →
      JsonObject.containsKey (runEntries stored) (field item "runId") = true

/-- The condition under which a call keeps the stored document savable. -/
def KeepsSlots (stored : Option Json) : TimelineCall → Prop
  | .save _ document => ∀ previous, stored = some previous → SlotsComplete previous document
  | .deliver _ _ payload => ∀ previous, stored = some previous →
      ∀ run, (payload.idx "runId").asStr = some run → SlotsCompleteBut previous run

theorem containsKey_of_eraseP_eq {a b : JsonObject} {run other : String} (hne : other ≠ run)
    (h : a.eraseP (fun entry => entry.1 == run) = b.eraseP fun entry => entry.1 == run) :
    JsonObject.containsKey a other = JsonObject.containsKey b other := by
  have hkey : ∀ fields : JsonObject, JsonObject.containsKey fields other = true ↔
      other ∈ (fields.eraseP fun entry => entry.1 == run).map Prod.fst := by
    intro fields
    rw [JsonObject.containsKey_iff_mem]
    simp only [List.mem_map]
    constructor
    · intro hmem
      obtain ⟨entry, hentry, rfl⟩ := hmem
      exact ⟨entry, (List.mem_eraseP_of_neg (by simpa using hne)).mpr hentry, rfl⟩
    · intro hmem
      obtain ⟨entry, hentry, rfl⟩ := hmem
      exact ⟨entry, List.mem_of_mem_eraseP hentry, rfl⟩
  have hiff : JsonObject.containsKey a other = true ↔ JsonObject.containsKey b other = true := by
    rw [hkey a, hkey b, h]
  exact Bool.eq_iff_iff.mpr hiff

/-- A listed run is the erased entry or another one. -/
theorem mem_or_eq_of_eraseP {fields : JsonObject} (run : String) {entry : String × Json}
    (h : entry ∈ fields) :
    entry ∈ (fields.eraseP fun entry => entry.1 == run) ∨
      JsonObject.get fields run = some entry.2 := by
  induction fields with
  | nil => simp at h
  | cons head rest ih =>
      obtain ⟨k, v⟩ := head
      by_cases hk : k = run
      · obtain rfl | hrest := List.mem_cons.mp h
        · exact .inr (by simp [JsonObject.get, hk])
        · exact .inl (by simp [hk, hrest])
      · obtain rfl | hrest := List.mem_cons.mp h
        · exact .inl (by simp [hk])
        · obtain hmem | hget := ih hrest
          · exact .inl (by simp [hk, hmem])
          · exact .inr (by simp [JsonObject.get, hk, hget])

theorem runEntries_get {timeline : Json} {run : String} {data : Json}
    (h : JsonObject.get (runEntries timeline) run = some data) : runData timeline run = data := by
  rw [runEntries] at h
  rw [runData_eq]
  cases hruns : runs timeline with
  | obj fields =>
      rw [hruns] at h
      have hget : JsonObject.get fields run = some data := h
      rw [Json.idx, Json.get_obj, hget]
      rfl
  | _ =>
      rw [hruns] at h
      simp [Json.asObject] at h

theorem tombstones_listed {timeline : Json} {stone : String × String × Json}
    (h : stone ∈ tombstones timeline) :
    JsonObject.containsKey (runEntries timeline) stone.1 = true := by
  simp only [tombstones, List.mem_flatMap, List.mem_map] at h
  obtain ⟨entry, hentry, stamp, -, rfl⟩ := h
  rw [JsonObject.containsKey]
  exact JsonObject.mem_entries.mp hentry ▸ rfl

/-- A delivery to a cut whose other runs have their slots leaves all slots complete. -/
theorem slotsComplete_of_delivered {run : String} {before merged : Json}
    (h : Delivered run before merged) (hslots : SlotsCompleteBut before run) :
    SlotsComplete before merged := by
  intro _
  have hcarried : carriedAssembly before merged = assembly merged := by
    have hobject := h.object
    rw [assembly, Json.idx] at hobject
    rw [carriedAssembly, assembly, Json.idx]
    cases hget : merged.get "filmAssembly" with
    | none =>
        rw [hget] at hobject
        cases hobject
    | some value => rfl
  rw [hcarried]
  change (∀ entry ∈ runEntries merged, _) ∧
    ∀ r ∈ _, JsonObject.containsKey (runEntries merged) r = true
  have hlisted : ∀ r, (r ≠ run → JsonObject.containsKey (runEntries before) r = true) →
      JsonObject.containsKey (runEntries merged) r = true := by
    intro r hr
    by_cases hsame : r = run
    · exact hsame ▸ h.listed
    · rw [containsKey_of_eraseP_eq hsame h.others]
      exact hr hsame
  constructor
  · intro entry hentry
    obtain hmem | hget := mem_or_eq_of_eraseP run hentry
    · rw [h.others] at hmem
      exact hslots.1 entry hmem
    · rw [← runEntries_get hget]
      exact h.slots
  · intro r hr
    simp only [mentionedRuns, List.mem_append, List.mem_map] at hr
    obtain (⟨item, hitem, rfl⟩ | ⟨stone, hstone, rfl⟩) | ⟨item, hitem, rfl⟩ := hr
    · exact hlisted _ (hslots.2 item hitem)
    · exact hlisted _ fun _ => tombstones_listed hstone
    · -- A picture of the merged cut is of the delivered run or was there before.
      refine hlisted _ fun hne => ?_
      have hpicture := exists_picture_iff.mp ⟨item, hitem, rfl, rfl⟩
      obtain hold | ⟨hsame, -⟩ := h.new _ _ hpicture.2
      · obtain ⟨old, hold, holdRun, -⟩ := exists_picture_iff.mpr ⟨hpicture.1, hold⟩
        rw [← holdRun]
        exact hslots.2 old hold (holdRun ▸ hne)
      · exact absurd hsame hne

/-- The stored document passes the film checks of a save that re-submits it. -/
def Savable (stored : Option Json) : Prop :=
  ∀ document, stored = some document → validateMetadata document = .ok ()

theorem savable_step (timelineId : String) (stored : Option Json) (c : TimelineCall)
    (hstored : Savable stored) (h : KeepsSlots stored c) :
    Savable (timelineStep timelineId stored c) := by
  cases hrun : c.run timelineId stored with
  | error e =>
      simp only [timelineStep, hrun]
      exact hstored
  | ok after =>
      simp only [timelineStep, hrun]
      intro document hdocument
      cases hdocument
      rw [validateMetadata_eq_ok]
      cases c with
      | save env document =>
          simp only [TimelineCall.run] at hrun
          split at hrun
          · have hsaved := saveTimeline_saved hrun
            cases stored with
            | none =>
                rw [metadataValid_congr (hsaved.assembly_new rfl)]
                exact hsaved.valid
            | some previous => exact (saved_valid_iff hsaved).mpr (h previous rfl)
          · cases hrun
      | deliver env film payload =>
          obtain ⟨before, rfl, rfl | ⟨merged, hmerged, hsaved⟩⟩ := deliverFilmTimeline_cases hrun
          · exact validateMetadata_eq_ok.mp (hstored _ rfl)
          · obtain ⟨st⟩ := deliver_stages hmerged
            refine (saved_valid_iff hsaved).mpr (slotsComplete_of_delivered st.delivered ?_)
            exact h before rfl _ st.run_eq

/-- A reconciliation leaves metadata that can be checked again exactly when the film assembly
lists every run the cuts mention, each with its slots; in every history whose calls meet
that condition the stored document can be saved again. -/
theorem stored_timeline_savable_iff_slots (timelineId : String) (stored : Option Json)
    (calls : List TimelineCall) :
    (∀ (previous next : Json) (nextRevision : Nat), previous.isObject = true →
      next.isObject = true → validateMetadata previous = .ok () → validateMetadata next = .ok () →
      ((∃ after, reconcileCut previous next nextRevision = some after ∧
          validateMetadata after = .ok ()) ↔ SlotsComplete previous next)) ∧
      (Savable stored → Run.Along (timelineStep timelineId) KeepsSlots stored calls →
        Run.Throughout (timelineStep timelineId) Savable stored calls) := by
  constructor
  · intro previous next nextRevision _ hobject hprevious hnext
    obtain ⟨after, hafter, hiff, -⟩ := reconcileCut_valid nextRevision hobject
      (validateMetadata_eq_ok.mp hprevious) (validateMetadata_eq_ok.mp hnext)
    rw [← hiff]
    constructor
    · intro h
      obtain ⟨after', hafter', hvalid⟩ := h
      cases hafter.symm.trans hafter'
      exact validateMetadata_eq_ok.mp hvalid
    · exact fun h => ⟨after, hafter, validateMetadata_eq_ok.mpr h⟩
  · intro hstored halong
    exact Run.throughout_of_invariant Savable (savable_step timelineId) (fun _ => id) hstored halong

/-- A run the assembly lists without slots is saved with a null where they would be. -/
def slotlessCut : Json :=
  .obj [("filmAssembly", .obj [("runs", .obj [("run", .obj [])])]), ("id", .str "timeline_a"),
    ("name", .str "Cut"), ("projectId", .str "project_a"), ("tracks", .arr [])]

theorem slotless_cut_not_savable :
    slotlessCut.isObject = true ∧ validateMetadata slotlessCut = .ok () ∧
      (∀ after, reconcileCut slotlessCut slotlessCut 1 = some after →
        validateMetadata after = .error invalidMetadata) ∧
      ∃ stored, timelineStep "timeline_a" (some slotlessCut)
          (.save ⟨"project_a", "now", []⟩ slotlessCut) = some stored ∧
        validateMetadata stored = .error invalidMetadata ∧
        saveTimeline ⟨"project_a", "later", []⟩ (some stored) stored = .error invalidMetadata := by
  -- One evaluation of the reconciled cut serves all that is asked of it.
  have hvalues : validateMetadata slotlessCut = .ok () ∧
      reconcileCut slotlessCut slotlessCut 1 = some ((reconcileCut slotlessCut slotlessCut
        1).getD .null) ∧
      validateMetadata ((reconcileCut slotlessCut slotlessCut 1).getD .null) =
        .error invalidMetadata := by
    decide +kernel
  obtain ⟨hvalid, hcut, hrejected⟩ := hvalues
  refine ⟨rfl, hvalid, ?_, ?_⟩
  · intro after hafter
    obtain rfl := Option.some.inj (hcut.symm.trans hafter)
    exact hrejected
  · refine ⟨(timelineStep "timeline_a" (some slotlessCut)
      (.save ⟨"project_a", "now", []⟩ slotlessCut)).getD .null, ?_⟩
    decide +kernel

def sampleEnv : CallEnv := ⟨"project_a", "2026-01-01T00:00:00Z", ["00", "01", "02", "03"]⟩

def firstDelivery : TimelineCall :=
  .deliver sampleEnv sampleFilm (takesPayload "run" [takeOf "run" "A" 1 "a1"])

instance (previous next : Json) : Decidable (SlotsComplete previous next) :=
  inferInstanceAs (Decidable (_ → _ ∧ _))

instance (stored : Json) (run : String) : Decidable (SlotsCompleteBut stored run) :=
  inferInstanceAs (Decidable (_ ∧ _))

theorem sample_history_savable :
    ((∃ after, reconcileCut emptyCut emptyCut 1 = some after ∧ validateMetadata after = .ok ()) ↔
        SlotsComplete emptyCut emptyCut) ∧
      Run.Throughout (timelineStep "timeline_a") Savable (some emptyCut)
        [firstDelivery, .save sampleEnv emptyCut] := by
  obtain ⟨hiff, hhistory⟩ := stored_timeline_savable_iff_slots "timeline_a" (some emptyCut)
    [firstDelivery, .save sampleEnv emptyCut]
  refine ⟨hiff emptyCut emptyCut 1 rfl rfl (by decide +kernel) (by decide +kernel), ?_⟩
  refine hhistory ?_ ⟨?_, ?_, trivial⟩
  · intro document hdocument
    cases hdocument
    decide +kernel
  · intro previous hprevious run hrun
    cases hprevious
    cases hrun
    decide +kernel
  · have hstored : (timelineStep "timeline_a" (some emptyCut) firstDelivery).all
        (fun stored => SlotsComplete stored emptyCut) = true := by
      decide +kernel
    intro previous hprevious
    rw [hprevious] at hstored
    exact of_decide_eq_true hstored

end SceneWorks.ProjectStore
