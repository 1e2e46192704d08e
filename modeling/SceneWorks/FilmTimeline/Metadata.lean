import SceneWorks.FilmTimeline.Reconcile

/-!
What valid film metadata looks like, and what a write to one run's tombstones does to it.
`Touched` is the frame of such a write: the metadata stays valid, and every listed run
still has its slots exactly when they all had them and the run written to was listed.
-/

namespace SceneWorks.FilmTimeline

def assembly (timeline : Json) : Json := timeline.idx "filmAssembly"

def runs (timeline : Json) : Json := (assembly timeline).idx "runs"

def runEntries (timeline : Json) : List (String × Json) := (runs timeline).asObject.getD []

/-- Null or an object of valid runs. -/
def RunsValid (value : Json) : Prop :=
  value = .null ∨ ∃ fields, value = .obj fields ∧ ∀ entry ∈ fields, validRun entry.2 = true

theorem validRuns_iff (o : Option Json) : validRuns o = true ↔ RunsValid (o.getD .null) := by
  cases o with
  | none => simp [validRuns, RunsValid]
  | some value =>
      cases value with
      | null => simp [validRuns, RunsValid]
      | obj fields => simp [validRuns, RunsValid, Json.asObject]
      | _ => simp [validRuns, RunsValid, Json.asObject]

/-- The film metadata of a document: none, or an object with valid runs. -/
def MetadataValid (timeline : Json) : Prop :=
  assembly timeline = .null ∨ (assembly timeline).isObject = true ∧ RunsValid (runs timeline)

theorem validateMetadata_eq_ok {timeline : Json} :
    validateMetadata timeline = .ok () ↔ MetadataValid timeline := by
  have hcheck : validateMetadata timeline = .ok () ↔
      validAssembly (timeline.get "filmAssembly") = true := by
    simp [validateMetadata]
  rw [hcheck, MetadataValid, runs, assembly, Json.idx]
  cases hget : timeline.get "filmAssembly" with
  | none => simp [validAssembly]
  | some value =>
      cases value with
      | obj fields => simp [validAssembly, Json.isObject, validRuns_iff, Json.idx]
      | _ => simp [validAssembly, Json.isObject]

def HasShotOrder (data : Json) : Prop := (data.get "shotOrder").isSome = true

instance (data : Json) : Decidable (HasShotOrder data) :=
  inferInstanceAs (Decidable ((data.get "shotOrder").isSome = true))

/-- Every run the film assembly lists has its slots. -/
def SlotsListed (timeline : Json) : Prop :=
  ∀ entry ∈ runEntries timeline, HasShotOrder entry.2

def Listed (timeline : Json) (run : String) : Prop :=
  JsonObject.containsKey (runEntries timeline) run = true

/-- A document whose metadata a reconciliation can write to. -/
structure Ready (timeline : Json) : Prop where
  assembly_object : (assembly timeline).isObject = true
  runs_valid : RunsValid (runs timeline)

theorem Ready.valid {timeline : Json} (h : Ready timeline) : MetadataValid timeline :=
  .inr ⟨h.assembly_object, h.runs_valid⟩

structure Touched (written : List String) (before after : Json) : Prop where
  ready : Ready after
  slots : SlotsListed after ↔ SlotsListed before ∧ ∀ run ∈ written, Listed before run
  listed : ∀ run, Listed after run ↔ Listed before run ∨ run ∈ written
  frame : ∀ key, key ≠ "filmAssembly" → after.get key = before.get key

theorem Touched.refl {timeline : Json} (h : Ready timeline) : Touched [] timeline timeline where
  ready := h
  slots := by simp
  listed := by simp
  frame := fun _ _ => rfl

theorem Touched.trans {first second : List String} {a b c : Json} (hab : Touched first a b)
    (hbc : Touched second b c) : Touched (first ++ second) a c where
  ready := hbc.ready
  slots := by
    rw [hbc.slots, hab.slots]
    simp only [hab.listed, List.mem_append, or_imp, forall_and, and_assoc]
    -- A run the first writes list is listed for the second ones whether it was before or not.
    refine and_congr_right fun _ => and_congr_right fun hfirst => ?_
    constructor
    · intro h run hrun
      exact (h run hrun).elim id (hfirst run)
    · exact fun h run hrun => .inl (h run hrun)
  listed := by
    intro run
    rw [hbc.listed, hab.listed, List.mem_append, or_assoc]
  frame := fun key hkey => (hbc.frame key hkey).trans (hab.frame key hkey)

theorem runEntries_of_runs {timeline : Json} {fields : JsonObject}
    (h : (runs timeline).entriesMut = some fields) : runEntries timeline = fields := by
  unfold runEntries
  cases hruns : runs timeline with
  | null =>
      rw [hruns] at h
      cases h
      rfl
  | obj fields' =>
      rw [hruns] at h
      cases h
      rfl
  | _ =>
      rw [hruns] at h
      cases h

theorem RunsValid.entriesMut {value : Json} (h : RunsValid value) :
    ∃ fields, value.entriesMut = some fields ∧ ∀ entry ∈ fields, validRun entry.2 = true := by
  obtain rfl | ⟨fields, rfl, hfields⟩ := h
  · exact ⟨[], rfl, by simp⟩
  · exact ⟨fields, rfl, hfields⟩

theorem validRun_idx {value : Json} (h : RunsValid value) (run : String) :
    value.idx run = .null ∨ validRun (value.idx run) = true := by
  obtain rfl | ⟨fields, rfl, hfields⟩ := h
  · exact .inl rfl
  · rw [Json.idx, Json.get_obj]
    cases hget : JsonObject.get fields run with
    | none => exact .inl rfl
    | some data => exact .inr (hfields _ (JsonObject.mem_of_get hget))

theorem optionalObject_iff (o : Option Json) :
    optionalObject o = true ↔ o.getD .null = .null ∨ (o.getD .null).isObject = true := by
  cases o with
  | none => simp [optionalObject]
  | some value => simp [optionalObject, Json.isNull_iff]

theorem validRun_iff (data : Json) :
    validRun data = true ↔
      data.isObject = true ∧
        (∀ key ∈ deliveryMetadataKeys, data.idx key = .null ∨ (data.idx key).isObject = true) ∧
        validShotOrder (data.get "shotOrder") = true := by
  simp only [validRun, Bool.and_eq_true, List.all_eq_true, optionalObject_iff, Json.idx, and_assoc]

/-- The tombstones of a run, valid or not there yet. -/
theorem deletedShots_optional {data : Json} (h : data = .null ∨ validRun data = true) :
    data.idx "deletedShots" = .null ∨ (data.idx "deletedShots").isObject = true := by
  obtain rfl | h := h
  · exact .inl rfl
  · exact ((validRun_iff data).mp h).2.1 "deletedShots" (by simp [deliveryMetadataKeys])

/-- A write below one key of delivery metadata keeps a run valid. -/
theorem validRun_edit {data result : Json} {key : String} {path : List String} {f : Json → Json}
    (hdata : data = .null ∨ validRun data = true)
    (hedit : data.edit (key :: path) f = some result)
    (hresult : result.idx key = .null ∨ (result.idx key).isObject = true)
    (hkey : key ≠ "shotOrder") : validRun result = true := by
  rw [validRun_iff]
  refine ⟨Json.isObject_edit hedit, ?_, ?_⟩
  · intro other hother
    by_cases hne : key = other
    · exact hne ▸ hresult
    · rw [Json.idx_edit_of_ne hedit hne]
      obtain rfl | hdata := hdata
      · exact .inl rfl
      · exact ((validRun_iff data).mp hdata).2.1 other hother
  · rw [Json.get_edit_of_ne hedit hkey]
    obtain rfl | hdata := hdata
    · rfl
    · exact ((validRun_iff data).mp hdata).2.2

/-- A write below one run's tombstones succeeds on valid metadata. -/
theorem edit_deletedShots {timeline : Json} (hready : Ready timeline) (run : String)
    (path : List String) (f : Json → Json)
    (hf : ∀ value : Json, value = .null ∨ value.isObject = true →
      ∃ new, value.edit path f = some new) :
    ∃ after, timeline.edit (deletedShotsPath run ++ path) f = some after := by
  have hdata := validRun_idx hready.runs_valid run
  obtain ⟨stones, hstones⟩ := hf _ (deletedShots_optional hdata)
  have hdataShape := hdata.imp id fun h => ((validRun_iff _).mp h).1
  have hrunsShape :=
    hready.runs_valid.imp id fun ⟨fields, h, _⟩ => Json.isObject_iff.mpr ⟨fields, h⟩
  obtain ⟨_, hrun⟩ := Json.edit_cons_isSome hdataShape hstones
  obtain ⟨_, hruns⟩ := Json.edit_cons_isSome hrunsShape hrun
  obtain ⟨_, hassembly⟩ := Json.edit_cons_isSome (.inr hready.assembly_object) hruns
  exact Json.edit_cons_isSome (.inr (Json.isObject_of_idx hready.assembly_object)) hassembly

/-- What such a write does to the runs: one entry is written. -/
theorem runs_of_edit {timeline after : Json} {run : String} {path : List String} {f : Json → Json}
    (hedit : timeline.edit ("filmAssembly" :: "runs" :: run :: path) f = some after) :
    ∃ data, ((runs timeline).idx run).edit path f = some data ∧
      (∃ fields, (runs timeline).entriesMut = some fields) ∧
      runs after = .obj (JsonObject.write (runEntries timeline) run data) := by
  have hassembly := Json.idx_edit_self hedit
  have hruns := Json.idx_edit_self hassembly
  obtain ⟨fields, data, hfields, hdata, hresult⟩ := Json.edit_cons hruns
  refine ⟨data, hdata, ⟨fields, hfields⟩, ?_⟩
  rw [runEntries_of_runs hfields]
  exact hresult

theorem touched_of_edit {timeline after : Json} {run : String} {path : List String}
    {f : Json → Json} (hready : Ready timeline)
    (hf : ∀ value new : Json, value = .null ∨ value.isObject = true →
      value.edit path f = some new → new = .null ∨ new.isObject = true)
    (hedit : timeline.edit (deletedShotsPath run ++ path) f = some after) :
    Touched [run] timeline after := by
  obtain ⟨data, hdataEdit, ⟨fields, hfields⟩, hruns⟩ := runs_of_edit hedit
  have hentries : runEntries after = JsonObject.write (runEntries timeline) run data := by
    rw [runEntries, hruns]
    rfl
  have hdata := validRun_idx hready.runs_valid run
  have hvalid : validRun data = true := by
    refine validRun_edit hdata hdataEdit ?_ (by decide)
    exact hf _ _ (deletedShots_optional hdata) (Json.idx_edit_self hdataEdit)
  have horder : data.get "shotOrder" = ((runs timeline).idx run).get "shotOrder" :=
    Json.get_edit_of_ne hdataEdit (by decide)
  have hlookup : (runs timeline).get run = JsonObject.get (runEntries timeline) run := by
    rw [runEntries_of_runs hfields, Json.entriesMut_get hfields]
  constructor
  · refine ⟨Json.isObject_edit (Json.idx_edit_self hedit), .inr ⟨_, hruns, ?_⟩⟩
    intro entry hentry
    obtain rfl | hentry := JsonObject.mem_write hentry
    · exact hvalid
    · obtain ⟨fields', hfields', hall⟩ := hready.runs_valid.entriesMut
      rw [runEntries_of_runs hfields'] at hentry
      exact hall entry hentry
  · have hsame : ∀ old, JsonObject.get (runEntries timeline) run = some old →
        (HasShotOrder data ↔ HasShotOrder old) := by
      intro old hold
      have hidx : (runs timeline).idx run = old := by rw [Json.idx, hlookup, hold]; rfl
      rw [HasShotOrder, HasShotOrder, horder, hidx]
    rw [SlotsListed, hentries, JsonObject.forall_mem_write hsame, List.forall_mem_singleton,
      SlotsListed]
    refine and_congr_right fun _ => ⟨fun h => ?_, .inl⟩
    -- A run that was not listed is created without slots.
    by_contra hunlisted
    have hnone : (runs timeline).get run = none := by
      rw [hlookup, ← Option.not_isSome_iff_eq_none]
      exact hunlisted
    have hslots : HasShotOrder data := h.resolve_left hunlisted
    rw [HasShotOrder, horder, Json.idx, hnone] at hslots
    simp [Json.get, Json.asObject] at hslots
  · intro other
    rw [Listed, Listed, hentries, JsonObject.containsKey, JsonObject.containsKey,
      JsonObject.get_write, List.mem_singleton]
    by_cases h : run = other
    · simp [h]
    · simp [h, Ne.symm h]
  · intro key hkey
    exact Json.get_edit_of_ne hedit (Ne.symm hkey)

end SceneWorks.FilmTimeline
