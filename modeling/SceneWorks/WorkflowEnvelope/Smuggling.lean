import SceneWorks.Library.JsonTexts
import SceneWorks.WorkflowEnvelope.Locations
import SceneWorks.WorkflowEnvelope.RoundTrip

/-!
What an envelope can carry past its guards. Every text of a reduced envelope is plain, bounded
and, unless it was authored, a label; the four shapes that copy a text of the incoming value
keep that promise exactly when the texts they copy keep it.
-/

namespace SceneWorks.WorkflowEnvelope

open JsonObject (get select record)
open ImageRequest

/-- The marker, the names of what was left out, and the reports of the native core. -/
def asideFields : List String :=
  [workflowShareMarkerKey, "omitted", "mossImageExecutionReport", "mossImageEditExecutionReport"]

/-- Every text of a value under a field is guarded. -/
def Clean (field : String) (value : Json) : Prop := value.EveryText Guarded asideFields field

/-- The names and modes of the option documents of the native core (`options_schema`). -/
def mossOptionTexts : List String :=
  ["acceleration", "max_sequence_length", "uncond_skip_layers", "training_shift", "slg", "layers",
    "scale", "start", "stop", "off", "unmerged_bf16", "full_fp32"]

/-- What the schemas of the native core say of the texts in its documents. -/
structure MossCore.Documented (moss : MossCore) : Prop where
  options : ∀ value document, moss.options value = some document →
    document.EveryText (fun _ text => text ∈ mossOptionTexts) [] "mossImage"
  outputKind : ∀ value kind, moss.outputKind value = some kind → kind = .str "images" ∨
    kind = .str "latents"
  defaultOutputKind : moss.defaultOutputKind = .str "images"

section Shapes

theorem guarded_names {names : List String} (h : names.all isNameText = true) :
    ∀ name ∈ names, Guarded "" name :=
  fun name hname => guarded_of_name (List.all_eq_true.mp h name hname)

theorem clean_of_number {field : String} {value : Json} (h : value.isNumber = true) :
    Clean field value := by
  cases value with
  | int | float => trivial
  | null | bool | str | arr | obj => cases h

theorem clean_of_asF64 {field : String} {value : Json} (h : value.asF64.isSome = true) :
    Clean field value := by
  cases value with
  | int | float => trivial
  | null | bool | str | arr | obj => cases h

theorem clean_ofF64 {field : String} (value : F64) : Clean field (.ofF64 value) := by
  rw [Json.ofF64]
  split <;> trivial

theorem sanitizeScalar_clean {key : String} {value reduced : Json}
    (h : sanitizeScalar key value = some reduced) : Clean key reduced := by
  cases value with
  | null | arr | obj => cases h
  | bool | int | float =>
      obtain rfl := Option.some.inj h
      trivial
  | str text =>
      rw [sanitizeScalar] at h
      split at h
      case isTrue hprose =>
        obtain rfl := Option.some.inj h
        refine guarded_shareableProse ?_ text
        rw [authoredFields, List.mem_append]
        exact Or.inr (List.contains_iff_mem.mp hprose)
      case isFalse =>
        obtain ⟨label, hlabel, rfl⟩ := Option.map_eq_some_iff.mp h
        exact guarded_shareableLabel hlabel

theorem sanitizeNumberPair_clean {field : String} {value reduced : Json}
    (h : sanitizeNumberPair value = some reduced) : Clean field reduced := by
  rw [sanitizeNumberPair] at h
  split at h
  case isFalse => cases h
  case isTrue hpair =>
    obtain rfl := Option.some.inj h
    cases value with
    | null | bool | int | float | str | obj => trivial
    | arr items =>
        simp only [Json.asArray, Option.any_some, Bool.and_eq_true, List.all_eq_true] at hpair
        refine Json.everyText_arr.mpr fun number hnumber => clean_of_asF64 ?_
        obtain ⟨found, hfound, -⟩ := (Option.any_eq_true _ _).mp (hpair.2 number hnumber)
        rw [hfound]
        rfl

theorem sanitizeStructuredPrompt_clean {field : String} {value reduced : Json}
    (h : sanitizeStructuredPrompt value = some reduced) : Clean field reduced := by
  obtain ⟨recipe, -, h⟩ := Option.bind_eq_some_iff.mp h
  obtain rfl := nonemptyObject_some h
  refine (Json.everyText_select (guarded_names (by decide))).mpr fun name _ found hfound _ => ?_
  obtain ⟨raw, -, hraw⟩ := Option.bind_eq_some_iff.mp hfound
  exact sanitizeScalar_clean hraw

mutual

theorem clean_of_isCoordinateTree {field : String} :
    ∀ {value : Json}, isCoordinateTree value = true → Clean field value
  | .int _, _ | .float _, _ | .null, _ => trivial
  | .arr items, h => by
      have hitems : (!items.isEmpty && areCoordinateTrees items) = true := h
      exact clean_of_areCoordinateTrees (Bool.and_eq_true_iff.mp hitems).2

theorem clean_of_areCoordinateTrees {field : String} : ∀ {values : List Json},
    areCoordinateTrees values = true → Json.EveryItem Guarded asideFields field values
  | [], _ => trivial
  | value :: rest, h => by
      rw [areCoordinateTrees, Bool.and_eq_true] at h
      exact ⟨clean_of_isCoordinateTree h.1, clean_of_areCoordinateTrees h.2⟩

end

theorem sanitizePoses_clean {field : String} {value reduced : Json}
    (h : sanitizePoses value = some reduced) : Clean field reduced := by
  obtain ⟨poses, -, h⟩ := Option.bind_eq_some_iff.mp h
  dsimp only at h
  split at h
  case isTrue => cases h
  case isFalse =>
    split at h
    case isTrue => cases h
    case isFalse =>
      obtain rfl := nonemptyArray_some h
      refine Json.everyText_arr.mpr (List.forall_mem_map.mpr fun pose _ => ?_)
      refine (Json.everyText_select (guarded_names (by decide))).mpr fun name _ found hfound _ => ?_
      obtain ⟨-, hpoints⟩ := Option.filter_eq_some_iff.mp hfound
      rw [Bool.and_eq_true] at hpoints
      exact clean_of_isCoordinateTree hpoints.2

theorem clean_filter_isNumber {name : String} (value : Option Json) :
    Json.SlotTexts Guarded asideFields (name, value.filter Json.isNumber) := by
  intro found hfound _
  exact clean_of_number (Option.filter_eq_some_iff.mp hfound).2

theorem sanitizePhaseLora_clean {field : String} {value reduced : Json}
    (h : sanitizePhaseLora value = some reduced) : Clean field reduced := by
  obtain ⟨lora, -, h⟩ := Option.bind_eq_some_iff.mp h
  dsimp only at h
  split at h
  case isFalse => cases h
  case isTrue =>
    obtain rfl := Option.some.inj h
    exact (Json.everyText_select (guarded_names (by decide))).mpr fun _ _ => clean_filter_isNumber _

theorem sanitizePhaseLoras_clean {field : String} {phase : JsonObject} {reduced : Json}
    (h : sanitizePhaseLoras phase = some reduced) : Clean field reduced := by
  obtain ⟨loras, -, h⟩ := Option.bind_eq_some_iff.mp h
  split at h
  case isTrue => cases h
  case isFalse =>
    obtain rfl := nonemptyArray_some h
    refine Json.everyText_arr.mpr fun lora hlora => ?_
    obtain ⟨raw, -, hraw⟩ := List.mem_filterMap.mp hlora
    exact sanitizePhaseLora_clean hraw

theorem sanitizePhases_clean {field : String} {value reduced : Json}
    (h : sanitizePhases value = some reduced) : Clean field reduced := by
  obtain ⟨phases, -, h⟩ := Option.bind_eq_some_iff.mp h
  split at h
  case isTrue => cases h
  case isFalse =>
    obtain rfl := nonemptyArray_some h
    refine Json.everyText_arr.mpr fun phase hphase => ?_
    obtain ⟨raw, -, hraw⟩ := List.mem_filterMap.mp hphase
    obtain ⟨fields, -, hfields⟩ := Option.bind_eq_some_iff.mp hraw
    obtain rfl := Option.some.inj hfields
    refine (Json.everyText_record ?_).mpr ?_
    · exact guarded_names (by decide : ["steps", "guidance", "loras"].all isNameText = true)
    · simp only [List.forall_mem_cons, clean_filter_isNumber, true_and]
      exact ⟨fun found hfound _ => sanitizePhaseLoras_clean hfound, List.forall_mem_nil _⟩

theorem clean_labels {field : String} (labels : List String) :
    ∀ item ∈ (labels.filterMap shareableLabel).map Json.str, Clean field item := by
  refine List.forall_mem_map.mpr fun label hlabel => ?_
  obtain ⟨raw, -, hraw⟩ := List.mem_filterMap.mp hlabel
  exact guarded_shareableLabel hraw

/-- A label that may be left out. -/
theorem clean_label {name : String} (value : Option String) :
    Json.SlotTexts Guarded asideFields (name, (value.bind shareableLabel).map .str) := by
  refine Json.slotTexts_map fun label hlabel => ?_
  obtain ⟨raw, -, hraw⟩ := Option.bind_eq_some_iff.mp hlabel
  exact guarded_shareableLabel hraw

theorem sanitizeAppearance_clean {field : String} {value reduced : Json}
    (h : sanitizeAppearance value = some reduced) : Clean field reduced := by
  obtain ⟨selection, -, rfl⟩ := Option.map_eq_some_iff.mp h
  have hnames : ∀ name ∈ selection.reduce.slots.map Prod.fst, Guarded "" name :=
    guarded_names (by decide : ["camera", "film", "looks", "lighting"].all isNameText = true)
  refine (Json.everyText_record hnames).mpr ?_
  simp only [AppearanceSelection.slots, AppearanceSelection.reduce, List.forall_mem_cons,
    clean_label, true_and]
  refine ⟨fun found hfound _ => ?_, List.forall_mem_nil _⟩
  obtain rfl := nonemptyArray_some hfound
  refine Json.everyText_arr.mpr fun item hitem => ?_
  rw [List.map_take] at hitem
  exact clean_labels selection.looks item (List.mem_of_mem_take hitem)

theorem sanitizeEditOptions_clean {field : String} {value reduced : Json}
    (h : sanitizeEditOptions value = some reduced) : Clean field reduced := by
  obtain ⟨options, -, h⟩ := Option.bind_eq_some_iff.mp h
  split at h
  case isFalse => cases h
  case isTrue =>
    obtain rfl := Option.some.inj h
    have hnames : ∀ name ∈ options.slots.map Prod.fst, Guarded "" name :=
      guarded_names (by decide : ["reference_max_edge", "use_kv_cache"].all isNameText = true)
    refine (Json.everyText_record hnames).mpr ?_
    simp only [EditOptions.slots, List.forall_mem_cons]
    exact ⟨Json.slotTexts_some trivial, Json.slotTexts_some trivial, List.forall_mem_nil _⟩

theorem sanitizePromptBatch_clean {field : String} (hfield : field ∈ authoredFields)
    {value reduced : Json}
    (h : sanitizePromptBatch value = some reduced) : Clean field reduced := by
  obtain ⟨texts, -, -, rfl⟩ := sanitizePromptBatch_some h
  rw [List.map_map]
  exact Json.everyText_arr.mpr (List.forall_mem_map.mpr fun text _ =>
    guarded_shareableProse hfield text)

theorem sanitizeSampleIndex_clean {field : String} {value reduced : Json}
    (h : sanitizeSampleIndex value = some reduced) : Clean field reduced := by
  obtain ⟨index, -, rfl⟩ := Option.map_eq_some_iff.mp h
  trivial

end Shapes

section Copied

/-- A text that is short and has no control character but newline and tab. -/
def IsBrief (text : String) : Prop := IsPlain text ∧ text.length ≤ labelMaxChars

theorem guarded_iff_isBrief {field text : String} (hfield : field ∉ authoredFields)
    (hpath : isPathShaped text = false) : Guarded field text ↔ IsBrief text :=
  ⟨fun h => ⟨h.plain, (h.label hfield).2⟩, fun h => guarded_of_short h.1 hpath h.2⟩

/-- The reference ids of a value, each of them brief. -/
def ReferenceIdsBrief (value : Json) : Prop :=
  ∀ ids, Json.items Json.asStr value = some ids → ∀ id ∈ ids, IsBrief id

/-- Texts that are each checked as they are read. -/
theorem mapM_asStr_filter {p : String → Bool} {values : List Json} {texts : List String}
    (h : values.mapM (fun value => value.asStr.filter p) = some texts) :
    values = texts.map .str ∧ ∀ text ∈ texts, p text = true := by
  rw [Fallible.mapM_eq_some] at h
  induction h with
  | nil => exact ⟨rfl, List.forall_mem_nil _⟩
  | cons hhead _ ih =>
      obtain ⟨htext, hp⟩ := Option.filter_eq_some_iff.mp hhead
      rw [Json.asStr_eq_some.mp htext, ih.1, List.map_cons]
      exact ⟨rfl, List.forall_mem_cons.mpr ⟨hp, ih.2⟩⟩

theorem sanitizeReferenceIds_clean_iff {field : String} (hfield : field ∉ authoredFields)
    {value reduced : Json} (h : sanitizeReferenceIds value = some reduced) :
    Clean field reduced ↔ ReferenceIdsBrief value := by
  obtain ⟨values, hvalues, h⟩ := Option.bind_eq_some_iff.mp h
  split at h
  case isTrue => cases h
  case isFalse =>
    obtain ⟨ids, hids, h⟩ := Option.bind_eq_some_iff.mp h
    split at h
    case isTrue => cases h
    case isFalse =>
      obtain rfl := Option.some.inj h
      obtain ⟨rfl, hkept⟩ := mapM_asStr_filter hids
      obtain rfl := Json.asArray_eq_some.mp hvalues
      have hread : ReferenceIdsBrief (.arr (ids.map .str)) ↔ ∀ id ∈ ids, IsBrief id := by
        rw [ReferenceIdsBrief, items_str]
        simp
      rw [hread, Clean, Json.everyText_arr, List.forall_mem_map]
      refine forall₂_congr fun id hid => ?_
      have hpath := hkept id hid
      simp only [Bool.and_eq_true, Bool.not_eq_true'] at hpath
      exact guarded_iff_isBrief hfield hpath.2

/-- The texts of a box: its ids are brief, and its description is plain and bounded. -/
def BoxBrief (row : Json) : Prop :=
  (∀ key ∈ ["id", "from", "reference_id"], ∀ text, row.get key = some (.str text) → IsBrief text) ∧
    ∀ text, row.get "desc" = some (.str text) → IsPlain text ∧ text.utf8ByteSize ≤ proseMaxBytes

def LayoutBrief (value : Json) : Prop :=
  ∀ rows, (value.get "boxes").bind Json.asArray = some rows → ∀ row ∈ rows, BoxBrief row

section Rows

variable {count : Nat} {ids : Option (List String)}

theorem layoutBox_clean {name : String} {value : Option Json} {present : Bool}
    (h : Flux3.layoutBox value = .ok present) :
    Json.SlotTexts Guarded asideFields (name, value) := by
  intro found hfound _
  obtain rfl := hfound
  cases found with
  | null => trivial
  | bool | int | float | str | obj => cases h
  | arr items =>
      simp only [Flux3.layoutBox, Json.asArray, Option.bind_some] at h
      split at h
      case h_1 top left bottom right hitems =>
        refine Json.everyText_arr.mpr fun item hitem => clean_of_asF64 ?_
        obtain ⟨number, -, hnumber⟩ := Fallible.exists_image_of_mem_mapM hitems hitem
        rw [(Option.filter_eq_some_iff.mp hnumber).1]
        rfl
      case h_2 => cases h

theorem layoutSpace_clean {name : String} {value : Option Json} {present : Bool}
    {allowed : List String} (hallowed : allowed.all isNameText = true)
    (h : Flux3.layoutSpace present allowed value = .ok ()) :
    Json.SlotTexts Guarded asideFields (name, value) := by
  intro found hfound _
  obtain rfl := hfound
  rw [Flux3.layoutSpace] at h
  split at h
  case isFalse => cases h
  case isTrue hspace =>
    rw [Bool.and_eq_true] at hspace
    cases found with
    | null | bool | int | float | arr | obj => cases hspace.2
    | str text =>
        have hmem : text ∈ allowed := List.contains_iff_mem.mp hspace.2
        exact guarded_of_name (List.all_eq_true.mp hallowed text hmem)

/-- An accepted edit names its origin, and its reference if it has one, by a text. -/
theorem validateEdit_texts {source target : Bool} {field : String → Option Json}
    (h : Flux3.validateEdit count ids source target field = .ok ()) :
    ∀ key ∈ ["from", "reference_id"], ∀ value, field key = some value →
        ∃ text, value = .str text := by
  obtain ⟨origin, horigin, h⟩ := Fallible.bind_eq_ok.mp h
  obtain ⟨present, hpresent, htext⟩ := Option.bind_eq_some_iff.mp (Flux3.orInvalid_eq_ok.mp horigin)
  refine List.forall_mem_cons.mpr ⟨?_, List.forall_mem_singleton.mpr ?_⟩
  · intro value hvalue
    obtain rfl := Option.some.inj (hvalue.symm.trans hpresent)
    exact ⟨origin, Json.asStr_eq_some.mp htext⟩
  · intro value hvalue
    split at h
    case isTrue =>
      split at h
      case isTrue => cases h
      case isFalse hfree =>
        simp [hvalue] at hfree
    case isFalse =>
      obtain ⟨index, -, h⟩ := Fallible.bind_eq_ok.mp h
      split at h
      case isTrue => cases h
      case isFalse =>
        simp only [hvalue] at h
        obtain ⟨identity, hidentity, -⟩ := Fallible.bind_eq_ok.mp h
        have hfound := (Option.filter_eq_some_iff.mp (Flux3.orInvalid_eq_ok.mp hidentity)).1
        exact ⟨identity, Json.asStr_eq_some.mp hfound⟩

theorem validateRow_texts {field : String → Option Json}
    (h : Flux3.validateRow count ids field = .ok ()) :
    (∀ key ∈ ["bbox", "src_bbox", "tgt_bbox", "bbox_space", "src_space", "tgt_space"],
        Json.SlotTexts Guarded asideFields (key, field key)) ∧
      ∀ key ∈ ["from", "reference_id"], ∀ value, field key = some value →
          ∃ text, value = .str text := by
  rw [Flux3.validateRow] at h
  split at h
  case h_1 => cases h
  case h_2 =>
    obtain ⟨bbox, hbbox, h⟩ := Fallible.bind_eq_ok.mp h
    obtain ⟨source, hsource, h⟩ := Fallible.bind_eq_ok.mp h
    obtain ⟨target, htarget, h⟩ := Fallible.bind_eq_ok.mp h
    obtain ⟨_, hbboxSpace, h⟩ := Fallible.bind_eq_ok.mp h
    obtain ⟨_, hsourceSpace, h⟩ := Fallible.bind_eq_ok.mp h
    obtain ⟨_, htargetSpace, h⟩ := Fallible.bind_eq_ok.mp h
    constructor
    · simp only [List.forall_mem_cons]
      exact ⟨layoutBox_clean hbbox, layoutBox_clean hsource, layoutBox_clean htarget,
        layoutSpace_clean (by decide) hbboxSpace, layoutSpace_clean (by decide) hsourceSpace,
        layoutSpace_clean (by decide) htargetSpace, List.forall_mem_nil _⟩
    · split at h
      case isTrue =>
        split at h
        case isTrue => cases h
        case isFalse hfree =>
          intro key hkey value hvalue
          have hlisted : ∀ key ∈ ["from", "reference_id"],
              key ∈ ["src_bbox", "tgt_bbox", "from", "reference_id"] := by decide
          exact absurd (List.any_eq_true.mpr ⟨key, hlisted key hkey, by rw [hvalue]; rfl⟩) hfree
      case isFalse => exact validateEdit_texts h

/-- Every row of an accepted layout is an object that was checked. -/
theorem validateRows_mem {seen : List String} {rows : List Json}
    (h : Flux3.validateRows count ids seen rows = .ok ()) :
    ∀ row ∈ rows, ∃ fields id, row = .obj fields ∧ get fields "id" = some (.str id) ∧
      (∀ desc, get fields "desc" = some desc → ∃ text, desc = .str text) ∧
      Flux3.validateRow count ids (get fields) = .ok () := by
  induction rows generalizing seen with
  | nil => exact List.forall_mem_nil _
  | cons row rows ih =>
      obtain ⟨fields, id, hfields, hid, hfresh, hrow, hrest⟩ := Flux3.validateRows_cons.mp h
      refine List.forall_mem_cons.mpr ⟨⟨fields, id, Json.asObject_eq_some.mp hfields, ?_, ?_, hrow⟩,
        ih hrest⟩
      · obtain ⟨present, hpresent, htext⟩ :=
          Option.bind_eq_some_iff.mp (Option.filter_eq_some_iff.mp hid).1
        rw [hpresent, Json.asStr_eq_some.mp htext]
      · intro desc hdesc
        simp only [hdesc, Option.any_some, Bool.or_eq_true, not_or, Bool.not_eq_true,
          Option.isNone_eq_false_iff, Option.isSome_iff_exists] at hfresh
        obtain ⟨text, htext⟩ := hfresh.2
        exact ⟨text, Json.asStr_eq_some.mp htext⟩

/-- A box with a path in any field but its description is not published. -/
theorem publicBox_path {row box : Json} (h : publicBox row = some box) :
    ∀ key ∈ layoutFields, key ≠ "desc" → ∀ text, row.get key = some (.str text) →
      isPathShaped text = false := by
  intro key hkey hdesc text htext
  rw [publicBox] at h
  split at h
  case isTrue => cases h
  case isFalse hkept =>
    by_contra hpath
    refine hkept (List.any_eq_true.mpr ⟨key, hkey, ?_⟩)
    rw [htext]
    simpa [hdesc, Json.asStr] using hpath

/-- The public fields of a checked box are clean exactly when its texts are brief. -/
theorem publicBox_clean_iff {fields : JsonObject} {id : String} {box : Json}
    (hid : get fields "id" = some (.str id))
    (hdesc : ∀ desc, get fields "desc" = some desc → ∃ text, desc = .str text)
    (hrow : Flux3.validateRow count ids (get fields) = .ok ())
    (hbox : publicBox (.obj fields) = some box) : Clean "boxes" box ↔ BoxBrief (.obj fields) := by
  obtain ⟨hnumbers, htexts⟩ := validateRow_texts hrow
  obtain ⟨rfl, -⟩ := publicBox_some hbox
  have hpath := publicBox_path hbox
  have hids : ∀ key ∈ ["id", "from", "reference_id"],
      key ∈ layoutFields ∧ key ≠ "desc" ∧ key ∉ authoredFields ∧ key ∉ asideFields := by decide
  have hcases : ∀ key ∈ layoutFields, key = "desc" ∨ key ∈ ["id", "from", "reference_id"] ∨
      key ∈ ["bbox", "src_bbox", "tgt_bbox", "bbox_space", "src_space", "tgt_space"] := by decide
  have htext : ∀ key ∈ ["id", "from", "reference_id"], ∀ value, get fields key = some value →
      ∃ text, value = .str text := by
    refine List.forall_mem_cons.mpr ⟨?_, htexts⟩
    intro value hvalue
    exact ⟨id, Option.some.inj (hvalue.symm.trans hid)⟩
  rw [Clean, Json.everyText_select (guarded_names (by decide))]
  constructor
  · intro h
    constructor
    · intro key hkey text hvalue
      obtain ⟨hlayout, hdesc, hauthored, haside⟩ := hids key hkey
      exact (guarded_iff_isBrief hauthored (hpath key hlayout hdesc text hvalue)).mp
        (h key hlayout (.str text) hvalue haside)
    · intro text hvalue
      have haside : "desc" ∉ asideFields := by decide
      have hguarded : Guarded "desc" text := h "desc" (by decide) (.str text) hvalue haside
      exact ⟨hguarded.plain, hguarded.bounded⟩
  · intro h key hkey
    obtain rfl | hkeyId | hnumber := hcases key hkey
    · intro value hvalue _
      obtain ⟨text, rfl⟩ := hdesc value hvalue
      obtain ⟨hplain, hbounded⟩ := h.2 text hvalue
      have hauthored : "desc" ∈ authoredFields := by decide
      exact ⟨hplain, hbounded, fun hlabel => absurd hauthored hlabel⟩
    · intro value hvalue _
      obtain ⟨text, rfl⟩ := htext key hkeyId value hvalue
      obtain ⟨hlayout, hdesc, hauthored, -⟩ := hids key hkeyId
      exact (guarded_iff_isBrief hauthored (hpath key hlayout hdesc text hvalue)).mpr
        (h.1 key hkeyId text hvalue)
    · exact hnumbers key hnumber

theorem sanitizeFlux3Layout_clean_iff {field : String} {value reduced : Json}
    (h : sanitizeFlux3Layout value = some reduced) : Clean field reduced ↔ LayoutBrief value := by
  obtain ⟨rows, hrows, h⟩ := Option.bind_eq_some_iff.mp h
  obtain ⟨⟨⟩, hvalid, h⟩ := Option.bind_eq_some_iff.mp h
  obtain ⟨boxes, hboxes, h⟩ := Option.bind_eq_some_iff.mp h
  obtain rfl := Option.some.inj h
  have hchecked := Fallible.toOption_eq_some.mp hvalid
  obtain ⟨doc, found, hdoc, -, hfound, hfoundRows⟩ := Flux3.validateLayout_eq_ok.mp hchecked
  obtain rfl : found = rows := by
    rw [Json.get, hdoc, Option.bind_some, hfound] at hrows
    exact Option.some.inj hrows
  have hbox : ∀ row ∈ found, ∀ box, publicBox row = some box →
      (Clean "boxes" box ↔ BoxBrief row) := by
    intro row hrow box hbox
    obtain ⟨fields, id, rfl, hid, hdesc, hchecked⟩ := validateRows_mem hfoundRows row hrow
    exact publicBox_clean_iff hid hdesc hchecked hbox
  have hlayout : LayoutBrief value ↔ ∀ row ∈ found, BoxBrief row := by
    rw [LayoutBrief, hrows]
    simp
  have hclean : Clean field (.obj [("version", .int 1), ("boxes", .arr boxes)]) ↔
      ∀ box ∈ boxes, Clean "boxes" box := by
    have haside : "boxes" ∉ asideFields := by decide
    have hname : Guarded "" "boxes" := guarded_of_name (by decide)
    have harray : Clean "boxes" (.arr boxes) ↔ ∀ box ∈ boxes, Clean "boxes" box :=
      Json.everyText_arr
    rw [← harray, Clean, Json.everyText_obj]
    constructor
    · intro hall
      exact (hall _ (List.mem_cons_of_mem _ (List.mem_singleton.mpr rfl))).2 haside
    · intro hboxes
      exact List.forall_mem_cons.mpr ⟨⟨guarded_of_name (by decide), fun _ => trivial⟩,
        List.forall_mem_singleton.mpr ⟨hname, fun _ => hboxes⟩⟩
  rw [hlayout, hclean]
  constructor
  · intro hall row hrow
    obtain ⟨box, hmem, himage⟩ := Fallible.exists_image_of_mem_mapM hboxes hrow
    exact (hbox row hrow box himage).mp (hall box hmem)
  · intro hall box hmem
    obtain ⟨row, hrow, himage⟩ := Fallible.exists_of_mem_mapM hboxes hmem
    exact (hbox row hrow box himage).mpr (hall row hrow)

end Rows

/-- The negative prompts of accepted options, once stripped, are labels. -/
def NegativePromptsBrief (moss : MossCore) (value : Json) : Prop :=
  ∀ options prompts, EditAdvanced.ofValue moss value = some options →
    options.negativePrompts = some prompts → ∀ text ∈ prompts,
      isPathShaped (shareableProse text) = false ∧ (shareableProse text).length ≤ labelMaxChars

section Moss

theorem TensorMetadata.isExact_clean {field sha256 : String} {metadata : TensorMetadata}
    (h : metadata.isExact sha256 = true) : Clean field metadata.toValue := by
  simp only [TensorMetadata.isExact, Bool.and_eq_true, decide_eq_true_eq] at h
  obtain ⟨⟨⟨⟨⟨⟨-, hdigest⟩, -⟩, -⟩, -⟩, -⟩, hbytes⟩ := h
  obtain ⟨count, -, hbytes⟩ := Option.bind_eq_some_iff.mp hbytes
  obtain ⟨size, hsize, -⟩ := Option.bind_eq_some_iff.mp hbytes
  have hdtype : isNameText metadata.dtype = true := by
    rw [elementBytes] at hsize
    split at hsize
    case isTrue hfloat =>
      rw [hfloat]
      decide
    case isFalse =>
      split at hsize
      case isTrue hbyte =>
        rw [hbyte]
        decide
      case isFalse => cases hsize
  refine (Json.everyText_record ?_).mpr ?_
  · exact guarded_names
      (by decide : ["dtype", "shape", "byteLength", "sha256"].all isNameText = true)
  · simp only [TensorMetadata.slots, List.forall_mem_cons]
    refine ⟨Json.slotTexts_some (guarded_of_name hdtype), Json.slotTexts_some ?_,
      Json.slotTexts_some trivial, Json.slotTexts_some (guarded_isLowerSha256 hdigest),
      List.forall_mem_nil _⟩
    exact Json.everyText_arr.mpr (List.forall_mem_map.mpr fun _ _ => trivial)

theorem TensorRef.clear_clean {field : String} {reference cleared : TensorRef}
    (h : reference.clear = some cleared) : Clean field cleared.toValue := by
  rw [TensorRef.clear] at h
  split at h
  case isFalse => cases h
  case isTrue hmetadata =>
    obtain rfl := Option.some.inj h
    obtain ⟨metadata, hsome, hexact⟩ := (Option.any_eq_true _ _).mp hmetadata
    have hdigest : isLowerSha256 reference.sha256 = true := by
      have hparts := hexact
      simp only [TensorMetadata.isExact, Bool.and_eq_true, decide_eq_true_eq] at hparts
      obtain ⟨⟨⟨⟨⟨⟨hsame, hdigest⟩, -⟩, -⟩, -⟩, -⟩, -⟩ := hparts
      rwa [hsame] at hdigest
    refine (Json.everyText_record ?_).mpr ?_
    · exact guarded_names (by decide : ["assetId", "sha256", "metadata"].all isNameText = true)
    · simp only [TensorRef.slots, List.forall_mem_cons]
      refine ⟨?_, Json.slotTexts_some (guarded_isLowerSha256 hdigest), Json.slotTexts_map ?_,
        List.forall_mem_nil _⟩
      · intro value hvalue
        cases hvalue
      · intro found hfound
        obtain rfl := Option.some.inj (hsome.symm.trans hfound)
        exact TensorMetadata.isExact_clean hexact

/-- A part that was cleared is clean when clearing makes it so. -/
theorem clearPart_clean {α : Type} {clear : α → Option α} {encode : α → Json} {name : String}
    (hclear : ∀ a cleared, clear a = some cleared → Clean name (encode cleared))
    {part cleared : Option α}
    (h : clearPart clear part = some cleared) :
    Json.SlotTexts Guarded asideFields (name, cleared.map encode) := by
  refine Json.slotTexts_map fun found hfound => ?_
  cases part with
  | none =>
      rw [← Option.some.inj h] at hfound
      cases hfound
  | some a =>
      obtain ⟨b, hb, hsome⟩ := Option.map_eq_some_iff.mp h
      obtain rfl := Option.some.inj (hsome.trans hfound)
      exact hclear a b hb

theorem EmbeddingsRef.clear_clean {field : String} {embeddings cleared : EmbeddingsRef}
    (h : embeddings.clear = some cleared) : Clean field cleared.toValue := by
  obtain ⟨values, hvalues, h⟩ := Option.bind_eq_some_iff.mp h
  obtain ⟨mask, hmask, h⟩ := Option.bind_eq_some_iff.mp h
  obtain rfl := Option.some.inj h
  refine (Json.everyText_record ?_).mpr ?_
  · exact guarded_names (by decide : ["values", "mask"].all isNameText = true)
  · simp only [EmbeddingsRef.slots, List.forall_mem_cons]
    exact ⟨Json.slotTexts_some (TensorRef.clear_clean hvalues),
      clearPart_clean (fun _ _ => TensorRef.clear_clean) hmask, List.forall_mem_nil _⟩

theorem output_clean {moss : MossCore} (hmoss : moss.Documented) {field : String} {value : Json}
    {options : EditAdvanced} (h : EditAdvanced.ofValue moss value = some options) :
    Clean field options.output := by
  obtain ⟨fields, -, h⟩ := Option.bind_eq_some_iff.mp h
  obtain ⟨positive, -, h⟩ := Option.bind_eq_some_iff.mp h
  obtain ⟨negative, -, h⟩ := Option.bind_eq_some_iff.mp h
  obtain ⟨prompts, -, h⟩ := Option.bind_eq_some_iff.mp h
  obtain ⟨noise, -, h⟩ := Option.bind_eq_some_iff.mp h
  obtain ⟨output, houtput, h⟩ := Option.bind_eq_some_iff.mp h
  obtain rfl := Option.some.inj h
  have himages : Clean field (.str "images") := guarded_of_name (by decide)
  have hlatents : Clean field (.str "latents") := guarded_of_name (by decide)
  cases hget : get fields "output" with
  | none =>
      rw [hget] at houtput
      rw [← Option.some.inj houtput, hmoss.defaultOutputKind]
      exact himages
  | some raw =>
      rw [hget] at houtput
      obtain hkind | hkind := hmoss.outputKind raw output houtput
      · rw [hkind]
        exact himages
      · rw [hkind]
        exact hlatents

theorem shareOptions_clean_iff {moss : MossCore} (hmoss : moss.Documented) {field : String}
    {value reduced : Json} (h : shareOptions moss value = some reduced) :
    Clean field reduced ↔ NegativePromptsBrief moss value := by
  obtain ⟨options, hoptions, h⟩ := Option.bind_eq_some_iff.mp h
  obtain ⟨shared, hshared, h⟩ := Option.bind_eq_some_iff.mp h
  obtain rfl := Option.some.inj h
  obtain ⟨positive, hpositive, h⟩ := Option.bind_eq_some_iff.mp hshared
  obtain ⟨negative, hnegative, h⟩ := Option.bind_eq_some_iff.mp h
  obtain ⟨noise, hnoise, h⟩ := Option.bind_eq_some_iff.mp h
  split at h
  case isTrue => cases h
  case isFalse =>
    obtain rfl := Option.some.inj h
    have hfield : "negativePrompts" ∉ authoredFields ∧ "negativePrompts" ∉ asideFields := by decide
    have hprompt : ∀ text, Guarded "negativePrompts" (shareableProse text) ↔
        isPathShaped (shareableProse text) = false ∧
          (shareableProse text).length ≤ labelMaxChars := by
      intro text
      have hprose : Guarded "prompt" (shareableProse text) :=
        guarded_shareableProse (by decide) text
      exact ⟨fun h => h.label hfield.1, fun h => ⟨hprose.plain, hprose.bounded, fun _ => h⟩⟩
    have hbrief : NegativePromptsBrief moss value ↔
        ∀ prompts, options.negativePrompts = some prompts →
        ∀ text ∈ prompts, Guarded "negativePrompts" (shareableProse text) := by
      constructor
      · intro h prompts hprompts text htext
        exact (hprompt text).mpr (h options prompts hoptions hprompts text htext)
      · intro h found prompts hfound hprompts text htext
        obtain rfl := Option.some.inj (hoptions.symm.trans hfound)
        exact (hprompt text).mp (h prompts hprompts text htext)
    rw [hbrief]
    refine (Json.everyText_record ?_).trans ?_
    · exact guarded_names
        (by decide :
          ["positive", "negative", "negativePrompts", "noise", "output"].all isNameText = true)
    simp only [EditAdvanced.slots, List.forall_mem_cons]
    constructor
    · intro hslots prompts hprompts text htext
      have hslot := hslots.2.2.1 (.arr ((prompts.map shareableProse).map .str))
        (by rw [hprompts]; rfl) hfield.2
      rw [Json.everyText_arr, List.map_map, List.forall_mem_map] at hslot
      exact hslot text htext
    · intro hall
      refine ⟨clearPart_clean (fun _ _ => EmbeddingsRef.clear_clean) hpositive,
        clearPart_clean (fun _ _ => EmbeddingsRef.clear_clean) hnegative, Json.slotTexts_map ?_,
        clearPart_clean (fun _ _ => TensorRef.clear_clean) hnoise,
        Json.slotTexts_some (output_clean hmoss hoptions), List.forall_mem_nil _⟩
      intro stripped hstripped
      obtain ⟨prompts, hprompts, rfl⟩ := Option.map_eq_some_iff.mp hstripped
      rw [Json.everyText_arr, List.map_map, List.forall_mem_map]
      exact hall prompts hprompts

end Moss

end Copied

section Envelope

variable {moss : MossCore} {serde : Serde}

/-- The texts that a shape copies from the incoming value keep the guards. -/
def CopiesGuarded (moss : MossCore) (value : Json) : AdvancedShape → Prop
  | .stringList => ReferenceIdsBrief value
  | .flux3Layout => LayoutBrief value
  | .h3VedaSettings => Clean "veda" value
  | .mossImageAdvanced => NegativePromptsBrief moss value
  | _ => True

/-- No setting that is kept copies a text past the guards. -/
def AdvancedGuarded (moss : MossCore) (serde : Serde) (advanced : JsonObject) : Prop :=
  ∀ entry ∈ advanced, ∀ shape, advancedKeyRule entry.1 = some shape →
    (sanitizeShape moss serde.decodeError entry.1 shape entry.2).isSome = true →
      CopiesGuarded moss entry.2 shape

theorem advancedKeyRule_mem {key : String} {shape : AdvancedShape}
    (h : advancedKeyRule key = some shape) : (key, shape) ∈ advancedKeyRules := by
  rw [advancedKeyRule, List.lookup_eq_some_iff] at h
  obtain ⟨before, after, hsplit, -⟩ := h
  rw [hsplit]
  simp

theorem advancedKeyRule_names : ∀ rule ∈ advancedKeyRules, isNameText rule.1 = true ∧
    (rule.2 = .stringList → rule.1 ∉ authoredFields) ∧
    (rule.2 = .promptBatch → rule.1 ∈ authoredFields) ∧
    (rule.2 = .h3VedaSettings → rule.1 = "veda") ∧
      (rule.2 = .mossImageOptions → rule.1 = "mossImage") ∧
    (rule.2 = .mossImageReport → rule.1 ∈ asideFields) ∧
    (rule.2 = .mossImageEditReport → rule.1 ∈ asideFields) ∧
    (rule.2 ≠ .mossImageReport ∧ rule.2 ≠ .mossImageEditReport → rule.1 ∉ asideFields) := by
  decide +kernel

/-- A setting that is kept is clean exactly when the texts it copies are guarded. -/
theorem sanitizeShape_clean_iff (hmoss : moss.Documented) {key : String} {shape : AdvancedShape}
    (hrule : advancedKeyRule key = some shape) {value reduced : Json}
    (h : sanitizeShape moss serde.decodeError key shape value = some reduced) :
    Json.FieldTexts Guarded asideFields (key, reduced) ↔ CopiesGuarded moss value shape := by
  obtain ⟨hname, hids, hbatch, hveda, hoptions, hreport, hedit, hshown⟩ :=
    advancedKeyRule_names _ (advancedKeyRule_mem hrule)
  have hclean : Clean key reduced → (Json.FieldTexts Guarded asideFields (key, reduced) ↔ True) :=
    fun hclean => iff_true_intro ⟨guarded_of_name hname, fun _ => hclean⟩
  have hiff : key ∉ asideFields →
      (Json.FieldTexts Guarded asideFields (key, reduced) ↔ Clean key reduced) :=
    fun haside => ⟨fun h => h.2 haside, fun h => ⟨guarded_of_name hname, fun _ => h⟩⟩
  cases shape with
  | scalar => exact hclean (sanitizeScalar_clean h)
  | structuredPrompt => exact hclean (sanitizeStructuredPrompt_clean h)
  | appearance => exact hclean (sanitizeAppearance_clean h)
  | poses => exact hclean (sanitizePoses_clean h)
  | phases => exact hclean (sanitizePhases_clean h)
  | mossImageEditOptions => exact hclean (sanitizeEditOptions_clean h)
  | sampleIndex => exact hclean (sanitizeSampleIndex_clean h)
  | numberPair => exact hclean (sanitizeNumberPair_clean h)
  | promptBatch => exact hclean (sanitizePromptBatch_clean (hbatch rfl) h)
  | mossImageOptions =>
      have hkey := hoptions rfl
      dsimp only at hkey
      refine hclean (hkey ▸ Json.everyText_mono ?_ (hmoss.options value reduced h))
      intro field text htext
      exact guarded_of_name (List.all_eq_true.mp (by decide : mossOptionTexts.all isNameText = true)
        text htext)
  | mossImageReport =>
      exact iff_true_intro ⟨guarded_of_name hname, fun haside => absurd (hreport rfl) haside⟩
  | mossImageEditReport =>
      exact iff_true_intro ⟨guarded_of_name hname, fun haside => absurd (hedit rfl) haside⟩
  | stringList =>
      exact (hiff (hshown ⟨nofun, nofun⟩)).trans (sanitizeReferenceIds_clean_iff (hids rfl) h)
  | flux3Layout => exact (hiff (hshown ⟨nofun, nofun⟩)).trans (sanitizeFlux3Layout_clean_iff h)
  | mossImageAdvanced => exact (hiff (hshown ⟨nofun, nofun⟩)).trans (shareOptions_clean_iff hmoss h)
  | h3VedaSettings =>
      obtain rfl := sanitizeH3VedaSettings_keeps h
      have hkey : key = "veda" := hveda rfl
      rw [hiff (hshown ⟨nofun, nofun⟩), hkey]
      rfl

/-- The settings that are kept are clean exactly when no text is copied past the guards. -/
theorem sanitizeAdvanced_clean_iff (hmoss : moss.Documented) {field : String}
    (advanced : JsonObject) :
    Clean field (.obj (sanitizeAdvanced moss serde.decodeError advanced)) ↔
      AdvancedGuarded moss serde advanced := by
  rw [Clean, Json.everyText_obj]
  constructor
  · intro h entry hentry shape hrule hkept
    obtain ⟨reduced, hreduced⟩ := Option.isSome_iff_exists.mp hkept
    refine (sanitizeShape_clean_iff hmoss hrule hreduced).mp (h _ ?_)
    refine List.mem_filterMap.mpr ⟨entry, hentry, ?_⟩
    rw [sanitizeEntry_of hrule, hreduced]
    rfl
  · intro h kept hkept
    obtain ⟨entry, hentry, hsome⟩ := List.mem_filterMap.mp hkept
    obtain ⟨shape, reduced, hrule, hreduced, rfl⟩ := sanitizeEntry_some hsome
    refine (sanitizeShape_clean_iff hmoss hrule hreduced).mpr (h entry hentry shape hrule ?_)
    rw [hreduced]
    rfl

/-- Every text of an envelope keeps the guards, but for what is set aside. -/
def WorkflowShare.NothingSmuggled (share : WorkflowShare) : Prop := Clean "" share.toValue

/-- A label with the empty text for one that is dropped. -/
theorem guarded_getD {field : String} {label : Option String}
    (h : ∀ text, label = some text → Guarded field text) : Guarded field (label.getD "") := by
  cases label with
  | none => exact guarded_of_name (by decide)
  | some text => exact h text rfl

theorem reduceProducer_clean {field : String} (producer : WorkflowProducer) :
    Clean field (reduceProducer producer).toValue := by
  refine (Json.everyText_record ?_).mpr ?_
  · exact guarded_names (by decide : ["name", "url", "version"].all isNameText = true)
  · simp only [WorkflowProducer.slots, reduceProducer, List.forall_mem_cons]
    refine ⟨Json.slotTexts_some (guarded_getD fun _ => guarded_shareableLabel),
      Json.slotTexts_some (guarded_getD fun text htext => ?_),
      Json.slotTexts_some (guarded_getD fun text htext => ?_), List.forall_mem_nil _⟩
    · exact guarded_shareableLabel (Option.filter_eq_some_iff.mp htext).1
    · exact guarded_shareableLabel (Option.filter_eq_some_iff.mp htext).1

theorem reduceLora_clean {field : String} {lora reduced : WorkflowLora}
    (h : reduceLora lora = some reduced) : Clean field reduced.toValue := by
  simp only [reduceLora] at h
  split at h
  case isFalse => cases h
  case isTrue =>
    obtain rfl := Option.some.inj h
    refine (Json.everyText_record ?_).mpr ?_
    · exact guarded_names (by decide : ["name", "weight", "repo", "hash"].all isNameText = true)
    · simp only [WorkflowLora.slots, List.forall_mem_cons, clean_label, true_and]
      refine ⟨Json.slotTexts_map fun _ _ => clean_ofF64 _, Json.slotTexts_map fun repo hrepo => ?_,
        Json.slotTexts_map fun digest hdigest => ?_, List.forall_mem_nil _⟩
      · obtain ⟨raw, -, hraw⟩ := Option.bind_eq_some_iff.mp hrepo
        exact guarded_hfRepoId hraw
      · obtain ⟨raw, -, hraw⟩ := Option.bind_eq_some_iff.mp hdigest
        exact guarded_normalizeSha256 hraw

theorem reduceInput_clean {field : String} {input reduced : WorkflowInput}
    (h : reduceInput input = some reduced) : Clean field reduced.toValue := by
  rw [reduceInput] at h
  split at h
  case isFalse => cases h
  case isTrue hkind =>
    obtain rfl := Option.some.inj h
    have hname : isNameText input.kind = true :=
      List.all_eq_true.mp (by decide : inputKinds.all isNameText = true)
      _ (List.contains_iff_mem.mp hkind)
    refine (Json.everyText_record ?_).mpr ?_
    · exact guarded_names (by decide : ["kind", "count", "controlMode"].all isNameText = true)
    · simp only [WorkflowInput.slots, List.forall_mem_cons, clean_label, true_and]
      exact ⟨Json.slotTexts_some (guarded_of_name hname), Json.slotTexts_some trivial,
        List.forall_mem_nil _⟩

theorem reduceUpscale_clean {field : String} (upscale : WorkflowUpscale) :
    Clean field (reduceUpscale upscale).toValue := by
  refine (Json.everyText_record ?_).mpr ?_
  · exact guarded_names (by decide : ["enabled", "factor", "engine", "softness", "scale",
      "inputSizing", "colorFix"].all isNameText = true)
  · simp only [WorkflowUpscale.slots, reduceUpscale, List.forall_mem_cons, clean_label, true_and]
    refine ⟨Json.slotTexts_some trivial, Json.slotTexts_map fun _ _ => trivial,
      Json.slotTexts_map fun _ _ => clean_ofF64 _, Json.slotTexts_map fun _ _ => clean_ofF64 _,
      Json.slotTexts_map fun sizing hsizing => ?_, Json.slotTexts_map fun _ _ => trivial,
      List.forall_mem_nil _⟩
    have hkept := (Option.filter_eq_some_iff.mp hsizing).2
    simp only [isInputSizing, Bool.or_eq_true, decide_eq_true_eq] at hkept
    obtain rfl | rfl := hkept
    · exact guarded_of_name (by decide)
    · exact guarded_of_name (by decide)

/-- A collection whose members are clean. -/
theorem wireItems_clean {α : Type} {encode : α → Json} {name : String} {items : List α}
    (h : ∀ item ∈ items, Clean name (encode item)) :
    Json.SlotTexts Guarded asideFields (name, wireItems encode items) := by
  intro value hvalue _
  obtain rfl := nonemptyArray_some hvalue
  exact Json.everyText_arr.mpr (List.forall_mem_map.mpr h)

theorem nonemptyObject_clean_iff {name : String} (hname : name ∉ asideFields)
    (fields : JsonObject) :
    Json.SlotTexts Guarded asideFields (name, nonemptyObject fields) ↔
        Clean name (.obj fields) := by
  cases fields with
  | nil => exact ⟨fun _ => trivial, fun _ value hvalue => nomatch hvalue⟩
  | cons entry rest =>
      constructor
      · intro h
        exact h _ rfl hname
      · intro h
        exact Json.slotTexts_some h

theorem negativePrompt_clean (value : String) :
    Json.SlotTexts Guarded asideFields ("negativePrompt",
      if shareableProse value = "" then none else some (.str (shareableProse value))) := by
  by_cases hempty : shareableProse value = ""
  · rw [if_pos hempty]
    exact fun _ hvalue => nomatch hvalue
  · rw [if_neg hempty]
    exact Json.slotTexts_some (guarded_shareableProse (by decide) _)

theorem reduceWorkflowShare_clean_iff (hmoss : moss.Documented) (share : WorkflowShare) :
    (reduceWorkflowShare moss serde share).NothingSmuggled ↔
      AdvancedGuarded moss serde share.advanced := by
  have hlabel : ∀ field value, Clean field (.str ((shareableLabel value).getD "")) :=
    fun field value => guarded_getD fun _ => guarded_shareableLabel
  have hnames : ∀ name ∈ (reduceWorkflowShare moss serde share).slots.map Prod.fst,
      Guarded "" name :=
    guarded_names (by decide : [workflowShareMarkerKey, "schemaVersion", "producer", "mode",
      "model", "modelHash", "prompt", "negativePrompt", "seed", "width", "height", "count",
      "durationSeconds", "fps", "quality", "stylePreset", "styleId", "fitMode", "upscale", "loras",
      "inputs", "advanced", "omitted"].all isNameText = true)
  have hfield : "advanced" ∉ asideFields := by decide
  have hadvanced : Json.SlotTexts Guarded asideFields
      ("advanced", nonemptyObject (sanitizeAdvanced moss serde.decodeError share.advanced)) ↔
        AdvancedGuarded moss serde share.advanced :=
    (nonemptyObject_clean_iff hfield _).trans (sanitizeAdvanced_clean_iff hmoss _)
  rw [WorkflowShare.NothingSmuggled, Clean, WorkflowShare.toValue, Json.everyText_record hnames,
    ← hadvanced]
  constructor
  · intro h
    refine h _ ?_
    simp [WorkflowShare.slots, reduceWorkflowShare]
  · intro hkept
    simp only [WorkflowShare.slots, reduceWorkflowShare, List.forall_mem_cons, clean_label,
      true_and]
    refine ⟨Json.slotTexts_aside _ (by decide), Json.slotTexts_some trivial,
      Json.slotTexts_some (reduceProducer_clean _), Json.slotTexts_some (hlabel _ _),
      Json.slotTexts_some (hlabel _ _), Json.slotTexts_map fun digest hdigest => ?_,
      Json.slotTexts_some (guarded_shareableProse (by decide) _), negativePrompt_clean _,
      Json.slotTexts_map fun _ _ => trivial, Json.slotTexts_map fun _ _ => trivial,
      Json.slotTexts_map fun _ _ => trivial, Json.slotTexts_map fun _ _ => trivial,
      Json.slotTexts_map fun _ _ => clean_ofF64 _, Json.slotTexts_map fun _ _ => trivial,
      Json.slotTexts_map fun upscale hupscale => ?_, wireItems_clean fun lora hlora => ?_,
      wireItems_clean fun input hinput => ?_, hkept, Json.slotTexts_aside _ (by decide),
      List.forall_mem_nil _⟩
    · obtain ⟨raw, -, hraw⟩ := Option.bind_eq_some_iff.mp hdigest
      exact guarded_normalizeSha256 hraw
    · obtain ⟨raw, -, rfl⟩ := Option.map_eq_some_iff.mp hupscale
      exact reduceUpscale_clean raw
    · obtain ⟨raw, hraw⟩ := mem_reduceCapped hlora
      exact reduceLora_clean hraw
    · obtain ⟨raw, hraw⟩ := mem_reduceCapped hinput
      exact reduceInput_clean hraw

/-- Neither a read envelope nor a built one carries a text past its guards, exactly when the four
shapes that copy texts are given none. -/
theorem nothingSmuggled_iff_advancedGuarded (moss : MossCore) (serde : Serde)
    (hmoss : moss.Documented) : (∀ value share, parseWorkflowShare moss serde value = .ok share →
      ∃ object, value = .obj object ∧
        (share.NothingSmuggled ↔ AdvancedGuarded moss serde (advancedOf object))) ∧
    (∀ kind facts payload, (buildShareOfKind moss serde kind facts payload).NothingSmuggled ↔
      AdvancedGuarded moss serde (advancedOf payload)) := by
  constructor
  · intro value share h
    obtain ⟨object, raw, hvalue, hadvanced, hreduced⟩ := parseWorkflowShare_isReduced h
    refine ⟨object, hvalue, ?_⟩
    rw [hreduced.reduced, ← hadvanced]
    exact reduceWorkflowShare_clean_iff hmoss raw
  · intro kind facts payload
    exact reduceWorkflowShare_clean_iff hmoss (rawShareOfKind moss kind facts payload)

theorem idleMoss_documented : idleMoss.Documented where
  options := nofun
  outputKind := by
    intro value kind h
    simp only [idleMoss] at h
    split at h
    case isFalse => cases h
    case isTrue hkind =>
      rw [← Option.some.inj h]
      exact hkind
  defaultOutputKind := rfl

/-- An envelope from outside with one reference id. -/
def strangerFields (id : String) : JsonObject :=
  [(workflowShareMarkerKey, .str "image"), ("schemaVersion", .int 1),
    ("producer", .obj [("name", .str "x"), ("url", .str ""), ("version", .str "1.0.0")]),
    ("mode", .str "text_to_image"), ("model", .str "flux3_klein"), ("prompt", .str "a fox"),
    ("advanced", .obj [("flux3_reference_ids", .arr [.str id])])]

theorem strangerFields_guarded_iff (moss : MossCore) (serde : Serde) {id : String}
    (h : sanitizeReferenceIds (.arr [.str id]) ≠ none) :
    AdvancedGuarded moss serde (advancedOf (strangerFields id)) ↔ IsBrief id := by
  have hrule : advancedKeyRule "flux3_reference_ids" = some .stringList := by decide
  constructor
  · intro hguarded
    have hids : ReferenceIdsBrief (.arr [.str id]) :=
      hguarded _ (List.mem_singleton.mpr rfl) .stringList hrule (Option.isSome_iff_ne_none.mpr h)
    exact hids [id] rfl id (List.mem_singleton.mpr rfl)
  · intro hbrief entry hentry shape hshape _
    obtain rfl : entry = ("flux3_reference_ids", .arr [.str id]) := List.mem_singleton.mp hentry
    obtain rfl := Option.some.inj (hrule.symm.trans hshape)
    intro ids hids found hfound
    obtain rfl : [id] = ids := Option.some.inj hids
    obtain rfl := List.mem_singleton.mp hfound
    exact hbrief

theorem nothingSmuggled_of_slot :
    ∃ share, parseWorkflowShare idleMoss plainSerde (.obj (strangerFields "slot-a")) = .ok share ∧
      share.NothingSmuggled := by
  have hok :
      (parseWorkflowShare idleMoss plainSerde (.obj (strangerFields "slot-a"))).toOption.isSome =
      true := by
    decide +kernel
  obtain ⟨share, hshare⟩ := Option.isSome_iff_exists.mp hok
  have hparse := Fallible.toOption_eq_some.mp hshare
  obtain ⟨object, hobject, hiff⟩ :=
    (nothingSmuggled_iff_advancedGuarded idleMoss plainSerde idleMoss_documented).1 _ share hparse
  obtain rfl := Json.obj.inj hobject
  refine ⟨share, hparse, hiff.mpr ?_⟩
  rw [strangerFields_guarded_iff _ _ (by decide)]
  exact ⟨fun c hc hcontrol => absurd hcontrol (by revert c; decide), by decide⟩

/-- A reference id may be an escape sequence, and is shown as it came. -/
theorem escape_sequence_smuggled :
    ¬ ∀ (moss : MossCore) (serde : Serde), moss.Documented →
      ∀ value share, parseWorkflowShare moss serde value = .ok share → share.NothingSmuggled := by
  intro h
  have hok : (parseWorkflowShare idleMoss plainSerde
      (.obj (strangerFields "\x1b[2J"))).toOption.isSome = true := by
    decide +kernel
  obtain ⟨share, hshare⟩ := Option.isSome_iff_exists.mp hok
  have hparse := Fallible.toOption_eq_some.mp hshare
  have hclean := h idleMoss plainSerde idleMoss_documented _ share hparse
  obtain ⟨object, raw, hobject, hadvanced, hreduced⟩ := parseWorkflowShare_isReduced hparse
  obtain rfl := Json.obj.inj hobject
  rw [hreduced.reduced, reduceWorkflowShare_clean_iff idleMoss_documented, hadvanced,
    strangerFields_guarded_iff _ _ (by decide)] at hclean
  exact absurd (hclean.1 '\x1b' (by decide) (by decide)) (by decide)

end Envelope

end SceneWorks.WorkflowEnvelope
