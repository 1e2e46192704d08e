import SceneWorks.WorkflowEnvelope.Shapes

/-!
What each shape gives is given back unchanged by the same shape, the native documents
assumed. The batch of prompts is the exception: a text that is stripped to nothing leaves a
batch that its own check refuses.
-/

namespace SceneWorks.WorkflowEnvelope

open JsonObject (get select record get_select select_congr get_record)
open Reducer
open ImageRequest

/-- A reducer that gives back its argument or nothing. -/
theorem settles_of_keeps {α : Type} {f : α → Option α} (h : ∀ v w, f v = some w → w = v) :
    Settles f := by
  intro v w hv
  obtain rfl := h v w hv
  exact hv

theorem sanitizeScalar_settles (key : String) : Settles (sanitizeScalar key) := by
  intro value reduced h
  cases value with
  | str text =>
      simp only [sanitizeScalar] at h
      by_cases hprose : proseKeys.contains key = true
      · rw [if_pos hprose] at h
        obtain rfl := Option.some.inj h
        rw [sanitizeScalar, if_pos hprose, shareableProse_shareableProse]
      · rw [if_neg hprose] at h
        obtain ⟨label, hlabel, rfl⟩ := Option.map_eq_some_iff.mp h
        rw [sanitizeScalar, if_neg hprose, shareableLabel_settles text label hlabel]
        rfl
  | bool b =>
      obtain rfl := Option.some.inj h
      rfl
  | int n =>
      obtain rfl := Option.some.inj h
      rfl
  | float bits =>
      obtain rfl := Option.some.inj h
      rfl
  | null | arr _ | obj _ => cases h

theorem sanitizeNumberPair_settles : Settles sanitizeNumberPair :=
  settles_filter _

theorem nonemptyObject_some {fields : JsonObject} {value : Json}
    (h : nonemptyObject fields = some value) : value = .obj fields := by
  rw [nonemptyObject] at h
  split at h
  · cases h
  · exact (Option.some.inj h).symm

theorem nonemptyArray_some {items : List Json} {value : Json}
    (h : nonemptyArray items = some value) : value = .arr items := by
  rw [nonemptyArray] at h
  split at h
  · cases h
  · exact (Option.some.inj h).symm

/-- Selecting again what was selected, through reducers that settle. -/
theorem select_again {names : List String} (hnames : names.Nodup) (field : String → Option Json)
    {reduce : String → Json → Option Json} (h : ∀ name ∈ names, Settles (reduce name)) :
    (select names fun name =>
        (get (select names fun name => (field name).bind (reduce name)) name).bind (reduce name)) =
      select names fun name => (field name).bind (reduce name) := by
  refine select_congr fun name hname => ?_
  rw [get_select hnames _ hname, (h name hname).bind_bind]

theorem sanitizeStructuredPrompt_settles : Settles sanitizeStructuredPrompt := by
  intro value reduced h
  obtain ⟨recipe, -, hrecipe⟩ := Option.bind_eq_some_iff.mp h
  obtain rfl := nonemptyObject_some hrecipe
  have hagain := select_again (by decide : structuredPromptFields.Nodup) (get recipe)
    fun field _ => sanitizeScalar_settles field
  rw [sanitizeStructuredPrompt]
  exact (congrArg nonemptyObject hagain).trans hrecipe

theorem sanitizePose_sanitizePose (pose : Json) :
    sanitizePose (sanitizePose pose) = sanitizePose pose := by
  rw [sanitizePose, sanitizePose]
  refine congrArg Json.obj (select_congr fun field hfield => ?_)
  rw [Json.get_obj, get_select (by decide) _ hfield, filter_filter]

theorem sanitizePoses_settles : Settles sanitizePoses := by
  intro value reduced h
  obtain ⟨poses, -, hposes⟩ := Option.bind_eq_some_iff.mp h
  by_cases hcap : overCap poses.length maxSharePoses = true
  · rw [if_pos hcap] at hposes
    cases hposes
  rw [if_neg hcap] at hposes
  dsimp only at hposes
  by_cases hslots : maxSharePoseSlots < ((poses.map sanitizePose).map countCoordinateSlots).sum
  · rw [if_pos hslots] at hposes
    cases hposes
  rw [if_neg hslots] at hposes
  obtain rfl := nonemptyArray_some hposes
  have hagain : (poses.map sanitizePose).map sanitizePose = poses.map sanitizePose := by
    rw [List.map_map]
    exact List.map_congr_left fun pose _ => sanitizePose_sanitizePose pose
  have hlength : (poses.map sanitizePose).length = poses.length := List.length_map _
  simp only [sanitizePoses, Json.asArray, Option.bind_eq_bind, Option.bind_some, hlength, hagain]
  rw [if_neg hcap, if_neg hslots, hposes]

theorem sanitizePhaseLora_settles : Settles sanitizePhaseLora := by
  intro value reduced h
  obtain ⟨lora, -, hlora⟩ := Option.bind_eq_some_iff.mp h
  dsimp only at hlora
  split at hlora
  case isFalse => cases hlora
  case isTrue hindex =>
    obtain rfl := Option.some.inj hlora
    have hagain : (select ["index", "weight"] fun field =>
        (get (select ["index", "weight"] fun field => (get lora field).filter Json.isNumber)
          field).filter Json.isNumber) =
        select ["index", "weight"] fun field => (get lora field).filter Json.isNumber := by
      refine select_congr fun field hfield => ?_
      rw [get_select (by decide) _ hfield, filter_filter]
    simp only [sanitizePhaseLora, Json.asObject, Option.bind_eq_bind, Option.bind_some, hagain]
    exact if_pos hindex

theorem sanitizePhaseLoras_again {phase phase' : JsonObject}
    (h : get phase' "loras" = sanitizePhaseLoras phase) :
    sanitizePhaseLoras phase' = sanitizePhaseLoras phase := by
  cases hphase : sanitizePhaseLoras phase with
  | none =>
      rw [sanitizePhaseLoras, h, hphase]
      rfl
  | some value =>
      obtain ⟨loras, -, hloras⟩ := Option.bind_eq_some_iff.mp hphase
      by_cases hcap : overCap loras.length maxShareLoras = true
      · rw [if_pos hcap] at hloras
        cases hloras
      rw [if_neg hcap] at hloras
      obtain rfl := nonemptyArray_some hloras
      have hcap' : ¬ overCap (loras.filterMap sanitizePhaseLora).length maxShareLoras = true := by
        have hle := List.length_filterMap_le sanitizePhaseLora loras
        simp only [overCap, decide_eq_true_eq] at hcap ⊢
        omega
      rw [sanitizePhaseLoras, h, hphase]
      simp only [Option.bind_some, Json.asArray, Option.bind_eq_bind]
      rw [if_neg hcap', sanitizePhaseLora_settles.filterMap_filterMap, hloras]

theorem sanitizePhase_settles : Settles sanitizePhase := by
  intro value reduced h
  obtain ⟨phase, -, hphase⟩ := Option.bind_eq_some_iff.mp h
  obtain rfl := Option.some.inj hphase
  have hget : ∀ key, get (record [("steps", (get phase "steps").filter Json.isNumber),
      ("guidance", (get phase "guidance").filter Json.isNumber),
      ("loras", sanitizePhaseLoras phase)]) key = _ :=
    get_record (by decide : ["steps", "guidance", "loras"].Nodup)
  rw [sanitizePhase, Json.asObject]
  simp only [Option.bind_eq_bind, Option.bind_some]
  rw [hget "steps", hget "guidance", sanitizePhaseLoras_again (hget "loras")]
  simp only [JsonObject.slot, if_true, String.reduceEq, if_false, filter_filter]

theorem sanitizePhases_settles : Settles sanitizePhases := by
  intro value reduced h
  obtain ⟨phases, -, hphases⟩ := Option.bind_eq_some_iff.mp h
  by_cases hcap : overCap phases.length maxSharePhases = true
  · rw [if_pos hcap] at hphases
    cases hphases
  rw [if_neg hcap] at hphases
  obtain rfl := nonemptyArray_some hphases
  have hcap' : ¬ overCap (phases.filterMap sanitizePhase).length maxSharePhases = true := by
    have hle := List.length_filterMap_le sanitizePhase phases
    simp only [overCap, decide_eq_true_eq] at hcap ⊢
    omega
  simp only [sanitizePhases, Json.asArray, Option.bind_eq_bind, Option.bind_some]
  rw [if_neg hcap', sanitizePhase_settles.filterMap_filterMap, hphases]

theorem sanitizeReferenceIds_settles : Settles sanitizeReferenceIds := by
  refine settles_of_keeps fun value reduced h => ?_
  obtain ⟨values, -, hvalues⟩ := Option.bind_eq_some_iff.mp h
  split at hvalues
  · cases hvalues
  · obtain ⟨ids, -, hids⟩ := Option.bind_eq_some_iff.mp hvalues
    split at hids
    · cases hids
    · exact (Option.some.inj hids).symm

theorem sanitizeH3VedaSettings_keeps {decodeError : Json → String} {value reduced : Json}
    (h : sanitizeH3VedaSettings decodeError value = some reduced) : reduced = value := by
  obtain ⟨object, hobject, hvalue⟩ := Option.bind_eq_some_iff.mp h
  split at hvalue
  · cases hvalue
  · obtain ⟨-, -, hreduced⟩ := Option.bind_eq_some_iff.mp hvalue
    cases value with
    | obj fields =>
        obtain rfl := Option.some.inj hobject
        exact (Option.some.inj hreduced).symm
    | _ => cases hobject

theorem sanitizeH3VedaSettings_settles (decodeError : Json → String) :
    Settles (sanitizeH3VedaSettings decodeError) :=
  settles_of_keeps fun _ _ => sanitizeH3VedaSettings_keeps

theorem sanitizeSampleIndex_settles : Settles sanitizeSampleIndex := by
  intro value reduced h
  obtain ⟨index, hindex, rfl⟩ := Option.map_eq_some_iff.mp h
  have hlt : index < 8 := by simpa using (Option.filter_eq_some_iff.mp hindex).2
  have hu64 : (Json.int index).asU64 = some index := by
    rw [Json.asU64, if_pos (by omega), Int.toNat_natCast]
  rw [sanitizeSampleIndex, hu64, Option.filter_some_pos (by simpa using hlt)]
  rfl

section Layout

theorem publicBox_some {row box : Json} (h : publicBox row = some box) :
    box = .obj (select layoutFields row.get) ∧ ∀ key ∈ layoutFields, box.get key = row.get key := by
  rw [publicBox] at h
  split at h
  · cases h
  · obtain rfl := Option.some.inj h
    refine ⟨rfl, fun key hkey => ?_⟩
    rw [Json.get_obj, get_select (by decide) _ hkey]

theorem publicBox_settles : Settles publicBox := by
  intro row box h
  obtain ⟨hbox, hget⟩ := publicBox_some h
  have hany : (layoutFields.any fun key =>
        key ≠ "desc" && ((box.get key).bind Json.asStr).any isPathShaped) =
      layoutFields.any fun key =>
        key ≠ "desc" && ((row.get key).bind Json.asStr).any isPathShaped := by
    rw [Bool.eq_iff_iff, List.any_eq_true, List.any_eq_true]
    exact exists_congr fun key => and_congr_right fun hkey => by rw [hget key hkey]
  rw [publicBox] at h ⊢
  rw [hany, select_congr hget, ← hbox]
  split at h
  · cases h
  · next hkept => rw [if_neg hkept]

theorem layoutIdentities_eq {rows boxes : List Json}
    (h : List.Forall₂ (fun row box => publicBox row = some box) rows boxes) :
    layoutIdentities boxes = layoutIdentities rows := by
  induction h with
  | nil => rfl
  | cons hrow _ ih =>
      have hget := (publicBox_some hrow).2 "reference_id" (by decide)
      rw [layoutIdentities] at ih ⊢
      rw [List.filterMap_cons, hget, ih, layoutIdentities, layoutIdentities, List.filterMap_cons]

/-- A box is checked by its public fields, and has no units. -/
theorem validateRows_public {count : Nat} {ids : Option (List String)} {seen : List String}
    {rows boxes : List Json} (h : List.Forall₂ (fun row box => publicBox row = some box) rows boxes)
    (hvalid : Flux3.validateRows count ids seen rows = .ok ()) :
    Flux3.validateRows count ids seen boxes = .ok () := by
  induction h generalizing seen with
  | nil => rfl
  | @cons row box rows boxes hrow _ ih =>
      obtain ⟨fields, id, hfields, hid, hfresh, hchecked, hrest⟩ :=
        Flux3.validateRows_cons.mp hvalid
      obtain ⟨rfl, hget⟩ := publicBox_some hrow
      have hsame :
          ∀ key ∈ layoutFields, get (select layoutFields row.get) key = get fields key := by
        intro key hkey
        have hrowGet : row.get key = get fields key := by rw [Json.get, hfields, Option.bind_some]
        rw [← hrowGet, ← hget key hkey]
        rfl
      refine Flux3.validateRows_cons.mpr ⟨select layoutFields row.get, id, rfl, ?_, ?_, ?_,
        ih hrest⟩
      · rw [hsame "id" (by decide), hid]
      · rw [hsame "desc" (by decide)]
        exact hfresh
      · rw [← hchecked]
        have hrowKeys : ∀ key ∈ Flux3.rowKeys, key ∈ layoutFields := by decide
        have hunitKeys : ∀ key ∈ Flux3.unitKeys, key ∉ layoutFields := by decide
        refine Flux3.validateRow_congr (fun key hkey => hsame key (hrowKeys key hkey))
          fun key hkey => ?_
        rw [Flux3.units_of_validateRow hchecked key hkey,
          JsonObject.get_select_of_not_mem _ _ (hunitKeys key hkey)]

theorem sanitizeFlux3Layout_settles : Settles sanitizeFlux3Layout := by
  intro value reduced h
  obtain ⟨rows, hrows, h⟩ := Option.bind_eq_some_iff.mp h
  obtain ⟨⟨⟩, hvalid, h⟩ := Option.bind_eq_some_iff.mp h
  obtain ⟨boxes, hboxes, h⟩ := Option.bind_eq_some_iff.mp h
  obtain rfl := Option.some.inj h
  have hpairs := Fallible.mapM_eq_some.mp hboxes
  have hchecked := Fallible.toOption_eq_some.mp hvalid
  obtain ⟨doc, found, hdoc, -, hfound, hfoundRows⟩ := Flux3.validateLayout_eq_ok.mp hchecked
  obtain rfl : found = rows := by
    rw [Json.get, hdoc, Option.bind_some, hfound] at hrows
    exact Option.some.inj hrows
  have hagain : Flux3.validateLayout (.obj [("version", .int 1), ("boxes", .arr boxes)]) 10
      (some (layoutIdentities boxes)) = .ok () := by
    refine Flux3.validateLayout_eq_ok.mpr ⟨_, boxes, rfl, rfl, rfl, ?_⟩
    rw [layoutIdentities_eq hpairs]
    exact validateRows_public hpairs hfoundRows
  have hmap : boxes.mapM publicBox = some boxes := by
    refine Fallible.mapM_eq_some.mpr (List.forall₂_same.mpr fun box hbox => ?_)
    obtain ⟨row, -, hrow⟩ := Fallible.exists_of_mem_mapM hboxes hbox
    exact publicBox_settles row box hrow
  rw [sanitizeFlux3Layout]
  simp only [Json.get_obj, JsonObject.get, String.reduceEq, if_false, if_true, Option.bind_some,
    Json.asArray, Option.bind_eq_bind, hagain, Except.toOption, hmap]

end Layout

theorem optional_str (text : Option String) :
    Json.optional Json.asStr (text.map .str) = some text :=
  Json.optional_map fun _ _ => ⟨nofun, rfl⟩

theorem items_str (texts : List String) :
    Json.items Json.asStr (.arr (texts.map .str)) = some texts :=
  Json.items_map fun _ _ => rfl

section Appearance

theorem AppearanceSelection.ofValue_toValue (selection : AppearanceSelection) :
    ofValue selection.toValue = some selection := by
  have hstruct : selection.toValue.asClosedStruct ["camera", "film", "looks", "lighting"] =
      some (record selection.slots) := Json.asClosedStruct_record (List.Subset.refl _)
  have hget : ∀ key, get (record selection.slots) key = _ :=
    get_record (by decide : ["camera", "film", "looks", "lighting"].Nodup)
  rw [ofValue]
  refine Option.bind_eq_some_iff.mpr ⟨_, hstruct, ?_⟩
  refine Option.bind_eq_some_iff.mpr ⟨selection.camera, (hget "camera").symm ▸ optional_str _, ?_⟩
  refine Option.bind_eq_some_iff.mpr ⟨selection.film, (hget "film").symm ▸ optional_str _, ?_⟩
  refine Option.bind_eq_some_iff.mpr ⟨selection.looks, ?_, ?_⟩
  · have hslot : JsonObject.slot selection.slots "looks" =
        nonemptyArray (selection.looks.map .str) := rfl
    rw [hget, hslot]
    cases hlooks : selection.looks with
    | nil => rfl
    | cons look looks => exact items_str (look :: looks)
  exact Option.bind_eq_some_iff.mpr
    ⟨selection.lighting, (hget "lighting").symm ▸ optional_str _, rfl⟩

theorem AppearanceSelection.reduce_reduce (selection : AppearanceSelection) :
    selection.reduce.reduce = selection.reduce := by
  have hlooks :
      (((selection.looks.filterMap shareableLabel).take 32).filterMap shareableLabel).take 32 =
      (selection.looks.filterMap shareableLabel).take 32 := by
    rw [shareableLabel_settles.filterMap_eq, List.take_take, min_self]
    intro label hlabel
    obtain ⟨look, -, hlook⟩ := List.mem_filterMap.mp (List.mem_of_mem_take hlabel)
    exact ⟨look, hlook⟩
  simp only [reduce, shareableLabel_settles.bind_bind, hlooks]

theorem sanitizeAppearance_settles : Settles sanitizeAppearance := by
  intro value reduced h
  obtain ⟨selection, -, rfl⟩ := Option.map_eq_some_iff.mp h
  rw [sanitizeAppearance, AppearanceSelection.ofValue_toValue, Option.map_some,
    AppearanceSelection.reduce_reduce]

end Appearance

section Moss

theorem EditOptions.ofValue_toValue (options : EditOptions) :
    ofValue options.toValue = some options := by
  have hstruct : options.toValue.asClosedStruct ["reference_max_edge", "use_kv_cache"] =
      some (record options.slots) := Json.asClosedStruct_record (List.Subset.refl _)
  have hget : ∀ key, get (record options.slots) key = _ :=
    get_record (by decide : ["reference_max_edge", "use_kv_cache"].Nodup)
  rw [ofValue]
  refine Option.bind_eq_some_iff.mpr ⟨_, hstruct, ?_⟩
  refine Option.bind_eq_some_iff.mpr ⟨options.referenceMaxEdge, ?_, ?_⟩
  · have hslot : JsonObject.slot options.slots "reference_max_edge" =
        some (.ofU32 options.referenceMaxEdge) := rfl
    rw [hget, hslot, Json.orDefault, Json.asU32_ofU32]
  refine Option.bind_eq_some_iff.mpr ⟨options.useKvCache, ?_, rfl⟩
  rw [hget]
  rfl

theorem sanitizeEditOptions_settles : Settles sanitizeEditOptions := by
  intro value reduced h
  obtain ⟨options, -, hoptions⟩ := Option.bind_eq_some_iff.mp h
  split at hoptions
  case isFalse => cases hoptions
  case isTrue hedge =>
    obtain rfl := Option.some.inj hoptions
    rw [sanitizeEditOptions, EditOptions.ofValue_toValue]
    exact if_pos hedge

theorem TensorMetadata.ofValue_toValue (metadata : TensorMetadata) :
    ofValue metadata.toValue = some metadata := by
  have hstruct : metadata.toValue.asClosedStruct ["dtype", "shape", "byteLength", "sha256"] =
      some (record metadata.slots) := Json.asClosedStruct_record (List.Subset.refl _)
  have hget : ∀ key, get (record metadata.slots) key = _ :=
    get_record (by decide : ["dtype", "shape", "byteLength", "sha256"].Nodup)
  rw [ofValue]
  refine Option.bind_eq_some_iff.mpr ⟨_, hstruct, ?_⟩
  refine Option.bind_eq_some_iff.mpr ⟨metadata.dtype, by rw [hget]; rfl, ?_⟩
  refine Option.bind_eq_some_iff.mpr ⟨metadata.shape, ?_, ?_⟩
  · rw [hget]
    exact Json.items_map fun n _ => Json.asUInt64_ofU64 n
  refine Option.bind_eq_some_iff.mpr ⟨metadata.byteLength, ?_, ?_⟩
  · have hslot :
        JsonObject.slot metadata.slots "byteLength" = some (.ofU64 metadata.byteLength) := rfl
    rw [hget, hslot, Option.bind_some, Json.asUInt64_ofU64]
  exact Option.bind_eq_some_iff.mpr ⟨metadata.sha256, by rw [hget]; rfl, rfl⟩

theorem TensorRef.ofValue_toValue (reference : TensorRef) :
    ofValue reference.toValue = some reference := by
  have hstruct : reference.toValue.asClosedStruct ["assetId", "sha256", "metadata"] =
      some (record reference.slots) := Json.asClosedStruct_record (List.Subset.refl _)
  have hget : ∀ key, get (record reference.slots) key = _ :=
    get_record (by decide : ["assetId", "sha256", "metadata"].Nodup)
  rw [ofValue]
  refine Option.bind_eq_some_iff.mpr ⟨_, hstruct, ?_⟩
  refine Option.bind_eq_some_iff.mpr ⟨reference.assetId, ?_, ?_⟩
  · have hslot : JsonObject.slot reference.slots "assetId" =
        if reference.assetId = "" then none else some (.str reference.assetId) := rfl
    rw [hget, hslot]
    by_cases h : reference.assetId = ""
    · rw [if_pos h, h]
      rfl
    · rw [if_neg h]
      rfl
  refine Option.bind_eq_some_iff.mpr ⟨reference.sha256, by rw [hget]; rfl, ?_⟩
  refine Option.bind_eq_some_iff.mpr ⟨reference.metadata, ?_, rfl⟩
  have hslot : JsonObject.slot reference.slots "metadata" =
      reference.metadata.map TensorMetadata.toValue := rfl
  rw [hget, hslot]
  exact Json.optional_map fun metadata _ => ⟨nofun, TensorMetadata.ofValue_toValue metadata⟩

theorem optional_tensorRef (reference : Option TensorRef) :
    Json.optional TensorRef.ofValue (reference.map TensorRef.toValue) = some reference :=
  Json.optional_map fun tensor _ => ⟨nofun, TensorRef.ofValue_toValue tensor⟩

theorem EmbeddingsRef.ofValue_toValue (embeddings : EmbeddingsRef) :
    ofValue embeddings.toValue = some embeddings := by
  have hstruct : embeddings.toValue.asClosedStruct ["values", "mask"] =
      some (record embeddings.slots) := Json.asClosedStruct_record (List.Subset.refl _)
  have hget : ∀ key, get (record embeddings.slots) key = _ :=
    get_record (by decide : ["values", "mask"].Nodup)
  have hvalues : JsonObject.slot embeddings.slots "values" = some embeddings.values.toValue := rfl
  have hmask :
      JsonObject.slot embeddings.slots "mask" = embeddings.mask.map TensorRef.toValue := rfl
  rw [ofValue]
  refine Option.bind_eq_some_iff.mpr ⟨_, hstruct, ?_⟩
  refine Option.bind_eq_some_iff.mpr ⟨embeddings.values, ?_, ?_⟩
  · rw [hget, hvalues, Option.bind_some, TensorRef.ofValue_toValue]
  refine Option.bind_eq_some_iff.mpr ⟨embeddings.mask, ?_, rfl⟩
  rw [hget, hmask, optional_tensorRef]

theorem optional_embeddingsRef (part : Option EmbeddingsRef) :
    Json.optional EmbeddingsRef.ofValue (part.map EmbeddingsRef.toValue) = some part :=
  Json.optional_map fun embeddings _ => ⟨nofun, EmbeddingsRef.ofValue_toValue embeddings⟩

theorem EditAdvanced.ofValue_toValue {moss : MossCore} {options : EditAdvanced}
    (houtput : moss.outputKind options.output = some options.output) :
    ofValue moss options.toValue = some options := by
  have hstruct : options.toValue.asClosedStruct
      ["positive", "negative", "negativePrompts", "noise", "output"] =
        some (record options.slots) := Json.asClosedStruct_record (List.Subset.refl _)
  have hget : ∀ key, get (record options.slots) key = _ :=
    get_record (by decide : ["positive", "negative", "negativePrompts", "noise", "output"].Nodup)
  have hpositive : JsonObject.slot options.slots "positive" =
      options.positive.map EmbeddingsRef.toValue := rfl
  have hnegative : JsonObject.slot options.slots "negative" =
      options.negative.map EmbeddingsRef.toValue := rfl
  have hprompts : JsonObject.slot options.slots "negativePrompts" =
      options.negativePrompts.map fun prompts => .arr (prompts.map .str) := rfl
  have hnoise : JsonObject.slot options.slots "noise" = options.noise.map TensorRef.toValue := rfl
  have hkind : JsonObject.slot options.slots "output" = some options.output := rfl
  rw [ofValue]
  refine Option.bind_eq_some_iff.mpr ⟨_, hstruct, ?_⟩
  refine Option.bind_eq_some_iff.mpr ⟨options.positive, ?_, ?_⟩
  · rw [hget, hpositive, optional_embeddingsRef]
  refine Option.bind_eq_some_iff.mpr ⟨options.negative, ?_, ?_⟩
  · rw [hget, hnegative, optional_embeddingsRef]
  refine Option.bind_eq_some_iff.mpr ⟨options.negativePrompts, ?_, ?_⟩
  · rw [hget, hprompts]
    exact Json.optional_map fun prompts _ => ⟨nofun, items_str prompts⟩
  refine Option.bind_eq_some_iff.mpr ⟨options.noise, ?_, ?_⟩
  · rw [hget, hnoise, optional_tensorRef]
  refine Option.bind_eq_some_iff.mpr ⟨options.output, ?_, rfl⟩
  rw [hget, hkind, Json.orDefault, houtput]

theorem TensorRef.clear_settles : Settles TensorRef.clear := by
  intro reference cleared h
  rw [clear] at h
  split at h
  case isFalse => cases h
  case isTrue hexact =>
    obtain rfl := Option.some.inj h
    exact if_pos hexact

theorem clearPart_settles {α : Type} {clear : α → Option α} (h : Settles clear) :
    ∀ part cleared, clearPart clear part = some cleared →
      clearPart clear cleared = some cleared := by
  intro part cleared hpart
  cases part with
  | none =>
      obtain rfl := Option.some.inj hpart
      rfl
  | some a =>
      obtain ⟨b, hb, rfl⟩ := Option.map_eq_some_iff.mp hpart
      rw [clearPart, h a b hb]
      rfl

theorem EmbeddingsRef.clear_settles : Settles EmbeddingsRef.clear := by
  intro embeddings cleared h
  obtain ⟨values, hvalues, h⟩ := Option.bind_eq_some_iff.mp h
  obtain ⟨mask, hmask, h⟩ := Option.bind_eq_some_iff.mp h
  obtain rfl := Option.some.inj h
  simp only [clear, Option.bind_eq_bind, TensorRef.clear_settles _ _ hvalues,
    clearPart_settles TensorRef.clear_settles _ _ hmask, Option.bind_some]

theorem EditAdvanced.reduce_settles : Settles EditAdvanced.reduce := by
  intro options reduced h
  obtain ⟨positive, hpositive, h⟩ := Option.bind_eq_some_iff.mp h
  obtain ⟨negative, hnegative, h⟩ := Option.bind_eq_some_iff.mp h
  obtain ⟨noise, hnoise, h⟩ := Option.bind_eq_some_iff.mp h
  split at h
  case isTrue => cases h
  case isFalse hbounds =>
    obtain rfl := Option.some.inj h
    have hprose : ∀ prompts : List String, (prompts.map shareableProse).map shareableProse =
        prompts.map shareableProse := by
      intro prompts
      rw [List.map_map]
      exact List.map_congr_left fun text _ => shareableProse_shareableProse text
    have hbounds' : ¬ ((options.negativePrompts.map fun prompts => prompts.map shareableProse).any
        fun prompts => 8 < prompts.length || prompts.any fun text => 4000 < text.length) =
          true := by
      cases hprompts : options.negativePrompts with
      | none => exact Bool.false_ne_true
      | some prompts =>
          rw [hprompts] at hbounds
          simp only [Option.map_some, Option.any_some, List.length_map, Bool.or_eq_true,
            decide_eq_true_eq, List.any_eq_true, List.mem_map, not_or, not_exists, not_and,
            not_lt] at hbounds ⊢
          refine ⟨hbounds.1, ?_⟩
          rintro _ ⟨text, htext, rfl⟩
          exact (length_shareableProse_le text).trans (hbounds.2 text htext)
    simp only [reduce, Option.bind_eq_bind,
      clearPart_settles EmbeddingsRef.clear_settles _ _ hpositive,
      clearPart_settles EmbeddingsRef.clear_settles _ _ hnegative,
      clearPart_settles TensorRef.clear_settles _ _ hnoise, Option.bind_some]
    rw [if_neg hbounds']
    simp only [Option.map_map, Function.comp_def, hprose]

/-- What the native core promises of its own documents. -/
structure MossCore.Settled (moss : MossCore) : Prop where
  options : Settles moss.options
  executionReport : Settles moss.executionReport
  editExecutionReport : Settles moss.editExecutionReport
  outputKind : Settles moss.outputKind
  defaultOutputKind : moss.outputKind moss.defaultOutputKind = some moss.defaultOutputKind

theorem shareOptions_settles {moss : MossCore} (hmoss : moss.Settled) :
    Settles (shareOptions moss) := by
  intro value reduced h
  obtain ⟨options, hoptions, h⟩ := Option.bind_eq_some_iff.mp h
  obtain ⟨shared, hshared, h⟩ := Option.bind_eq_some_iff.mp h
  obtain rfl := Option.some.inj h
  have houtput : moss.outputKind options.output = some options.output := by
    obtain ⟨fields, -, h⟩ := Option.bind_eq_some_iff.mp hoptions
    obtain ⟨positive, -, h⟩ := Option.bind_eq_some_iff.mp h
    obtain ⟨negative, -, h⟩ := Option.bind_eq_some_iff.mp h
    obtain ⟨prompts, -, h⟩ := Option.bind_eq_some_iff.mp h
    obtain ⟨noise, -, h⟩ := Option.bind_eq_some_iff.mp h
    obtain ⟨output, hdecoded, h⟩ := Option.bind_eq_some_iff.mp h
    obtain rfl := Option.some.inj h
    cases hfield : get fields "output" with
    | none =>
        rw [hfield] at hdecoded
        obtain rfl := Option.some.inj hdecoded
        exact hmoss.defaultOutputKind
    | some found =>
        rw [hfield] at hdecoded
        exact hmoss.outputKind found output hdecoded
  have hsame : shared.output = options.output := by
    obtain ⟨positive, -, h⟩ := Option.bind_eq_some_iff.mp hshared
    obtain ⟨negative, -, h⟩ := Option.bind_eq_some_iff.mp h
    obtain ⟨noise, -, h⟩ := Option.bind_eq_some_iff.mp h
    split at h
    · cases h
    · obtain rfl := Option.some.inj h
      rfl
  rw [shareOptions, EditAdvanced.ofValue_toValue (by rw [hsame]; exact houtput)]
  simp only [Option.bind_eq_bind, Option.bind_some, EditAdvanced.reduce_settles _ _ hshared]

end Moss

section Advanced

/-- Something of the text is left once it is stripped and trimmed. -/
def TextSurvives (text : String) : Prop :=
  ∃ c ∈ text.toList, isProse c = true ∧ Text.isWhiteSpace c = false

/-- No text of an accepted batch is stripped to nothing. -/
def BatchSurvives (value : Json) : Prop :=
  ∀ texts, Json.items Json.asStr value = some texts → isPromptBatch texts = true →
    ∀ text ∈ texts, TextSurvives text

theorem shareableProse_ne_empty_iff {text : String} (h : text.length ≤ 4000) :
    shareableProse text ≠ "" ↔ TextSurvives text := by
  rw [Ne, shareableProse_eq_empty_iff h, TextSurvives]
  simp

theorem sanitizePromptBatch_some {value reduced : Json}
    (h : sanitizePromptBatch value = some reduced) :
    ∃ texts, Json.items Json.asStr value = some texts ∧ isPromptBatch texts = true ∧
      reduced = .arr ((texts.map shareableProse).map .str) := by
  obtain ⟨texts, htexts, h⟩ := Option.bind_eq_some_iff.mp h
  obtain ⟨hitems, hbatch⟩ := Option.filter_eq_some_iff.mp htexts
  refine ⟨texts, hitems, hbatch, ?_⟩
  rw [List.map_map]
  exact (Option.some.inj h).symm

theorem isPromptBatch_map_iff {texts : List String} (h : isPromptBatch texts = true) :
    isPromptBatch (texts.map shareableProse) = true ↔ ∀ text ∈ texts, TextSurvives text := by
  simp only [isPromptBatch, Bool.and_eq_true, List.all_eq_true, decide_eq_true_eq] at h ⊢
  obtain ⟨⟨hsome, hlength⟩, hall⟩ := h
  constructor
  · intro hbatch text htext
    refine (shareableProse_ne_empty_iff (hall text htext).2).mp ?_
    exact (hbatch.2 _ (List.mem_map_of_mem htext)).1
  · intro hsurvive
    refine ⟨⟨by simpa using hsome, by rwa [List.length_map]⟩, fun prose hprose => ?_⟩
    obtain ⟨text, htext, rfl⟩ := List.mem_map.mp hprose
    exact ⟨(shareableProse_ne_empty_iff (hall text htext).2).mpr (hsurvive text htext),
      (length_shareableProse_le text).trans (hall text htext).2⟩

/-- A second reduction leaves a batch alone or drops it, and drops it when a text was emptied. -/
theorem sanitizePromptBatch_again {value reduced : Json}
    (h : sanitizePromptBatch value = some reduced) :
    (∀ again, sanitizePromptBatch reduced = some again → again = reduced) ∧
      (sanitizePromptBatch reduced = some reduced ↔ BatchSurvives value) := by
  obtain ⟨texts, hitems, hbatch, rfl⟩ := sanitizePromptBatch_some h
  have hsame : (texts.map shareableProse).map shareableProse = texts.map shareableProse := by
    rw [List.map_map]
    exact List.map_congr_left fun text _ => shareableProse_shareableProse text
  constructor
  · intro again hagain
    obtain ⟨found, hfound, -, rfl⟩ := sanitizePromptBatch_some hagain
    obtain rfl := Option.some.inj ((items_str _).symm.trans hfound)
    rw [hsame]
  · constructor
    · intro hagain found hfound hfoundBatch
      obtain rfl := Option.some.inj (hitems.symm.trans hfound)
      obtain ⟨again, hagainItems, hagainBatch, -⟩ := sanitizePromptBatch_some hagain
      obtain rfl := Option.some.inj ((items_str _).symm.trans hagainItems)
      exact (isPromptBatch_map_iff hbatch).mp hagainBatch
    · intro hsurvive
      have hagain := (isPromptBatch_map_iff hbatch).mpr (hsurvive texts hitems hbatch)
      have hmap : ((texts.map shareableProse).map fun text => Json.str (shareableProse text)) =
          (texts.map shareableProse).map .str := by
        calc
          _ = ((texts.map shareableProse).map shareableProse).map Json.str := List.map_map.symm
          _ = _ := by rw [hsame]
      rw [sanitizePromptBatch, items_str, Option.filter_some_pos hagain]
      exact congrArg (fun items => some (Json.arr items)) hmap

variable {moss : MossCore} {decodeError : Json → String}

theorem sanitizeShape_settles (hmoss : moss.Settled) (key : String) {shape : AdvancedShape}
    (h : shape ≠ .promptBatch) : Settles (sanitizeShape moss decodeError key shape) := by
  cases shape with
  | promptBatch => exact absurd rfl h
  | scalar => exact sanitizeScalar_settles key
  | structuredPrompt => exact sanitizeStructuredPrompt_settles
  | appearance => exact sanitizeAppearance_settles
  | poses => exact sanitizePoses_settles
  | phases => exact sanitizePhases_settles
  | h3VedaSettings => exact sanitizeH3VedaSettings_settles decodeError
  | mossImageOptions => exact hmoss.options
  | mossImageReport => exact hmoss.executionReport
  | mossImageEditOptions => exact sanitizeEditOptions_settles
  | mossImageEditReport => exact hmoss.editExecutionReport
  | mossImageAdvanced => exact shareOptions_settles hmoss
  | sampleIndex => exact sanitizeSampleIndex_settles
  | numberPair => exact sanitizeNumberPair_settles
  | flux3Layout => exact sanitizeFlux3Layout_settles
  | stringList => exact sanitizeReferenceIds_settles

/-- The keys that hold a batch of prompts. -/
def batchKeys : List String := ["promptBatch", "appearancePromptBatch"]

theorem advancedKeyRule_batch_iff (key : String) :
    advancedKeyRule key = some .promptBatch ↔ key ∈ batchKeys := by
  constructor
  · intro h
    have hrules : ∀ rule ∈ advancedKeyRules, rule.2 = .promptBatch → rule.1 ∈ batchKeys := by
      decide
    have hmem : (key, AdvancedShape.promptBatch) ∈ advancedKeyRules := by
      rw [advancedKeyRule, List.lookup_eq_some_iff] at h
      obtain ⟨before, after, hsplit, -⟩ := h
      rw [hsplit]
      simp
    exact hrules _ hmem rfl
  · intro h
    obtain rfl | rfl : key = "promptBatch" ∨ key = "appearancePromptBatch" := by
      simpa [batchKeys] using h
    · decide
    · decide

/-- No batch of prompts in the map has a text that is stripped to nothing. -/
def BatchesSurvive (advanced : JsonObject) : Prop :=
  ∀ entry ∈ advanced, entry.1 ∈ batchKeys → BatchSurvives entry.2

theorem sanitizeEntry_some {entry reduced : String × Json}
    (h : sanitizeEntry moss decodeError entry = some reduced) :
    ∃ shape value, advancedKeyRule entry.1 = some shape ∧
      sanitizeShape moss decodeError entry.1 shape entry.2 = some value ∧
      reduced = (entry.1, value) := by
  obtain ⟨shape, hshape, h⟩ := Option.bind_eq_some_iff.mp h
  obtain ⟨value, hvalue, h⟩ := Option.bind_eq_some_iff.mp h
  exact ⟨shape, value, hshape, hvalue, (Option.some.inj h).symm⟩

theorem sanitizeEntry_of {key : String} {shape : AdvancedShape}
    (hshape : advancedKeyRule key = some shape)
    (value : Json) : sanitizeEntry moss decodeError (key, value) =
      (sanitizeShape moss decodeError key shape value).map fun reduced => (key, reduced) := by
  simp only [sanitizeEntry, hshape, Option.bind_eq_bind, Option.bind_some]
  cases sanitizeShape moss decodeError key shape value <;> rfl

theorem sanitizeEntry_again (hmoss : moss.Settled) {entry reduced : String × Json}
    (h : sanitizeEntry moss decodeError entry = some reduced) :
    (∀ again, sanitizeEntry moss decodeError reduced = some again → again = reduced) ∧
      (sanitizeEntry moss decodeError reduced = some reduced ↔
        (entry.1 ∈ batchKeys → BatchSurvives entry.2)) := by
  obtain ⟨shape, value, hshape, hvalue, rfl⟩ := sanitizeEntry_some h
  rw [sanitizeEntry_of hshape, ← advancedKeyRule_batch_iff, hshape]
  by_cases hbatch : shape = .promptBatch
  · subst hbatch
    obtain ⟨hkeeps, hiff⟩ := sanitizePromptBatch_again hvalue
    constructor
    · intro again hagain
      obtain ⟨found, hfound, rfl⟩ := Option.map_eq_some_iff.mp hagain
      rw [hkeeps found hfound]
    · rw [forall_prop_of_true rfl, ← hiff]
      constructor
      · intro hagain
        obtain ⟨found, hfound, heq⟩ := Option.map_eq_some_iff.mp hagain
        obtain rfl : found = value := (Prod.mk.inj heq).2
        exact hfound
      · intro hagain
        exact Option.map_eq_some_iff.mpr ⟨value, hagain, rfl⟩
  · have hagain := sanitizeShape_settles hmoss entry.1 hbatch entry.2 value hvalue
    rw [hagain, Option.map_some]
    refine ⟨fun again heq => (Option.some.inj heq).symm, fun _ hkey => ?_, fun _ => rfl⟩
    exact absurd (Option.some.inj hkey) hbatch

/-- Reducing the map again changes nothing exactly when every batch survives. -/
theorem sanitizeAdvanced_again_iff (hmoss : moss.Settled) (advanced : JsonObject) :
    sanitizeAdvanced moss decodeError (sanitizeAdvanced moss decodeError advanced) =
        sanitizeAdvanced moss decodeError advanced ↔
      BatchesSurvive advanced := by
  have hkeeps : ∀ reduced ∈ sanitizeAdvanced moss decodeError advanced, ∀ again,
      sanitizeEntry moss decodeError reduced = some again → again = reduced := by
    intro reduced hreduced
    obtain ⟨entry, -, hentry⟩ := List.mem_filterMap.mp hreduced
    exact (sanitizeEntry_again hmoss hentry).1
  rw [sanitizeAdvanced, filterMap_eq_self_iff hkeeps]
  constructor
  · intro hall entry hentry hkey texts hitems hbatch
    have hreduced : sanitizeEntry moss decodeError entry = some (entry.1,
        .arr (texts.map fun text => .str (shareableProse text))) := by
      rw [sanitizeEntry_of ((advancedKeyRule_batch_iff entry.1).mpr hkey) entry.2]
      refine Option.map_eq_some_iff.mpr ⟨_, ?_, rfl⟩
      rw [sanitizeShape, sanitizePromptBatch, hitems, Option.filter_some_pos hbatch]
      rfl
    exact (sanitizeEntry_again hmoss hreduced).2.mp
      (hall _ (List.mem_filterMap.mpr ⟨entry, hentry, hreduced⟩)) hkey texts hitems hbatch
  · intro hall reduced hmem
    obtain ⟨entry, hentry, hreduced⟩ := List.mem_filterMap.mp hmem
    exact (sanitizeEntry_again hmoss hreduced).2.mpr (hall entry hentry)

end Advanced

end SceneWorks.WorkflowEnvelope
