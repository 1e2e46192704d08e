import SceneWorks.WorkflowEnvelope.Envelope
import SceneWorks.WorkflowEnvelope.Settles

/-!
What is written is what is read back. The wire form of a reduced envelope decodes to the
envelope, so a reader gives it back exactly when reducing it again changes nothing, and that
is decided by the batches of prompts alone.
-/

namespace SceneWorks.WorkflowEnvelope

open JsonObject (get record get_record slot)
open Reducer

section Codec

theorem asStruct_record (names : List String) (slots : List (String × Option Json)) :
    (Json.obj (record slots)).asStruct names = some (record slots) := rfl

theorem optional_u32 (n : Option UInt32) :
    Json.optional Json.asU32 (n.map .ofU32) = some n :=
  Json.optional_map fun n _ => ⟨nofun, Json.asU32_ofU32 n⟩

theorem optional_bool (b : Option Bool) : Json.optional Json.asBool (b.map .bool) = some b :=
  Json.optional_map fun _ _ => ⟨nofun, rfl⟩

theorem optional_i64 (n : Option Int64) :
    Json.optional Json.asInt64 (n.map .ofI64) = some n :=
  Json.optional_map fun n _ => ⟨nofun, Json.asInt64_ofI64 n⟩

theorem optional_f64 {x : Option F64} (h : x.filter F64.isFinite = x) :
    Json.optional Json.asF64 (x.map .ofF64) = some x := by
  refine Json.optional_map fun y hy => ?_
  have hfinite : y.isFinite = true := by
    rw [hy] at h
    exact (Option.filter_eq_some_iff.mp h).2
  refine ⟨?_, Json.asF64_ofF64 hfinite⟩
  rw [Json.ofF64, if_pos hfinite]
  exact fun h => by cases h

theorem optionalSha256_str {hash : Option String} (h : hash.bind normalizeSha256 = hash) :
    optionalSha256 (hash.map .str) = hash := by
  cases hash with
  | none => rfl
  | some digest => exact h

theorem orDefault_wireItems {α : Type} {decode : Json → Option α} {encode : α → Json}
    {items : List α} (h : ∀ a ∈ items, decode (encode a) = some a) :
    Json.orDefault (Json.items decode) [] (wireItems encode items) = some items := by
  cases hitems : items with
  | nil => rfl
  | cons a rest =>
      rw [hitems] at h
      exact Json.items_map h

theorem WorkflowProducer.ofValue_toValue (producer : WorkflowProducer) :
    ofValue producer.toValue = some producer := by
  have hget : ∀ key, get (record producer.slots) key = _ :=
    get_record (by decide : ["name", "url", "version"].Nodup)
  rw [ofValue]
  refine Option.bind_eq_some_iff.mpr ⟨_, asStruct_record _ _, ?_⟩
  refine Option.bind_eq_some_iff.mpr ⟨producer.name, by rw [hget]; rfl, ?_⟩
  refine Option.bind_eq_some_iff.mpr ⟨producer.url, by rw [hget]; rfl, ?_⟩
  exact Option.bind_eq_some_iff.mpr ⟨producer.version, by rw [hget]; rfl, rfl⟩

theorem WorkflowInput.ofValue_toValue (input : WorkflowInput) :
    ofValue input.toValue = some input := by
  have hget : ∀ key, get (record input.slots) key = _ :=
    get_record (by decide : ["kind", "count", "controlMode"].Nodup)
  have hcount : slot input.slots "count" = some (.ofU32 input.count) := rfl
  have hmode : slot input.slots "controlMode" = input.controlMode.map .str := rfl
  rw [ofValue]
  refine Option.bind_eq_some_iff.mpr ⟨_, asStruct_record _ _, ?_⟩
  refine Option.bind_eq_some_iff.mpr ⟨input.kind, by rw [hget]; rfl, ?_⟩
  refine Option.bind_eq_some_iff.mpr ⟨input.count, ?_, ?_⟩
  · rw [hget, hcount, Option.bind_some, Json.asU32_ofU32]
  refine Option.bind_eq_some_iff.mpr ⟨input.controlMode, ?_, rfl⟩
  rw [hget, hmode, optional_str]

/-- A LoRA whose weight and digest the wire form can carry. -/
def WorkflowLora.Portable (lora : WorkflowLora) : Prop :=
  lora.weight.filter F64.isFinite = lora.weight ∧ lora.hash.bind normalizeSha256 = lora.hash

theorem WorkflowLora.ofValue_toValue {lora : WorkflowLora} (h : lora.Portable) :
    ofValue lora.toValue = some lora := by
  have hget : ∀ key, get (record lora.slots) key = _ :=
    get_record (by decide : ["name", "weight", "repo", "hash"].Nodup)
  have hname : slot lora.slots "name" = lora.name.map .str := rfl
  have hweight : slot lora.slots "weight" = lora.weight.map .ofF64 := rfl
  have hrepo : slot lora.slots "repo" = lora.repo.map .str := rfl
  have hhash : slot lora.slots "hash" = lora.hash.map .str := rfl
  rw [ofValue]
  refine Option.bind_eq_some_iff.mpr ⟨_, asStruct_record _ _, ?_⟩
  refine Option.bind_eq_some_iff.mpr ⟨lora.name, by rw [hget, hname, optional_str], ?_⟩
  refine Option.bind_eq_some_iff.mpr ⟨lora.weight, by rw [hget, hweight, optional_f64 h.1], ?_⟩
  refine Option.bind_eq_some_iff.mpr ⟨lora.repo, by rw [hget, hrepo, optional_str], ?_⟩
  rw [hget, hhash, optionalSha256_str h.2]

def WorkflowUpscale.Portable (upscale : WorkflowUpscale) : Prop :=
  upscale.softness.filter F64.isFinite = upscale.softness ∧
    upscale.scale.filter F64.isFinite = upscale.scale

theorem WorkflowUpscale.ofValue_toValue {upscale : WorkflowUpscale} (h : upscale.Portable) :
    ofValue upscale.toValue = some upscale := by
  have hget : ∀ key, get (record upscale.slots) key = _ :=
    get_record (by decide : ["enabled", "factor", "engine", "softness", "scale", "inputSizing",
      "colorFix"].Nodup)
  have hfactor : slot upscale.slots "factor" = upscale.factor.map .ofU32 := rfl
  have hengine : slot upscale.slots "engine" = upscale.engine.map .str := rfl
  have hsoftness : slot upscale.slots "softness" = upscale.softness.map .ofF64 := rfl
  have hscale : slot upscale.slots "scale" = upscale.scale.map .ofF64 := rfl
  have hsizing : slot upscale.slots "inputSizing" = upscale.inputSizing.map .str := rfl
  have hfix : slot upscale.slots "colorFix" = upscale.colorFix.map .bool := rfl
  rw [ofValue]
  refine Option.bind_eq_some_iff.mpr ⟨_, asStruct_record _ _, ?_⟩
  refine Option.bind_eq_some_iff.mpr ⟨upscale.enabled, by rw [hget]; rfl, ?_⟩
  refine Option.bind_eq_some_iff.mpr ⟨upscale.factor, by rw [hget, hfactor, optional_u32], ?_⟩
  refine Option.bind_eq_some_iff.mpr ⟨upscale.engine, by rw [hget, hengine, optional_str], ?_⟩
  refine Option.bind_eq_some_iff.mpr
    ⟨upscale.softness, by rw [hget, hsoftness, optional_f64 h.1], ?_⟩
  refine Option.bind_eq_some_iff.mpr ⟨upscale.scale, by rw [hget, hscale, optional_f64 h.2], ?_⟩
  refine Option.bind_eq_some_iff.mpr
    ⟨upscale.inputSizing, by rw [hget, hsizing, optional_str], ?_⟩
  exact Option.bind_eq_some_iff.mpr ⟨upscale.colorFix, by rw [hget, hfix, optional_bool], rfl⟩

/-- An envelope whose floats are finite and whose digests are normal. -/
structure WorkflowShare.Portable (share : WorkflowShare) : Prop where
  modelHash : share.modelHash.bind normalizeSha256 = share.modelHash
  durationSeconds : share.durationSeconds.filter F64.isFinite = share.durationSeconds
  upscale : ∀ upscale, share.upscale = some upscale → upscale.Portable
  loras : ∀ lora ∈ share.loras, lora.Portable

theorem WorkflowShare.get_slots (share : WorkflowShare) (key : String) :
    get (record share.slots) key = slot share.slots key := by
  have hnames : (share.slots.map Prod.fst).Nodup :=
    (by decide : [workflowShareMarkerKey, "schemaVersion", "producer", "mode", "model", "modelHash",
      "prompt", "negativePrompt", "seed", "width", "height", "count", "durationSeconds", "fps",
      "quality", "stylePreset", "styleId", "fitMode", "upscale", "loras", "inputs", "advanced",
      "omitted"].Nodup)
  exact get_record hnames key

theorem orDefault_negativePrompt (text : String) :
    Json.orDefault Json.asStr "" (if text = "" then none else some (.str text)) = some text := by
  by_cases h : text = ""
  · rw [if_pos h, h]
    rfl
  · rw [if_neg h]
    rfl

theorem orDefault_advanced (advanced : JsonObject) :
    Json.orDefault Json.asObject [] (nonemptyObject advanced) = some advanced := by
  cases advanced with
  | nil => rfl
  | cons entry rest => rfl

/-- The wire form of a portable envelope decodes to it. -/
theorem WorkflowShare.ofFields_slots {share : WorkflowShare} (h : share.Portable) :
    ofFields (record share.slots) = some share := by
  have hget := share.get_slots
  have hversion : slot share.slots "schemaVersion" = some (.ofU32 share.schemaVersion) := rfl
  have hproducer : slot share.slots "producer" = some share.producer.toValue := rfl
  have hupscale : slot share.slots "upscale" = share.upscale.map WorkflowUpscale.toValue := rfl
  have hduration : slot share.slots "durationSeconds" = share.durationSeconds.map .ofF64 := rfl
  have hhash : slot share.slots "modelHash" = share.modelHash.map .str := rfl
  rw [ofFields]
  refine Option.bind_eq_some_iff.mpr ⟨share.kind, by rw [hget]; rfl, ?_⟩
  refine Option.bind_eq_some_iff.mpr ⟨share.schemaVersion, ?_, ?_⟩
  · rw [hget, hversion, Option.bind_some, Json.asU32_ofU32]
  refine Option.bind_eq_some_iff.mpr ⟨share.producer, ?_, ?_⟩
  · rw [hget, hproducer, Option.bind_some, WorkflowProducer.ofValue_toValue]
  refine Option.bind_eq_some_iff.mpr ⟨share.mode, by rw [hget]; rfl, ?_⟩
  refine Option.bind_eq_some_iff.mpr ⟨share.model, by rw [hget]; rfl, ?_⟩
  refine Option.bind_eq_some_iff.mpr ⟨share.prompt, by rw [hget]; rfl, ?_⟩
  refine Option.bind_eq_some_iff.mpr ⟨share.negativePrompt, ?_, ?_⟩
  · rw [hget]
    exact orDefault_negativePrompt _
  refine Option.bind_eq_some_iff.mpr ⟨share.seed, by rw [hget]; exact optional_i64 _, ?_⟩
  refine Option.bind_eq_some_iff.mpr ⟨share.width, by rw [hget]; exact optional_u32 _, ?_⟩
  refine Option.bind_eq_some_iff.mpr ⟨share.height, by rw [hget]; exact optional_u32 _, ?_⟩
  refine Option.bind_eq_some_iff.mpr ⟨share.count, by rw [hget]; exact optional_u32 _, ?_⟩
  refine Option.bind_eq_some_iff.mpr ⟨share.durationSeconds, ?_, ?_⟩
  · rw [hget, hduration, optional_f64 h.durationSeconds]
  refine Option.bind_eq_some_iff.mpr ⟨share.fps, by rw [hget]; exact optional_u32 _, ?_⟩
  refine Option.bind_eq_some_iff.mpr ⟨share.quality, by rw [hget]; exact optional_str _, ?_⟩
  refine Option.bind_eq_some_iff.mpr ⟨share.stylePreset, by rw [hget]; exact optional_str _, ?_⟩
  refine Option.bind_eq_some_iff.mpr ⟨share.styleId, by rw [hget]; exact optional_str _, ?_⟩
  refine Option.bind_eq_some_iff.mpr ⟨share.fitMode, by rw [hget]; exact optional_str _, ?_⟩
  refine Option.bind_eq_some_iff.mpr ⟨share.upscale, ?_, ?_⟩
  · rw [hget, hupscale]
    exact Json.optional_map fun upscale hsome =>
      ⟨nofun, WorkflowUpscale.ofValue_toValue (h.upscale upscale hsome)⟩
  refine Option.bind_eq_some_iff.mpr ⟨share.loras, ?_, ?_⟩
  · rw [hget]
    exact orDefault_wireItems fun lora hlora => WorkflowLora.ofValue_toValue (h.loras lora hlora)
  refine Option.bind_eq_some_iff.mpr ⟨share.inputs, ?_, ?_⟩
  · rw [hget]
    exact orDefault_wireItems fun input _ => WorkflowInput.ofValue_toValue input
  refine Option.bind_eq_some_iff.mpr ⟨share.advanced, ?_, ?_⟩
  · rw [hget]
    exact orDefault_advanced _
  refine Option.bind_eq_some_iff.mpr ⟨share.omitted, ?_, ?_⟩
  · rw [hget]
    exact orDefault_wireItems fun _ _ => rfl
  rw [hget, hhash, optionalSha256_str h.modelHash]

end Codec

section Again

/-- A reducer that settles and drops the empty text, with the empty text for what it drops. -/
theorem getD_again {f : String → Option String} (h : Settles f) (hempty : f "" = none)
    (text : String) : (f ((f text).getD "")).getD "" = (f text).getD "" := by
  cases htext : f text with
  | none =>
      rw [Option.getD_none, hempty]
      rfl
  | some label =>
      rw [Option.getD_some, h text label htext]
      rfl

theorem shareableLabel_empty : shareableLabel "" = none := by decide

theorem settles_label_filter (p : String → Bool) :
    Settles fun text => (shareableLabel text).filter p := by
  intro text label h
  obtain ⟨hlabel, hp⟩ := Option.filter_eq_some_iff.mp h
  exact (congrArg (Option.filter p) (shareableLabel_settles text label hlabel)).trans
    (Option.filter_some_pos hp)

theorem reduceProducer_again (producer : WorkflowProducer) :
    reduceProducer (reduceProducer producer) = reduceProducer producer := by
  have hname := getD_again shareableLabel_settles shareableLabel_empty producer.name
  have hurl := getD_again (settles_label_filter isWebUrl)
    (by rw [shareableLabel_empty]; rfl) producer.url
  have hversion := getD_again (settles_label_filter isStrictSemver)
    (by rw [shareableLabel_empty]; rfl) producer.version
  simp only [reduceProducer, hname, hurl, hversion]

theorem reduceLora_settles : Settles reduceLora := by
  intro lora reduced h
  simp only [reduceLora] at h
  split at h
  case isFalse => cases h
  case isTrue hsome =>
    obtain rfl := Option.some.inj h
    simp only [reduceLora, shareableLabel_settles.bind_bind, hfRepoId_settles.bind_bind,
      normalizeSha256_settles.bind_bind, filter_filter]
    exact if_pos hsome

theorem reduceLora_portable {lora reduced : WorkflowLora} (h : reduceLora lora = some reduced) :
    reduced.Portable := by
  simp only [reduceLora] at h
  split at h
  · obtain rfl := Option.some.inj h
    exact ⟨filter_filter _ _, normalizeSha256_settles.bind_bind _⟩
  · cases h

theorem reduceInput_settles : Settles reduceInput := by
  intro input reduced h
  rw [reduceInput] at h
  split at h
  case isFalse => cases h
  case isTrue hkind =>
    obtain rfl := Option.some.inj h
    rw [reduceInput, if_pos hkind, shareableLabel_settles.bind_bind]

theorem reduceUpscale_again (upscale : WorkflowUpscale) :
    reduceUpscale (reduceUpscale upscale) = reduceUpscale upscale := by
  simp only [reduceUpscale, shareableLabel_settles.bind_bind, filter_filter]

theorem reduceUpscale_portable (upscale : WorkflowUpscale) : (reduceUpscale upscale).Portable := by
  refine ⟨filter_filter _ _, ?_⟩
  cases hscale : upscale.scale.filter isPositive with
  | none => rw [reduceUpscale, hscale]; rfl
  | some scale =>
      have hpositive : isPositive scale = true := (Option.filter_eq_some_iff.mp hscale).2
      have hfinite : scale.isFinite = true := by
        simp only [isPositive, Bool.and_eq_true] at hpositive
        exact hpositive.1
      rw [reduceUpscale, hscale]
      exact Option.filter_some_pos hfinite

theorem reduceCapped_again {α : Type} {max : Nat} {reduce : α → Option α} (h : Settles reduce)
    (items : List α) :
    reduceCapped max reduce (reduceCapped max reduce items) = reduceCapped max reduce items := by
  by_cases hcap : overCap items.length max = true
  · have hnone : reduceCapped max reduce items = [] := if_pos hcap
    rw [hnone, reduceCapped]
    exact ite_self _
  · have hsome : reduceCapped max reduce items = items.filterMap reduce := if_neg hcap
    have hcap' : ¬ overCap (items.filterMap reduce).length max = true := by
      have hle := List.length_filterMap_le reduce items
      simp only [overCap, decide_eq_true_eq] at hcap ⊢
      omega
    rw [hsome, reduceCapped, if_neg hcap', h.filterMap_filterMap]

theorem mem_reduceCapped {α : Type} {max : Nat} {reduce : α → Option α} {items : List α} {a : α}
    (h : a ∈ reduceCapped max reduce items) : ∃ item, reduce item = some a := by
  rw [reduceCapped] at h
  split at h
  · cases h
  · obtain ⟨item, -, hitem⟩ := List.mem_filterMap.mp h
    exact ⟨item, hitem⟩

theorem mem_reduceOmitted {names : List String} {name : String} :
    name ∈ reduceOmitted names ↔ name ∈ omittedFields ∧ name ∈ names := by
  rw [reduceOmitted, List.mem_filter, List.contains_iff_mem]

theorem reduceOmitted_again (names : List String) :
    reduceOmitted (reduceOmitted names) = reduceOmitted names := by
  refine List.filter_congr fun name hname => ?_
  rw [Bool.eq_iff_iff, List.contains_iff_mem, List.contains_iff_mem, mem_reduceOmitted]
  exact and_iff_right hname

/-- Nothing goes missing between a map and itself. -/
theorem advancedOmissions_self (advanced : JsonObject) :
    advancedOmissions advanced advanced = [] := by
  have hdeclared : ∀ key,
      (declares advanced key && !(JsonObject.containsKey advanced key)) = false := by
    intro key
    cases hkey : get advanced key with
    | none => simp [declares, hkey]
    | some value => simp [JsonObject.containsKey, hkey]
  simp [advancedOmissions, hdeclared]

variable {moss : MossCore} {serde : Serde}

theorem reduceWorkflowShare_portable (share : WorkflowShare) :
    (reduceWorkflowShare moss serde share).Portable where
  modelHash := normalizeSha256_settles.bind_bind _
  durationSeconds := filter_filter _ _
  upscale := by
    intro upscale h
    obtain ⟨raw, -, rfl⟩ := Option.map_eq_some_iff.mp h
    exact reduceUpscale_portable raw
  loras := by
    intro lora h
    obtain ⟨raw, hraw⟩ := mem_reduceCapped h
    exact reduceLora_portable hraw

/-- Reducing an envelope again changes nothing exactly when every batch of prompts survives. -/
theorem reduceWorkflowShare_again_iff (hmoss : moss.Settled) (share : WorkflowShare) :
    reduceWorkflowShare moss serde (reduceWorkflowShare moss serde share) =
        reduceWorkflowShare moss serde share ↔ BatchesSurvive share.advanced := by
  have hiff : sanitizeAdvanced moss serde.decodeError
      (sanitizeAdvanced moss serde.decodeError share.advanced) =
        sanitizeAdvanced moss serde.decodeError share.advanced ↔ BatchesSurvive share.advanced :=
    sanitizeAdvanced_again_iff hmoss _
  constructor
  · intro h
    exact hiff.mp (congrArg WorkflowShare.advanced h)
  · intro h
    have hadvanced := hiff.mpr h
    have hupscale : (share.upscale.map reduceUpscale).map reduceUpscale =
        share.upscale.map reduceUpscale := by
      rw [Option.map_map]
      exact congrArg (fun f => share.upscale.map f) (funext reduceUpscale_again)
    simp only [reduceWorkflowShare, hadvanced, hupscale, reduceProducer_again,
      getD_again shareableLabel_settles shareableLabel_empty, normalizeSha256_settles.bind_bind,
      shareableProse_shareableProse, filter_filter, shareableLabel_settles.bind_bind,
      reduceCapped_again reduceLora_settles, reduceCapped_again reduceInput_settles,
      reduceOmitted_again, advancedOmissions_self, lt_irrefl, if_false, List.append_nil]

end Again

section Read

variable {moss : MossCore} {serde : Serde}

/-- The generation settings of an envelope on disk. -/
def advancedOf (object : JsonObject) : JsonObject :=
    ((get object "advanced").bind Json.asObject).getD []

theorem orDefault_object {value : Option Json} {object : JsonObject}
    (h : Json.orDefault Json.asObject [] value = some object) :
    object = (value.bind Json.asObject).getD [] := by
  cases value with
  | none => exact (Option.some.inj h).symm
  | some present =>
      have hobject : present.asObject = some object := h
      rw [Option.bind_some, hobject, Option.getD_some]

theorem WorkflowShare.ofFields_some {object : JsonObject} {share : WorkflowShare}
    (h : ofFields object = some share) :
    get object workflowShareMarkerKey = some (.str share.kind) ∧
      (get object "schemaVersion").bind Json.asU32 = some share.schemaVersion ∧
      share.advanced = advancedOf object := by
  obtain ⟨kind, hkind, h⟩ := Option.bind_eq_some_iff.mp h
  obtain ⟨schemaVersion, hversion, h⟩ := Option.bind_eq_some_iff.mp h
  obtain ⟨producer, -, h⟩ := Option.bind_eq_some_iff.mp h
  obtain ⟨mode, -, h⟩ := Option.bind_eq_some_iff.mp h
  obtain ⟨model, -, h⟩ := Option.bind_eq_some_iff.mp h
  obtain ⟨prompt, -, h⟩ := Option.bind_eq_some_iff.mp h
  obtain ⟨negativePrompt, -, h⟩ := Option.bind_eq_some_iff.mp h
  obtain ⟨seed, -, h⟩ := Option.bind_eq_some_iff.mp h
  obtain ⟨width, -, h⟩ := Option.bind_eq_some_iff.mp h
  obtain ⟨height, -, h⟩ := Option.bind_eq_some_iff.mp h
  obtain ⟨count, -, h⟩ := Option.bind_eq_some_iff.mp h
  obtain ⟨durationSeconds, -, h⟩ := Option.bind_eq_some_iff.mp h
  obtain ⟨fps, -, h⟩ := Option.bind_eq_some_iff.mp h
  obtain ⟨quality, -, h⟩ := Option.bind_eq_some_iff.mp h
  obtain ⟨stylePreset, -, h⟩ := Option.bind_eq_some_iff.mp h
  obtain ⟨styleId, -, h⟩ := Option.bind_eq_some_iff.mp h
  obtain ⟨fitMode, -, h⟩ := Option.bind_eq_some_iff.mp h
  obtain ⟨upscale, -, h⟩ := Option.bind_eq_some_iff.mp h
  obtain ⟨loras, -, h⟩ := Option.bind_eq_some_iff.mp h
  obtain ⟨inputs, -, h⟩ := Option.bind_eq_some_iff.mp h
  obtain ⟨advanced, hadvanced, h⟩ := Option.bind_eq_some_iff.mp h
  obtain ⟨omitted, -, h⟩ := Option.bind_eq_some_iff.mp h
  have hshare := Option.some.inj h
  obtain ⟨marker, hmarker, htext⟩ := Option.bind_eq_some_iff.mp hkind
  refine ⟨?_, ?_, ?_⟩
  · rw [hmarker, ← congrArg WorkflowShare.kind hshare, Json.asStr_eq_some.mp htext]
  · rw [hversion, ← congrArg WorkflowShare.schemaVersion hshare]
  · rw [← congrArg WorkflowShare.advanced hshare]
    exact orDefault_object hadvanced

theorem readSchemaVersion_of {object : JsonObject} {version : UInt32}
    (h : (get object "schemaVersion").bind Json.asU32 = some version) :
    readSchemaVersion object = .ok version := by
  obtain ⟨present, hpresent, hu32⟩ := Option.bind_eq_some_iff.mp h
  have hnull : present ≠ .null := by
    intro hnull
    rw [hnull] at hu32
    cases hu32
  simp only [readSchemaVersion, hpresent, hu32]

/-- Reading a decoded envelope succeeds when its version is known and the record is small enough. -/
theorem parseWorkflowShare_of {object : JsonObject} {share : WorkflowShare}
    (hfields : WorkflowShare.ofFields object = some share) (hkind : share.kind ∈ workflowKinds)
    (hversion : share.schemaVersion ≤ workflowShareSchemaVersion)
    (hceiling : withinRecordingCeiling serde (reduceWorkflowShare moss serde share) = .ok ()) :
    parseWorkflowShare moss serde (.obj object) = .ok (reduceWorkflowShare moss serde share) := by
  obtain ⟨hmarker, hschema, -⟩ := WorkflowShare.ofFields_some hfields
  have hread : readKind object = .ok () := by
    rw [readKind, hmarker]
    exact if_pos (List.contains_iff_mem.mpr hkind)
  have hfound := readSchemaVersion_of hschema
  refine Fallible.bind_eq_ok.mpr ⟨(), hread, Fallible.bind_eq_ok.mpr ⟨_, hfound, ?_⟩⟩
  rw [if_neg (UInt32.not_lt.mpr hversion), hfields]
  exact Fallible.bind_eq_ok.mpr ⟨(), hceiling, rfl⟩

/-- What a read that succeeds has found. -/
theorem parseWorkflowShare_eq_ok {value : Json} {found : WorkflowShare}
    (h : parseWorkflowShare moss serde value = .ok found) :
    ∃ object share, value = .obj object ∧ WorkflowShare.ofFields object = some share ∧
      share.kind ∈ workflowKinds ∧ share.schemaVersion ≤ workflowShareSchemaVersion ∧
      withinRecordingCeiling serde (reduceWorkflowShare moss serde share) = .ok () ∧
      found = reduceWorkflowShare moss serde share := by
  cases value with
  | null | bool | int | float | str | arr => cases h
  | obj object =>
      obtain ⟨_, hkind, h⟩ := Fallible.bind_eq_ok.mp h
      obtain ⟨version, hversion, h⟩ := Fallible.bind_eq_ok.mp h
      split at h
      case isTrue => cases h
      case isFalse hsupported =>
        split at h
        case h_1 => cases h
        case h_2 share hshare =>
          obtain ⟨_, hceiling, h⟩ := Fallible.bind_eq_ok.mp h
          obtain ⟨hmarker, hschema, -⟩ := WorkflowShare.ofFields_some hshare
          refine ⟨object, share, rfl, hshare, ?_, ?_, hceiling, (Except.ok.inj h).symm⟩
          · simp only [readKind, hmarker] at hkind
            split at hkind
            · exact List.contains_iff_mem.mp ‹_›
            · cases hkind
          · obtain rfl := Except.ok.inj (hversion.symm.trans (readSchemaVersion_of hschema))
            exact UInt32.not_lt.mp hsupported

/-- An envelope that a writer or a reader has reduced. -/
structure IsReduced (moss : MossCore) (serde : Serde) (raw share : WorkflowShare) : Prop where
  reduced : share = reduceWorkflowShare moss serde raw
  kind : raw.kind ∈ workflowKinds
  version : raw.schemaVersion ≤ workflowShareSchemaVersion
  ceiling : withinRecordingCeiling serde share = .ok ()

/-- Such an envelope reads back from its wire form exactly when its batches survive. -/
theorem IsReduced.parse_toValue_iff (hmoss : moss.Settled) {raw share : WorkflowShare}
    (h : IsReduced moss serde raw share) :
    parseWorkflowShare moss serde share.toValue = .ok share ↔ BatchesSurvive raw.advanced := by
  have hfields : WorkflowShare.ofFields (record share.slots) = some share := by
    rw [h.reduced]
    exact WorkflowShare.ofFields_slots (reduceWorkflowShare_portable raw)
  have hagain : reduceWorkflowShare moss serde share = share ↔ BatchesSurvive raw.advanced := by
    rw [h.reduced]
    exact reduceWorkflowShare_again_iff hmoss raw
  rw [← hagain]
  constructor
  · intro hparse
    obtain ⟨object, found, hobject, hfound, -, -, -, hshare⟩ := parseWorkflowShare_eq_ok hparse
    obtain rfl := Json.obj.inj hobject
    obtain rfl := Option.some.inj (hfields.symm.trans hfound)
    exact hshare.symm
  · intro hsame
    have hceiling :
        withinRecordingCeiling serde (reduceWorkflowShare moss serde share) = .ok () := by
      rw [hsame]
      exact h.ceiling
    have hkind : share.kind ∈ workflowKinds := by
      rw [h.reduced]
      exact h.kind
    have hversion : share.schemaVersion ≤ workflowShareSchemaVersion := by
      rw [h.reduced]
      exact h.version
    have hparse := parseWorkflowShare_of hfields hkind hversion hceiling
    rw [hsame] at hparse
    exact hparse

theorem embeddableOfKind_isReduced {kind : String} (hkind : kind ∈ workflowKinds)
    {facts : WorkflowAssetFacts} {payload : JsonObject} {share : WorkflowShare}
    (h : embeddableOfKind moss serde kind facts payload = some share) :
    IsReduced moss serde (rawShareOfKind moss kind facts payload) share := by
  have hversion :
      (rawShareOfKind moss kind facts payload).schemaVersion = workflowShareSchemaVersion :=
    rfl
  rw [embeddableOfKind] at h
  obtain ⟨_, hceiling, rfl⟩ := Option.map_eq_some_iff.mp h
  exact ⟨rfl, hkind, UInt32.le_of_eq hversion, Fallible.toOption_eq_some.mp hceiling⟩

theorem parseWorkflowShare_isReduced {value : Json} {share : WorkflowShare}
    (h : parseWorkflowShare moss serde value = .ok share) :
    ∃ object raw, value = .obj object ∧ raw.advanced = advancedOf object ∧
      IsReduced moss serde raw share := by
  obtain ⟨object, raw, hvalue, hraw, hkind, hversion, hceiling, hshare⟩ :=
    parseWorkflowShare_eq_ok h
  refine ⟨object, raw, hvalue, (WorkflowShare.ofFields_some hraw).2.2, hshare, hkind, hversion, ?_⟩
  rw [hshare]
  exact hceiling

/-- What a file carries is what its reader gets back, exactly when no batch of prompts has a text
that is stripped to nothing. -/
theorem parse_toValue_iff_batchesSurvive (moss : MossCore) (serde : Serde) (hmoss : moss.Settled) :
    (∀ facts payload share, embeddableWorkflowShare moss serde facts payload = some share →
      (parseWorkflowShare moss serde share.toValue = .ok share ↔
      BatchesSurvive (advancedOf payload))) ∧
    (∀ facts payload share, embeddableVideoWorkflowShare moss serde facts payload = some share →
      (parseWorkflowShare moss serde share.toValue = .ok share ↔
      BatchesSurvive (advancedOf payload))) ∧
    (∀ object share, parseWorkflowShare moss serde (.obj object) = .ok share →
      (parseWorkflowShare moss serde share.toValue = .ok share ↔
      BatchesSurvive (advancedOf object))) ∧
    (∀ share, reduceWorkflowShare moss serde (reduceWorkflowShare moss serde share) =
      reduceWorkflowShare moss serde share ↔ BatchesSurvive share.advanced) := by
  refine ⟨?_, ?_, ?_, reduceWorkflowShare_again_iff hmoss⟩
  · intro facts payload share h
    exact (embeddableOfKind_isReduced (by decide) h).parse_toValue_iff hmoss
  · intro facts payload share h
    exact (embeddableOfKind_isReduced (by decide) h).parse_toValue_iff hmoss
  · intro object share h
    obtain ⟨found, raw, hfound, hadvanced, hreduced⟩ := parseWorkflowShare_isReduced h
    obtain rfl := Json.obj.inj hfound
    rw [← hadvanced]
    exact hreduced.parse_toValue_iff hmoss

/-- A core that knows its output kinds, and none of the documents that the envelopes below lack. -/
def idleMoss : MossCore where
  options := fun _ => none
  executionReport := fun _ => none
  editExecutionReport := fun _ => none
  outputKind :=
    fun value => if value = .str "images" ∨ value = .str "latents" then some value else none
  defaultOutputKind := .str "images"
  isProviderId := fun _ => false

theorem idleMoss_settled : idleMoss.Settled where
  options := nofun
  executionReport := nofun
  editExecutionReport := nofun
  outputKind := by
    intro value kind h
    simp only [idleMoss] at h ⊢
    split at h
    case isFalse => cases h
    case isTrue hkind =>
      obtain rfl := Option.some.inj h
      exact if_pos hkind
  defaultOutputKind := by
    simp only [idleMoss]
    exact if_pos (Or.inl trivial)

def plainSerde : Serde where
  decodeError := fun _ => "invalid value"
  floatBytes := fun _ => 24

def portraitFacts : WorkflowAssetFacts where
  mode := "text_to_image"
  model := "z_image_turbo"
  prompt := "a fox"
  negativePrompt := ""
  seed := 7
  width := some 1024
  height := some 768

def batchPayload (text : String) : JsonObject :=
  [("advanced", .obj [("promptBatch", .arr [.str text])])]

theorem batchPayload_survives_iff (text : String) (h : isPromptBatch [text] = true) :
    BatchesSurvive (advancedOf (batchPayload text)) ↔ TextSurvives text := by
  constructor
  · intro hsurvive
    have hkey : "promptBatch" ∈ batchKeys := by decide
    have hbatch : BatchSurvives (.arr [.str text]) :=
      hsurvive ("promptBatch", _) (List.mem_singleton.mpr rfl) hkey
    exact hbatch [text] rfl h text (List.mem_singleton.mpr rfl)
  · intro htext entry hentry _ texts htexts _ found hfound
    obtain rfl : entry = ("promptBatch", .arr [.str text]) := List.mem_singleton.mp hentry
    obtain rfl : [text] = texts := Option.some.inj htexts
    obtain rfl := List.mem_singleton.mp hfound
    exact htext

theorem parse_toValue_of_fox :
    ∃ share, embeddableWorkflowShare idleMoss plainSerde portraitFacts (batchPayload "a red fox") =
        some share ∧ parseWorkflowShare idleMoss plainSerde share.toValue = .ok share := by
  have hsome : (embeddableWorkflowShare idleMoss plainSerde portraitFacts
      (batchPayload "a red fox")).isSome = true := by
    decide +kernel
  obtain ⟨share, hshare⟩ := Option.isSome_iff_exists.mp hsome
  have htext : TextSurvives "a red fox" := ⟨'a', by decide, by decide, by decide⟩
  have hiff := (parse_toValue_iff_batchesSurvive idleMoss plainSerde idleMoss_settled).1
    portraitFacts (batchPayload "a red fox") share hshare
  exact ⟨share, hshare, hiff.mpr ((batchPayload_survives_iff _ (by decide)).mpr htext)⟩

/-- A batch of one blank prompt is accepted, is stripped to the empty text, and is then refused. -/
theorem blank_batch_not_read_back :
    ¬ ∀ (moss : MossCore) (serde : Serde), moss.Settled →
      ∀ facts payload share, embeddableWorkflowShare moss serde facts payload = some share →
        parseWorkflowShare moss serde share.toValue = .ok share := by
  intro h
  have hsome : (embeddableWorkflowShare idleMoss plainSerde portraitFacts
      (batchPayload " ")).isSome = true := by
    decide +kernel
  obtain ⟨share, hshare⟩ := Option.isSome_iff_exists.mp hsome
  have hread := h idleMoss plainSerde idleMoss_settled portraitFacts _ share hshare
  have hsurvive := ((embeddableOfKind_isReduced (by decide) hshare).parse_toValue_iff
    idleMoss_settled).mp hread
  obtain ⟨c, hc, -, hblank⟩ := (batchPayload_survives_iff " " (by decide)).mp hsurvive
  obtain rfl : c = ' ' := List.mem_singleton.mp hc
  exact absurd hblank (by decide)

end Read

end SceneWorks.WorkflowEnvelope
