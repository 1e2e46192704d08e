import Mathlib.Data.List.Count
import Mathlib.Logic.Relation
import SceneWorks.WorkflowEnvelope.RoundTrip

/-!
The phases of a recipe refer to its adapters by position. The positions are those of the
payload, where an adapter that says nothing shareable is left out before anything is counted.
-/

namespace SceneWorks.WorkflowEnvelope

open JsonObject

section Positions

variable {α β : Type}

/-- The members of a list that a filter leaves out. -/
def missing (f : α → Option β) (items : List α) : Nat := items.countP fun a => (f a).isNone

theorem length_filterMap_add_missing (f : α → Option β) (items : List α) :
    (items.filterMap f).length + missing f items = items.length := by
  induction items with
  | nil => rfl
  | cons a items ih =>
      unfold missing at ih ⊢
      cases h : f a with
      | none =>
          rw [List.filterMap_cons_none h, List.countP_cons_of_pos (by rw [h]; rfl),
            List.length_cons]
          omega
      | some b =>
          rw [List.filterMap_cons_some h,
            List.countP_cons_of_neg (by rw [h]; exact Bool.false_ne_true),
            List.length_cons, List.length_cons]
          omega

/-- A member keeps its position when nothing before it is left out, or when the one that takes
its position repeats it. -/
theorem getElem?_filterMap_iff {f : α → Option β} {items : List α} {i : Nat} {a : α} {b : β}
    (ha : items[i]? = some a) (hb : f a = some b) :
    (items.filterMap f)[i]? = some b ↔
      missing f (items.take i) = 0 ∨
        ((items.drop (i + 1)).filterMap f)[missing f (items.take i) - 1]? = some b := by
  obtain ⟨hlt, rfl⟩ := List.getElem?_eq_some_iff.mp ha
  have hsplit : items.filterMap f =
      (items.take i).filterMap f ++ b :: (items.drop (i + 1)).filterMap f := by
    rw [← List.filterMap_cons_some hb, ← List.filterMap_append, ← List.drop_eq_getElem_cons hlt,
      List.take_append_drop]
  have hfront := length_filterMap_add_missing f (items.take i)
  rw [List.length_take_of_le hlt.le] at hfront
  rw [hsplit, List.getElem?_append_right (by omega)]
  have hindex : i - ((items.take i).filterMap f).length = missing f (items.take i) := by omega
  rw [hindex]
  cases missing f (items.take i) with
  | zero => simp
  | succ k => simp

end Positions

section Shared

def buildWorkflowShareFrom (moss : MossCore) (serde : Serde) (facts : WorkflowAssetFacts)
    (payload : JsonObject) : WorkflowShare :=
  buildShareOfKind moss serde workflowKindImage facts payload

def payloadLoras (payload : JsonObject) : List Json :=
  ((get payload "loras").bind Json.asArray).getD []

def payloadAdvanced (payload : JsonObject) : JsonObject :=
  ((get payload "advanced").bind Json.asObject).getD []

def payloadLora (entry : Json) : Option WorkflowLora :=
  entry.asObject.bind fun entry =>
    reduceLora
      { name := (get entry "name").bind Json.asStr
        weight := (get entry "weight").bind Json.asF64
        repo := loraRepo entry
        hash := none }

theorem sanitizeLoras_eq (payload : JsonObject) :
    sanitizeLoras (get payload "loras") = (payloadLoras payload).filterMap payloadLora := by
  rw [sanitizeLoras, List.filterMap_filterMap]
  rfl

def phasesOf (advanced : JsonObject) : List Json :=
  ((get advanced "phases").bind Json.asArray).getD []

def scheduledLoras (phase : Json) : List Json := ((phase.get "loras").bind Json.asArray).getD []

/-- The adapters that the phases refer to, by their index. -/
def phaseReferences (advanced : JsonObject) : List Json :=
  (phasesOf advanced).flatMap fun phase => (scheduledLoras phase).filterMap fun lora =>
  lora.get "index"

def recordedPhases (advanced : JsonObject) : List Json :=
  if overCap (phasesOf advanced).length maxSharePhases then [] else phasesOf advanced

def recordedIndices (phase : Json) : List Json :=
  if overCap (scheduledLoras phase).length maxShareLoras then []
  else (scheduledLoras phase).filterMap fun lora => (lora.get "index").filter Json.isNumber

def recordedReferences (advanced : JsonObject) : List Json :=
  (recordedPhases advanced).flatMap recordedIndices

/-- A recorded phase had a schedule and keeps nothing of it. -/
def LosesSchedule (advanced : JsonObject) : Prop :=
  ∃ phase ∈ recordedPhases advanced, hasLoras phase = true ∧ recordedIndices phase = []

end Shared

section Sanitized

variable {moss : MossCore} {decodeError : Json → String} {advanced : JsonObject}

theorem get_eq_none {fields : JsonObject} {key : String} (h : key ∉ fields.map Prod.fst) :
    get fields key = none := by
  induction fields with
  | nil => rfl
  | cons field rest ih =>
      obtain ⟨k, v⟩ := field
      rw [List.map_cons, List.mem_cons, not_or] at h
      rw [JsonObject.get, if_neg (Ne.symm h.1), ih h.2]

theorem get_sanitizeAdvanced {key : String} {shape : AdvancedShape}
    (hshape : advancedKeyRule key = some shape) (h : (advanced.map Prod.fst).Nodup) :
    get (sanitizeAdvanced moss decodeError advanced) key =
      (get advanced key).bind (sanitizeShape moss decodeError key shape) := by
  induction advanced with
  | nil => rfl
  | cons entry rest ih =>
      obtain ⟨k, v⟩ := entry
      rw [List.map_cons, List.nodup_cons] at h
      have hrest := ih h.2
      rw [sanitizeAdvanced] at hrest ⊢
      by_cases hk : k = key
      · subst hk
        rw [JsonObject.get, if_pos rfl, Option.bind_some]
        have hentry : sanitizeEntry moss decodeError (k, v) = _ := sanitizeEntry_of hshape v
        cases hvalue : sanitizeShape moss decodeError k shape v with
        | none =>
            rw [hvalue] at hentry
            rw [List.filterMap_cons_none hentry, hrest, get_eq_none h.1]
            rfl
        | some value =>
            rw [hvalue] at hentry
            rw [List.filterMap_cons_some hentry, JsonObject.get, if_pos rfl]
      · rw [JsonObject.get, if_neg hk, ← hrest]
        cases hentry : sanitizeEntry moss decodeError (k, v) with
        | none => rw [List.filterMap_cons_none hentry]
        | some reduced =>
            obtain ⟨-, value, -, -, rfl⟩ := sanitizeEntry_some hentry
            rw [List.filterMap_cons_some hentry, JsonObject.get, if_neg hk]

theorem nodup_sanitizeAdvanced (h : (advanced.map Prod.fst).Nodup) :
    ((sanitizeAdvanced moss decodeError advanced).map Prod.fst).Nodup := by
  induction advanced with
  | nil => exact List.nodup_nil
  | cons entry rest ih =>
      rw [List.map_cons, List.nodup_cons] at h
      rw [sanitizeAdvanced]
      cases hentry : sanitizeEntry moss decodeError entry with
      | none =>
          rw [List.filterMap_cons_none hentry]
          exact ih h.2
      | some reduced =>
          obtain ⟨-, value, -, -, rfl⟩ := sanitizeEntry_some hentry
          rw [List.filterMap_cons_some hentry, List.map_cons, List.nodup_cons]
          refine ⟨fun hmem => ?_, ih h.2⟩
          obtain ⟨other, hother, hkey⟩ := List.mem_map.mp hmem
          obtain ⟨source, hsource, hreduced⟩ := List.mem_filterMap.mp hother
          obtain ⟨-, found, -, -, hfound⟩ := sanitizeEntry_some hreduced
          rw [hfound] at hkey
          exact h.1 (List.mem_map.mpr ⟨source, hsource, hkey⟩)

theorem get_phases (h : (advanced.map Prod.fst).Nodup) :
    get (sanitizeAdvanced moss decodeError advanced) "phases" =
      (get advanced "phases").bind sanitizePhases :=
  get_sanitizeAdvanced (by decide : advancedKeyRule "phases" = some .phases) h

theorem items_nonemptyArray (items : List Json) :
    ((nonemptyArray items).bind Json.asArray).getD [] = items := by
  cases items <;> rfl

theorem phasesOf_sanitizeAdvanced (h : (advanced.map Prod.fst).Nodup) :
    phasesOf (sanitizeAdvanced moss decodeError advanced) =
      (recordedPhases advanced).filterMap sanitizePhase := by
  rw [phasesOf, get_phases h, recordedPhases, phasesOf]
  cases get advanced "phases" with
  | none => rfl
  | some value =>
      rw [Option.bind_some, Option.bind_some, sanitizePhases]
      cases value.asArray with
      | none => rfl
      | some phases =>
          simp only [Option.bind_eq_bind, Option.bind_some, Option.getD_some]
          split
          · rfl
          · exact items_nonemptyArray _

theorem get_index_sanitizePhaseLora (lora : Json) :
    (sanitizePhaseLora lora).bind (fun reduced => reduced.get "index") =
      (lora.get "index").filter Json.isNumber := by
  cases hlora : lora.asObject with
  | none => simp [sanitizePhaseLora, Json.get, hlora]
  | some fields =>
      have hget :
          get (select ["index", "weight"] fun field => (get fields field).filter Json.isNumber)
          "index" = (get fields "index").filter Json.isNumber :=
            get_select (by decide) _ (by decide)
      have hindex : (lora.get "index").filter Json.isNumber =
          (get fields "index").filter Json.isNumber := by
        rw [Json.get, hlora, Option.bind_some]
      rw [hindex, ← hget]
      simp only [sanitizePhaseLora, hlora, Option.bind_eq_bind, Option.bind_some]
      split
      · rfl
      · next hnone =>
          rw [JsonObject.containsKey, Bool.not_eq_true, Option.isSome_eq_false_iff,
            Option.isNone_iff_eq_none] at hnone
          rw [hnone]
          rfl

theorem indices_sanitizePhase (phase : Json) :
    ((sanitizePhase phase).map fun reduced =>
        (scheduledLoras reduced).filterMap fun lora => lora.get "index").getD [] =
      recordedIndices phase := by
  cases hphase : phase.asObject with
  | none =>
      simp [sanitizePhase, recordedIndices, scheduledLoras, Json.get, hphase]
  | some fields =>
      have hrecord : ∀ key, get (record [("steps", (get fields "steps").filter Json.isNumber),
          ("guidance", (get fields "guidance").filter Json.isNumber),
          ("loras", sanitizePhaseLoras fields)]) key = _ :=
        get_record (by decide : ["steps", "guidance", "loras"].Nodup)
      have hloras : scheduledLoras phase = ((get fields "loras").bind Json.asArray).getD [] := by
        rw [scheduledLoras, Json.get, hphase]
        rfl
      simp only [sanitizePhase, hphase, Option.bind_eq_bind, Option.bind_some, Option.map_some,
        Option.getD_some]
      rw [recordedIndices, hloras, scheduledLoras, Json.get, Json.asObject, Option.bind_some,
        hrecord "loras"]
      simp only [slot, String.reduceEq, if_false, if_true, sanitizePhaseLoras]
      cases (get fields "loras").bind Json.asArray with
      | none => rfl
      | some loras =>
          simp only [Option.bind_eq_bind, Option.bind_some, Option.getD_some]
          split
          · rfl
          · rw [items_nonemptyArray, List.filterMap_filterMap]
            exact List.filterMap_congr fun lora _ => get_index_sanitizePhaseLora lora

theorem phaseReferences_sanitizeAdvanced (h : (advanced.map Prod.fst).Nodup) :
    phaseReferences (sanitizeAdvanced moss decodeError advanced) = recordedReferences advanced := by
  rw [phaseReferences, phasesOf_sanitizeAdvanced h, recordedReferences]
  generalize recordedPhases advanced = phases
  induction phases with
  | nil => rfl
  | cons phase phases ih =>
      have hphase := indices_sanitizePhase phase
      rw [List.flatMap_cons, ← ih, ← hphase]
      cases hreduced : sanitizePhase phase with
      | none =>
          rw [List.filterMap_cons_none hreduced]
          rfl
      | some reduced =>
          rw [List.filterMap_cons_some hreduced, List.flatMap_cons]
          rfl

theorem hasLoras_eq (phase : Json) : hasLoras phase = !(scheduledLoras phase).isEmpty := by
  rw [hasLoras, scheduledLoras]
  cases (phase.get "loras").bind Json.asArray <;> rfl

theorem isSome_get_index {lora reduced : Json} (h : sanitizePhaseLora lora = some reduced) :
    (reduced.get "index").isSome = true := by
  obtain ⟨fields, -, hreduced⟩ := Option.bind_eq_some_iff.mp h
  dsimp only at hreduced
  split at hreduced
  · next hindex =>
      obtain rfl := Option.some.inj hreduced
      exact hindex
  · cases hreduced

theorem isEmpty_indices (loras : List Json) :
    ((loras.filterMap sanitizePhaseLora).filterMap fun lora => lora.get "index").isEmpty =
      (loras.filterMap sanitizePhaseLora).isEmpty := by
  cases hloras : loras.filterMap sanitizePhaseLora with
  | nil => rfl
  | cons reduced rest =>
      obtain ⟨lora, -, hlora⟩ := List.mem_filterMap.mp
        (hloras ▸ List.mem_cons_self : reduced ∈ loras.filterMap sanitizePhaseLora)
      obtain ⟨index, hindex⟩ := Option.isSome_iff_exists.mp (isSome_get_index hlora)
      rw [List.filterMap_cons, hindex]
      rfl

/-- A phase is written with a schedule when it keeps an index. -/
theorem hasLoras_sanitizePhase (phase : Json) :
    (sanitizePhase phase).any hasLoras = !(recordedIndices phase).isEmpty := by
  have hindices := indices_sanitizePhase phase
  cases hreduced : sanitizePhase phase with
  | none =>
      rw [hreduced] at hindices
      rw [← hindices]
      rfl
  | some reduced =>
      rw [hreduced, Option.map_some, Option.getD_some] at hindices
      rw [Option.any_some, hasLoras_eq, ← hindices]
      obtain ⟨fields, -, heq⟩ := Option.bind_eq_some_iff.mp hreduced
      obtain rfl := Option.some.inj heq
      have hrecord : ∀ key, get (record [("steps", (get fields "steps").filter Json.isNumber),
          ("guidance", (get fields "guidance").filter Json.isNumber),
          ("loras", sanitizePhaseLoras fields)]) key = _ :=
        get_record (by decide : ["steps", "guidance", "loras"].Nodup)
      rw [scheduledLoras, Json.get, Json.asObject, Option.bind_some, hrecord "loras"]
      simp only [slot, String.reduceEq, if_false, if_true, sanitizePhaseLoras]
      cases (get fields "loras").bind Json.asArray with
      | none => rfl
      | some loras =>
          simp only [Option.bind_eq_bind, Option.bind_some]
          split
          · rfl
          · rw [items_nonemptyArray, isEmpty_indices]

theorem hasLoras_of_recorded {phase : Json} (h : (sanitizePhase phase).any hasLoras = true) :
    hasLoras phase = true := by
  rw [hasLoras_sanitizePhase] at h
  rw [hasLoras_eq]
  cases hloras : scheduledLoras phase with
  | nil =>
      rw [recordedIndices, hloras] at h
      exact absurd h (by decide)
  | cons lora loras => rfl

theorem countP_lt_iff {α : Type} {p q : α → Bool} (h : ∀ a, p a = true → q a = true)
    (items : List α) : items.countP p ≤ items.countP q ∧
      (items.countP p < items.countP q ↔ ∃ a ∈ items, q a = true ∧ p a = false) := by
  induction items with
  | nil => simp
  | cons a items ih =>
      obtain ⟨hle, hiff⟩ := ih
      simp only [List.countP_cons, List.exists_mem_cons_iff, ← hiff]
      cases hp : p a with
      | true =>
          rw [h a hp]
          simp [hle]
      | false =>
          cases hq : q a with
          | true =>
              simp
              omega
          | false => simp [hle]

theorem not_containsKey_of_overCap (h : (advanced.map Prod.fst).Nodup)
    (hcap : overCap (phasesOf advanced).length maxSharePhases = true) :
    containsKey (sanitizeAdvanced moss decodeError advanced) "phases" = false := by
  rw [containsKey, get_phases h]
  rw [phasesOf] at hcap
  cases hget : get advanced "phases" with
  | none => rfl
  | some value =>
      rw [hget, Option.bind_some] at hcap
      rw [Option.bind_some, sanitizePhases]
      cases hvalue : value.asArray with
      | none => rfl
      | some phases =>
          rw [hvalue, Option.getD_some] at hcap
          simp only [Option.bind_eq_bind, Option.bind_some]
          rw [if_pos hcap]
          rfl

theorem mem_advancedOmissions (h : (advanced.map Prod.fst).Nodup) :
    omittedPhaseLoras ∈ advancedOmissions advanced (sanitizeAdvanced moss decodeError advanced) ↔
      LosesSchedule advanced := by
  have hphases : phasesOf (sanitizeAdvanced moss decodeError advanced) = _ :=
    phasesOf_sanitizeAdvanced h
  have hcount : ∀ fields :
      JsonObject, phasesWithLoras fields = (phasesOf fields).countP hasLoras := by
    intro fields
    rw [phasesWithLoras, phasesOf]
    cases (get fields "phases").bind Json.asArray <;> rfl
  have hmarker : omittedPhaseLoras ∈ advancedOmissions advanced
      (sanitizeAdvanced moss decodeError advanced) ↔
        containsKey (sanitizeAdvanced moss decodeError advanced) "phases" = true ∧
          phasesWithLoras (sanitizeAdvanced moss decodeError advanced) < phasesWithLoras
            advanced := by
    have hposes : omittedPhaseLoras ≠ omittedPoses := by decide
    have hnames : omittedPhaseLoras ≠ omittedPhases := by decide
    rw [advancedOmissions, List.mem_append]
    constructor
    · rintro (hmem | hmem)
      · obtain ⟨⟨key, name⟩, hpair, hname⟩ := List.mem_filterMap.mp hmem
        dsimp only at hname
        split at hname
        · obtain rfl := Option.some.inj hname
          simp [hposes, hnames] at hpair
        · cases hname
      · split at hmem
        · next hboth => simpa using hboth
        · cases hmem
    · intro hboth
      refine Or.inr ?_
      rw [if_pos (by simpa using hboth)]
      exact List.mem_singleton.mpr rfl
  have hwritten : (fun phase => ((sanitizePhase phase).map hasLoras).getD false) =
      fun phase => !(recordedIndices phase).isEmpty := by
    funext phase
    rw [← hasLoras_sanitizePhase]
    cases sanitizePhase phase <;> rfl
  have hstep : ∀ phase, (!(recordedIndices phase).isEmpty) = true → hasLoras phase = true := by
    intro phase hphase
    exact hasLoras_of_recorded (hasLoras_sanitizePhase phase ▸ hphase)
  rw [hmarker, hcount, hcount, hphases, List.countP_filterMap, hwritten]
  by_cases hcap : overCap (phasesOf advanced).length maxSharePhases = true
  · have hnone : recordedPhases advanced = [] := if_pos hcap
    rw [LosesSchedule, hnone]
    have habsent : containsKey (sanitizeAdvanced moss decodeError advanced) "phases" = false :=
      not_containsKey_of_overCap h hcap
    simp [habsent]
  · have hall : recordedPhases advanced = phasesOf advanced := if_neg hcap
    rw [LosesSchedule, hall, (countP_lt_iff hstep _).2]
    constructor
    · rintro ⟨-, phase, hphase, hloras, hempty⟩
      exact ⟨phase, hphase, hloras, by simpa using hempty⟩
    · rintro ⟨phase, hphase, hloras, hempty⟩
      refine ⟨?_, phase, hphase, hloras, by simp [hempty]⟩
      have hsome : ∃ reduced, sanitizePhase phase = some reduced := by
        cases hobject : phase.asObject with
        | none => simp [hasLoras, Json.get, hobject] at hloras
        | some fields => exact ⟨_, Option.bind_eq_some_iff.mpr ⟨fields, hobject, rfl⟩⟩
      obtain ⟨reduced, hreduced⟩ := hsome
      have hmem : reduced ∈ phasesOf (sanitizeAdvanced moss decodeError advanced) := by
        rw [hphases, hall]
        exact List.mem_filterMap.mpr ⟨phase, hphase, hreduced⟩
      rw [containsKey]
      cases hget : get (sanitizeAdvanced moss decodeError advanced) "phases" with
      | none =>
          rw [phasesOf, hget] at hmem
          exact absurd hmem List.not_mem_nil
      | some value => rfl

end Sanitized

section Passes

variable {moss : MossCore} {serde : Serde}

def Reread (moss : MossCore) (serde : Serde) (share again : WorkflowShare) : Prop :=
  parseWorkflowShare moss serde share.toValue = .ok again

/-- What a built envelope and its later readings have in common. -/
structure SameAim (first share : WorkflowShare) : Prop where
  loras : share.loras = first.loras
  references : phaseReferences share.advanced = phaseReferences first.advanced
  omitted : first.omitted ⊆ share.omitted

theorem phaseReferences_congr {first second : JsonObject}
    (h : get first "phases" = get second "phases") :
    phaseReferences first = phaseReferences second := by
  rw [phaseReferences, phaseReferences, phasesOf, phasesOf, h]

/-- Reduced from an envelope whose map has each key once. -/
def Reduced (moss : MossCore) (serde : Serde) (share : WorkflowShare) : Prop :=
  ∃ raw : WorkflowShare, (raw.advanced.map Prod.fst).Nodup ∧
    share = reduceWorkflowShare moss serde raw

/-- One more reading changes neither the adapters nor the references, and forgets no loss. -/
theorem sameAim_reread {share again : WorkflowShare} (h : Reduced moss serde share)
    (hread : Reread moss serde share again) : Reduced moss serde again ∧ SameAim share again := by
  obtain ⟨raw, hkeys, rfl⟩ := h
  obtain ⟨object, found, hobject, hfound, -, -, -, rfl⟩ := parseWorkflowShare_eq_ok hread
  obtain rfl := Json.obj.inj hobject
  have hfields : WorkflowShare.ofFields (record (reduceWorkflowShare moss serde raw).slots) = _ :=
    WorkflowShare.ofFields_slots (reduceWorkflowShare_portable raw)
  obtain rfl := Option.some.inj (hfields.symm.trans hfound)
  have hnodup : ((reduceWorkflowShare moss serde raw).advanced.map Prod.fst).Nodup :=
    nodup_sanitizeAdvanced hkeys
  refine ⟨⟨_, hnodup, rfl⟩, ?_⟩
  exact
    { loras := reduceCapped_again reduceLora_settles raw.loras
      references := by
        refine phaseReferences_congr ?_
        change get (sanitizeAdvanced moss serde.decodeError
            (sanitizeAdvanced moss serde.decodeError raw.advanced)) "phases" =
          get (sanitizeAdvanced moss serde.decodeError raw.advanced) "phases"
        rw [get_phases (nodup_sanitizeAdvanced hkeys), get_phases hkeys]
        exact sanitizePhases_settles.bind_bind _
      omitted := by
        intro name hname
        have hknown := (mem_reduceOmitted.mp hname).1
        refine mem_reduceOmitted.mpr ⟨hknown, ?_⟩
        refine List.mem_append_left _ (List.mem_append_left _ (List.mem_append_left _ ?_))
        exact mem_reduceOmitted.mpr ⟨hknown, hname⟩ }

theorem sameAim_rereads {share again : WorkflowShare} (h : Reduced moss serde share)
    (hreads : Relation.ReflTransGen (Reread moss serde) share again) :
    Reduced moss serde again ∧ SameAim share again := by
  induction hreads with
  | refl => exact ⟨h, rfl, rfl, List.Subset.refl _⟩
  | tail _ hread ih =>
      obtain ⟨hreduced, haim⟩ := ih
      obtain ⟨hagain, hnext⟩ := sameAim_reread hreduced hread
      refine ⟨hagain, hnext.loras.trans haim.loras, hnext.references.trans haim.references, ?_⟩
      exact List.Subset.trans haim.omitted hnext.omitted

end Passes

section Aim

variable {moss : MossCore} {serde : Serde} {facts : WorkflowAssetFacts} {payload : JsonObject}

/-- An index points at the adapter that the adapter of the payload is reduced to. -/
def PointsAt (share : WorkflowShare) (payload : JsonObject) (index : Json) : Prop :=
  ∃ i lora, index.asU64 = some i ∧ share.loras[i]? = some lora ∧
    (payloadLoras payload)[i]?.bind payloadLora = some lora

/-- No reference is aimed at another adapter, and no adapter is lost, without a word of it. -/
structure Aimed (payload : JsonObject) (share : WorkflowShare) : Prop where
  references : omittedLoras ∈ share.omitted ∨ omittedPhaseLoras ∈ share.omitted ∨
    ∀ index ∈ phaseReferences share.advanced, PointsAt share payload index
  adapters : omittedLoras ∈ share.omitted ∨
    ∀ entry ∈ payloadLoras payload, ∀ lora ∈ payloadLora entry, lora ∈ share.loras

/-- The adapter at the index says something, and so do all before it; or the one that moves
up to the index says the same. -/
def InPlace (payload : JsonObject) (index : Json) : Prop :=
  ∃ i entry lora, index.asU64 = some i ∧ (payloadLoras payload)[i]? = some entry ∧
    payloadLora entry = some lora ∧
      (missing payloadLora ((payloadLoras payload).take i) = 0 ∨
        (((payloadLoras payload).drop (i + 1)).filterMap payloadLora)[
          missing payloadLora ((payloadLoras payload).take i) - 1]? = some lora)

theorem reduced_build (h : ((payloadAdvanced payload).map Prod.fst).Nodup) :
    Reduced moss serde (buildWorkflowShareFrom moss serde facts payload) :=
  ⟨rawShareOfKind moss workflowKindImage facts payload, h, rfl⟩

theorem loras_build (hfive : (payloadLoras payload).length ≤ maxShareLoras) :
    (buildWorkflowShareFrom moss serde facts payload).loras =
      (payloadLoras payload).filterMap payloadLora := by
  have hloras : ∀ entry lora, payloadLora entry = some lora → reduceLora lora = some lora := by
    intro entry lora hentry
    obtain ⟨fields, -, hlora⟩ := Option.bind_eq_some_iff.mp hentry
    exact reduceLora_settles _ _ hlora
  change reduceCapped maxShareLoras reduceLora (sanitizeLoras (get payload "loras")) = _
  have hcap :
      ¬ overCap ((payloadLoras payload).filterMap payloadLora).length maxShareLoras = true := by
    have hle := List.length_filterMap_le payloadLora (payloadLoras payload)
    simp only [overCap, decide_eq_true_eq]
    omega
  rw [sanitizeLoras_eq, reduceCapped, if_neg hcap, List.filterMap_filterMap]
  refine List.filterMap_congr fun entry _ => ?_
  cases hentry : payloadLora entry with
  | none => rfl
  | some lora => exact hloras entry lora hentry

theorem pointsAt_build_iff (hfive : (payloadLoras payload).length ≤ maxShareLoras) (index : Json) :
    PointsAt (buildWorkflowShareFrom moss serde facts payload) payload index ↔
      InPlace payload index := by
  rw [PointsAt, loras_build hfive]
  constructor
  · rintro ⟨i, lora, hindex, hat, hpayload⟩
    obtain ⟨entry, hentry, hlora⟩ := Option.bind_eq_some_iff.mp hpayload
    exact ⟨i, entry, lora, hindex, hentry, hlora, (getElem?_filterMap_iff hentry hlora).mp hat⟩
  · rintro ⟨i, entry, lora, hindex, hentry, hlora, hplace⟩
    refine ⟨i, lora, hindex, (getElem?_filterMap_iff hentry hlora).mpr hplace, ?_⟩
    rw [hentry]
    exact hlora

/-- The adapters are never reported lost, and the schedules exactly when one is. -/
theorem omitted_build (moss : MossCore) (serde : Serde) (facts : WorkflowAssetFacts)
    (hkeys : ((payloadAdvanced payload).map Prod.fst).Nodup)
    (hfive : (payloadLoras payload).length ≤ maxShareLoras) :
    omittedLoras ∉ (buildWorkflowShareFrom moss serde facts payload).omitted ∧
      (omittedPhaseLoras ∈ (buildWorkflowShareFrom moss serde facts payload).omitted ↔
        LosesSchedule (payloadAdvanced payload)) := by
  have hloras : ¬ (reduceCapped maxShareLoras reduceLora
      (rawShareOfKind moss workflowKindImage facts payload).loras).length <
        (rawShareOfKind moss workflowKindImage facts payload).loras.length := by
    change ¬ (buildWorkflowShareFrom moss serde facts payload).loras.length <
      (sanitizeLoras (get payload "loras")).length
    rw [loras_build hfive, sanitizeLoras_eq]
    exact lt_irrefl _
  have hinputs : ∀ (p : Prop) [Decidable p], ∀ name ∈ (if p then [omittedInputs] else []),
      name = omittedInputs := by
    intro p _ name hname
    split at hname
    · exact List.mem_singleton.mp hname
    · exact absurd hname List.not_mem_nil
  have hraw : ∀ name ∈ (rawShareOfKind moss workflowKindImage facts payload).omitted,
      name = omittedInputs := fun name hname => hinputs _ name hname
  have hmem : ∀ name, name ≠ omittedInputs →
      (name ∈ (buildWorkflowShareFrom moss serde facts payload).omitted ↔
        name ∈ omittedFields ∧ name ∈ advancedOmissions (payloadAdvanced payload)
          (sanitizeAdvanced moss serde.decodeError (payloadAdvanced payload))) := by
    intro name hname
    refine mem_reduceOmitted.trans (and_congr_right fun _ => ?_)
    constructor
    · intro h
      obtain h | h := List.mem_append.mp h
      · obtain h | h := List.mem_append.mp h
        · obtain h | h := List.mem_append.mp h
          · exact absurd (hraw name (mem_reduceOmitted.mp h).2) hname
          · rw [if_neg hloras] at h
            exact absurd h List.not_mem_nil
        · exact absurd (hinputs _ name h) hname
      · exact h
    · exact List.mem_append_right _
  constructor
  · intro h
    have hlost := ((hmem omittedLoras (by decide)).mp h).2
    rw [advancedOmissions, List.mem_append] at hlost
    obtain hlost | hlost := hlost
    · obtain ⟨⟨key, name⟩, hpair, hname⟩ := List.mem_filterMap.mp hlost
      dsimp only at hname
      split at hname
      · obtain rfl := Option.some.inj hname
        revert hpair
        simp [omittedLoras, omittedPoses, omittedPhases]
      · cases hname
    · split at hlost
      · exact absurd (List.mem_singleton.mp hlost) (by decide)
      · exact absurd hlost List.not_mem_nil
  · rw [hmem omittedPhaseLoras (by decide), mem_advancedOmissions hkeys]
    exact and_iff_right (by decide)

/-- A recipe keeps its aim through every reading exactly when a lost schedule is reported or
every recorded index stays in place. -/
theorem aimed_iff_inPlace (hkeys : ((payloadAdvanced payload).map Prod.fst).Nodup)
    (hfive : (payloadLoras payload).length ≤ 5) :
    (∀ share, Relation.ReflTransGen (Reread moss serde)
        (buildWorkflowShareFrom moss serde facts payload) share → Aimed payload share) ↔
      LosesSchedule (payloadAdvanced payload) ∨
        ∀ index ∈ recordedReferences (payloadAdvanced payload), InPlace payload index := by
  have hbuilt : Reduced moss serde (buildWorkflowShareFrom moss serde facts payload) :=
    reduced_build hkeys
  obtain ⟨hloras, hschedules⟩ := omitted_build moss serde facts hkeys hfive
  have hreferences : phaseReferences (buildWorkflowShareFrom moss serde facts payload).advanced =
      recordedReferences (payloadAdvanced payload) := phaseReferences_sanitizeAdvanced hkeys
  constructor
  · intro h
    obtain hlost | hlost | hpoints := (h _ Relation.ReflTransGen.refl).references
    · exact absurd hlost hloras
    · exact Or.inl (hschedules.mp hlost)
    · refine Or.inr fun index hindex => (pointsAt_build_iff hfive index).mp (hpoints index ?_)
      rw [hreferences]
      exact hindex
  · intro hcond share hreads
    obtain ⟨-, haim⟩ := sameAim_rereads hbuilt hreads
    constructor
    · obtain hlost | hplace := hcond
      · exact Or.inr (Or.inl (haim.omitted (hschedules.mpr hlost)))
      · refine Or.inr (Or.inr fun index hindex => ?_)
        rw [haim.references, hreferences] at hindex
        have hpoints : PointsAt (buildWorkflowShareFrom moss serde facts payload) payload index :=
          (pointsAt_build_iff hfive index).mpr (hplace index hindex)
        obtain ⟨i, lora, hnumber, hat, hsource⟩ := hpoints
        exact ⟨i, lora, hnumber, haim.loras ▸ hat, hsource⟩
    · refine Or.inr fun entry hentry lora hlora => ?_
      rw [haim.loras, loras_build hfive]
      exact List.mem_filterMap.mpr ⟨entry, hentry, hlora⟩

/-- A recipe with two adapters, whose only phase applies the first of them. -/
def phasedPayload (first : JsonObject) : JsonObject :=
  [("advanced", .obj [("phases", .arr [.obj [("steps", .int 4),
      ("loras", .arr [.obj [("index", .int 0), ("weight", .int 1)]])]])]),
    ("loras", .arr [.obj first, .obj [("name", .str "Film look"), ("weight", .int 1)]])]

theorem aimed_of_named :
    omittedPhaseLoras ∉ (buildWorkflowShareFrom idleMoss plainSerde portraitFacts
        (phasedPayload [("name", .str "Grain")])).omitted ∧
      ∀ share, Relation.ReflTransGen (Reread idleMoss plainSerde)
        (buildWorkflowShareFrom idleMoss plainSerde portraitFacts
          (phasedPayload [("name", .str "Grain")])) share →
        Aimed (phasedPayload [("name", .str "Grain")]) share := by
  refine ⟨by decide +kernel, ?_⟩
  refine (aimed_iff_inPlace (by decide) (by decide)).mpr (Or.inr fun index hindex => ?_)
  have hreferences : recordedReferences (payloadAdvanced (phasedPayload [("name", .str "Grain")])) =
      [.int 0] := by decide +kernel
  obtain rfl := List.mem_singleton.mp (hreferences ▸ hindex)
  have hlora : ∃ lora, payloadLora (.obj [("name", .str "Grain")]) = some lora :=
    Option.isSome_iff_exists.mp (by decide +kernel)
  obtain ⟨lora, hlora⟩ := hlora
  exact ⟨0, _, lora, rfl, rfl, hlora, Or.inl rfl⟩

/-- An adapter known by its path only is left out, and its phase applies the next one. -/
theorem dropped_adapter_reaims :
    ¬ ∀ (moss : MossCore) (serde : Serde) (facts : WorkflowAssetFacts) (payload : JsonObject),
      ((payloadAdvanced payload).map Prod.fst).Nodup → (payloadLoras payload).length ≤ 5 →
      ∀ share, Relation.ReflTransGen (Reread moss serde)
        (buildWorkflowShareFrom moss serde facts payload) share → Aimed payload share := by
  intro h
  have haimed := h idleMoss plainSerde portraitFacts
    (phasedPayload [("name", .str "/loras/grain.safetensors")]) (by decide) (by decide) _
    Relation.ReflTransGen.refl
  obtain hlost | hlost | hpoints := haimed.references
  · exact absurd hlost (by decide +kernel)
  · exact absurd hlost (by decide +kernel)
  · obtain ⟨i, lora, hindex, -, hsource⟩ := hpoints (.int 0) (by decide +kernel)
    obtain rfl : 0 = i := Option.some.inj hindex
    have hnone : payloadLora (.obj [("name", .str "/loras/grain.safetensors")]) = none := by
      decide +kernel
    exact absurd (hnone.symm.trans hsource) (by simp)

end Aim

end SceneWorks.WorkflowEnvelope
