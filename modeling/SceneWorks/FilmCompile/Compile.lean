import SceneWorks.FilmCompile.Prompt
import SceneWorks.Library.Fallible
import SceneWorks.Library.FloatText
import SceneWorks.Library.JsonIndex

/-!
Compiling a plan. Each shot is resolved to the checkpoint it renders on, to its size, to the
adapters and the schedule of that checkpoint, and to a prompt; a shot that cannot be expressed as a
request gives findings, and nothing is shortened to make it fit. The catalogs that are embedded in
the build are a parameter.
-/

namespace SceneWorks.FilmCompile

inductive ModelLane where
  | mlx
  | candle

def ModelLane.manifestKey : ModelLane → String
  | .mlx => "mlx"
  | .candle => "candle"

structure PlanModelAdvanced where
  referenceImageShortEdge : Option UInt32
  referenceImageResizeMode : Option ReferenceImageResizeMode
  steps : Option Int

structure PlanModel where
  id : String
  tier : Option String
  loras : List String
  fps : Option UInt32
  resolution : Option String
  advanced : Option PlanModelAdvanced

structure ProductionPlan where
  id : String
  version : UInt32
  model : PlanModel
  shots : List Shot

structure PlanLoraEntry where
  id : String
  name : String
  family : String
  modelIds : List String
  defaultWeight : F64

structure TurboRecipe where
  loraId : String
  name : String
  steps : UInt32
  videoShift : F32
  audioShift : F32

/-- What the compiler asks of the catalogs embedded in the build. -/
structure Builtin where
  planLoras : List PlanLoraEntry
  turboRecipes : List TurboRecipe
  isMinimaxH3Model : String → Bool
  loraFamilyMatchesModel : PlanLoraEntry → String → Bool

section Imported

def entryStr (entry : JsonObject) (key : String) : Option String :=
  given ((JsonObject.get entry key).bind Json.asStr)

inductive MiniMaxH3Partition where
  | fl2va
  | ref2va
  | hybrid
  deriving DecidableEq

namespace MiniMaxH3Partition

def asStr : MiniMaxH3Partition → String
  | .fl2va => "fl2va"
  | .ref2va => "ref2va"
  | .hybrid => "hybrid"

def supportsBase : MiniMaxH3Partition → Bool
  | .fl2va | .hybrid => true
  | .ref2va => false

def supportsReferences : MiniMaxH3Partition → Bool
  | .ref2va | .hybrid => true
  | .fl2va => false

def declared (entry : JsonObject) : Option MiniMaxH3Partition :=
  match entryStr entry "minimaxH3Partition" with
  | some "fl2va" => some .fl2va
  | some "ref2va" => some .ref2va
  | some "hybrid" => some .hybrid
  | _ => none

def expectedBase (partition : MiniMaxH3Partition) : String :=
  if partition = .ref2va then "minimax_h3_ref" else "minimax_h3"

def fromEntry (entry : JsonObject) : Except String MiniMaxH3Partition :=
  match declared entry with
  | none => .error ("MiniMax-H3 task compatibility is ambiguous: explicitly declare " ++
      "minimaxH3Partition fl2va, ref2va, or hybrid; shapes and directory names do not prove " ++
      "compatibility")
  | some partition =>
      if entryStr entry "baseModel" = some partition.expectedBase then .ok partition
      else .error ("MiniMax-H3 " ++ partition.asStr ++ " requires exact compatible baseModel " ++
        partition.expectedBase ++ "; incompatible or missing base declaration")

end MiniMaxH3Partition

def entryPartitionModel (entry : JsonObject) (hasReferences : Bool) : Except String String := do
  let partition ← MiniMaxH3Partition.fromEntry entry
  if hasReferences && partition.supportsReferences then .ok "minimax_h3_ref"
  else if !hasReferences && partition.supportsBase then .ok "minimax_h3"
  else .error ("declared " ++ partition.asStr ++
    " checkpoint does not support the requested operation")

def entryObject (entry : JsonObject) (key : String) : Option JsonObject :=
  (JsonObject.get entry key).bind Json.asObject

def checkpointPlanCheckpointId (entry : JsonObject) : Option String :=
  given ((entryObject entry "importPlan").bind fun plan =>
    (JsonObject.get plan "checkpointId").bind Json.asStr)

def entryAssembly (entry : JsonObject) : Option JsonObject :=
  (entryObject entry "importPlan").bind fun plan => entryObject plan "assembly"

def entryIsImportedMinimaxH3 (entry : JsonObject) : Bool :=
  entryStr entry "family" = some "minimax-h3" &&
    entryStr entry "importSourceShape" = some "transformer_directory" &&
    (checkpointPlanCheckpointId entry).isSome &&
    (entryAssembly entry).any fun assembly =>
      (JsonObject.get assembly "schemaVersion").bind Json.asU64 = some 1 &&
        match MiniMaxH3Partition.fromEntry entry with
        | .ok partition =>
            (JsonObject.get assembly "partition").bind Json.asStr = some partition.asStr
        | .error _ => false

end Imported

section Partitions

structure ShotPartition where
  modelId : String
  reason : String

def referencePartitionFor (modelId : String) : Option String :=
  if modelId = "minimax_h3" then some "minimax_h3_ref" else none

def isReferencePartitionId (modelId : String) : Bool := modelId = "minimax_h3_ref"

def resolveShotPartition (planModelId : String) (referenceRoles : Nat) : ShotPartition :=
  let roles := toString referenceRoles
  if referenceRoles = 0 then
    ⟨planModelId, "no reference roles; renders on the plan's model " ++ planModelId⟩
  else
    match referencePartitionFor planModelId with
    | none => ⟨planModelId, roles ++ " reference role(s); " ++ planModelId ++
        " has no separate reference partition, so the shot renders on it directly"⟩
    | some reference => ⟨reference, roles ++ " reference role(s); " ++ planModelId ++
        " declares no reference conditioning, so the shot renders on its family's reference " ++
        "partition " ++ reference⟩

structure ModelEntries where
  baseId : String
  base : JsonObject
  reference : Option (String × JsonObject)

namespace ModelEntries

variable (entries : ModelEntries)

/-- A declared imported checkpoint is never turned into a stock one. -/
def isImported : Bool :=
  (JsonObject.get entries.base "family").bind Json.asStr = some "minimax-h3" &&
    (checkpointPlanCheckpointId entries.base).isSome

def resolveImported (referenceRoles : Nat) : ShotPartition × Option JsonObject :=
  match entryPartitionModel entries.base (referenceRoles ≠ 0) with
  | .ok task =>
      (⟨entries.baseId, "explicit imported compatibility for " ++ task ++
        "; retains checkpoint " ++ entries.baseId⟩,
        if entries.baseId = "minimax_h3" || entries.baseId = "minimax_h3_ref" then none
        else some entries.base)
  | .error reason => (⟨entries.baseId, reason⟩, none)

def resolve (referenceRoles : Nat) : ShotPartition × Option JsonObject :=
  if entries.isImported then entries.resolveImported referenceRoles
  else
    let partition := resolveShotPartition entries.baseId referenceRoles
    if partition.modelId = entries.baseId then (partition, some entries.base)
    else
      (partition, entries.reference.bind fun (id, entry) =>
        if id = partition.modelId then some entry else none)

def resolveShot (shot : Shot) : ShotPartition × Option JsonObject :=
  entries.resolve shot.conditioning.referenceRoles.length

end ModelEntries

end Partitions

section Defaults

def entryDefault (entry : JsonObject) (key : String) : Option Json :=
  (entryObject entry "defaults").bind fun defaults => JsonObject.get defaults key

def defaultFps (entry : JsonObject) : Option UInt32 :=
  (((entryDefault entry "fps").bind Json.asU64).filter fun fps => 1 ≤ fps && fps ≤ 60).map
    UInt32.ofNat

def planFps (plan : ProductionPlan) (entry : JsonObject) : Option UInt32 :=
  plan.model.fps.or (defaultFps entry)

def defaultSteps (entry : JsonObject) : Option UInt32 :=
  (((entryDefault entry "steps").bind Json.asU64).filter fun steps =>
    0 < steps && steps < 2 ^ 32).map UInt32.ofNat

def parseResolution (value : String) : Option (UInt32 × UInt32) := do
  let (width, height) ← Text.splitOnce 'x' (Text.trim value)
  let width ← Text.parseU32 (Text.trim width)
  let height ← Text.parseU32 (Text.trim height)
  if 0 < width && 0 < height then some (width, height) else none

def honorable (raw : String) : Option UInt32 :=
  (Text.parseU32 (Text.trim raw)).filter fun side => 256 ≤ side && side ≤ 1920

def defaultResolution (entry : JsonObject) : Option (UInt32 × UInt32) := do
  let declared ← (entryDefault entry "resolution").bind Json.asStr
  let (width, height) ← Text.splitOnceAt (fun c => c = 'x' || c = 'X') declared
  let width ← honorable width
  let height ← honorable height
  some (width, height)

def shotResolution (plan : ProductionPlan) (shot : Shot) (entry : JsonObject) :
    Option (UInt32 × UInt32) :=
  ((shot.resolution.or plan.model.resolution).bind parseResolution).or (defaultResolution entry)

end Defaults

section Schedule

variable (builtin : Builtin)

def builtinPlanLora (id : String) : Option PlanLoraEntry :=
  builtin.planLoras.find? fun lora => lora.id = id

def PlanLoraEntry.allowsModel (lora : PlanLoraEntry) (modelId : String) : Bool :=
  lora.modelIds.isEmpty || lora.modelIds.contains modelId

def planLorasForPartition (loraIds : List String) (partitionModelId : String) :
    List PlanLoraEntry :=
  ((loraIds.filterMap (builtinPlanLora builtin)).filter fun lora =>
    lora.allowsModel partitionModelId).filter fun lora =>
      builtin.loraFamilyMatchesModel lora partitionModelId

def planLoraPayloadEntries (loraIds : List String) (partitionModelId : String) : List Json :=
  (planLorasForPartition builtin loraIds partitionModelId).map fun lora =>
    .obj [("id", .str lora.id), ("weight", .ofF64 lora.defaultWeight)]

/-- Whether two recipes ask for the same schedule. -/
def TurboRecipe.recipeEq (recipe other : TurboRecipe) : Bool :=
  recipe.steps = other.steps && recipe.videoShift.bits = other.videoShift.bits &&
    recipe.audioShift.bits = other.audioShift.bits

def turboRecipeForLoraId (id : String) : Option TurboRecipe :=
  builtin.turboRecipes.find? fun recipe => recipe.loraId = id

def turboConflict (model : String) (current recipe : TurboRecipe) : String :=
  model ++ ": \"" ++ current.name ++ "\" and \"" ++ recipe.name ++
    "\" are both step-distill accelerators and ask for different schedules (" ++
    toString current.steps.toNat ++ " steps at video shift " ++ current.videoShift.display ++
    " vs " ++ toString recipe.steps.toNat ++ " steps at video shift " ++
    recipe.videoShift.display ++ "). A render has one schedule — select one of them."

def selectRecipe (model : String) (resolved : Option TurboRecipe) (lora : Json) :
    Except String (Option TurboRecipe) :=
  match ((lora.get "id").bind Json.asStr).bind (turboRecipeForLoraId builtin) with
  | none => .ok resolved
  | some recipe =>
      match resolved with
      | none => .ok (some recipe)
      | some current =>
          if current.loraId = recipe.loraId || current.recipeEq recipe then .ok (some current)
          else .error (turboConflict model current recipe)

def resolveTurboRecipe (model : String) (loras : List Json) : Except String (Option TurboRecipe) :=
  if builtin.isMinimaxH3Model model then loras.foldlM (selectRecipe builtin model) none
  else .ok none

end Schedule

structure CompiledModel where
  id : String
  tier : Option String
  fps : UInt32
  lane : String

structure CompiledPlan where
  schemaVersion : UInt32
  planId : String
  planVersion : UInt32
  planSha256 : String
  referencePackId : String
  referencePackVersion : UInt32
  referencePackSha256 : String
  compiledAt : String
  model : CompiledModel
  requests : List CompiledRequest

structure CompileInputs where
  entries : ModelEntries
  lane : String
  planSha256 : String
  compiledAt : String
  refinedPrompts : String → Option String

def compiledPlanSchemaVersion : UInt32 := 7

def maxPromptChars : Nat := 4000

def refinePromptsControlLabel : String :=
  "Run model-specific prompt refinement when compiling shots"

section Prompts

variable (printable : Char → Bool)

/-- The text a prompt is composed around, and where it comes from. -/
structure ChosenPrompt where
  text : String
  source : PromptSource
  authored : Option String

def withoutRefinement : String :=
  "compile without prompt refinement — `--no-refine` from the CLI, or untick " ++
    Debug.string printable refinePromptsControlLabel ++ " in the Film workspace"

def refinedLengthFinding (shot : Shot) (length : Nat) : PlanDiagnostic :=
  .shot shot.id "prompt" ("the refined prompt is " ++ toString length ++
    " characters, outside the 1-" ++ toString maxPromptChars ++
    " the video route accepts; re-run the refinement, or " ++ withoutRefinement printable ++
    " (the authored prompt is not silently substituted)")

def refinedLabelFinding (shot : Shot) (refined : String) : PlanDiagnostic :=
  .shot shot.id "prompt" ("the refined prompt for " ++ shot.id ++ " contains " ++
    quotedEngineLabel refined ++ ", a label this film's renderer assigns itself: the compiler " ++
    "writes every such label after the rewrite, numbered from this shot's referenceRoles, so " ++
    "one written here names a picture the request never supplies. Re-run the refinement, or " ++
    withoutRefinement printable ++ " (the refined prompt is not silently edited)")

def choosePrompt (shot : Shot) (refined : Option String) :
    Except (List PlanDiagnostic) ChosenPrompt :=
  match refined with
  | none => .ok ⟨shot.prompt, .authored, none⟩
  | some refined =>
      let trimmed := Text.trim refined
      if trimmed = "" || maxPromptChars < trimmed.length then
        .error [refinedLengthFinding printable shot trimmed.length]
      else if (engineLabelAt trimmed.toList).isSome then
        .error [refinedLabelFinding printable shot trimmed]
      else .ok ⟨trimmed, .refined, some shot.prompt⟩

/-- What the compiler wrote, by kind, where the prompt came out too long. -/
def contributions (inserted : List InsertedText) : String :=
  let chars (kind : InsertedTextKind) : Nat :=
    ((inserted.filter fun piece => piece.kind = kind).map fun piece => piece.text.length).sum
  String.intercalate ", " (InsertedTextKind.all.map fun kind =>
    toString (chars kind) ++ " as " ++ kind.label)

def promptLengthFinding (shot : Shot) (inserted : List InsertedText) (length : Nat) :
    PlanDiagnostic :=
  .shot shot.id "prompt" ("this shot's prompt is " ++ toString length ++
    " characters once the compiler's own sentences lead and trail it, outside the 1-" ++
    toString maxPromptChars ++ " the video route accepts; shorten the shot's prompt, its audio " ++
    "sentence, or the pack descriptions the compiler repeats. Of those characters the compiler " ++
    "wrote " ++ contributions inserted ++ " (nothing is silently truncated)")

def composePrompt (shot : Shot) (inserted : List InsertedText) (text : String) :
    Except (List PlanDiagnostic) String :=
  let prompt := applyInsertedText text inserted
  if maxPromptChars < prompt.length then
    .error [promptLengthFinding shot inserted prompt.length]
  else .ok prompt

end Prompts

section Shots

variable (printable : Char → Bool) (builtin : Builtin)

def importedReference (shot : Shot) (entry : JsonObject) : Bool :=
  shot.conditioning.mode = "reference_to_video" && entryIsImportedMinimaxH3 entry

/-- A knob of the reference encoder reaches the requests that encode a reference. -/
def encodesReference (shot : Shot) (modelId : String) (entry : JsonObject) : Bool :=
  isReferencePartitionId modelId || importedReference shot entry

def referenceImageShortEdge (plan : ProductionPlan) (shot : Shot) (modelId : String)
    (entry : JsonObject) : Option UInt32 :=
  let declared := plan.model.advanced.bind PlanModelAdvanced.referenceImageShortEdge
  (declared.filter fun _ => encodesReference shot modelId entry).or
    (if importedReference shot entry then some 2048 else none)

def referenceImageResizeMode (plan : ProductionPlan) (shot : Shot) (modelId : String)
    (entry : JsonObject) : Option ReferenceImageResizeMode :=
  (plan.model.advanced.bind PlanModelAdvanced.referenceImageResizeMode).filter fun _ =>
    encodesReference shot modelId entry

def planSteps (plan : ProductionPlan) : Option UInt32 :=
  ((plan.model.advanced.bind PlanModelAdvanced.steps).filter fun steps =>
    0 < steps && steps < 2 ^ 32).map fun steps => UInt32.ofNat steps.toNat

def shotInsertedText (pack : ReferencePack) (shot : Shot) : List InsertedText :=
  insertedTextForShot shot (shotReferencePictures pack shot.conditioning.referenceRoles) pack

/-- The checkpoint and the size of a shot. -/
structure ShotPlacement where
  partition : ShotPartition
  entry : JsonObject
  width : UInt32
  height : UInt32

def placeShot (plan : ProductionPlan) (shot : Shot) (entries : ModelEntries) :
    Except (List PlanDiagnostic) ShotPlacement :=
  match entries.resolveShot shot with
  | (partition, none) => .error [.shot shot.id "conditioning.referenceRoles"
      (partition.modelId ++
        " is not in this API's model catalog, so this shot cannot be compiled (" ++
        partition.reason ++ ")")]
  | (partition, some entry) =>
      match shotResolution plan shot entry with
      | none => .error [.shot shot.id "resolution"
          (partition.modelId ++ " declares no default resolution; set one on the plan or the shot")]
      | some (width, height) => .ok ⟨partition, entry, width, height⟩

def resolveRecipe (plan : ProductionPlan) (shot : Shot) (partition : ShotPartition) :
    Except (List PlanDiagnostic) (Option TurboRecipe) :=
  (resolveTurboRecipe builtin partition.modelId
    (planLoraPayloadEntries builtin plan.model.loras partition.modelId)).mapError fun error =>
      [.shot shot.id "model.loras" error]

/-- The request of a shot, once its parts are found. -/
def shotRequest (plan : ProductionPlan) (shot : Shot) (pack : ReferencePack) (fps : UInt32)
    (placement : ShotPlacement) (chosen : ChosenPrompt) (prompt : String)
    (recipe : Option TurboRecipe) : CompiledRequest :=
  let modelId := placement.partition.modelId
  { shotId := shot.id
    beat := shot.beat
    mode := shot.conditioning.mode
    model := modelId
    referenceImageShortEdge := referenceImageShortEdge plan shot modelId placement.entry
    referenceImageResizeMode := referenceImageResizeMode plan shot modelId placement.entry
    loras := (planLorasForPartition builtin plan.model.loras modelId).map PlanLoraEntry.id
    steps := planSteps plan
    effectiveSteps :=
      ((planSteps plan).or (recipe.map TurboRecipe.steps)).or (defaultSteps placement.entry)
    turboSchedulerShift := recipe.map fun recipe => recipe.videoShift.toF64
    partitionReason := placement.partition.reason
    prompt := prompt
    promptSource := chosen.source
    authoredPrompt := chosen.authored
    insertedText := shotInsertedText pack shot
    negativePrompt := shot.negativePrompt
    durationSeconds := shot.targetDurationSeconds
    fps := fps
    width := placement.width
    height := placement.height
    seed := shot.seed
    firstFrameRole := shot.conditioning.firstFrameRole
    lastFrameRole := shot.conditioning.lastFrameRole
    referenceRoles := shot.conditioning.referenceRoles
    chainFromShotId := shot.conditioning.chainFromShotId
    continuityRoles := shot.continuityRoles }

def compileShot (plan : ProductionPlan) (shot : Shot) (pack : ReferencePack)
    (inputs : CompileInputs) (fps : UInt32) : Except (List PlanDiagnostic) CompiledRequest := do
  let placement ← placeShot plan shot inputs.entries
  let chosen ← choosePrompt printable shot (inputs.refinedPrompts shot.id)
  let prompt ← composePrompt shot (shotInsertedText pack shot) chosen.text
  let recipe ← resolveRecipe builtin plan shot placement.partition
  .ok (shotRequest builtin plan shot pack fps placement chosen prompt recipe)

/-- The findings of the shots that cannot be compiled, in plan order. -/
def shotFindings {α : Type} : Except (List PlanDiagnostic) α → List PlanDiagnostic
  | .ok _ => []
  | .error findings => findings

variable (packSha256 : ReferencePack → Except String String)

def unserializable (error : String) : PlanDiagnostic :=
  .plan "referencePack" ("this reference pack cannot be serialized to identify it: " ++ error)

def compilePlan (plan : ProductionPlan) (pack : ReferencePack) (inputs : CompileInputs) :
    Except (List PlanDiagnostic) CompiledPlan :=
  match planFps plan inputs.entries.base with
  | none => .error [.plan "model.fps" (plan.model.id ++
      " declares no default fps; set model.fps in the plan before compiling")]
  | some fps =>
      let compiled := plan.shots.map fun shot =>
        compileShot printable builtin plan shot pack inputs fps
      let findings := compiled.flatMap shotFindings
      if findings ≠ [] then .error findings
      else
        match packSha256 pack with
        | .error error => .error [unserializable error]
        | .ok sha256 =>
            .ok
              { schemaVersion := compiledPlanSchemaVersion
                planId := plan.id
                planVersion := plan.version
                planSha256 := inputs.planSha256
                referencePackId := pack.id
                referencePackVersion := pack.version
                referencePackSha256 := sha256
                compiledAt := inputs.compiledAt
                model := ⟨plan.model.id, plan.model.tier, fps, inputs.lane⟩
                requests := compiled.filterMap Except.toOption }

end Shots

section Inversion

variable {printable : Char → Bool} {builtin : Builtin} {plan : ProductionPlan} {shot : Shot}
  {pack : ReferencePack} {inputs : CompileInputs} {fps : UInt32} {request : CompiledRequest}

/-- What a compiled request is made of. -/
theorem compileShot_eq_ok
    (h : compileShot printable builtin plan shot pack inputs fps = .ok request) :
    ∃ placement chosen prompt recipe,
      placeShot plan shot inputs.entries = .ok placement ∧
      choosePrompt printable shot (inputs.refinedPrompts shot.id) = .ok chosen ∧
      composePrompt shot (shotInsertedText pack shot) chosen.text = .ok prompt ∧
      resolveRecipe builtin plan shot placement.partition = .ok recipe ∧
      request = shotRequest builtin plan shot pack fps placement chosen prompt recipe := by
  obtain ⟨placement, hplacement, h⟩ := Fallible.bind_eq_ok.mp h
  obtain ⟨chosen, hchosen, h⟩ := Fallible.bind_eq_ok.mp h
  obtain ⟨prompt, hprompt, h⟩ := Fallible.bind_eq_ok.mp h
  obtain ⟨recipe, hrecipe, h⟩ := Fallible.bind_eq_ok.mp h
  exact ⟨placement, chosen, prompt, recipe, hplacement, hchosen, hprompt, hrecipe,
    (Except.ok.inj h).symm⟩

theorem compileShot_shotId
    (h : compileShot printable builtin plan shot pack inputs fps = .ok request) :
    request.shotId = shot.id := by
  obtain ⟨placement, chosen, prompt, recipe, -, -, -, -, rfl⟩ := compileShot_eq_ok h
  rfl

theorem composePrompt_eq_ok {inserted : List InsertedText} {text prompt : String}
    (h : composePrompt shot inserted text = .ok prompt) :
    prompt = applyInsertedText text inserted ∧ prompt.length ≤ maxPromptChars := by
  simp only [composePrompt] at h
  split at h
  · cases h
  · next hlength =>
      obtain rfl := Except.ok.inj h
      exact ⟨rfl, Nat.le_of_not_lt hlength⟩

/-- A refined prompt that is taken is trimmed, is not empty and has no engine label. -/
theorem choosePrompt_eq_ok {refined : Option String} {chosen : ChosenPrompt}
    (h : choosePrompt printable shot refined = .ok chosen) :
    chosen = ⟨shot.prompt, .authored, none⟩ ∨
      chosen.source = .refined ∧ chosen.authored = some shot.prompt ∧
        Text.trim chosen.text = chosen.text ∧ chosen.text ≠ "" ∧
        engineLabelAt chosen.text.toList = none := by
  cases refined with
  | none => exact .inl (Except.ok.inj h).symm
  | some refined =>
      simp only [choosePrompt] at h
      split at h
      · cases h
      next hlength =>
      split at h
      · cases h
      next hlabel =>
      obtain rfl := Except.ok.inj h
      simp only [Bool.or_eq_true, decide_eq_true_eq, not_or] at hlength
      exact .inr ⟨rfl, rfl, Text.trim_trim refined, hlength.1, by simpa using hlabel⟩

/-- The authored request of a shot that compiled: the same ask around the plan's own words, where
these fit. -/
theorem compileShot_authored
    (h : compileShot printable builtin plan shot pack inputs fps = .ok request)
    {authored : CompileInputs} (hentries : authored.entries = inputs.entries)
    (hrefined : authored.refinedPrompts shot.id = none) :
    compileShot printable builtin plan shot pack authored fps =
      (composePrompt shot (shotInsertedText pack shot) shot.prompt).map fun prompt =>
        { request with prompt := prompt, promptSource := .authored, authoredPrompt := none } := by
  obtain ⟨placement, chosen, prompt, recipe, hplacement, -, -, hrecipe, rfl⟩ := compileShot_eq_ok h
  have hchosen : choosePrompt printable shot (authored.refinedPrompts shot.id) =
      .ok ⟨shot.prompt, .authored, none⟩ := by rw [hrefined, choosePrompt]
  rw [compileShot, hentries, hplacement, hchosen]
  simp only [bind, Except.bind]
  cases composePrompt shot (shotInsertedText pack shot) shot.prompt with
  | error findings => rfl
  | ok prompt =>
      rw [hrecipe]
      rfl

/-- A step that says why it fails. -/
def Reports {α : Type} (step : Except (List PlanDiagnostic) α) : Prop :=
  ∀ findings, step = .error findings → findings ≠ []

theorem Reports.bind {α β : Type} {step : Except (List PlanDiagnostic) α}
    {next : α → Except (List PlanDiagnostic) β} (hstep : Reports step)
    (hnext : ∀ a, Reports (next a)) :
    Reports (step >>= next) := by
  cases step with
  | error findings => exact fun _ h => hstep _ (by rw [← Except.error.inj h])
  | ok a => exact hnext a

theorem reports_ok {α : Type} (a : α) : Reports (.ok a) := nofun

theorem reports_error {α : Type} (finding : PlanDiagnostic) :
    Reports (.error [finding] : Except (List PlanDiagnostic) α) := by
  intro findings h
  rw [← Except.error.inj h]
  exact List.cons_ne_nil _ _

theorem reports_placeShot (entries : ModelEntries) : Reports (placeShot plan shot entries) := by
  unfold placeShot
  split
  · exact reports_error _
  · split
    · exact reports_error _
    · exact reports_ok _

theorem reports_choosePrompt (refined : Option String) :
    Reports (choosePrompt printable shot refined) := by
  cases refined with
  | none => exact reports_ok _
  | some refined =>
      simp only [choosePrompt]
      split
      · exact reports_error _
      · split
        · exact reports_error _
        · exact reports_ok _

theorem reports_composePrompt (inserted : List InsertedText) (text : String) :
    Reports (composePrompt shot inserted text) := by
  simp only [composePrompt]
  split
  · exact reports_error _
  · exact reports_ok _

theorem reports_resolveRecipe (partition : ShotPartition) :
    Reports (resolveRecipe builtin plan shot partition) := by
  unfold resolveRecipe
  cases resolveTurboRecipe builtin partition.modelId
      (planLoraPayloadEntries builtin plan.model.loras partition.modelId) with
  | error error => exact reports_error _
  | ok recipe => exact reports_ok _

theorem reports_compileShot :
    Reports (compileShot printable builtin plan shot pack inputs fps) := by
  refine (reports_placeShot _).bind fun placement => ?_
  refine (reports_choosePrompt _).bind fun chosen => ?_
  refine (reports_composePrompt _ _).bind fun prompt => ?_
  exact (reports_resolveRecipe _).bind fun recipe => reports_ok _

variable {packSha256 : ReferencePack → Except String String} {doc : CompiledPlan}

/-- What a compiled document says. -/
structure Compiles (printable : Char → Bool) (builtin : Builtin)
    (packSha256 : ReferencePack → Except String String) (plan : ProductionPlan)
    (pack : ReferencePack) (inputs : CompileInputs) (doc : CompiledPlan) : Prop where
  schemaVersion : doc.schemaVersion = compiledPlanSchemaVersion
  planId : doc.planId = plan.id
  planSha256 : doc.planSha256 = inputs.planSha256
  packSha256 : packSha256 pack = .ok doc.referencePackSha256
  fps : planFps plan inputs.entries.base = some doc.model.fps
  model : doc.model = ⟨plan.model.id, plan.model.tier, doc.model.fps, inputs.lane⟩
  requests : List.Forall₂ (fun shot request =>
    compileShot printable builtin plan shot pack inputs doc.model.fps = .ok request)
    plan.shots doc.requests

theorem forall₂_of_no_findings {α β : Type} {compile : α → Except (List PlanDiagnostic) β}
    (hreports : ∀ a, Reports (compile a)) {items : List α}
    (h : (items.map compile).flatMap shotFindings = []) :
    List.Forall₂ (fun a b => compile a = .ok b) items
      ((items.map compile).filterMap Except.toOption) := by
  induction items with
  | nil => exact .nil
  | cons a items ih =>
      rw [List.map_cons, List.flatMap_cons, List.append_eq_nil_iff] at h
      cases ha : compile a with
      | error findings =>
          rw [ha] at h
          exact absurd h.1 (hreports a findings ha)
      | ok b =>
          have hcons : ((a :: items).map compile).filterMap Except.toOption =
              b :: (items.map compile).filterMap Except.toOption := by
            simp [ha, Except.toOption]
          rw [hcons]
          exact .cons ha (ih h.2)

theorem compilePlan_eq_ok
    (h : compilePlan printable builtin packSha256 plan pack inputs = .ok doc) :
    Compiles printable builtin packSha256 plan pack inputs doc := by
  simp only [compilePlan] at h
  split at h
  · cases h
  next fps hfps =>
  split at h
  · cases h
  next hfindings =>
  split at h
  · cases h
  next sha256 hsha256 =>
  obtain rfl := Except.ok.inj h
  refine ⟨rfl, rfl, rfl, hsha256, hfps, rfl, ?_⟩
  exact forall₂_of_no_findings (fun _ => reports_compileShot) (by simpa using hfindings)

end Inversion

end SceneWorks.FilmCompile
