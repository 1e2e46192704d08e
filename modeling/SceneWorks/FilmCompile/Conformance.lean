import SceneWorks.FilmCompile.Compile
import Mathlib.Data.List.Nodup

/-!
The preflight of a compiled document. Staleness asks whether the requests were compiled from this
plan and this pack; conformance compiles every shot once more, with the words of the plan, and
compares field by field what each would be called in a finding. Of a refined prompt only the
middle is the model's own, so the compiler's sentences are taken off and put back.
-/

namespace SceneWorks.FilmCompile

section Preflight

variable (printable : Char → Bool) (builtin : Builtin)
  (packSha256 : ReferencePack → Except String String)

def CompiledPlan.request (doc : CompiledPlan) (shotId : String) : Option CompiledRequest :=
  doc.requests.find? fun request => request.shotId = shotId

/-- `&text[..n]`, or all of a shorter text; a cut inside a character panics. -/
def headBytes : Nat → List Char → Option (List Char)
  | 0, _ => some []
  | _, [] => some []
  | n, c :: rest =>
      if c.utf8Size ≤ n then (headBytes (n - c.utf8Size) rest).map (c :: ·) else none

def planHashFindings (doc : CompiledPlan) (plan : ProductionPlan) (planSha256 : String) :
    Option (List PlanDiagnostic) :=
  if doc.planSha256 = planSha256 then some []
  else do
    let current ← headBytes 12 planSha256.toList
    let compiled ← headBytes 12 doc.planSha256.toList
    some [.plan "compiled.planSha256" ("the plan has changed since it was compiled (plan v" ++
      toString plan.version.toNat ++ " is " ++ String.ofList current ++
      ", the requests were compiled from " ++ String.ofList compiled ++
      "); re-run `film-harness compile`")]

def planIdFindings (doc : CompiledPlan) (plan : ProductionPlan) : List PlanDiagnostic :=
  if doc.planId = plan.id then []
  else [.plan "compiled.planId" ("these requests were compiled from plan " ++
    Debug.string printable doc.planId ++ ", not " ++ Debug.string printable plan.id)]

def packFindings (doc : CompiledPlan) (pack : ReferencePack) : List PlanDiagnostic :=
  match packSha256 pack with
  | .ok sha256 =>
      if sha256 = doc.referencePackSha256 then []
      else [.plan "compiled.referencePackSha256" ("the reference pack changed since these " ++
        "requests were compiled; recompile, or use authored prompts")]
  | .error error => [unserializable error]

def missingFindings (doc : CompiledPlan) (plan : ProductionPlan) : List PlanDiagnostic :=
  plan.shots.flatMap fun shot =>
    if (doc.request shot.id).isSome then []
    else [.shot shot.id "compiled"
      "no compiled request for this shot; re-run `film-harness compile`"]

/-- The findings that make the requests unusable for the plan and the pack. -/
def stalenessFindings (doc : CompiledPlan) (plan : ProductionPlan) (planSha256 : String)
    (pack : ReferencePack) : Option (List PlanDiagnostic) :=
  if doc.schemaVersion ≠ compiledPlanSchemaVersion then
    some [.plan "compiled.schemaVersion" ("unsupported compiled plan schema version " ++
      toString doc.schemaVersion.toNat ++ " (this build reads " ++
      toString compiledPlanSchemaVersion.toNat ++
      "); re-run `film-harness compile` to rewrite these requests")]
  else do
    let hash ← planHashFindings doc plan planSha256
    some (planIdFindings printable doc plan ++ hash ++ packFindings packSha256 doc pack ++
      missingFindings doc plan)

/-- The compiler's inserted text as a finding may state it. -/
def renderedInsertedText (inserted : List InsertedText) : String :=
  if inserted.isEmpty then "no inserted text"
  else String.intercalate " | " (inserted.map fun piece => piece.kind.label ++ ": " ++ piece.text)

def u32Text (n : UInt32) : String := toString n.toNat

def resizeModeText : ReferenceImageResizeMode → String
  | .match_ => "Match"
  | .max => "Max"
  | .diffusers => "Diffusers"

/-- A field that is compared, as both sides would be called. -/
structure Comparison where
  field : String
  found : String
  planned : String

/-- Every field but the prompt, its source and the authored prompt. -/
def comparisons (actual expected : CompiledRequest) : List Comparison :=
  let quoted := Debug.string printable
  let compare {α : Type} (field : String) (text : α → String) (read : CompiledRequest → α) :
      Comparison := ⟨field, text (read actual), text (read expected)⟩
  [ compare "compiled.model" quoted CompiledRequest.model,
    compare "compiled.partitionReason" quoted CompiledRequest.partitionReason,
    compare "compiled.referenceImageShortEdge" (Debug.option u32Text)
      CompiledRequest.referenceImageShortEdge,
    compare "compiled.referenceImageResizeMode" (Debug.option resizeModeText)
      CompiledRequest.referenceImageResizeMode,
    compare "compiled.loras" (Debug.list quoted) CompiledRequest.loras,
    compare "compiled.steps" (Debug.option u32Text) CompiledRequest.steps,
    compare "compiled.effectiveSteps" (Debug.option u32Text) CompiledRequest.effectiveSteps,
    compare "compiled.turboSchedulerShift" (Debug.option F64.debug)
      CompiledRequest.turboSchedulerShift,
    compare "compiled.insertedText" renderedInsertedText CompiledRequest.insertedText,
    compare "compiled.beat" quoted CompiledRequest.beat,
    compare "compiled.mode" quoted CompiledRequest.mode,
    compare "compiled.durationSeconds" (fun seconds => F64.display seconds ++ "s")
      CompiledRequest.durationSeconds,
    compare "compiled.fps" (fun fps => u32Text fps ++ " fps") CompiledRequest.fps,
    compare "compiled.resolution" id fun request =>
      u32Text request.width ++ "x" ++ u32Text request.height,
    compare "compiled.seed" (Debug.option fun seed : Int => toString seed) CompiledRequest.seed,
    compare "compiled.negativePrompt" (Debug.option quoted) CompiledRequest.negativePrompt,
    compare "compiled.firstFrameRole" (Debug.option quoted) CompiledRequest.firstFrameRole,
    compare "compiled.lastFrameRole" (Debug.option quoted) CompiledRequest.lastFrameRole,
    compare "compiled.referenceRoles" (Debug.list quoted) CompiledRequest.referenceRoles,
    compare "compiled.chainFromShotId" (Debug.option quoted) CompiledRequest.chainFromShotId,
    compare "compiled.continuityRoles" (Debug.list quoted) CompiledRequest.continuityRoles ]

def differ (shotId : String) (comparison : Comparison) : List PlanDiagnostic :=
  if comparison.found = comparison.planned then []
  else [.shot shotId comparison.field ("the compiled request asks for " ++ comparison.found ++
    ", but the plan says " ++ comparison.planned ++
    "; re-run `film-harness compile` (only the prompt may differ from the plan)")]

def requestDifferences (actual expected : CompiledRequest) : List PlanDiagnostic :=
  (comparisons printable actual expected).flatMap (differ expected.shotId)

def tampered (shotId detail : String) : List PlanDiagnostic :=
  [.shot shotId "compiled.prompt" ("the prompt " ++ shotId ++
    " would dispatch is not the prompt the compiler composed (" ++ detail ++
    "); re-run `film-harness compile`")]

def authoredPromptFinding (shotId : String) : PlanDiagnostic :=
  .shot shotId "compiled.authoredPrompt" ("the authoredPrompt recorded for " ++ shotId ++
    " is not the prompt the plan holds, so this document misreports what the refiner was given; " ++
    "re-run `film-harness compile`")

def middleFindings (shotId middle : String) : List PlanDiagnostic :=
  if (engineLabelAt middle.toList).isSome then
    tampered shotId ("the refined text inside it contains " ++ quotedEngineLabel middle ++
      ", a label this film's renderer assigns itself and the compiler writes")
  else []

def promptDifferences (actual expected : CompiledRequest) (shotPrompt : String) :
    List PlanDiagnostic :=
  match actual.promptSource with
  | .authored =>
      if actual.authoredPrompt ≠ none then [authoredPromptFinding expected.shotId]
      else if actual.prompt = expected.prompt then []
      else tampered expected.shotId ("this request states its prompt is the plan's own, so " ++
        "compiling the plan now must reproduce it exactly, and it does not")
  | .refined =>
      if actual.authoredPrompt ≠ some shotPrompt then [authoredPromptFinding expected.shotId]
      else
        match recoveredMiddle actual.prompt expected.insertedText with
        | none => tampered expected.shotId ("the compiler's own leading and trailing sentences " ++
            "are not around the refined text where it wrote them")
        | some middle => middleFindings expected.shotId middle

def modelFindings (doc : CompiledPlan) (plan : ProductionPlan) (lane : ModelLane) :
    List PlanDiagnostic :=
  let quoted := Debug.string printable
  (if doc.model.id = plan.model.id then []
    else [PlanDiagnostic.plan "compiled.model.id" ("the compiled requests target model " ++
      quoted doc.model.id ++ ", but the plan renders through " ++ quoted plan.model.id)]) ++
  (if doc.model.tier = plan.model.tier then []
    else [PlanDiagnostic.plan "compiled.model.tier" ("the compiled requests declare tier " ++
      Debug.option quoted doc.model.tier ++ ", but the plan asks for " ++
      Debug.option quoted plan.model.tier)]) ++
  (if doc.model.lane = lane.manifestKey then []
    else [PlanDiagnostic.plan "compiled.model.lane" ("these requests were compiled for the " ++
      quoted doc.model.lane ++ " lane, but this run's host renders on " ++
      quoted lane.manifestKey ++ "; re-run `film-harness compile` against this host")])

/-- What the document is compiled from again: the words of the plan alone. -/
def authoredInputs (doc : CompiledPlan) (entries : ModelEntries) (lane : ModelLane) :
    CompileInputs where
  entries := entries
  lane := lane.manifestKey
  planSha256 := doc.planSha256
  compiledAt := doc.compiledAt
  refinedPrompts := fun _ => none

def shotConformance (doc : CompiledPlan) (plan : ProductionPlan) (pack : ReferencePack)
    (entries : ModelEntries) (lane : ModelLane) (fps : UInt32) (shot : Shot) :
    List PlanDiagnostic :=
  match doc.request shot.id with
  | none => []
  | some request =>
      match compileShot printable builtin plan shot pack (authoredInputs doc entries lane) fps with
      | .ok expected =>
          requestDifferences printable request expected ++
            promptDifferences request expected shot.prompt
      | .error findings => findings

/-- The findings that make the requests a different ask than the plan describes. -/
def conformanceFindings (doc : CompiledPlan) (plan : ProductionPlan) (pack : ReferencePack)
    (entries : ModelEntries) (lane : ModelLane) : List PlanDiagnostic :=
  match planFps plan entries.base with
  | none =>
      modelFindings printable doc plan lane ++ [PlanDiagnostic.plan "model.fps" (plan.model.id ++
        " declares no default fps; set model.fps in the plan before dispatching")]
  | some fps =>
      modelFindings printable doc plan lane ++
        (if doc.model.fps = fps then []
          else [PlanDiagnostic.plan "compiled.model.fps" ("the compiled requests declare " ++
            u32Text doc.model.fps ++ " fps, but the plan renders at " ++ u32Text fps)]) ++
        plan.shots.flatMap (shotConformance printable builtin doc plan pack entries lane fps)

end Preflight

section Edits

/-- A new value for one field of a request. -/
inductive Edit where
  | shotId (value : String)
  | beat (value : String)
  | mode (value : String)
  | model (value : String)
  | referenceImageShortEdge (value : Option UInt32)
  | referenceImageResizeMode (value : Option ReferenceImageResizeMode)
  | loras (value : List String)
  | steps (value : Option UInt32)
  | effectiveSteps (value : Option UInt32)
  | turboSchedulerShift (value : Option F64)
  | partitionReason (value : String)
  | prompt (value : String)
  | promptSource (value : PromptSource)
  | authoredPrompt (value : Option String)
  | insertedText (value : List InsertedText)
  | negativePrompt (value : Option String)
  | durationSeconds (value : F64)
  | fps (value : UInt32)
  | width (value : UInt32)
  | height (value : UInt32)
  | seed (value : Option Int)
  | firstFrameRole (value : Option String)
  | lastFrameRole (value : Option String)
  | referenceRoles (value : List String)
  | chainFromShotId (value : Option String)
  | continuityRoles (value : List String)

namespace Edit

def apply : Edit → CompiledRequest → CompiledRequest
  | .shotId value, request => { request with shotId := value }
  | .beat value, request => { request with beat := value }
  | .mode value, request => { request with mode := value }
  | .model value, request => { request with model := value }
  | .referenceImageShortEdge value, request => { request with referenceImageShortEdge := value }
  | .referenceImageResizeMode value, request => { request with referenceImageResizeMode := value }
  | .loras value, request => { request with loras := value }
  | .steps value, request => { request with steps := value }
  | .effectiveSteps value, request => { request with effectiveSteps := value }
  | .turboSchedulerShift value, request => { request with turboSchedulerShift := value }
  | .partitionReason value, request => { request with partitionReason := value }
  | .prompt value, request => { request with prompt := value }
  | .promptSource value, request => { request with promptSource := value }
  | .authoredPrompt value, request => { request with authoredPrompt := value }
  | .insertedText value, request => { request with insertedText := value }
  | .negativePrompt value, request => { request with negativePrompt := value }
  | .durationSeconds value, request => { request with durationSeconds := value }
  | .fps value, request => { request with fps := value }
  | .width value, request => { request with width := value }
  | .height value, request => { request with height := value }
  | .seed value, request => { request with seed := value }
  | .firstFrameRole value, request => { request with firstFrameRole := value }
  | .lastFrameRole value, request => { request with lastFrameRole := value }
  | .referenceRoles value, request => { request with referenceRoles := value }
  | .chainFromShotId value, request => { request with chainFromShotId := value }
  | .continuityRoles value, request => { request with continuityRoles := value }

/-- Whether the edit changes what a finding could state: a float its value, the inserted text its
rendering, and a refined prompt more than the middle the compiler wrote its sentences around. -/
def Shows : Edit → CompiledRequest → Prop
  | .turboSchedulerShift value, request =>
      value.map F64.decode ≠ request.turboSchedulerShift.map F64.decode
  | .durationSeconds value, request => value.decode ≠ request.durationSeconds.decode
  | .insertedText value, request =>
      renderedInsertedText value ≠ renderedInsertedText request.insertedText
  | .prompt value, request =>
      request.promptSource = .refined →
        ∀ middle, value ≠ applyInsertedText middle request.insertedText
  | _, _ => True

def isShotId : Edit → Bool
  | .shotId _ => true
  | _ => false

end Edit

/-- The document with one field of one request changed. -/
def CompiledPlan.edit (doc : CompiledPlan) (index : Nat) (edit : Edit) : CompiledPlan :=
  { doc with requests := doc.requests.modify index edit.apply }

variable {printable : Char → Bool} {builtin : Builtin} {actual expected request : CompiledRequest}

theorem u32Text_inj : Function.Injective u32Text := by
  intro m n h
  have hdigits := congrArg (fun text => Nat.ofDigitChars 10 text.toList 0) h
  simp only [u32Text, Nat.toString_eq_repr, Nat.toList_repr,
    Nat.ofDigitChars_ten_toDigits] at hdigits
  exact UInt32.toNat_inj.mp hdigits

theorem resizeModeText_inj : Function.Injective resizeModeText := by
  intro one other h
  cases one <;> cases other <;> first | rfl | exact absurd h (by decide)

theorem intText_inj : Function.Injective fun n : Int => toString n := by
  have hread : ∀ n : Int, F64.signedDigits (toString n).toList = n := by
    intro n
    have hdigits : (toString n).toList = F64.intDigits n := by
      cases n with
      | ofNat n => exact Nat.toList_repr
      | negSucc n =>
          rw [Int.toString_eq_repr, Int.repr, String.toList_append, Nat.toList_repr]
          rfl
    rw [hdigits, F64.signedDigits_intDigits]
  intro m n h
  rw [← hread m, ← hread n]
  exact congrArg (fun text => F64.signedDigits text.toList) h

theorem resolution_inj {width height width' height' : UInt32}
    (h : u32Text width ++ "x" ++ u32Text height = u32Text width' ++ "x" ++ u32Text height') :
    width = width' ∧ height = height' := by
  have hlist := congrArg String.toList h
  have htext : ∀ n : UInt32, ∀ c ∈ (u32Text n).toList, c.isDigit = true := by
    intro n c hc
    rw [u32Text, Nat.toString_eq_repr, Nat.toList_repr] at hc
    exact F64.toDigits_isDigit n.toNat c hc
  simp only [String.toList_append, List.append_assoc] at hlist
  have hread := F64.takeWhile_digits (htext width) ("x".toList ++ (u32Text height).toList) (by simp)
  have hread' :=
    F64.takeWhile_digits (htext width') ("x".toList ++ (u32Text height').toList) (by simp)
  rw [hlist] at hread
  have hwidth := hread.1.symm.trans hread'.1
  have hheight := hread.2.symm.trans hread'.2
  rw [List.append_cancel_left_eq] at hheight
  exact ⟨u32Text_inj (String.toList_inj.mp hwidth), u32Text_inj (String.toList_inj.mp hheight)⟩

theorem requestDifferences_eq_nil :
    requestDifferences printable actual expected = [] ↔
      ∀ comparison ∈ comparisons printable actual expected,
        comparison.found = comparison.planned := by
  simp only [requestDifferences, List.flatMap_eq_nil_iff, differ]
  refine forall₂_congr fun comparison _ => ?_
  split <;> simp_all

/-- Two requests that ask for the same: floats by their value, the inserted text by its
rendering. -/
structure SameAsk (actual expected : CompiledRequest) : Prop where
  model : actual.model = expected.model
  partitionReason : actual.partitionReason = expected.partitionReason
  referenceImageShortEdge : actual.referenceImageShortEdge = expected.referenceImageShortEdge
  referenceImageResizeMode : actual.referenceImageResizeMode = expected.referenceImageResizeMode
  loras : actual.loras = expected.loras
  steps : actual.steps = expected.steps
  effectiveSteps : actual.effectiveSteps = expected.effectiveSteps
  turboSchedulerShift :
    actual.turboSchedulerShift.map F64.decode = expected.turboSchedulerShift.map F64.decode
  insertedText :
    renderedInsertedText actual.insertedText = renderedInsertedText expected.insertedText
  beat : actual.beat = expected.beat
  mode : actual.mode = expected.mode
  durationSeconds : actual.durationSeconds.decode = expected.durationSeconds.decode
  fps : actual.fps = expected.fps
  width : actual.width = expected.width
  height : actual.height = expected.height
  seed : actual.seed = expected.seed
  negativePrompt : actual.negativePrompt = expected.negativePrompt
  firstFrameRole : actual.firstFrameRole = expected.firstFrameRole
  lastFrameRole : actual.lastFrameRole = expected.lastFrameRole
  referenceRoles : actual.referenceRoles = expected.referenceRoles
  chainFromShotId : actual.chainFromShotId = expected.chainFromShotId
  continuityRoles : actual.continuityRoles = expected.continuityRoles

theorem shift_inj {one other : Option F64}
    (h : Debug.option F64.debug one = Debug.option F64.debug other) :
    one.map F64.decode = other.map F64.decode := by
  have hhead : ∀ value, Debug.option F64.debug none ≠ Debug.option F64.debug (some value) := by
    intro value hsame
    exact absurd (congrArg (fun text => text.toList.head?) hsame) (by simp [Debug.option])
  cases one with
  | none =>
      cases other with
      | none => rfl
      | some other => exact absurd h (hhead other)
  | some one =>
      cases other with
      | none => exact absurd h.symm (hhead one)
      | some other =>
          have htexts := congrArg String.toList h
          simp only [Debug.option, String.toList_append, List.append_cancel_left_eq,
            List.append_cancel_right_eq, String.toList_inj] at htexts
          rw [Option.map_some, Option.map_some, F64.debug_inj htexts]

/-- A comparison without a finding leaves nothing but the prompt. -/
theorem sameAsk_of_no_differences (h : requestDifferences printable actual expected = []) :
    SameAsk actual expected := by
  have hall := requestDifferences_eq_nil.mp h
  simp only [comparisons, List.forall_mem_cons, List.not_mem_nil, false_implies, implies_true,
    and_true, id] at hall
  obtain ⟨hmodel, hreason, hedge, hresize, hloras, hsteps, heffective, hshift, hinserted, hbeat,
    hmode, hduration, hfps, hresolution, hseed, hnegative, hfirst, hlast, hreferences, hchain,
    hcontinuity⟩ := hall
  have hquoted : Function.Injective (Debug.string printable) :=
    fun _ _ => Debug.string_inj printable
  exact
    { model := hquoted hmodel
      partitionReason := hquoted hreason
      referenceImageShortEdge := Debug.option_inj u32Text_inj hedge
      referenceImageResizeMode := Debug.option_inj resizeModeText_inj hresize
      loras := Debug.strings_inj printable hloras
      steps := Debug.option_inj u32Text_inj hsteps
      effectiveSteps := Debug.option_inj u32Text_inj heffective
      turboSchedulerShift := shift_inj hshift
      insertedText := hinserted
      beat := hquoted hbeat
      mode := hquoted hmode
      durationSeconds := F64.display_inj (String.append_left_inj _ |>.mp hduration)
      fps := u32Text_inj (String.append_left_inj _ |>.mp hfps)
      width := (resolution_inj hresolution).1
      height := (resolution_inj hresolution).2
      seed := Debug.option_inj intText_inj hseed
      negativePrompt := Debug.option_inj hquoted hnegative
      firstFrameRole := Debug.option_inj hquoted hfirst
      lastFrameRole := Debug.option_inj hquoted hlast
      referenceRoles := Debug.strings_inj printable hreferences
      chainFromShotId := Debug.option_inj hquoted hchain
      continuityRoles := Debug.strings_inj printable hcontinuity }

/-- The request a plan asks for with its own words. -/
def CompiledRequest.authoredAs (request : CompiledRequest) (prompt : String) : CompiledRequest :=
  { request with prompt := prompt, promptSource := .authored, authoredPrompt := none }

/-- A request as the compiler left it: the prompt is the plan's own, or is composed around a middle
that the authored prompt stands beside. -/
def Composed (request : CompiledRequest) (shotPrompt prompt : String) : Prop :=
  request.promptSource = .authored ∧ request.authoredPrompt = none ∧ request.prompt = prompt ∨
    request.promptSource = .refined ∧ request.authoredPrompt = some shotPrompt

theorem requestDifferences_authoredAs (prompt : String) :
    requestDifferences printable request (request.authoredAs prompt) = [] := by
  rw [requestDifferences_eq_nil]
  simp [comparisons, CompiledRequest.authoredAs]

/-- Nothing is found only where the prompt is what its source says of it. -/
theorem composed_of_no_differences {shotPrompt : String}
    (h : promptDifferences actual expected shotPrompt = []) :
    actual.promptSource = .authored ∧ actual.authoredPrompt = none ∧
        actual.prompt = expected.prompt ∨
      actual.promptSource = .refined ∧ actual.authoredPrompt = some shotPrompt ∧
        ∃ middle, actual.prompt = applyInsertedText middle expected.insertedText := by
  unfold promptDifferences at h
  cases hsource : actual.promptSource with
  | authored =>
      rw [hsource] at h
      dsimp only at h
      split at h
      · cases h
      next hauthored =>
      split at h
      · next hprompt => exact .inl ⟨rfl, not_not.mp hauthored, hprompt⟩
      · cases h
  | refined =>
      rw [hsource] at h
      dsimp only at h
      split at h
      · cases h
      next hauthored =>
      split at h
      · cases h
      next middle hmiddle =>
      exact .inr ⟨rfl, not_not.mp hauthored, middle, eq_applyInsertedText hmiddle⟩

/-- An edit that shows is found. -/
theorem differences_of_edit {edit : Edit} {shotPrompt prompt : String}
    (hcomposed : Composed request shotPrompt prompt) (hshotId : edit.isShotId = false)
    (hchanged : edit.apply request ≠ request) (hshows : edit.Shows request) :
    requestDifferences printable (edit.apply request) (request.authoredAs prompt) ++
      promptDifferences (edit.apply request) (request.authoredAs prompt) shotPrompt ≠ [] := by
  intro hnil
  obtain ⟨hrequest, hprompt⟩ := List.append_eq_nil_iff.mp hnil
  have hsame := sameAsk_of_no_differences hrequest
  have hsource := composed_of_no_differences hprompt
  cases edit with
  | shotId value => cases hshotId
  | turboSchedulerShift value => exact hshows hsame.turboSchedulerShift
  | durationSeconds value => exact hshows hsame.durationSeconds
  | insertedText value => exact hshows hsame.insertedText
  | prompt value =>
      -- a refined prompt may change around its middle only
      rcases hsource with ⟨hauthored, -, hvalue⟩ | ⟨hrefined, -, middle, hvalue⟩
      · rcases hcomposed with ⟨-, -, hown⟩ | ⟨hrefined, -⟩
        · refine hchanged (congrArg (fun v => { request with prompt := v }) ?_)
          exact hvalue.trans hown.symm
        · exact absurd (hauthored.symm.trans hrefined) (by decide)
      · exact hshows hrefined middle hvalue
  | promptSource value =>
      rcases hsource with ⟨hauthored, hnone, -⟩ | ⟨hrefined, hsome, -⟩
      · rcases hcomposed with ⟨hown, -, -⟩ | ⟨-, hother⟩
        · refine hchanged (congrArg (fun v => { request with promptSource := v }) ?_)
          exact hauthored.trans hown.symm
        · exact absurd (hnone.symm.trans hother) nofun
      · rcases hcomposed with ⟨-, hother, -⟩ | ⟨hown, -⟩
        · exact absurd (hother.symm.trans hsome) nofun
        · refine hchanged (congrArg (fun v => { request with promptSource := v }) ?_)
          exact hrefined.trans hown.symm
  | authoredPrompt value =>
      rcases hsource with ⟨hauthored, hnone, -⟩ | ⟨hrefined, hsome, -⟩
      · rcases hcomposed with ⟨-, hown, -⟩ | ⟨hother, -⟩
        · refine hchanged (congrArg (fun v => { request with authoredPrompt := v }) ?_)
          exact hnone.trans hown.symm
        · exact absurd (hauthored.symm.trans hother) (by decide)
      · rcases hcomposed with ⟨hother, -, -⟩ | ⟨-, hown⟩
        · exact absurd (hother.symm.trans hrefined) (by decide)
        · refine hchanged (congrArg (fun v => { request with authoredPrompt := v }) ?_)
          exact hsome.trans hown.symm
  | beat value => exact hchanged (congrArg (fun v => { request with beat := v }) hsame.beat)
  | mode value => exact hchanged (congrArg (fun v => { request with mode := v }) hsame.mode)
  | model value => exact hchanged (congrArg (fun v => { request with model := v }) hsame.model)
  | referenceImageShortEdge value =>
      exact hchanged (congrArg (fun v => { request with referenceImageShortEdge := v })
        hsame.referenceImageShortEdge)
  | referenceImageResizeMode value =>
      exact hchanged (congrArg (fun v => { request with referenceImageResizeMode := v })
        hsame.referenceImageResizeMode)
  | loras value => exact hchanged (congrArg (fun v => { request with loras := v }) hsame.loras)
  | steps value => exact hchanged (congrArg (fun v => { request with steps := v }) hsame.steps)
  | effectiveSteps value =>
      exact hchanged (congrArg (fun v => { request with effectiveSteps := v }) hsame.effectiveSteps)
  | partitionReason value =>
      exact hchanged (congrArg (fun v => { request with partitionReason := v })
        hsame.partitionReason)
  | negativePrompt value =>
      exact hchanged (congrArg (fun v => { request with negativePrompt := v }) hsame.negativePrompt)
  | fps value => exact hchanged (congrArg (fun v => { request with fps := v }) hsame.fps)
  | width value => exact hchanged (congrArg (fun v => { request with width := v }) hsame.width)
  | height value => exact hchanged (congrArg (fun v => { request with height := v }) hsame.height)
  | seed value => exact hchanged (congrArg (fun v => { request with seed := v }) hsame.seed)
  | firstFrameRole value =>
      exact hchanged (congrArg (fun v => { request with firstFrameRole := v }) hsame.firstFrameRole)
  | lastFrameRole value =>
      exact hchanged (congrArg (fun v => { request with lastFrameRole := v }) hsame.lastFrameRole)
  | referenceRoles value =>
      exact hchanged (congrArg (fun v => { request with referenceRoles := v }) hsame.referenceRoles)
  | chainFromShotId value =>
      exact hchanged (congrArg (fun v => { request with chainFromShotId := v })
        hsame.chainFromShotId)
  | continuityRoles value =>
      exact hchanged (congrArg (fun v => { request with continuityRoles := v })
        hsame.continuityRoles)

end Edits

section Documents

variable {printable : Char → Bool} {builtin : Builtin}
  {packSha256 : ReferencePack → Except String String} {plan : ProductionPlan} {pack : ReferencePack}
  {inputs : CompileInputs} {doc : CompiledPlan} {shot : Shot} {request : CompiledRequest}
  {index : Nat} {edit : Edit}

theorem find?_of_nodup {α β : Type} [DecidableEq β] {key : α → β} {items : List α}
    (hdistinct : (items.map key).Nodup) {a : α} (ha : a ∈ items) :
    items.find? (fun item => key item = key a) = some a := by
  induction items with
  | nil => cases ha
  | cons item items ih =>
      rw [List.map_cons, List.nodup_cons] at hdistinct
      rcases List.mem_cons.mp ha with rfl | hrest
      · simp
      · have hother : key item ≠ key a := by
          intro hsame
          exact hdistinct.1 (hsame ▸ List.mem_map_of_mem hrest)
        rw [List.find?_cons_of_neg (by simpa using hother), ih hdistinct.2 hrest]

theorem request_of_mem (hdistinct : (doc.requests.map CompiledRequest.shotId).Nodup)
    (h : request ∈ doc.requests) : doc.request request.shotId = some request :=
  find?_of_nodup hdistinct h

theorem Edit.apply_shotId (hshotId : edit.isShotId = false) (request : CompiledRequest) :
    (edit.apply request).shotId = request.shotId := by
  cases edit <;> first | rfl | cases hshotId

theorem edit_shotIds (hshotId : edit.isShotId = false) :
    (doc.edit index edit).requests.map CompiledRequest.shotId =
      doc.requests.map CompiledRequest.shotId := by
  apply List.ext_getElem?
  intro i
  simp only [CompiledPlan.edit, List.getElem?_map, List.getElem?_modify]
  cases doc.requests[i]? with
  | none => rfl
  | some request =>
      by_cases hi : index = i
      · simp [hi, Edit.apply_shotId hshotId]
      · simp [hi]

theorem Compiles.shotIds (h : Compiles printable builtin packSha256 plan pack inputs doc) :
    doc.requests.map CompiledRequest.shotId = plan.shots.map Shot.id := by
  have hrequests := h.requests
  generalize plan.shots = shots, doc.requests = requests at hrequests
  induction hrequests with
  | nil => rfl
  | cons hhead _ ih => rw [List.map_cons, List.map_cons, compileShot_shotId hhead, ih]

theorem Compiles.exists_shot (h : Compiles printable builtin packSha256 plan pack inputs doc)
    (hrequest : request ∈ doc.requests) :
    ∃ shot ∈ plan.shots,
      compileShot printable builtin plan shot pack inputs doc.model.fps = .ok request := by
  have hrequests := h.requests
  generalize plan.shots = shots, doc.requests = requests at hrequests hrequest
  induction hrequests with
  | nil => cases hrequest
  | @cons shot first _ _ hhead _ ih =>
      rcases List.mem_cons.mp hrequest with rfl | hrest
      · exact ⟨shot, List.mem_cons_self, hhead⟩
      · obtain ⟨found, hmem, hfound⟩ := ih hrest
        exact ⟨found, List.mem_cons_of_mem _ hmem, hfound⟩

theorem Compiles.exists_request (h : Compiles printable builtin packSha256 plan pack inputs doc)
    (hshot : shot ∈ plan.shots) :
    ∃ request ∈ doc.requests,
      compileShot printable builtin plan shot pack inputs doc.model.fps = .ok request := by
  have hrequests := h.requests
  generalize plan.shots = shots, doc.requests = requests at hrequests hshot
  induction hrequests with
  | nil => cases hshot
  | @cons first request _ _ hhead _ ih =>
      rcases List.mem_cons.mp hshot with rfl | hrest
      · exact ⟨request, List.mem_cons_self, hhead⟩
      · obtain ⟨found, hmem, hfound⟩ := ih hrest
        exact ⟨found, List.mem_cons_of_mem _ hmem, hfound⟩

variable {fps : UInt32} {actual : CompiledRequest} {prompt : String} {lane : ModelLane}

/-- What a shot's own words come to, and whether they can be dispatched at all. -/
theorem shotConformance_eq
    (hcompiled : compileShot printable builtin plan shot pack inputs fps = .ok request)
    {read : CompiledPlan} (hfound : read.request shot.id = some actual) :
    shotConformance printable builtin read plan pack inputs.entries lane fps shot =
      match composePrompt shot (shotInsertedText pack shot) shot.prompt with
      | .ok prompt => requestDifferences printable actual (request.authoredAs prompt) ++
          promptDifferences actual (request.authoredAs prompt) shot.prompt
      | .error findings => findings := by
  have hauthored := compileShot_authored hcompiled
    (show (authoredInputs read inputs.entries lane).entries = inputs.entries from rfl) rfl
  simp only [shotConformance, hfound, hauthored]
  cases composePrompt shot (shotInsertedText pack shot) shot.prompt with
  | error findings => rfl
  | ok prompt => rfl

theorem composed_of_compile
    (hcompiled : compileShot printable builtin plan shot pack inputs fps = .ok request)
    (hprompt : composePrompt shot (shotInsertedText pack shot) shot.prompt = .ok prompt) :
    Composed request shot.prompt prompt := by
  obtain ⟨placement, chosen, composed, recipe, -, hchosen, hcomposed, -, rfl⟩ :=
    compileShot_eq_ok hcompiled
  rcases choosePrompt_eq_ok hchosen with rfl | ⟨hsource, hauthored, -⟩
  · exact .inl ⟨rfl, rfl, Except.ok.inj (hcomposed.symm.trans hprompt)⟩
  · exact .inr ⟨hsource, hauthored⟩

/-- The prompt of a compiled request is found to be the compiler's own. -/
theorem promptDifferences_of_compile
    (hcompiled : compileShot printable builtin plan shot pack inputs fps = .ok request)
    (hprompt : composePrompt shot (shotInsertedText pack shot) shot.prompt = .ok prompt) :
    promptDifferences request (request.authoredAs prompt) shot.prompt = [] := by
  obtain ⟨placement, chosen, composed, recipe, -, hchosen, hcomposed, -, rfl⟩ :=
    compileShot_eq_ok hcompiled
  rcases choosePrompt_eq_ok hchosen with rfl | ⟨hsource, hauthored, htrim, hne, hlabel⟩
  · obtain rfl := Except.ok.inj (hcomposed.symm.trans hprompt)
    simp [promptDifferences, shotRequest, CompiledRequest.authoredAs]
  · obtain ⟨rfl, -⟩ := composePrompt_eq_ok hcomposed
    have hpieces := trailing_ne_blank shot
      (shotReferencePictures pack shot.conditioning.referenceRoles) pack
    have hmiddle := recoveredMiddle_applyInsertedText hpieces htrim hne
    have hclean := engineLabelAt_endedMiddle (shotInsertedText pack shot) hlabel
    simp only [promptDifferences, shotRequest, CompiledRequest.authoredAs, hsource, hauthored,
      ne_eq, not_true_eq_false, if_false]
    rw [shotInsertedText, hmiddle]
    simp only [middleFindings]
    rw [if_neg]
    rw [shotInsertedText] at hclean
    simp [hclean]

/-- Whether the shot's own words can be dispatched among the compiler's sentences. -/
def AuthoredFits (pack : ReferencePack) (shot : Shot) : Prop :=
  (applyInsertedText shot.prompt (shotInsertedText pack shot)).length ≤ maxPromptChars

theorem composePrompt_of_fits (h : AuthoredFits pack shot) :
    composePrompt shot (shotInsertedText pack shot) shot.prompt =
      .ok (applyInsertedText shot.prompt (shotInsertedText pack shot)) :=
  if_neg (Nat.not_lt.mpr h)

theorem fits_of_unrefined
    (hcompiled : compileShot printable builtin plan shot pack inputs fps = .ok request)
    (hunrefined : inputs.refinedPrompts shot.id = none) : AuthoredFits pack shot := by
  obtain ⟨placement, chosen, composed, recipe, -, hchosen, hcomposed, -, -⟩ :=
    compileShot_eq_ok hcompiled
  rw [hunrefined] at hchosen
  obtain rfl := Except.ok.inj hchosen
  obtain ⟨rfl, hlength⟩ := composePrompt_eq_ok hcomposed
  exact hlength

theorem Compiles.lookup (h : Compiles printable builtin packSha256 plan pack inputs doc)
    (hdistinct : (plan.shots.map Shot.id).Nodup) (hrequest : request ∈ doc.requests) :
    doc.request request.shotId = some request := by
  refine request_of_mem ?_ hrequest
  rw [h.shotIds]
  exact hdistinct

theorem Compiles.modelFindings (h : Compiles printable builtin packSha256 plan pack inputs doc)
    (hlane : inputs.lane = lane.manifestKey) : modelFindings printable doc plan lane = [] := by
  have hmodel := h.model
  have hid : doc.model.id = plan.model.id := by rw [hmodel]
  have htier : doc.model.tier = plan.model.tier := by rw [hmodel]
  have hrenders : doc.model.lane = lane.manifestKey := by rw [hmodel, ← hlane]
  simp [FilmCompile.modelFindings, hid, htier, hrenders]

theorem Compiles.conforms (h : Compiles printable builtin packSha256 plan pack inputs doc)
    (hdistinct : (plan.shots.map Shot.id).Nodup) (hlane : inputs.lane = lane.manifestKey)
    (hfits : ∀ shot ∈ plan.shots, (inputs.refinedPrompts shot.id).isSome → AuthoredFits pack shot) :
    conformanceFindings printable builtin doc plan pack inputs.entries lane = [] := by
  simp only [conformanceFindings, h.fps, h.modelFindings hlane, List.nil_append, if_true]
  rw [List.flatMap_eq_nil_iff]
  intro shot hshot
  obtain ⟨request, hmem, hcompiled⟩ := h.exists_request hshot
  have hfound := h.lookup hdistinct hmem
  rw [compileShot_shotId hcompiled] at hfound
  have hprompt : AuthoredFits pack shot := by
    cases hrefined : inputs.refinedPrompts shot.id with
    | none => exact fits_of_unrefined hcompiled hrefined
    | some refined => exact hfits shot hshot (by simp [hrefined])
  rw [shotConformance_eq hcompiled hfound, composePrompt_of_fits hprompt]
  simp only [requestDifferences_authoredAs, List.nil_append]
  exact promptDifferences_of_compile hcompiled (composePrompt_of_fits hprompt)

/-- Words of the plan that do not fit are refused, whatever the request dispatches. -/
theorem Compiles.refused (h : Compiles printable builtin packSha256 plan pack inputs doc)
    (hdistinct : (plan.shots.map Shot.id).Nodup) (hshot : shot ∈ plan.shots)
    (hlong : ¬ AuthoredFits pack shot) :
    conformanceFindings printable builtin doc plan pack inputs.entries lane ≠ [] := by
  obtain ⟨request, hmem, hcompiled⟩ := h.exists_request hshot
  have hfound := h.lookup hdistinct hmem
  rw [compileShot_shotId hcompiled] at hfound
  have hprompt : composePrompt shot (shotInsertedText pack shot) shot.prompt =
      .error [promptLengthFinding shot (shotInsertedText pack shot)
        (applyInsertedText shot.prompt (shotInsertedText pack shot)).length] :=
    if_pos (Nat.lt_of_not_le hlong)
  intro hnil
  simp only [conformanceFindings, h.fps] at hnil
  have hall := List.flatMap_eq_nil_iff.mp (List.append_eq_nil_iff.mp hnil).2 shot hshot
  rw [shotConformance_eq hcompiled hfound, hprompt] at hall
  cases hall

theorem requestDifferences_insertedText {value : List InsertedText} (prompt : String)
    (hrendered : renderedInsertedText value = renderedInsertedText request.insertedText) :
    requestDifferences printable ((Edit.insertedText value).apply request)
      (request.authoredAs prompt) = [] := by
  rw [requestDifferences_eq_nil]
  simp [comparisons, CompiledRequest.authoredAs, Edit.apply, hrendered]

theorem Compiles.single (h : Compiles printable builtin packSha256 plan pack inputs doc)
    (hone : plan.shots = [shot]) :
    ∃ request, doc.requests = [request] ∧ request.insertedText = shotInsertedText pack shot ∧
      compileShot printable builtin plan shot pack inputs doc.model.fps = .ok request := by
  have hrequests := h.requests
  rw [hone] at hrequests
  obtain ⟨request, rest, hcompiled, hrest, hdoc⟩ := List.forall₂_cons_left_iff.mp hrequests
  obtain rfl := List.forall₂_nil_left_iff.mp hrest
  obtain ⟨placement, chosen, prompt, recipe, -, -, -, -, hrequest⟩ := compileShot_eq_ok hcompiled
  exact ⟨request, hdoc, by rw [hrequest]; rfl, hcompiled⟩

/-- Inserted text that only reads the same passes. -/
theorem Compiles.hidden (h : Compiles printable builtin packSha256 plan pack inputs doc)
    (hone : plan.shots = [shot]) (hlane : inputs.lane = lane.manifestKey)
    (hfits : AuthoredFits pack shot) {value : List InsertedText}
    (hrendered : renderedInsertedText value = renderedInsertedText (shotInsertedText pack shot)) :
    conformanceFindings printable builtin (doc.edit 0 (.insertedText value)) plan pack
      inputs.entries lane = [] := by
  obtain ⟨request, hdoc, hinserted, hcompiled⟩ := h.single hone
  have hfound : (doc.edit 0 (.insertedText value)).request shot.id =
      some ((Edit.insertedText value).apply request) := by
    simp [CompiledPlan.request, CompiledPlan.edit, hdoc, Edit.apply, compileShot_shotId hcompiled]
  have hmodel := h.modelFindings hlane
  have hprompt := promptDifferences_of_compile hcompiled (composePrompt_of_fits hfits)
  have hshot : shotConformance printable builtin (doc.edit 0 (.insertedText value)) plan pack
      inputs.entries lane doc.model.fps shot = [] := by
    rw [shotConformance_eq hcompiled hfound, composePrompt_of_fits hfits]
    dsimp only
    rw [requestDifferences_insertedText _ (by rw [hinserted, hrendered])]
    exact hprompt
  simp only [conformanceFindings, h.fps, hone, List.flatMap_cons, List.flatMap_nil, hshot,
    List.append_nil]
  refine List.append_eq_nil_iff.mpr ⟨hmodel, ?_⟩
  simp [CompiledPlan.edit]

theorem Compiles.fresh (h : Compiles printable builtin packSha256 plan pack inputs doc)
    (hdistinct : (plan.shots.map Shot.id).Nodup) :
    stalenessFindings printable packSha256 doc plan inputs.planSha256 pack = some [] := by
  have hmissing : missingFindings doc plan = [] := by
    rw [missingFindings, List.flatMap_eq_nil_iff]
    intro shot hshot
    obtain ⟨request, hmem, hcompiled⟩ := h.exists_request hshot
    have hfound := h.lookup hdistinct hmem
    rw [compileShot_shotId hcompiled] at hfound
    simp [hfound]
  simp [stalenessFindings, h.schemaVersion, planHashFindings, h.planSha256, planIdFindings,
    h.planId, packFindings, h.packSha256, hmissing]

/-- An edit of any field but the shot's id is found by conformance, where it shows. -/
theorem Compiles.edit_found (h : Compiles printable builtin packSha256 plan pack inputs doc)
    (hdistinct : (plan.shots.map Shot.id).Nodup) (hrequest : doc.requests[index]? = some request)
    (hshotId : edit.isShotId = false) (hchanged : edit.apply request ≠ request)
    (hshows : edit.Shows request) :
    conformanceFindings printable builtin (doc.edit index edit) plan pack inputs.entries
      lane ≠ [] := by
  obtain ⟨shot, hshot, hcompiled⟩ := h.exists_shot (List.mem_of_getElem? hrequest)
  have hedited : edit.apply request ∈ (doc.edit index edit).requests := by
    refine List.mem_of_getElem? (i := index) ?_
    simp [CompiledPlan.edit, hrequest]
  have hfound : (doc.edit index edit).request shot.id = some (edit.apply request) := by
    have hids : ((doc.edit index edit).requests.map CompiledRequest.shotId).Nodup := by
      rw [edit_shotIds hshotId, h.shotIds]
      exact hdistinct
    have hfound := request_of_mem hids hedited
    rwa [Edit.apply_shotId hshotId, compileShot_shotId hcompiled] at hfound
  have hshotFindings : shotConformance printable builtin (doc.edit index edit) plan pack
      inputs.entries lane doc.model.fps shot ≠ [] := by
    rw [shotConformance_eq hcompiled hfound]
    cases hprompt : composePrompt shot (shotInsertedText pack shot) shot.prompt with
    | error findings => exact reports_composePrompt _ _ findings hprompt
    | ok prompt =>
        exact differences_of_edit (composed_of_compile hcompiled hprompt) hshotId hchanged hshows
  intro hnil
  simp only [conformanceFindings, h.fps] at hnil
  have hall := (List.append_eq_nil_iff.mp hnil).2
  exact hshotFindings (List.flatMap_eq_nil_iff.mp hall shot hshot)

/-- A request under another id leaves its shot without one. -/
theorem Compiles.shotId_found (h : Compiles printable builtin packSha256 plan pack inputs doc)
    (hdistinct : (plan.shots.map Shot.id).Nodup) (hrequest : doc.requests[index]? = some request)
    {value : String} (hvalue : value ≠ request.shotId) :
    stalenessFindings printable packSha256 (doc.edit index (.shotId value)) plan inputs.planSha256
      pack ≠ some [] := by
  obtain ⟨shot, hshot, hcompiled⟩ := h.exists_shot (List.mem_of_getElem? hrequest)
  have hids : (doc.requests.map CompiledRequest.shotId).Nodup := by
    rw [h.shotIds]
    exact hdistinct
  have hnone : (doc.edit index (.shotId value)).request shot.id = none := by
    rw [CompiledPlan.request, List.find?_eq_none]
    intro other hother
    obtain ⟨i, hi⟩ := List.mem_iff_getElem?.mp hother
    rw [CompiledPlan.edit, List.getElem?_modify] at hi
    obtain ⟨old, hold, rfl⟩ := Option.map_eq_some_iff.mp hi
    rw [← compileShot_shotId hcompiled, decide_eq_true_eq]
    by_cases hindex : index = i
    · rw [if_pos hindex]
      exact hvalue
    · -- ids are distinct, so no other request stands under this one
      rw [if_neg hindex]
      intro hsame
      have hplace : (doc.requests.map CompiledRequest.shotId)[i]? =
          (doc.requests.map CompiledRequest.shotId)[index]? := by
        rw [List.getElem?_map, List.getElem?_map, hold, hrequest]
        exact congrArg some hsame
      have hlength : i < (doc.requests.map CompiledRequest.shotId).length := by
        rw [List.length_map]
        exact (List.getElem?_eq_some_iff.mp hold).1
      exact hindex ((List.getElem?_inj hlength hids).mp hplace).symm
  have hmissing : missingFindings (doc.edit index (.shotId value)) plan ≠ [] := by
    intro hnil
    have hshotNil := List.flatMap_eq_nil_iff.mp hnil shot hshot
    simp [hnone] at hshotNil
  have hschema : (doc.edit index (.shotId value)).schemaVersion = compiledPlanSchemaVersion :=
    h.schemaVersion
  rw [stalenessFindings, if_neg (not_not.mpr hschema)]
  cases planHashFindings (doc.edit index (.shotId value)) plan inputs.planSha256 with
  | none => exact nofun
  | some hash =>
      intro hstale
      exact hmissing (List.append_eq_nil_iff.mp (Option.some.inj hstale)).2

/-- A fresh compile is current, and conforms where the plan's own words would fit as well. One
changed field of one request is found: the shot's id by staleness, every other one by conformance
where the change shows. -/
theorem fresh_compile_preflight
    (hcompile : compilePlan printable builtin packSha256 plan pack inputs = .ok doc)
    (hlane : inputs.lane = lane.manifestKey) (hdistinct : (plan.shots.map Shot.id).Nodup) :
    stalenessFindings printable packSha256 doc plan inputs.planSha256 pack = some [] ∧
    ((∀ shot ∈ plan.shots, (inputs.refinedPrompts shot.id).isSome → AuthoredFits pack shot) →
      conformanceFindings printable builtin doc plan pack inputs.entries lane = []) ∧
    (∀ index request edit, doc.requests[index]? = some request → edit.isShotId = false →
      edit.apply request ≠ request → edit.Shows request →
      conformanceFindings printable builtin (doc.edit index edit) plan pack inputs.entries lane ≠
        []) ∧
    (∀ index request value, doc.requests[index]? = some request → value ≠ request.shotId →
      stalenessFindings printable packSha256 (doc.edit index (.shotId value)) plan
        inputs.planSha256 pack ≠ some []) := by
  have hcompiles := compilePlan_eq_ok hcompile
  refine ⟨hcompiles.fresh hdistinct, hcompiles.conforms hdistinct hlane, ?_, ?_⟩
  · intro index request edit hrequest hshotId hchanged hshows
    exact hcompiles.edit_found hdistinct hrequest hshotId hchanged hshows
  · intro index request value hrequest hvalue
    exact hcompiles.shotId_found hdistinct hrequest hvalue

end Documents

section Arrival

def arrivalShot (prompt : String) : Shot where
  id := "s1"
  beat := "arrival"
  prompt := prompt
  negativePrompt := none
  targetDurationSeconds := F64.ofInt 5
  resolution := none
  audio := "Rain"
  dialogueClip := some ⟨"line", F64.zero, F64.ofInt 1, F64.zero, none, F64.zero, F64.zero⟩
  conditioning := ⟨"text_to_video", none, none, [], none⟩
  seed := some 7
  continuityRoles := []

def arrivalPlan (prompt : String) : ProductionPlan where
  id := "p1"
  version := 1
  model := ⟨"wan_2_2", none, [], none, none, none⟩
  shots := [arrivalShot prompt]

def arrivalPack : ReferencePack := ⟨1, "pack", 1, "", [], []⟩

def arrivalInputs (refined : Option String) : CompileInputs where
  entries := ⟨"wan_2_2", [("defaults", .obj [("fps", .int 24), ("resolution", .str "1280x720")])],
    none⟩
  lane := "mlx"
  planSha256 := "0f"
  compiledAt := "2026-01-01T00:00:00Z"
  refinedPrompts := fun _ => refined

def noBuiltin : Builtin := ⟨[], [], fun _ => false, fun _ _ => true⟩

def arrivalDoc (prompt : String) (refined : Option String) :
    Except (List PlanDiagnostic) CompiledPlan :=
  compilePlan (fun _ => true) noBuiltin (fun _ => .ok "a0") (arrivalPlan prompt) arrivalPack
    (arrivalInputs refined)

/-- One piece that reads as two: the rendering does not say where a piece ends. -/
theorem renderedInsertedText_merged (kind next : InsertedTextKind) (text more : String) :
    renderedInsertedText [⟨kind, text ++ " | " ++ next.label ++ ": " ++ more⟩] =
      renderedInsertedText [⟨kind, text⟩, ⟨next, more⟩] := by
  simp [renderedInsertedText, String.append_assoc]

theorem arrival_insertedText (prompt : String) :
    shotInsertedText arrivalPack (arrivalShot prompt) =
      [⟨.audio, "Audio: Rain"⟩, ⟨.noSpeech, noSpeechSentence⟩] := by
  have haudio : audioText (arrivalShot prompt) = some ⟨.audio, "Audio: Rain"⟩ := by
    have htext : normalizedDescription "Rain" = "Rain" := by decide +kernel
    simp [audioText, arrivalShot, htext, audioPromptPrefix]
  simp only [shotInsertedText, insertedTextForShot, haudio]
  rfl

def arrivalMerged : List InsertedText :=
  [⟨.audio, "Audio: Rain" ++ " | " ++ InsertedTextKind.noSpeech.label ++ ": " ++ noSpeechSentence⟩]

theorem arrivalDoc_exists (prompt : String) (refined : Option String) {P : CompiledPlan → Prop}
    [DecidablePred P] (h : (arrivalDoc prompt refined).toOption.any (fun doc => P doc) = true) :
    ∃ doc, arrivalDoc prompt refined = .ok doc ∧ P doc := by
  cases hdoc : arrivalDoc prompt refined with
  | error findings => simp [hdoc, Except.toOption] at h
  | ok doc => exact ⟨doc, rfl, by simpa [hdoc, Except.toOption] using h⟩

def arrivalConformance (prompt : String) (doc : CompiledPlan) : List PlanDiagnostic :=
  conformanceFindings (fun _ => true) noBuiltin doc (arrivalPlan prompt) arrivalPack
    (arrivalInputs none).entries .mlx

/-- The words of the plan compile by themselves, and conformance passes over another id. -/
theorem unrefined_arrival : ∃ doc, arrivalDoc "Enter" none = .ok doc ∧
    arrivalConformance "Enter" (doc.edit 0 (.shotId "s2")) = [] :=
  arrivalDoc_exists "Enter" none
    (P := fun doc => arrivalConformance "Enter" (doc.edit 0 (.shotId "s2")) = [])
      (by decide +kernel)

theorem fresh_compile_preflight_arrival : ∃ doc,
    arrivalDoc "Enter" (some "Walk") = .ok doc ∧
    stalenessFindings (fun _ => true) (fun _ => .ok "a0") doc (arrivalPlan "Enter") "0f"
      arrivalPack = some [] ∧
    arrivalConformance "Enter" doc = [] := by
  obtain ⟨doc, hdoc, -⟩ := arrivalDoc_exists "Enter" (some "Walk")
    (P := fun _ => True) (by decide +kernel)
  have hlane : (arrivalInputs (some "Walk")).lane = ModelLane.mlx.manifestKey := rfl
  obtain ⟨hfresh, hconforms, -, -⟩ := fresh_compile_preflight hdoc hlane (by decide)
  refine ⟨doc, hdoc, hfresh, hconforms ?_⟩
  intro shot hshot _
  obtain rfl := List.mem_singleton.mp hshot
  -- the words of the plan compile by themselves as well, so they fit
  obtain ⟨unrefined, hunrefined, -⟩ := unrefined_arrival
  obtain ⟨request, -, -, hcompiled⟩ := (compilePlan_eq_ok hunrefined).single rfl
  exact fits_of_unrefined hcompiled rfl

def longPrompt (n : Nat) : String := String.ofList (List.replicate n 'a')

theorem longPrompt_not_fits {n : Nat} (hn : maxPromptChars < n) :
    ¬ AuthoredFits arrivalPack (arrivalShot (longPrompt n)) := by
  have htrim : Text.trim (longPrompt n) = longPrompt n := by
    refine Text.trim_of_no_whiteSpace ?_
    intro c hc
    rw [longPrompt, String.toList_ofList] at hc
    rw [List.eq_of_mem_replicate hc]
    decide
  have hlength : (longPrompt n).length = n := by
    rw [longPrompt, String.length_ofList, List.length_replicate]
  have hne : longPrompt n ≠ "" := by
    intro hempty
    rw [hempty, String.length_empty] at hlength
    omega
  have hpieces := trailing_ne_blank (arrivalShot (longPrompt n))
    (shotReferencePictures arrivalPack []) arrivalPack
  have hshort := length_le_applyInsertedText hpieces htrim hne
  intro hfits
  have hle : (longPrompt n).length ≤ maxPromptChars := hshort.trans hfits
  omega

/-- Words of the plan that would not fit refuse a document compiled from shorter ones; conformance
passes over a request under another id; and one piece of inserted text may read as two. -/
theorem fresh_compile_preflight_fails :
    (∃ doc, arrivalDoc (longPrompt 4001) (some "Walk") = .ok doc ∧
      arrivalConformance (longPrompt 4001) doc ≠ []) ∧
    ∃ doc, arrivalDoc "Enter" none = .ok doc ∧
      (∃ request, doc.requests[0]? = some request ∧
        (Edit.shotId "s2").apply request ≠ request ∧
        (Edit.insertedText arrivalMerged).apply request ≠ request) ∧
      arrivalConformance "Enter" (doc.edit 0 (.shotId "s2")) = [] ∧
      arrivalConformance "Enter" (doc.edit 0 (.insertedText arrivalMerged)) = [] := by
  constructor
  · obtain ⟨doc, hdoc, -⟩ := arrivalDoc_exists (longPrompt 4001) (some "Walk")
      (P := fun _ => True) (by decide +kernel)
    refine ⟨doc, hdoc, ?_⟩
    exact (compilePlan_eq_ok hdoc).refused (by decide) List.mem_cons_self
      (longPrompt_not_fits (by decide))
  · obtain ⟨doc, hdoc, hshotId⟩ := unrefined_arrival
    have hcompiles := compilePlan_eq_ok hdoc
    have hone : (arrivalPlan "Enter").shots = [arrivalShot "Enter"] := rfl
    obtain ⟨request, hrequests, hinserted, hcompiled⟩ := hcompiles.single hone
    have hrendered : renderedInsertedText arrivalMerged = renderedInsertedText
        (shotInsertedText arrivalPack (arrivalShot "Enter")) := by
      rw [arrival_insertedText]
      exact renderedInsertedText_merged _ _ _ _
    refine ⟨doc, hdoc, ⟨request, by rw [hrequests]; rfl, ?_, ?_⟩, hshotId,
      hcompiles.hidden hone rfl (fits_of_unrefined hcompiled rfl) hrendered⟩
    · intro hsame
      have hid : "s2" = request.shotId := congrArg CompiledRequest.shotId hsame
      rw [compileShot_shotId hcompiled] at hid
      exact absurd hid (by decide)
    · intro hsame
      have htext : arrivalMerged = request.insertedText :=
        congrArg CompiledRequest.insertedText hsame
      rw [hinserted, arrival_insertedText] at htext
      exact absurd (congrArg List.length htext) (by decide)

end Arrival

end SceneWorks.FilmCompile
