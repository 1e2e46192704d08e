import SceneWorks.LoadProgress.Cancellation

/-!
Whether the status of what lands goes with its stage. A post and the publisher turn the slot
into a payload apart from each other: the post derives the status of a compute phase from its
stage, the publisher always says it runs. They agree on every slot except a bare loading phase.
-/

namespace SceneWorks.LoadProgress

variable {Activity : Type} {describe : Activity → String} {op : Step Activity}
  {session session' : Session Activity}

def Consistent (payload : ProgressRequest) : Prop :=
  payload.status = .loadingModel ↔ payload.stage = .loadingModel

/-- The slot holds a compute phase that loads the model, under no load activity. -/
def BareLoading (state : Latest Activity) : Prop :=
  state.activity = none ∧ ∃ message, state.compute = some (message, .loadingModel)

def Publishes (session : Session Activity) (op : Step Activity) : Prop :=
  op = .publisherRead ∧ session.publisher = .ordered ∧ session.latest.deaf = false ∧
    session.latest.pending = true

def Plain (session : Session Activity) (op : Step Activity) : Prop :=
  Publishes session op → ¬ BareLoading session.latest

/-- Every payload about the session that is not terminal is consistent. -/
def Even (session : Session Activity) : Prop :=
  ∀ payload, Around session payload → terminal payload.status = false → Consistent payload

theorem consistent_loadingPayload (payload : ProgressRequest) (activity : Activity) :
    Consistent (loadingPayload describe payload activity) := by
  simp [Consistent, loadingPayload]

theorem Even.reread (h : Even session) {payload : ProgressRequest}
    (hpayload : Around session payload)
    (hopen : terminal (session.latest.reread describe payload).status = false) :
    Consistent (session.latest.reread describe payload) := by
  unfold Latest.reread at hopen ⊢
  split
  · next control hcontrol =>
      have haround : Around session control :=
        .cancellation (Option.filter_eq_some_iff.mp hcontrol).1
      rw [hcontrol] at hopen
      exact h control haround hopen
  · next hcontrol =>
      rw [hcontrol] at hopen
      split
      · next hphase =>
          simp only [hphase, if_true] at hopen
          split
          · exact consistent_loadingPayload payload _
          · next message stage _ _ =>
              by_cases hstage : stage = .loadingModel
              · simp [Consistent, hstage]
              · simp [Consistent, hstage]
          · next hactivity hcompute =>
              simp only [hactivity, hcompute] at hopen
              exact h payload hpayload hopen
      · next hphase =>
          simp only [hphase] at hopen
          exact h payload hpayload hopen

theorem Even.published (h : Even session) (hplain : ¬ BareLoading session.latest)
    (hopen : terminal (session.latest.published describe).status = false) :
    Consistent (session.latest.published describe) := by
  unfold Latest.published at hopen ⊢
  dsimp only at hopen ⊢
  split
  · exact consistent_loadingPayload _ _
  · next message stage hactivity hcompute =>
      have hstage : stage ≠ .loadingModel := by
        rintro rfl
        exact hplain ⟨hactivity, message, hcompute⟩
      simp [Consistent, hstage]
  · next hactivity hcompute =>
      simp only [hactivity, hcompute] at hopen
      cases hbaseline : session.latest.baseline with
      | none => simp [Consistent, preparingPayload]
      | some payload =>
          rw [hbaseline] at hopen
          exact h payload (.baseline hbaseline) hopen

theorem Even.moves (h : Even session) (hmoves : Moves describe session op session')
    (hhanded : ∀ id payload cancelling, op = .prepare id payload cancelling → Consistent payload)
    (hplain : Plain session op) : Even session' := by
  intro payload haround hopen
  rcases haround.origin hmoves with hbefore | ⟨id, cancelling, hop, -⟩ | ⟨ordered, hordered, rfl⟩ |
    ⟨hop, hpublisher, hlistening, hpending, rfl⟩
  · exact h payload hbefore hopen
  · exact hhanded id payload cancelling hop
  · exact h.reread hordered hopen
  · exact h.published (hplain ⟨hop, hpublisher, hlistening, hpending⟩) hopen

theorem even_fresh : Even (Session.fresh : Session Activity) := by
  intro payload haround
  cases haround with
  | baseline h | cancellation h | post _ h | publishing h => cases h
  | answered _ _ h => cases h

/-- Every POST that landed and is not terminal is consistent. -/
def LandsConsistent (session : Session Activity) : Prop :=
  ∀ party sent answer, .answered party sent answer ∈ session.history → answer.landed = true →
    terminal sent.status = false → Consistent sent

/-- From this slot the publisher and a phase post report the same, where there is a phase to
report or the post's payload is the one the publisher starts from. -/
def Agrees (describe : Activity → String) (state : Latest Activity) : Prop :=
  ∀ payload, phaseUpdate payload = true →
    state.activity.isSome = true ∨ state.compute.isSome = true ∨ state.baseline = some payload →
      (state.published describe).message = (state.reread describe payload).message ∧
        (state.published describe).status = (state.reread describe payload).status ∧
        (state.published describe).stage = (state.reread describe payload).stage

theorem agrees_of_plain {state : Latest Activity} (hopen : state.deaf = false)
    (hplain : ¬ BareLoading state) : Agrees describe state := by
  intro payload hphase hfrom
  have hlatch := (deaf_eq_false.mp hopen).2
  cases hactivity : state.activity with
  | some activity =>
      simp [Latest.published, Latest.reread, hlatch, hphase, hactivity, loadingPayload]
  | none =>
      cases hcompute : state.compute with
      | some phase =>
          obtain ⟨message, stage⟩ := phase
          have hstage : stage ≠ .loadingModel := by
            rintro rfl
            exact hplain ⟨hactivity, message, hcompute⟩
          simp [Latest.published, Latest.reread, hlatch, hphase, hactivity, hcompute, hstage]
      | none =>
          have hbaseline : state.baseline = some payload := by
            simpa [hactivity, hcompute] using hfrom
          simp [Latest.published, Latest.reread, hlatch, hphase, hactivity, hcompute, hbaseline]

theorem Even.landsConsistent (h : Even session) : LandsConsistent session := by
  intro party sent answer hanswered _ hopen
  exact h sent (.answered party answer hanswered) hopen

/-- A post is handed a payload whose status goes with its stage. -/
def HandsConsistent (op : Step Activity) : Prop :=
  ∀ id payload cancelling, op = .prepare id payload cancelling → Consistent payload

/-- In every run on consistent payloads in which the publisher reads no bare loading phase, what
lands is consistent, and the publisher agrees with the posts whenever it sends. -/
theorem landed_consistent (describe : Activity → String) (steps : List (Step Activity))
    (hhanded : ∀ op ∈ steps, HandsConsistent op)
    (hplain : Run.Along (step describe) Plain .fresh steps) :
    Run.Throughout (step describe) LandsConsistent .fresh steps ∧
      Run.Along (step describe) (fun session op => Publishes session op →
        Agrees describe session.latest) .fresh steps := by
  constructor
  · refine Run.throughout_of_invariant Even ?_ (fun _ h => h.landsConsistent) even_fresh
      (hplain.and_mem hhanded)
    rintro session op heven ⟨hplain, hhanded⟩
    exact heven.moves (moves_step session op) hhanded hplain
  · refine hplain.imp ?_
    intro session op hplain hpublishes
    exact agrees_of_plain hpublishes.2.2.1 (hplain hpublishes)

def publication : List (Step Unit) :=
  [.publisherWake, .publisherQueue, .publisherAcquire, .publisherRead, .publisherAnswer .ok]

theorem landed_consistent_activity :
    Run.Throughout (step fun _ => "Loading model.") LandsConsistent .fresh
        (.observe (some ()) :: publication) ∧
      Run.Along (step fun _ => "Loading model.") (fun session op => Publishes session op →
        Agrees (fun _ => "Loading model.") session.latest) .fresh
        (.observe (some ()) :: publication) := by
  apply landed_consistent
  · intro op hop id payload cancelling heq
    subst heq
    simp [publication] at hop
  · have hbusy : ∀ state : Latest Unit, state.activity = some () → ¬ BareLoading state := by
      rintro state hactivity ⟨hnone, -⟩
      rw [hactivity] at hnone
      cases hnone
    refine ⟨?_, ?_, ?_, ?_, ?_, ?_, trivial⟩
    · rintro ⟨hop, -⟩
      cases hop
    all_goals exact fun _ => hbusy _ rfl

/-- A text encoder that loads is published as running under the stage of loading a model. -/
theorem textEncoder_not_consistent :
    ¬ (∀ steps : List (Step Unit), (∀ op ∈ steps, HandsConsistent op) →
      Run.Throughout (step fun _ => "Loading model.") LandsConsistent .fresh steps) := by
  intro h
  have hhanded : ∀ op ∈ (Step.generatorProgress (.loading .textEncoder) :: publication),
      HandsConsistent op := by
    intro op hop id payload cancelling heq
    subst heq
    simp [publication] at hop
  have hrun := Run.throughout_iff_exec.mp (h _ hhanded) _ [] (List.append_nil _).symm
  have hsent := hrun .publisher
    { preparingPayload with
      message := "Preparing text encoder."
      status := .running } .ok ?_ rfl rfl
  · exact absurd (hsent.mpr rfl) (by decide)
  · exact List.mem_cons_of_mem _ (List.mem_cons_of_mem _ List.mem_cons_self)

end SceneWorks.LoadProgress
