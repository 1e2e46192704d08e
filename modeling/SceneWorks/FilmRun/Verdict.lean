import SceneWorks.FilmRun.Apart

/-!
The verdict of a replacement. A replacement decides one shot: a run that stopped for a
reason it may be resumed from keeps that stop while another selected shot has no take, and a
completed run stays completed unless the replacement itself raised a stop. Only what is
returned is judged here, so a controller may be left anywhere on the way.
-/

namespace SceneWorks
namespace FilmRun

open Crash Controller

/-- Left anywhere: nothing is said. -/
abbrev Returns {α : Type} (pre : Session → Prop) (program : Controller α)
    (post : α → Session → Prop) : Prop :=
  Triple pre program post fun _ _ => True

/-- What does not speak of the verdict. -/
def Verdictless (P : RunRecord → Prop) : Prop :=
  ∀ record outcome stop state, P record → P { record with outcome, stop, state }

theorem returns_persist (P : RunRecord → Prop) :
    Returns (fun s => P s.record) persist fun _ s => P s.record := by
  apply Triple.bind fun _ s => P s.record
  · exact Within.keeps quiet_next (fun _ _ hdrift hs => hdrift.record ▸ hs) fun _ _ => trivial
  · intro move
    cases move.answer with
    | done => exact triple_modify fun _ hs => hs
    | lost =>
        apply Triple.bind fun _ s => P s.record
        · exact triple_modify fun _ hs => hs
        · exact fun _ => triple_throw fun _ _ => trivial
    | refused | failed => exact triple_throw fun _ _ => trivial

theorem returns_close {P : RunRecord → Prop} (hP : Verdictless P)
    (verdict : RunOutcome × Option RunStop) :
    Returns (fun s => P s.record) (close verdict) fun _ s => P s.record ∧
      s.record.outcome = verdict.1 ∧ s.record.stop = verdict.2 ∧ s.record.state = .finished := by
  apply Triple.bind fun _ s => P s.record ∧
    s.record.outcome = verdict.1 ∧ s.record.stop = verdict.2 ∧ s.record.state = .finished
  · exact triple_modify fun s hs => ⟨hP s.record _ _ _ hs, rfl, rfl, rfl⟩
  · exact fun _ => returns_persist fun record => P record ∧
      record.outcome = verdict.1 ∧ record.stop = verdict.2 ∧ record.state = .finished

/-- Closing a run keeps all but its verdict, which is the classifier's. -/
theorem returns_finish {P : RunRecord → Prop} (hP : Verdictless P) (exportOk : Bool) :
    Returns (fun s => P s.record) (finish exportOk) fun _ s => P s.record := by
  apply Triple.bind fun _ s => P s.record
  · exact triple_get fun _ hs => hs
  · intro s'
    apply Triple.bind fun _ s => P s.record
    · exact triple_modify fun _ hs => hs
    · intro _
      exact (returns_close hP _).weaken (fun _ hs => hs) (fun _ _ hs => hs.1) fun _ _ hs => hs

theorem verdictless_outstanding (shotId : String) (others : List ShotRunRecord) :
    Verdictless fun record => record.outstanding shotId = others :=
  fun _ _ _ _ h => h

theorem isResumable_of_stop {record : RunRecord} {stop : RunStop}
    (hstate : record.state = .finished)
    (hstop : record.stop = some stop) (hresumable : stop.resumable = true) :
    record.isResumable = true := by
  simp [RunRecord.isResumable, hstate, hstop, hresumable]

/-- A resumable stop outlives the replacement while another shot is outstanding. -/
theorem returns_finishReplacement_resumable {outcome : RunOutcome} {stop : RunStop}
    (hresumable : stop.resumable = true) (exportOk : Bool) (shotId : String) :
    Returns (fun _ => True) (finishReplacement exportOk shotId (outcome, some stop))
      fun _ s => s.record.outstanding shotId ≠ [] → s.record.isResumable = true := by
  apply Triple.bind fun s' s => s' = s
  · exact triple_get fun _ _ => rfl
  · intro s'
    dsimp only
    apply Triple.ite
    · intro hcondition
      simp [hresumable] at hcondition
    · intro _
      apply Triple.ite
      · intro _
        apply Triple.bind fun _ _ => True
        · exact triple_modify fun _ _ => trivial
        · intro _
          refine (returns_close (P := fun _ => True) (fun _ _ _ _ h => h)
            (outcome, some stop)).weaken (fun _ _ => trivial) ?_ fun _ _ hs => hs
          intro _ s hs _
          exact isResumable_of_stop hs.2.2.2 hs.2.2.1 hresumable
      · intro hcondition
        refine (returns_finish (verdictless_outstanding shotId []) exportOk).weaken ?_ ?_
          fun _ _ hs => hs
        · rintro s rfl
          by_contra houtstanding
          apply hcondition
          simp [hresumable, houtstanding]
        · intro _ s hs hnot
          exact absurd hs hnot

theorem returns_any {α : Type} (program : Controller α) :
    Returns (fun _ => True) program fun _ _ => True := by
  intro s _
  cases program s with
  | ok a s' => trivial
  | error e s' => trivial

theorem returns_record {P : RunRecord → Prop} :
    Returns (fun s => P s.record) (do return (← get).record)
      fun record s => record = s.record ∧ P s.record := by
  apply Triple.bind fun s' s => s' = s ∧ P s.record
  · exact triple_get fun _ hs => ⟨rfl, hs⟩
  · intro s'
    apply triple_pure
    rintro s ⟨rfl, hs⟩
    exact ⟨rfl, hs⟩

/-- What is left of a replacement that is returned: its operation, which a resume recovers
first, or what `closed` says of a replacement that was closed. -/
theorem returns_completeTakeOperation {plan : Plan} {i : Nat} {shotId : String}
    {prior : RunOutcome × Option RunStop} {pre : Session → Prop} {closed : RunRecord → Prop}
    (hpre : ∀ s s', Drifts s s' → pre s → pre s')
    (hclosed : ∀ replaced : Bool, Returns pre
      (do
        modifyRecord fun record => record.modifyShot i fun shot =>
          { shot with outcome := if replaced then .rendered else .failed }
        modifyRecord RunRecord.markExportStale
        persist
        deliverReplacement plan replaced
        let exportOk ← exportReplacement replaced
        modifyRecord fun record => { record with activeTakeOperation := none }
        finishReplacement exportOk shotId prior
        return (← get).record)
      fun record _ => closed record) :
    Returns pre (completeTakeOperation plan i shotId prior)
      fun record _ => record.activeTakeOperation.isSome ∨ closed record := by
  apply Triple.bind fun s' s => pre s ∧ s'.record = s.record
  · exact triple_get fun _ hs => ⟨hs, rfl⟩
  · intro s'
    apply Triple.bind fun _ s => pre s ∧ s'.record = s.record
    · refine Within.keeps quiet_canceled ?_ fun _ _ => trivial
      intro s s'' hdrift hs
      exact ⟨hpre s s'' hdrift hs.1, hs.2.trans hdrift.record.symm⟩
    · intro isCanceled
      apply Triple.ite
      · intro hleft
        have hoperation : s'.record.activeTakeOperation.isSome := by
          have hundispatched := (Bool.and_eq_true_iff.mp hleft).2
          simp only [undispatched, Option.any_eq_true] at hundispatched
          obtain ⟨operation, hoperation, -⟩ := hundispatched
          rw [hoperation]
          rfl
        have hkept := returns_finish
          (P := fun record => record.activeTakeOperation.isSome) (fun _ _ _ _ h => h) false
        apply Triple.bind fun _ s => s.record.activeTakeOperation.isSome
        · exact hkept.mono fun s hs => hs.2 ▸ hoperation
        · intro _
          refine Triple.weaken (returns_record (P := fun record =>
            record.activeTakeOperation.isSome)) (fun _ hs => hs) ?_ fun _ _ hs => hs
          rintro record s ⟨rfl, hs⟩
          exact .inl hs
      · intro _
        exact (hclosed _).weaken (fun _ hs => hs.1) (fun _ _ hs => .inr hs) fun _ _ hs => hs

theorem returns_completeTakeOperation_resumable {plan : Plan} {i : Nat} {shotId : String}
    {outcome : RunOutcome} {stop : RunStop} (hresumable : stop.resumable = true) :
    Returns (fun _ => True) (completeTakeOperation plan i shotId (outcome, some stop))
      fun record _ => record.activeTakeOperation.isSome ∨
        (record.outstanding shotId ≠ [] → record.isResumable = true) := by
  apply returns_completeTakeOperation
  · exact fun _ _ _ _ => trivial
  · intro replaced
    apply Triple.bind _ (returns_any _)
    intro _
    apply Triple.bind _ (returns_any _)
    intro _
    apply Triple.bind _ (returns_any _)
    intro _
    apply Triple.bind _ (returns_any _)
    intro _
    apply Triple.bind _ (returns_any _)
    intro exportOk
    apply Triple.bind _ (returns_any _)
    intro _
    apply Triple.bind _ (returns_finishReplacement_resumable hresumable exportOk shotId)
    intro _
    refine Triple.weaken (returns_record (P := fun record =>
      record.outstanding shotId ≠ [] → record.isResumable = true)) (fun _ hs => hs) ?_
      fun _ _ hs => hs
    rintro record s ⟨rfl, hs⟩
    exact hs

/-- A controller's stop and what it was asked for: the first stop raised stays. -/
structure Raising (s s' : Session) : Prop where
  stop : Raises s.stop s'.stop
  exporting : s'.exporting = s.exporting

theorem Raising.refl (s : Session) : Raising s s :=
  ⟨Raises.refl _, rfl⟩

theorem Raising.trans (a b c : Session) (hab : Raising a b) (hbc : Raising b c) : Raising a c :=
  ⟨hab.stop.trans hbc.stop, hbc.exporting.trans hab.exporting⟩

namespace Controller

abbrev Stopping {α : Type} (program : Controller α) : Prop :=
  Within Raising program

theorem Aside.stopping {α : Type} {program : Controller α} (h : Aside program) :
    Stopping program :=
  fun s => ⟨(h s).stop, (h s).exporting⟩

theorem Quiet.stopping {α : Type} {program : Controller α} (h : Quiet program) :
    Stopping program :=
  h.aside.stopping

theorem Stopping.bind {α β : Type} {program : Controller α} {next : α → Controller β}
    (h : Stopping program) (hnext : ∀ a, Stopping (next a)) : Stopping (program >>= next) :=
  Within.bind Raising.trans h hnext

theorem Stopping.pure {α : Type} (a : α) : Stopping (pure a : Controller α) :=
  Within.pure Raising.refl a

theorem Stopping.get : Stopping (get : Controller Session) :=
  Within.get Raising.refl

theorem Stopping.fail {α : Type} (e : HarnessError) : Stopping (fail e : Controller α) :=
  Within.throw Raising.refl _

theorem stopping_modifyRecord (f : RunRecord → RunRecord) : Stopping (modifyRecord f) :=
  fun _ => ⟨Raises.refl _, rfl⟩

theorem stopping_modifyWorld (f : World → World) : Stopping (modifyWorld f) :=
  fun _ => ⟨Raises.refl _, rfl⟩

theorem stopping_persist : Stopping persist :=
  aside_persist.stopping

theorem stopping_obtainTimeline : Stopping obtainTimeline := by
  apply Stopping.bind Stopping.get
  intro s
  dsimp only
  split
  · exact Stopping.bind quiet_expectOk.stopping fun _ => Stopping.pure _
  · apply Stopping.bind quiet_expectOk.stopping
    intro _
    apply Stopping.bind Stopping.get
    intro s'
    split
    · exact Stopping.bind quiet_expectOk.stopping fun _ => Stopping.pure _
    · apply Stopping.bind quiet_next.stopping
      intro move
      cases move.answer with
      | done => exact Stopping.bind (stopping_modifyWorld _) fun _ => Stopping.pure _
      | lost => exact Stopping.bind (stopping_modifyWorld _) fun _ => Stopping.fail _
      | refused | failed => exact Stopping.fail _

theorem stopping_saveDelivery : Stopping saveDelivery := by
  apply Stopping.bind quiet_next.stopping
  intro move
  cases move.answer with
  | done =>
      apply Stopping.bind (stopping_modifyWorld _)
      intro _
      apply Within.ite (Stopping.fail _)
      apply Stopping.bind Stopping.get
      intro s
      cases s.world.timeline with
      | some saved => exact Stopping.pure _
      | none => exact Stopping.fail _
  | lost => exact Stopping.bind (stopping_modifyWorld _) fun _ => Stopping.fail _
  | refused | failed => exact Stopping.fail _

theorem stopping_assembleTimeline : Stopping assembleTimeline := by
  apply Stopping.bind quiet_projectId.stopping
  intro _
  apply Stopping.bind Stopping.get
  intro s
  apply Within.ite (Stopping.pure _)
  apply Stopping.bind stopping_obtainTimeline
  intro timelineId
  apply Stopping.bind stopping_saveDelivery
  intro revision
  apply Stopping.bind (stopping_modifyRecord _)
  exact fun _ => Stopping.bind stopping_persist fun _ => Stopping.pure _

theorem stopping_postJob (kind : World → JobKind) : Stopping (postJob kind) := by
  apply Stopping.bind quiet_next.stopping
  intro move
  apply Stopping.bind Stopping.get
  intro s
  cases move.answer with
  | done => exact Stopping.bind (stopping_modifyWorld _) fun _ => Stopping.pure _
  | lost => exact Stopping.bind (stopping_modifyWorld _) fun _ => Stopping.fail _
  | refused => exact Stopping.pure _
  | failed => exact Stopping.fail _

theorem stopping_exportJob (timelineId : String) (inFlight : Option JobId) :
    Stopping (exportJob timelineId inFlight) := by
  apply Stopping.bind (quiet_knownExport timelineId inFlight).stopping
  intro found
  cases found with
  | some id => exact Stopping.pure _
  | none =>
      apply Stopping.bind quiet_canceled.stopping
      intro isCanceled
      apply Within.ite
      · apply Stopping.bind (aside_halt (by decide)).stopping
        exact fun _ => Stopping.bind stopping_persist fun _ => Stopping.pure _
      · apply Stopping.bind
        · apply Stopping.bind (stopping_postJob _)
          intro created
          cases created with
          | some id => exact Stopping.pure _
          | none => exact Stopping.fail _
        · exact fun _ => Stopping.pure _

theorem stopping_haltExport (stop : PollStop) : Stopping (haltExport stop) := by
  cases stop with
  | operator | runBudget => exact (aside_halt (by decide)).stopping
  | terminal | shotBudget | assetsUnsettled => exact Stopping.pure _

theorem stopping_watchExport (id : JobId) : Stopping (watchExport id) := by
  apply Stopping.bind (quiet_getSnapshot id).stopping
  intro job
  apply Stopping.bind (stopping_modifyRecord _)
  intro _
  apply Stopping.bind stopping_persist
  intro _
  apply Stopping.bind (quiet_waitForJob id).stopping
  intro ⟨view, stop⟩
  apply Stopping.bind (stopping_modifyRecord _)
  intro _
  apply Stopping.bind stopping_persist
  exact fun _ => Stopping.bind (stopping_haltExport stop) fun _ => Stopping.pure _

theorem stopping_requestExport (superseded : Option JobId) :
    Stopping (requestExport superseded) := by
  apply Stopping.bind Stopping.get
  intro s
  apply Within.ite
  · apply Stopping.bind quiet_utcNow.stopping
    exact fun _ => Stopping.bind (stopping_modifyRecord _) fun _ => stopping_persist
  · exact Stopping.pure _

theorem stopping_runExport : Stopping runExport := by
  apply Stopping.bind quiet_projectId.stopping
  intro _
  apply Stopping.bind Stopping.get
  intro s
  dsimp only
  split
  · exact Stopping.pure _
  · next timeline _ =>
      apply Within.ite (Stopping.pure _)
      apply Stopping.bind quiet_canceled.stopping
      intro isCanceled
      apply Within.ite
      · exact Stopping.bind (aside_halt (by decide)).stopping fun _ => Stopping.pure _
      · apply Stopping.bind (stopping_modifyRecord _)
        intro _
        apply Stopping.bind (stopping_requestExport _)
        intro _
        apply Stopping.bind (stopping_exportJob _ _)
        intro found
        cases found with
        | none => exact Stopping.pure _
        | some id => exact stopping_watchExport id

end Controller

namespace RunRecord

def hasCurrentExport (record : RunRecord) : Bool :=
  record.exported.any (·.isCurrent)

/-- An export is only called current beside a cut. -/
def CurrentHasCut (record : RunRecord) : Prop :=
  record.hasCurrentExport = true → record.timeline.isSome

theorem hasCurrentExport_markExportStale (record : RunRecord) :
    record.markExportStale.hasCurrentExport = false := by
  cases hexported : record.exported <;>
    simp [hasCurrentExport, markExportStale, hexported, ExportRecord.isCurrent]

end RunRecord

theorem Quiet.returns {α : Type} {program : Controller α} (h : Quiet program)
    (P : RunRecord → Prop) : Returns (fun s => P s.record) program fun _ s => P s.record :=
  Within.keeps h (fun _ _ hdrift hs => hdrift.record ▸ hs) fun _ _ => trivial

theorem Aside.returns {α : Type} {program : Controller α} (h : Aside program)
    {P : RunRecord → Prop} (hP : ∀ a b : RunRecord, a.cut = b.cut → P b → P a) :
    Returns (fun s => P s.record) program fun _ s => P s.record :=
  Within.keeps h (fun _ _ hapart hs => hP _ _ hapart.cut hs) fun _ _ => trivial

theorem currentHasCut_of_cut {a b : RunRecord} (hcut : a.cut = b.cut) (h : b.CurrentHasCut) :
    a.CurrentHasCut := by
  simp only [RunRecord.cut, Prod.mk.injEq] at hcut
  simp only [RunRecord.CurrentHasCut, RunRecord.hasCurrentExport, hcut.1, hcut.2.1]
  exact h

theorem returns_assembleTimeline :
    Returns (fun s => s.record.CurrentHasCut) assembleTimeline fun _ s =>
      s.record.CurrentHasCut := by
  apply Triple.bind _ (Quiet.returns quiet_projectId _)
  intro _
  apply Triple.bind _ (Quiet.returns Quiet.get _)
  intro s'
  apply Triple.ite
  · exact fun _ => triple_pure fun _ hs => hs
  · intro _
    apply Triple.bind _ (returns_any _ |>.mono fun _ _ => trivial)
    intro timelineId
    apply Triple.bind _ (returns_any _)
    intro revision
    apply Triple.bind fun _ s => s.record.CurrentHasCut
    · exact triple_modify fun _ _ _ => rfl
    · intro _
      apply Triple.bind _ (returns_persist _)
      exact fun _ => triple_pure fun _ hs => hs

theorem hasCurrentExport_of_cut {a b : RunRecord} (hcut : a.cut = b.cut) :
    a.hasCurrentExport = b.hasCurrentExport := by
  simp only [RunRecord.cut, Prod.mk.injEq] at hcut
  simp only [RunRecord.hasCurrentExport, hcut.2.1]

theorem returns_halt_notCurrent {outcome : RunOutcome} {reason : String} {resumable : Bool}
    (h : (outcome, { reason, resumable }) ∈ raisedStops) :
    Returns (fun s => s.record.hasCurrentExport = false) (halt outcome reason resumable)
      fun _ s => s.record.hasCurrentExport = false :=
  Aside.returns (aside_halt h) (P := fun record => record.hasCurrentExport = false)
    fun _ _ hcut hb => (hasCurrentExport_of_cut hcut).trans hb

/-- Asking for a job leaves the record in memory as it is. -/
theorem within_postJob (kind : World → JobKind) :
    Within (fun s s' : Session => s'.record = s.record) (postJob kind) := by
  have hrefl : ∀ s : Session, s.record = s.record := fun _ => rfl
  have htrans : ∀ a b c : Session, b.record = a.record → c.record = b.record →
      c.record = a.record := fun _ _ _ hab hbc => hbc.trans hab
  apply Within.bind htrans fun s => (quiet_next s).record
  intro move
  apply Within.bind htrans (Within.get hrefl)
  intro s
  cases move.answer with
  | done => exact Within.bind htrans (fun _ => rfl) fun _ => Within.pure hrefl _
  | lost => exact Within.bind htrans (fun _ => rfl) fun _ => Within.throw hrefl _
  | refused => exact Within.pure hrefl _
  | failed => exact Within.throw hrefl _

theorem within_postExport (timelineId : String) :
    Within (fun s s' : Session => s'.record = s.record) (postExport timelineId) := by
  apply Within.bind (fun _ _ _ hab hbc => hbc.trans hab) (within_postJob _)
  intro created
  cases created with
  | some id => exact fun _ => rfl
  | none => exact fun _ => rfl

theorem returns_watchExport (id : JobId) :
    Returns (fun _ => True) (watchExport id)
      fun ok s => ok = false → s.record.hasCurrentExport = false := by
  apply Triple.bind _ (returns_any _)
  intro job
  apply Triple.bind _ (returns_any _)
  intro _
  apply Triple.bind _ (returns_any _)
  intro _
  apply Triple.bind _ (returns_any _)
  intro ⟨view, stop⟩
  have hrecord : Returns (fun _ => True)
      (modifyRecord fun record =>
        { record with
          exported := some
            { timelineRevision := record.exported.bind (·.timelineRevision), jobId := id,
              status := settledStatus view stop, stale := false,
              assetId := exportAssetFromResult view.result } })
      fun _ s => s.record.hasCurrentExport =
        (settledStatus view stop == "completed" && (exportAssetFromResult view.result).isSome) := by
    apply triple_modify
    intro s _
    simp [RunRecord.hasCurrentExport, ExportRecord.isCurrent]
  apply Triple.bind _ hrecord
  intro _
  apply Triple.bind _ (returns_persist fun record => record.hasCurrentExport =
    (settledStatus view stop == "completed" && (exportAssetFromResult view.result).isSome))
  intro _
  apply Triple.bind fun _ s => s.record.hasCurrentExport =
    (settledStatus view stop == "completed" && (exportAssetFromResult view.result).isSome)
  · have hhalt : Aside (haltExport stop) := by
      cases stop with
      | operator | runBudget => exact aside_halt (by decide)
      | terminal | shotBudget | assetsUnsettled => exact Aside.pure _
    exact Aside.returns hhalt (P := fun record => record.hasCurrentExport =
      (settledStatus view stop == "completed" && (exportAssetFromResult view.result).isSome))
      fun _ _ hcut hb => (hasCurrentExport_of_cut hcut).trans hb
  · intro _
    exact triple_pure fun s hs hfalse => hs.trans hfalse

theorem exported_supersede (record : RunRecord) : record.supersede.exported = record.exported := by
  simp only [RunRecord.supersede]
  split
  · split <;> rfl
  · rfl

theorem returns_requestExport (superseded : Option JobId) :
    Returns (fun s => s.record.hasCurrentExport = false) (requestExport superseded)
      fun _ s => s.record.hasCurrentExport = false := by
  apply Triple.bind _ (Quiet.returns Quiet.get fun record => record.hasCurrentExport = false)
  intro s'
  apply Triple.ite
  · intro _
    apply Triple.bind _ (returns_any _ |>.mono fun _ _ => trivial)
    intro requestedAt
    apply Triple.bind fun _ s => s.record.hasCurrentExport = false
    · exact triple_modify fun _ _ => rfl
    · exact fun _ => returns_persist fun record => record.hasCurrentExport = false
  · exact fun _ => triple_pure fun _ hs => hs

theorem returns_exportJob (timelineId : String) (inFlight : Option JobId) :
    Returns (fun s => s.record.hasCurrentExport = false) (exportJob timelineId inFlight)
      fun _ s => s.record.hasCurrentExport = false := by
  apply Triple.bind _ (Quiet.returns (quiet_knownExport timelineId inFlight)
    fun record => record.hasCurrentExport = false)
  intro found
  cases found with
  | some id => exact triple_pure fun _ hs => hs
  | none =>
      apply Triple.bind _ (Quiet.returns quiet_canceled fun record =>
        record.hasCurrentExport = false)
      intro isCanceled
      apply Triple.ite
      · intro _
        apply Triple.bind _ (returns_halt_notCurrent (by decide))
        intro _
        apply Triple.bind _ (returns_persist fun record => record.hasCurrentExport = false)
        exact fun _ => triple_pure fun _ hs => hs
      · intro _
        apply Triple.bind fun _ s => s.record.hasCurrentExport = false
        · exact Within.keeps (within_postExport timelineId)
            (fun _ _ hsame hs => hsame ▸ hs) fun _ _ => trivial
        · exact fun _ => triple_pure fun _ hs => hs

/-- An export that did not complete is not called current. -/
theorem returns_runExport :
    Returns (fun s => s.record.CurrentHasCut) runExport
      fun ok s => ok = false → s.record.hasCurrentExport = false := by
  apply Triple.bind _ (Quiet.returns quiet_projectId _)
  intro _
  apply Triple.bind fun s' s => s.record.CurrentHasCut ∧ s'.record = s.record
  · exact triple_get fun _ hs => ⟨hs, rfl⟩
  · intro s'
    dsimp only
    split
    · next hnone =>
        apply triple_pure
        rintro s ⟨hs, hsame⟩ -
        cases hcurrent : s.record.hasCurrentExport with
        | false => rfl
        | true =>
            have hsome := hs hcurrent
            rw [← hsame, hnone] at hsome
            cases hsome
    · next timeline htimeline =>
        apply Triple.ite
        · exact fun _ => triple_pure fun s _ hfalse => by cases hfalse
        · intro hcurrent
          have hnot : s'.record.hasCurrentExport = false := by
            simpa [RunRecord.hasCurrentExport] using hcurrent
          have hpre : ∀ s : Session, (s.record.CurrentHasCut ∧ s'.record = s.record) →
              s.record.hasCurrentExport = false := fun s hs => hs.2 ▸ hnot
          apply Triple.bind fun _ s => s.record.hasCurrentExport = false
          · exact (Quiet.returns quiet_canceled fun record =>
              record.hasCurrentExport = false).mono hpre
          · intro isCanceled
            apply Triple.ite
            · intro _
              apply Triple.bind _ (returns_halt_notCurrent (by decide))
              exact fun _ => triple_pure fun s hs _ => hs
            · intro _
              apply Triple.bind fun _ s => s.record.hasCurrentExport = false
              · apply triple_modify
                intro s hs
                simp only [RunRecord.hasCurrentExport, exported_supersede]
                exact hs
              · intro _
                apply Triple.bind _ (returns_requestExport _)
                intro _
                apply Triple.bind _ (returns_exportJob _ _)
                intro found
                cases found with
                | none => exact triple_pure fun s hs _ => hs
                | some id => exact (returns_watchExport id).mono fun _ _ => trivial

/-- The shot of that id has a take that represents it. -/
def RunRecord.hasTake (record : RunRecord) (shotId : String) : Bool :=
  (record.shots.find? fun shot => shot.shotId == shotId).any (·.selectedAttempt.isSome)

/-- Completed without a stop, or stopped by a stop that was raised on the way. -/
def RunRecord.CompletedOrRaised (record : RunRecord) : Prop :=
  record.outcome = .completed ∧ record.stop = none ∨
    ∃ raised ∈ raisedStops, record.outcome = raised.1 ∧ record.stop = some raised.2

/-- What is known when a replacement is to be closed: an export that failed is not called
current, unless a stop says what went wrong. -/
structure Closing (exporting exportOk : Bool) (s : Session) : Prop where
  stop : Raises none s.stop
  failed : exportOk = false → s.stop = none →
    exporting = true ∧ s.record.hasCurrentExport = false

theorem returns_finish_stopped {raised : RunOutcome × RunStop} (hraised : raised ∈ raisedStops)
    (exportOk : Bool) :
    Returns (fun s => s.stop = some raised) (finish exportOk)
      fun _ s => s.record.CompletedOrRaised := by
  apply Triple.bind fun s' _ => True ∧ s'.stop = some raised
  · exact triple_get fun _ hs => ⟨trivial, hs⟩
  · intro s'
    apply Triple.given
    intro hstop
    have hverdict : classify s'.record s'.stop exportOk = (raised.1, some raised.2) := by
      rw [hstop]
      rfl
    apply Triple.bind _ (returns_any _)
    intro _
    rw [hverdict]
    refine (returns_close (P := fun _ => True) (fun _ _ _ _ h => h)
      (raised.1, some raised.2)).weaken (fun _ _ => trivial) ?_ fun _ _ hs => hs
    intro _ s hs
    exact .inr ⟨raised, hraised, hs.2.1, hs.2.2.1⟩

/-- A completed run stays completed when another take of it lands. -/
theorem returns_finishReplacement_completed (exporting exportOk : Bool) (shotId : String) :
    Returns (Closing exporting exportOk) (finishReplacement exportOk shotId (.completed, none))
      fun _ s => s.record.hasTake shotId = true →
        (exporting = true → s.record.hasCurrentExport = true) → s.record.CompletedOrRaised := by
  apply Triple.bind fun s' s => Closing exporting exportOk s ∧ s' = s
  · exact triple_get fun _ hs => ⟨hs, rfl⟩
  · intro s'
    dsimp only
    apply Triple.ite
    · intro hlanded
      have hnone : s'.stop = none := by
        simpa using (Bool.and_eq_true_iff.mp hlanded).2
      apply Triple.ite
      · intro _
        refine (returns_close (P := fun _ => True) (fun _ _ _ _ h => h)
          (.completed, none)).weaken (fun _ _ => trivial) ?_ fun _ _ hs => hs
        intro _ s hs _ _
        exact .inl ⟨hs.2.1, hs.2.2.1⟩
      · intro hexport
        refine (returns_close (P := fun record =>
          exporting = true ∧ record.hasCurrentExport = false) (fun _ _ _ _ h => h) _).weaken
          ?_ ?_ fun _ _ hs => hs
        · rintro s ⟨hs, rfl⟩
          exact hs.failed (by simpa using hexport) hnone
        · intro _ s hs _ hcurrent
          rw [hs.1.2] at hcurrent
          exact absurd (hcurrent hs.1.1) Bool.false_ne_true
    · intro hnot
      by_cases hstop : s'.stop = none
      · refine (returns_finish (P := fun record => record.hasTake shotId = false)
          (fun _ _ _ _ h => h) exportOk).weaken ?_ ?_ fun _ _ hs => hs
        · rintro s ⟨-, rfl⟩
          cases htake : s'.record.hasTake shotId with
          | false => rfl
          | true =>
              exfalso
              apply hnot
              rw [hstop, Bool.and_eq_true_iff]
              exact ⟨htake, rfl⟩
        · intro _ s hs htake
          rw [hs] at htake
          exact absurd htake Bool.false_ne_true
      · intro s hs
        obtain ⟨hclosing, rfl⟩ := hs
        obtain hsame | ⟨-, raised, hraised, hsome⟩ := hclosing.stop
        · exact absurd hsame hstop
        · exact ((returns_finish_stopped hraised exportOk).weaken (fun _ hs => hs)
            (fun _ _ hs _ _ => hs) fun _ _ hs => hs) s' hsome

/-- The stop so far was raised by this controller, which was asked to export or not. -/
def Raised (exporting : Bool) (s : Session) : Prop :=
  Raises none s.stop ∧ s.exporting = exporting

theorem Stopping.raised {α : Type} {program : Controller α} (h : Stopping program)
    (exporting : Bool) : Returns (Raised exporting) program fun _ => Raised exporting := by
  refine Within.keeps h ?_ fun _ _ => trivial
  intro s s' hraising hs
  exact ⟨hs.1.trans hraising.stop, hraising.exporting.trans hs.2⟩

theorem Triple.both {α : Type} {pre pre' : Session → Prop} {program : Controller α}
    {post post' : α → Session → Prop} (h : Returns pre program post)
    (h' : Returns pre' program post') :
    Returns (fun s => pre s ∧ pre' s) program fun a s => post a s ∧ post' a s :=
  (Triple.and h h').weaken (fun _ hs => hs) (fun _ _ hs => hs) fun _ _ _ => trivial

theorem stopping_reassemble (plan : Plan) : Stopping (reassemble plan) := by
  apply Stopping.bind (aside_ensureSound plan).stopping
  intro _
  apply Stopping.bind Stopping.get
  intro s
  apply Within.ite
  · exact Stopping.bind stopping_assembleTimeline fun _ => Stopping.pure _
  · exact Stopping.pure _

theorem stopping_deliverReplacement (plan : Plan) (replaced : Bool) :
    Stopping (deliverReplacement plan replaced) :=
  Within.ite (stopping_reassemble plan) (aside_halt (by decide)).stopping

theorem returns_reassemble (plan : Plan) :
    Returns (fun s => s.record.CurrentHasCut) (reassemble plan)
      fun _ s => s.record.CurrentHasCut := by
  apply Triple.bind _ (Aside.returns (aside_ensureSound plan) fun _ _ => currentHasCut_of_cut)
  intro _
  apply Triple.bind _ (Quiet.returns Quiet.get fun record => record.CurrentHasCut)
  intro s'
  apply Triple.ite
  · intro _
    apply Triple.bind _ returns_assembleTimeline
    exact fun _ => triple_pure fun _ hs => hs
  · exact fun _ => triple_pure fun _ hs => hs

/-- Without a take the replacement has a stop to say so. -/
theorem returns_deliverReplacement (plan : Plan) (replaced exporting : Bool) :
    Returns (fun s => Raised exporting s ∧ s.record.CurrentHasCut)
      (deliverReplacement plan replaced)
      fun _ s => Raised exporting s ∧ s.record.CurrentHasCut ∧
        (replaced = false → s.stop ≠ none) := by
  cases replaced with
  | true =>
      refine (Triple.both (Stopping.raised (stopping_reassemble plan) exporting)
        (returns_reassemble plan)).weaken (fun _ hs => hs) ?_ fun _ _ hs => hs
      intro _ s hs
      exact ⟨hs.1, hs.2, fun hfalse => by cases hfalse⟩
  | false =>
      have hraised := Stopping.raised (stopping_deliverReplacement plan false) exporting
      have hcut : Returns (fun s => s.record.CurrentHasCut)
          (deliverReplacement plan false) fun _ s => s.record.CurrentHasCut :=
        Aside.returns (aside_halt (by decide)) fun _ _ => currentHasCut_of_cut
      have hstop : Returns (fun _ => True) (deliverReplacement plan false)
          fun _ s => s.stop ≠ none := by
        apply triple_modify
        intro s _
        cases hnone : s.stop with
        | none => simp
        | some stop => simp [hnone]
      refine (Triple.both (Triple.both hraised hcut) hstop).weaken (fun _ hs => ⟨hs, trivial⟩) ?_
        fun _ _ hs => hs
      intro _ s hs
      exact ⟨hs.1.1, hs.1.2, fun _ => hs.2⟩

theorem returns_exportReplacement (replaced exporting : Bool) :
    Returns (fun s => Raised exporting s ∧ s.record.CurrentHasCut ∧
        (replaced = false → s.stop ≠ none))
      (exportReplacement replaced) fun exportOk => Closing exporting exportOk := by
  apply Triple.bind fun s' s => (Raised exporting s ∧ s.record.CurrentHasCut ∧
    (replaced = false → s.stop ≠ none)) ∧ s' = s
  · exact triple_get fun _ hs => ⟨hs, rfl⟩
  · intro s'
    apply Triple.ite
    · intro hexport
      simp only [Bool.and_eq_true] at hexport
      intro s hs
      obtain ⟨⟨hraised, hcut, -⟩, rfl⟩ := hs
      have hexporting : exporting = true := hraised.2.symm.trans hexport.1.2
      refine ((Triple.both (Stopping.raised stopping_runExport exporting)
        returns_runExport).weaken (fun _ hs => hs) ?_ fun _ _ hs => hs) s' ⟨hraised, hcut⟩
      intro exportOk s hs
      exact ⟨hs.1.1, fun hfalse _ => ⟨hexporting, hs.2 hfalse⟩⟩
    · intro hno
      apply triple_pure
      rintro s ⟨hs, rfl⟩
      refine ⟨hs.1.1, fun hfalse hnone => ?_⟩
      exact absurd hnone (hs.2.2 hfalse)

theorem returns_completeTakeOperation_completed {plan : Plan} {i : Nat} {shotId : String}
    (exporting : Bool) :
    Returns (Raised exporting) (completeTakeOperation plan i shotId (.completed, none))
      fun record _ => record.activeTakeOperation.isSome ∨
        (record.hasTake shotId = true → (exporting = true → record.hasCurrentExport = true) →
          record.CompletedOrRaised) := by
  apply returns_completeTakeOperation
  · intro s s' hdrift hs
    exact ⟨hdrift.stop ▸ hs.1, hdrift.exporting.trans hs.2⟩
  · intro replaced
    apply Triple.bind _ (Stopping.raised (stopping_modifyRecord _) exporting)
    intro _
    apply Triple.bind fun _ s => Raised exporting s ∧ s.record.CurrentHasCut
    · apply triple_modify
      intro s hs
      refine ⟨hs, fun hcurrent => ?_⟩
      rw [RunRecord.hasCurrentExport_markExportStale] at hcurrent
      cases hcurrent
    · intro _
      apply Triple.bind _ (Triple.both (Stopping.raised stopping_persist exporting)
        (returns_persist fun record => record.CurrentHasCut))
      intro _
      apply Triple.bind _ (returns_deliverReplacement plan replaced exporting)
      intro _
      apply Triple.bind _ (returns_exportReplacement replaced exporting)
      intro exportOk
      apply Triple.bind fun _ => Closing exporting exportOk
      · exact triple_modify fun s hs => ⟨hs.stop, hs.failed⟩
      · intro _
        apply Triple.bind _ (returns_finishReplacement_completed exporting exportOk shotId)
        intro _
        refine Triple.weaken (returns_record (P := fun record => record.hasTake shotId = true →
          (exporting = true → record.hasCurrentExport = true) → record.CompletedOrRaised))
          (fun _ hs => hs) ?_ fun _ _ hs => hs
        rintro record s ⟨rfl, hs⟩
        exact hs

/-- The verdict a replacement found, and what it has raised itself. -/
structure Found (saved : RunRecord) (exporting : Bool) (s : Session) : Prop where
  raised : Raised exporting s
  outcome : s.record.outcome = saved.outcome
  stop : s.record.stop = saved.stop

theorem Found.drift {saved : RunRecord} {exporting : Bool} {s s' : Session} (hdrift : Drifts s s')
    (h : Found saved exporting s) : Found saved exporting s' :=
  ⟨⟨hdrift.stop ▸ h.raised.1, hdrift.exporting.trans h.raised.2⟩, hdrift.record ▸ h.outcome,
    hdrift.record ▸ h.stop⟩

theorem Quiet.found {α : Type} {program : Controller α} (h : Quiet program) (saved : RunRecord)
    (exporting : Bool) : Returns (Found saved exporting) program fun _ => Found saved exporting :=
  Within.keeps h (fun _ _ hdrift hs => hs.drift hdrift) fun _ _ => trivial

/-- A replacement hands the verdict that it read to the operation it completes. -/
theorem returns_replaceTake {plan : Plan} {saved : RunRecord} {exporting : Bool}
    {shotId reason : String} {post : RunRecord → Session → Prop}
    (h : ∀ i, Returns (Raised exporting)
      (completeTakeOperation plan i shotId (saved.outcome, saved.stop)) post) :
    Returns (fun s => Raised exporting s ∧ s.disk = some saved) (replaceTake plan shotId reason)
      post := by
  have hfail : ∀ {pre : Session → Prop} (e : HarnessError),
      Returns pre (fail e : Controller RunRecord) post := fun e => triple_throw fun _ _ => trivial
  apply Triple.bind fun _ => Found saved exporting
  · apply Triple.bind fun s' s => Raised exporting s ∧ s'.disk = some saved
    · exact triple_get fun _ hs => hs
    · intro s'
      apply Triple.given
      intro hdisk
      rw [hdisk]
      apply Triple.bind _ (Stopping.raised quiet_expectOk.stopping exporting)
      exact fun _ => triple_modify fun s hs => ⟨hs, rfl, rfl⟩
  · intro _
    apply Triple.bind fun s' s => Found saved exporting s ∧
      (s'.record.outcome = saved.outcome ∧ s'.record.stop = saved.stop)
    · exact triple_get fun _ hs => ⟨hs, hs.outcome, hs.stop⟩
    · intro s'
      apply Triple.given
      rintro ⟨houtcome, hstop⟩
      dsimp only
      rw [houtcome, hstop]
      apply Triple.ite fun _ => hfail _
      intro _
      apply Triple.ite fun _ => hfail _
      intro _
      apply Triple.ite fun _ => hfail _
      intro _
      apply Triple.ite fun _ => hfail _
      intro _
      apply Triple.bind _ (Quiet.found quiet_canceled saved exporting)
      intro isCanceled
      apply Triple.ite fun _ => hfail _
      intro _
      apply Triple.bind fun _ => Raised exporting
      · exact triple_modify fun _ hs => hs.raised
      · intro _
        apply Triple.bind _ (Stopping.raised (quiet_findShot shotId).stopping exporting)
        intro found
        cases found with
        | none => exact hfail _
        | some found =>
            obtain ⟨i, shot⟩ := found
            apply Triple.ite fun _ => hfail _
            intro _
            apply Triple.bind _ (Stopping.raised Stopping.get exporting)
            intro s''
            apply Triple.bind _ (Stopping.raised (stopping_modifyRecord _) exporting)
            intro _
            apply Triple.bind _ (Stopping.raised stopping_persist exporting)
            intro _
            apply Triple.bind _ (Stopping.raised (aside_workAttempt plan i _).stopping exporting)
            exact fun _ => h i

/-- A replacement leaves a resumable stop in place for the shots it was not about, and a
completed run completed, unless it raised a stop itself. -/
theorem replacement_keeps_verdict (plan : Plan) (directory : Directory) (saved : RunRecord)
    (shotId reason : String) (exporting : Bool) (script : List Move) (record : RunRecord)
    (hdisk : directory.disk = some saved)
    (hreturned : value (replaceTake plan shotId reason
      (Invocation.session { action := .replaceTake shotId reason, exporting, script } directory)) =
        some record) :
    (∀ stop, saved.stop = some stop → stop.resumable = true → record.outstanding shotId ≠ [] →
      record.isResumable = true ∨ record.activeTakeOperation.isSome) ∧
    (saved.outcome = .completed → saved.stop = none → record.activeTakeOperation = none →
      record.hasTake shotId = true → (exporting = true → record.hasCurrentExport = true) →
        record.CompletedOrRaised) := by
  have hstart : Raised exporting
      (Invocation.session { action := .replaceTake shotId reason, exporting, script } directory) ∧
      (Invocation.session { action := .replaceTake shotId reason, exporting, script }
        directory).disk = some saved := ⟨⟨Raises.refl _, rfl⟩, hdisk⟩
  constructor
  · intro stop hstop hresumable houtstanding
    have htriple : Returns (fun s => Raised exporting s ∧ s.disk = some saved)
        (replaceTake plan shotId reason) fun record _ => record.activeTakeOperation.isSome ∨
          (record.outstanding shotId ≠ [] → record.isResumable = true) := by
      apply returns_replaceTake
      intro i
      rw [hstop]
      exact (returns_completeTakeOperation_resumable hresumable).mono fun _ _ => trivial
    obtain ⟨_, hoperation | hclosed⟩ := Triple.value htriple hstart hreturned
    · exact .inr hoperation
    · exact .inl (hclosed houtstanding)
  · intro houtcome hstop hoperation htake hexport
    have htriple : Returns (fun s => Raised exporting s ∧ s.disk = some saved)
        (replaceTake plan shotId reason) fun record _ => record.activeTakeOperation.isSome ∨
          (record.hasTake shotId = true → (exporting = true → record.hasCurrentExport = true) →
            record.CompletedOrRaised) := by
      apply returns_replaceTake
      intro i
      rw [houtcome, hstop]
      exact returns_completeTakeOperation_completed exporting
    obtain ⟨_, hkept | hclosed⟩ := Triple.value htriple hstart hreturned
    · rw [hoperation] at hkept
      cases hkept
    · exact hclosed htake hexport

section Reshoot

def twoShotPlan : Plan :=
  { shots := [{ id := "s", dialogueClip := none }, { id := "t", dialogueClip := none }]
    maxAttemptsPerShot := 1
    maxMemoryGb := 96
    beds := []
    sound := []
    digest := id
    bounded := one_le_maxAttemptNumber
    safe := by decide
    distinct := by decide }

def renderedView : JobView :=
  { status := "completed"
    result := .obj [("assets", .arr [.obj [("id", .str "asset")]])] }

/-- A run that renders shot `s`; `events` happen while it waits for the render. -/
def shoot (shotIds : Option (List String)) (events : List Event) : Invocation :=
  { action := .run "r" shotIds none
    exporting := false
    script := List.replicate 18 {} ++ [{ events := .progress 0 renderedView :: events }] ++
      List.replicate 30 {} }

/-- A replacement of the take of `s` that renders, with the memory its job was seen to use. -/
def reshoot (memory : Option Nat) : Invocation :=
  { action := .replaceTake "s" "again"
    exporting := false
    script := List.replicate 7 {} ++ [{ events := [.progress 1 renderedView] }, { memory }] ++
      List.replicate 20 {} }

/-- The run was complete, the replacement landed and nothing was to be exported, and still the
run is no longer complete: the new take's job used more memory than the plan allows. -/
theorem reshoot_over_memory :
    let directory := invoke twoShotPlan (Directory.empty 0) (shoot (some ["s"]) [])
    ∃ saved record, directory.disk = some saved ∧
      value (replaceTake twoShotPlan "s" "again" ((reshoot (some 200)).session directory)) =
        some record ∧
      saved.outcome = .completed ∧ saved.stop = none ∧ record.activeTakeOperation = none ∧
      record.hasTake "s" = true ∧ ¬ (record.outcome = .completed ∧ record.stop = none) := by
  intro directory
  have hsaved : directory.disk.any (fun saved => decide (saved.outcome = .completed ∧
      saved.stop = none)) = true := by decide +kernel
  have hrecord : (value (replaceTake twoShotPlan "s" "again"
      ((reshoot (some 200)).session directory))).any (fun record =>
        decide (record.activeTakeOperation = none ∧ record.hasTake "s" = true ∧
          ¬ (record.outcome = .completed ∧ record.stop = none))) = true := by decide +kernel
  obtain ⟨saved, hdisk, hcompleted⟩ := (Option.any_eq_true _ _).mp hsaved
  obtain ⟨record, hreturned, hfacts⟩ := (Option.any_eq_true _ _).mp hrecord
  have hverdict := of_decide_eq_true hcompleted
  exact ⟨saved, record, hdisk, hreturned, hverdict.1, hverdict.2, of_decide_eq_true hfacts⟩

/-- A canceled run keeps its stop for the shot that is still outstanding, and a completed one
its verdict. -/
theorem reshoot_keeps_verdict :
    (∃ record, value (replaceTake twoShotPlan "s" "again" ((reshoot none).session
        (invoke twoShotPlan (Directory.empty 0) (shoot none [.cancel])))) = some record ∧
      record.outstanding "s" ≠ [] ∧
        (record.isResumable = true ∨ record.activeTakeOperation.isSome)) ∧
    ∃ record, value (replaceTake twoShotPlan "s" "again" ((reshoot none).session
        (invoke twoShotPlan (Directory.empty 0) (shoot (some ["s"]) [])))) = some record ∧
      record.CompletedOrRaised := by
  have hcanceled : (invoke twoShotPlan (Directory.empty 0) (shoot none [.cancel])).disk.any
      (fun saved => decide (saved.stop = some { reason := "canceled", resumable := true })) =
        true := by decide +kernel
  have houtstanding : (value (replaceTake twoShotPlan "s" "again" ((reshoot none).session
      (invoke twoShotPlan (Directory.empty 0) (shoot none [.cancel]))))).any
        (fun record => decide (record.outstanding "s" ≠ [])) = true := by decide +kernel
  have hcompleted : (invoke twoShotPlan (Directory.empty 0) (shoot (some ["s"]) [])).disk.any
      (fun saved => decide (saved.outcome = .completed ∧ saved.stop = none)) = true := by
    decide +kernel
  have hlanded : (value (replaceTake twoShotPlan "s" "again" ((reshoot none).session
      (invoke twoShotPlan (Directory.empty 0) (shoot (some ["s"]) []))))).any
        (fun record => decide (record.activeTakeOperation = none ∧ record.hasTake "s" = true)) =
          true := by decide +kernel
  constructor
  · obtain ⟨saved, hdisk, hstop⟩ := (Option.any_eq_true _ _).mp hcanceled
    obtain ⟨record, hreturned, hother⟩ := (Option.any_eq_true _ _).mp houtstanding
    refine ⟨record, hreturned, of_decide_eq_true hother, ?_⟩
    exact (replacement_keeps_verdict twoShotPlan _ saved "s" "again" false _ record hdisk
      hreturned).1 _ (of_decide_eq_true hstop) rfl (of_decide_eq_true hother)
  · obtain ⟨saved, hdisk, hverdict⟩ := (Option.any_eq_true _ _).mp hcompleted
    obtain ⟨record, hreturned, hfacts⟩ := (Option.any_eq_true _ _).mp hlanded
    have hsaved := of_decide_eq_true hverdict
    have htake := of_decide_eq_true hfacts
    refine ⟨record, hreturned, ?_⟩
    exact (replacement_keeps_verdict twoShotPlan _ saved "s" "again" false _ record hdisk
      hreturned).2 hsaved.1 hsaved.2 htake.1 htake.2 nofun

end Reshoot

end FilmRun
end SceneWorks
