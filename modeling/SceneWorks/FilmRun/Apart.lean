import SceneWorks.FilmRun.Invocations

/-!
Work apart from the cut. Rendering shots and speaking lines touch neither the timeline the
record holds nor its export, create no export job and write nothing to disk that says
otherwise; a stop they raise is one of the stops a controller raises, and the first one
stays. `Aside` programs move along that frame wherever they are left.
-/

namespace SceneWorks
namespace FilmRun

open Crash Controller

/-- What the record says of the cut and of its export. -/
def RunRecord.cut (record : RunRecord) :
    Option TimelineRecord × Option ExportRecord × Option ExportPending × List JobId :=
  (record.timeline, record.exported, record.exportPending, record.supersededExportJobIds)

/-- An export job at the API, without how it goes. -/
structure ExportJob where
  id : JobId
  timelineId : String
  revision : Nat
  createdAt : Nat
  deriving DecidableEq

def JobKind.asExport (kind : JobKind) (id : JobId) (createdAt : Nat) : Option ExportJob :=
  match kind with
  | .timelineExport timelineId revision => some { id, timelineId, revision, createdAt }
  | .video _ | .audio _ => none

def Job.asExport (job : Job) : Option ExportJob :=
  job.kind.asExport job.id job.createdAt

def World.exports (world : World) : List ExportJob :=
  world.jobs.filterMap Job.asExport

/-- Jobs are numbered in the order they were created. -/
def World.Numbered (world : World) : Prop :=
  world.jobs.map (·.id) = List.range world.jobs.length

theorem World.Drift.exports_eq {a b : World} (h : Drift a b) : b.exports = a.exports := by
  have hidentity : ∀ jobs : List Job, jobs.filterMap Job.asExport =
      (jobs.map Job.identity).filterMap fun identity =>
        identity.2.1.asExport identity.1 identity.2.2 := by
    intro jobs
    rw [List.filterMap_map]
    rfl
  rw [World.exports, World.exports, hidentity, hidentity, h.jobs]

theorem World.Drift.numbered {a b : World} (h : Drift a b) (ha : a.Numbered) : b.Numbered := by
  have hids : ∀ jobs : List Job, jobs.map (·.id) = (jobs.map Job.identity).map (·.1) := by
    intro jobs
    rw [List.map_map]
    rfl
  rw [World.Numbered, hids, h.jobs, ← hids, h.length]
  exact ha

theorem World.exports_create (world : World) (kind : JobKind) :
    (world.create kind).exports =
      world.exports ++ (kind.asExport world.jobs.length world.now).toList := by
  cases hkind : kind.asExport world.jobs.length world.now <;>
    simp [World.exports, World.create, List.filterMap_append, Job.asExport, hkind]

theorem World.Numbered.create {world : World} (h : world.Numbered) (kind : JobKind) :
    (world.create kind).Numbered := by
  simp only [World.Numbered, World.create, List.map_append, List.length_append, List.map_cons,
    List.map_nil, List.length_singleton, List.range_succ]
  rw [h]

/-- The stops a controller raises; the classifier's own verdicts are not among them. -/
def raisedStops : List (RunOutcome × RunStop) :=
  [(.stoppedMemoryLimit, { reason := "memory_limit", resumable := false }),
    (.canceled, { reason := "canceled", resumable := true }),
    (.stoppedRunBudget, { reason := "run_budget", resumable := false }),
    (.stoppedRunBudget, { reason := "run_budget", resumable := true }),
    (.failed, { reason := "enqueue_refused", resumable := false }),
    (.failed, { reason := "assets_unsettled", resumable := false }),
    (.failed, { reason := "cancel_not_honoured", resumable := false }),
    (.failed, { reason := "dialogue_synthesis_refused", resumable := true }),
    (.failed, { reason := "dialogue_synthesis_failed", resumable := true }),
    (.failed, { reason := "no_audio_worker", resumable := true }),
    (.failed, { reason := "replacement_failed", resumable := false })]

/-- The first stop that is raised stays. -/
def Raises (stop stop' : Option (RunOutcome × RunStop)) : Prop :=
  stop' = stop ∨ stop = none ∧ ∃ raised ∈ raisedStops, stop' = some raised

theorem Raises.refl (stop : Option (RunOutcome × RunStop)) : Raises stop stop :=
  .inl rfl

theorem Raises.trans {a b c : Option (RunOutcome × RunStop)} (hab : Raises a b)
    (hbc : Raises b c) : Raises a c := by
  obtain rfl | ⟨rfl, raised, hraised, rfl⟩ := hab
  · exact hbc
  · obtain rfl | ⟨hnone, -⟩ := hbc
    · exact .inr ⟨rfl, raised, hraised, rfl⟩
    · cases hnone

/-- Everything but the cut may have moved. -/
structure Apart (s s' : Session) : Prop where
  cut : s'.record.cut = s.record.cut
  disk : s'.disk = s.disk ∨ ∃ saved, s'.disk = some saved ∧ saved.cut = s.record.cut
  exports : s'.world.exports = s.world.exports
  numbered : s.world.Numbered → s'.world.Numbered
  timelineId : s'.world.timeline.map (·.1) = s.world.timeline.map (·.1)
  revision : (s.world.timeline.map (·.2)).getD 0 ≤ (s'.world.timeline.map (·.2)).getD 0
  now : s.world.now ≤ s'.world.now
  script : s'.script <:+ s.script
  steady : Steady s.script → s'.world.timeline = s.world.timeline
  exporting : s'.exporting = s.exporting
  stop : Raises s.stop s'.stop

theorem Drifts.apart {s s' : Session} (h : Drifts s s') : Apart s s' :=
  ⟨by rw [h.record], .inl h.disk, h.world.exports_eq, h.world.numbered, h.world.timelineId,
    h.world.revision, h.world.now, h.script, h.steady, h.exporting, .inl h.stop⟩

theorem Apart.refl (s : Session) : Apart s s :=
  (Drifts.refl s).apart

theorem Apart.trans (a b c : Session) (hab : Apart a b) (hbc : Apart b c) : Apart a c where
  cut := hbc.cut.trans hab.cut
  disk := by
    obtain hsame | ⟨saved, hdisk, hcut⟩ := hbc.disk
    · rw [hsame]
      exact hab.disk
    · exact .inr ⟨saved, hdisk, hcut.trans hab.cut⟩
  exports := hbc.exports.trans hab.exports
  numbered h := hbc.numbered (hab.numbered h)
  timelineId := hbc.timelineId.trans hab.timelineId
  revision := hab.revision.trans hbc.revision
  now := hab.now.trans hbc.now
  script := hbc.script.trans hab.script
  steady h := (hbc.steady (h.suffix hab.script)).trans (hab.steady h)
  exporting := hbc.exporting.trans hab.exporting
  stop := hab.stop.trans hbc.stop

namespace Controller

abbrev Aside {α : Type} (program : Controller α) : Prop :=
  Within Apart program

theorem Quiet.aside {α : Type} {program : Controller α} (h : Quiet program) : Aside program :=
  fun s => (h s).apart

theorem Aside.bind {α β : Type} {program : Controller α} {next : α → Controller β}
    (h : Aside program) (hnext : ∀ a, Aside (next a)) : Aside (program >>= next) :=
  Within.bind Apart.trans h hnext

theorem Aside.pure {α : Type} (a : α) : Aside (pure a : Controller α) :=
  Within.pure Apart.refl a

theorem Aside.get : Aside (get : Controller Session) :=
  Within.get Apart.refl

theorem Aside.fail {α : Type} (e : HarnessError) : Aside (fail e : Controller α) :=
  Within.throw Apart.refl _

theorem Aside.forM {γ : Type} {body : γ → Controller Unit} {l : List γ}
    (h : ∀ x ∈ l, Aside (body x)) : Aside (l.forM body) := by
  induction l with
  | nil => exact Aside.pure _
  | cons x l ih =>
      show Aside (body x >>= fun _ => l.forM body)
      apply Aside.bind (h x List.mem_cons_self)
      intro _
      exact ih fun y hy => h y (List.mem_cons_of_mem x hy)

theorem aside_modifyRecord {f : RunRecord → RunRecord}
    (hf : ∀ record, (f record).cut = record.cut) : Aside (modifyRecord f) :=
  fun s => ⟨hf s.record, .inl rfl, rfl, id, rfl, Nat.le_refl _, Nat.le_refl _, List.suffix_rfl,
    fun _ => rfl, rfl, .inl rfl⟩

theorem Aside.update {α : Type} {f : RunRecord → RunRecord} {next : Unit → Controller α}
    (hf : ∀ record, (f record).cut = record.cut) (hnext : ∀ a, Aside (next a)) :
    Aside (modifyRecord f >>= next) :=
  Aside.bind (aside_modifyRecord hf) hnext

theorem aside_write : Aside (modify fun s => { s with disk := some s.record } : Controller Unit) :=
  fun s => ⟨rfl, .inr ⟨s.record, rfl, rfl⟩, rfl, id, rfl, Nat.le_refl _, Nat.le_refl _,
    List.suffix_rfl, fun _ => rfl, rfl, .inl rfl⟩

theorem aside_persist : Aside persist := by
  apply Aside.bind quiet_next.aside
  intro move
  cases move.answer with
  | done => exact aside_write
  | lost => exact Aside.bind aside_write fun _ => Aside.fail _
  | refused | failed => exact Aside.fail _

theorem aside_halt {outcome : RunOutcome} {reason : String} {resumable : Bool}
    (h : (outcome, { reason, resumable }) ∈ raisedStops) :
    Aside (halt outcome reason resumable) := by
  intro s
  show Apart s
    (if s.stop.isNone then { s with stop := some (outcome, { reason, resumable }) } else s)
  by_cases hstop : s.stop.isNone
  · rw [if_pos hstop]
    exact ⟨rfl, .inl rfl, rfl, id, rfl, Nat.le_refl _, Nat.le_refl _, List.suffix_rfl,
      fun _ => rfl, rfl, .inr ⟨Option.isNone_iff_eq_none.mp hstop, _, h, rfl⟩⟩
  · rw [if_neg hstop]
    exact Apart.refl s

theorem aside_create {kind : World → JobKind}
    (hkind : ∀ world id now, (kind world).asExport id now = none) :
    Aside (modifyWorld fun world => world.create (kind world)) := by
  intro s
  refine ⟨rfl, .inl rfl, ?_, fun h => h.create _, rfl, Nat.le_refl _, Nat.le_refl _,
    List.suffix_rfl, fun _ => rfl, rfl, .inl rfl⟩
  show (s.world.create (kind s.world)).exports = s.world.exports
  rw [World.exports_create, hkind]
  simp

/-- Asking for a job that is no export. -/
theorem aside_postJob {kind : World → JobKind}
    (hkind : ∀ world id now, (kind world).asExport id now = none) : Aside (postJob kind) := by
  apply Aside.bind quiet_next.aside
  intro move
  apply Aside.bind Aside.get
  intro s
  cases move.answer with
  | done => exact Aside.bind (aside_create hkind) fun _ => Aside.pure _
  | lost => exact Aside.bind (aside_create hkind) fun _ => Aside.fail _
  | refused => exact Aside.pure _
  | failed => exact Aside.fail _

theorem aside_memoryOverBudget (plan : Plan) (memory : Option Nat) :
    Aside (memoryOverBudget plan memory) :=
  Within.ite (Aside.bind (aside_halt (by decide)) fun _ => Aside.pure _) (Aside.pure _)

theorem aside_leavePending (i : Nat) : Aside (leavePending i) := by
  refine Aside.update (fun _ => rfl) fun _ => ?_
  exact Aside.bind (aside_halt (by decide)) fun _ => aside_persist

theorem aside_refuseAttempt (i j : Nat) : Aside (refuseAttempt i j) := by
  refine Aside.update (fun _ => rfl) fun _ => ?_
  exact Aside.bind aside_persist fun _ => aside_halt (by decide)

theorem aside_attemptJob (i j : Nat) : Aside (attemptJob i j) := by
  apply Aside.bind (quiet_attemptAt i j).aside
  intro attempt
  apply Aside.bind (quiet_knownJob _ _).aside
  intro found
  cases found with
  | some id => exact Aside.pure _
  | none =>
      apply Aside.bind quiet_canceled.aside
      intro isCanceled
      apply Within.ite (Aside.bind (aside_leavePending i) fun _ => Aside.pure _)
      apply Aside.bind (aside_postJob fun _ _ _ => rfl)
      intro created
      cases created with
      | some id => exact Aside.pure _
      | none => exact Aside.bind (aside_refuseAttempt i j) fun _ => Aside.pure _

theorem aside_mayKeepDispatching (plan : Plan) (view : JobView) (memory : Option Nat)
    (stop : PollStop) : Aside (mayKeepDispatching plan view memory stop) := by
  cases stop with
  | terminal => exact Aside.bind (aside_memoryOverBudget plan memory) fun _ => Aside.pure _
  | shotBudget =>
      apply Within.ite
      · exact Aside.bind (aside_memoryOverBudget plan memory) fun _ => Aside.pure _
      · exact Aside.bind (aside_halt (by decide)) fun _ => Aside.pure _
  | runBudget | operator | assetsUnsettled =>
      exact Aside.bind (aside_halt (by decide)) fun _ => Aside.pure _

theorem aside_workAttempt (plan : Plan) (i j : Nat) : Aside (workAttempt plan i j) := by
  apply Aside.bind quiet_projectId.aside
  intro _
  apply Aside.bind (aside_attemptJob i j)
  intro found
  cases found with
  | none => exact Aside.pure _
  | some id =>
      refine Aside.update (fun _ => rfl) fun _ => ?_
      apply Aside.bind aside_persist
      intro _
      apply Aside.bind (quiet_waitForJob id).aside
      intro ⟨view, stop⟩
      apply Aside.bind quiet_jobMetrics.aside
      intro memory
      refine Aside.update (fun _ => rfl) fun _ => ?_
      exact Aside.bind aside_persist fun _ => aside_mayKeepDispatching plan view memory stop

theorem aside_dialogueLine (plan : Plan) (entry : SoundEntry) (text : String) :
    Aside (dialogueLine plan entry text) := by
  apply Aside.bind Aside.get
  intro s
  dsimp only
  split
  · exact Aside.pure _
  · apply Aside.bind quiet_canceled.aside
    intro isCanceled
    apply Within.ite (Aside.bind (aside_halt (by decide)) fun _ => Aside.pure _)
    refine Aside.update (fun _ => rfl) fun _ => ?_
    exact Aside.bind aside_persist fun _ => Aside.pure _

theorem aside_lineJob (line : SynthesizedSoundRecord) : Aside (lineJob line) := by
  apply Aside.bind (quiet_knownJob _ _).aside
  intro found
  cases found with
  | some id => exact Aside.pure _
  | none =>
      apply Aside.bind quiet_canceled.aside
      intro isCanceled
      apply Within.ite
      · apply Aside.bind (aside_halt (by decide))
        exact fun _ => Aside.bind aside_persist fun _ => Aside.pure _
      · apply Aside.bind (aside_postJob fun _ _ _ => rfl)
        intro created
        cases created with
        | some id => exact Aside.pure _
        | none =>
            refine Aside.update (fun _ => rfl) fun _ => ?_
            apply Aside.bind aside_persist
            exact fun _ => Aside.bind (aside_halt (by decide)) fun _ => Aside.pure _

theorem aside_haltUnspoken (stop : PollStop) : Aside (haltUnspoken stop) := by
  cases stop <;> exact aside_halt (by decide)

theorem aside_watchLine (line : SynthesizedSoundRecord) (id : JobId) (file : String) :
    Aside (watchLine line id file) := by
  refine Aside.update (fun _ => rfl) fun _ => ?_
  apply Aside.bind aside_persist
  intro _
  apply Aside.bind (quiet_waitForJob id).aside
  intro ⟨view, stop⟩
  dsimp only
  split
  · refine Aside.update (fun _ => rfl) fun _ => ?_
    apply Aside.bind aside_persist
    exact fun _ => Aside.bind (aside_haltUnspoken stop) fun _ => Aside.pure _
  · apply Aside.bind quiet_expectOk.aside
    intro _
    exact Aside.update (fun _ => rfl) fun _ => Aside.bind aside_persist fun _ => Aside.pure _

theorem aside_synthesizeDialogue (plan : Plan) (entry : SoundEntry) :
    Aside (synthesizeDialogue plan entry) := by
  unfold synthesizeDialogue
  split
  · exact Aside.fail _
  · next text _ =>
      apply Aside.bind Aside.get
      intro s
      apply Aside.bind (quiet_spokenFile _ entry text _).aside
      intro spoken
      cases spoken with
      | some file => exact Aside.pure _
      | none =>
          apply Aside.bind (aside_dialogueLine plan entry text)
          intro found
          cases found with
          | none => exact Aside.pure _
          | some line =>
              apply Aside.bind (aside_lineJob line)
              intro job
              cases job with
              | none => exact Aside.pure _
              | some id => exact aside_watchLine line id _

theorem aside_synthesizeAll (plan : Plan) (entries : List SoundEntry) :
    Aside (synthesizeAll plan entries) := by
  induction entries with
  | nil => exact Aside.pure _
  | cons entry entries ih =>
      apply Within.ite
      · apply Aside.bind (aside_synthesizeDialogue plan entry)
        intro spoken
        cases spoken with
        | none => exact Aside.pure _
        | some file => exact Aside.bind ih fun _ => Aside.pure _
      · exact Aside.bind ih fun _ => Aside.pure _

theorem aside_importClip (entry : SoundEntry) : Aside (importClip entry) := by
  unfold importClip
  split
  · exact Aside.fail _
  · apply Aside.bind Aside.get
    intro s
    apply Within.ite (Aside.pure _)
    apply Aside.bind quiet_expectOk.aside
    intro _
    exact Aside.update (fun _ => rfl) fun _ => aside_persist

theorem aside_ensureSound (plan : Plan) : Aside (ensureSound plan) := by
  apply Aside.bind quiet_projectId.aside
  intro _
  apply Aside.bind Aside.get
  intro s
  apply Within.ite (Aside.pure _)
  apply Aside.bind (quiet_anyOwed _ _).aside
  intro owed
  apply Aside.bind (quiet_audioWorkerLive owed).aside
  intro live
  apply Within.ite
  · apply Aside.bind (aside_synthesizeAll plan _)
    intro spoken
    cases spoken with
    | none => exact Aside.pure _
    | some spoken =>
        apply Aside.bind quiet_expectOk.aside
        exact fun _ => Aside.forM fun entry _ => aside_importClip entry
  · exact aside_halt (by decide)

end Controller
end FilmRun
end SceneWorks
