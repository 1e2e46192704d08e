import SceneWorks.FilmRun.Actions

/-!
How calls move a session. While a controller only looks, the world drifts: jobs change their
views and nothing else about them, time passes, the timeline is saved by somebody. The
calls that only look are `Within Drifts`; the ones that write, create a job or change the
record in memory have a rule each.
-/

namespace SceneWorks
namespace FilmRun

open Crash

/-- What no event changes about a job. -/
def Job.identity (job : Job) : JobId × JobKind × Nat :=
  (job.id, job.kind, job.createdAt)

structure World.Drift (a b : World) : Prop where
  jobs : b.jobs.map Job.identity = a.jobs.map Job.identity
  timelineId : b.timeline.map (·.1) = a.timeline.map (·.1)
  revision : (a.timeline.map (·.2)).getD 0 ≤ (b.timeline.map (·.2)).getD 0
  now : a.now ≤ b.now

namespace World

theorem Drift.refl (a : World) : Drift a a :=
  ⟨rfl, rfl, Nat.le_refl _, Nat.le_refl _⟩

theorem Drift.trans {a b c : World} (hab : Drift a b) (hbc : Drift b c) : Drift a c :=
  ⟨hbc.jobs.trans hab.jobs, hbc.timelineId.trans hab.timelineId,
    Nat.le_trans hab.revision hbc.revision, Nat.le_trans hab.now hbc.now⟩

theorem drift_react (world : World) (event : Event) : Drift world (world.react event) := by
  cases event with
  | progress id view =>
      refine ⟨?_, rfl, Nat.le_refl _, Nat.le_refl _⟩
      simp only [react, List.map_map]
      apply List.map_congr_left
      intro job _
      simp only [Function.comp_apply]
      split <;> rfl
  | cancel => exact ⟨rfl, rfl, Nat.le_refl _, Nat.le_refl _⟩
  | tick seconds => exact ⟨rfl, rfl, Nat.le_refl _, Nat.le_add_right _ _⟩
  | revise revisions =>
      refine ⟨rfl, ?_, ?_, Nat.le_refl _⟩
      · cases htimeline : world.timeline <;> simp [react, htimeline]
      · cases htimeline : world.timeline <;> simp [react, htimeline]

/-- Any events between two calls. -/
theorem drift_foldl (events : List Event) (world : World) :
    Drift world (events.foldl react world) := by
  induction events generalizing world with
  | nil => exact Drift.refl world
  | cons event events ih => exact (drift_react world event).trans (ih _)

theorem Drift.keys {a b : World} (h : Drift a b) : b.jobs.map Job.key = a.jobs.map Job.key := by
  have hkey : Job.key = (fun identity : JobId × JobKind × Nat =>
      Job.key ⟨identity.1, identity.2.1, identity.2.2, ⟨"", .null⟩⟩) ∘ Job.identity := rfl
  rw [hkey, ← List.map_map, ← List.map_map, h.jobs]

theorem Drift.length {a b : World} (h : Drift a b) : b.jobs.length = a.jobs.length := by
  have := congrArg List.length h.jobs
  simpa using this

end World

/-- A script in which nobody saves the timeline at another revision. -/
def Steady (script : List Move) : Prop :=
  ∀ move ∈ script, move.revisions = 0 ∧ ∀ revisions, Event.revise revisions ∉ move.events

theorem Steady.suffix {script rest : List Move} (h : Steady script) (hrest : rest <:+ script) :
    Steady rest :=
  fun move hmove => h move (hrest.subset hmove)

theorem World.timeline_foldl {events : List Event}
    (h : ∀ revisions, Event.revise revisions ∉ events) (world : World) :
    (events.foldl World.react world).timeline = world.timeline := by
  induction events generalizing world with
  | nil => rfl
  | cons event events ih =>
      rw [List.foldl_cons, ih fun revisions hmem => h revisions (List.mem_cons_of_mem event hmem)]
      cases event with
      | revise revisions => exact absurd List.mem_cons_self (h revisions)
      | progress _ _ | cancel | tick _ => rfl

/-- The session with nothing of its own changed. -/
structure Drifts (s s' : Session) : Prop where
  record : s'.record = s.record
  stop : s'.stop = s.stop
  exporting : s'.exporting = s.exporting
  runDeadline : s'.runDeadline = s.runDeadline
  disk : s'.disk = s.disk
  world : World.Drift s.world s'.world
  script : s'.script <:+ s.script
  steady : Steady s.script → s'.world.timeline = s.world.timeline

theorem Drifts.refl (s : Session) : Drifts s s :=
  ⟨rfl, rfl, rfl, rfl, rfl, World.Drift.refl _, List.suffix_rfl, fun _ => rfl⟩

theorem Drifts.trans (a b c : Session) (hab : Drifts a b) (hbc : Drifts b c) : Drifts a c :=
  ⟨hbc.record.trans hab.record, hbc.stop.trans hab.stop, hbc.exporting.trans hab.exporting,
    hbc.runDeadline.trans hab.runDeadline, hbc.disk.trans hab.disk, hab.world.trans hbc.world,
    hbc.script.trans hab.script,
    fun h => (hbc.steady (h.suffix hab.script)).trans (hab.steady h)⟩

namespace Controller

/-- A call that only looks. -/
abbrev Quiet {α : Type} (program : Controller α) : Prop :=
  Within Drifts program

theorem Quiet.bind {α β : Type} {program : Controller α} {next : α → Controller β}
    (h : Quiet program) (hnext : ∀ a, Quiet (next a)) : Quiet (program >>= next) :=
  Within.bind Drifts.trans h hnext

theorem Quiet.pure {α : Type} (a : α) : Quiet (pure a : Controller α) :=
  Within.pure Drifts.refl a

theorem Quiet.get : Quiet (get : Controller Session) :=
  Within.get Drifts.refl

theorem Quiet.fail {α : Type} (e : HarnessError) : Quiet (fail e : Controller α) :=
  Within.throw Drifts.refl _

theorem Quiet.died {α : Type} : Quiet (throw .died : Controller α) :=
  Within.throw Drifts.refl _

theorem quiet_next : Quiet next := by
  intro s
  unfold next
  cases hscript : s.script with
  | nil => exact Drifts.refl s
  | cons move rest =>
      refine ⟨rfl, rfl, rfl, rfl, rfl, World.drift_foldl _ _, ?_, ?_⟩
      · rw [hscript]
        exact List.suffix_cons move rest
      · intro hsteady
        rw [hscript] at hsteady
        exact World.timeline_foldl (hsteady move List.mem_cons_self).2 s.world

theorem quiet_expectOk : Quiet expectOk := by
  apply Quiet.bind quiet_next
  intro move
  cases move.answer with
  | done => exact Quiet.pure _
  | refused | lost | failed => exact Quiet.fail _

theorem quiet_canceled : Quiet canceled :=
  Quiet.bind quiet_next fun _ => Quiet.bind Quiet.get fun _ => Quiet.pure _

theorem quiet_deadlinePassed : Quiet deadlinePassed :=
  Quiet.bind quiet_next fun _ => Quiet.pure _

theorem quiet_present : Quiet present :=
  Quiet.bind quiet_next fun _ => Quiet.pure _

theorem quiet_utcNow : Quiet utcNow :=
  Quiet.bind quiet_next fun _ => Quiet.bind Quiet.get fun _ => Quiet.pure _

theorem quiet_jobMetrics : Quiet jobMetrics :=
  Quiet.bind quiet_next fun _ => Quiet.pure _

theorem quiet_projectId : Quiet projectId := by
  apply Quiet.bind Quiet.get
  intro s
  cases s.record.projectId with
  | none => exact Quiet.fail _
  | some id => exact Quiet.pure _

theorem quiet_projectJobs : Quiet projectJobs :=
  Quiet.bind quiet_expectOk fun _ => Quiet.bind Quiet.get fun _ => Quiet.pure _

theorem quiet_findJobByIdempotencyKey (key : String) : Quiet (findJobByIdempotencyKey key) :=
  Quiet.bind quiet_projectJobs fun _ => Quiet.pure _

theorem quiet_getSnapshot (id : JobId) : Quiet (getSnapshot id) := by
  apply Quiet.bind quiet_expectOk
  intro _
  apply Quiet.bind Quiet.get
  intro s
  cases s.world.jobs.find? fun job => job.id == id with
  | none => exact Quiet.fail _
  | some job => exact Quiet.pure _

theorem quiet_getJob (id : JobId) : Quiet (getJob id) :=
  Quiet.bind (quiet_getSnapshot id) fun _ => Quiet.pure _

theorem quiet_pollStop : Quiet pollStop := by
  apply Quiet.bind quiet_canceled
  intro isCanceled
  apply Within.ite (Quiet.pure _)
  apply Quiet.bind Quiet.get
  intro s
  apply Within.ite
  · apply Quiet.bind quiet_deadlinePassed
    intro passed
    apply Within.ite (Quiet.pure _)
    apply Quiet.bind quiet_deadlinePassed
    intro passed
    exact Within.ite (Quiet.pure _) (Quiet.pure _)
  · apply Quiet.bind quiet_deadlinePassed
    intro passed
    exact Within.ite (Quiet.pure _) (Quiet.pure _)

/-- Waiting for a canceled job to settle only looks. -/
theorem quiet_settleCanceled (id : JobId) (last : JobView) (fuel : Nat) :
    Quiet (settleCanceled id last fuel) := by
  induction fuel generalizing last with
  | zero => exact Quiet.died
  | succ fuel ih =>
      apply Quiet.bind quiet_deadlinePassed
      intro passed
      apply Within.ite (Quiet.pure _)
      apply Quiet.bind (quiet_getJob id)
      intro view
      exact Within.ite (Quiet.pure _) (ih view)

/-- However long a job is polled, nothing of the session's own changes. -/
theorem quiet_waitForJobFrom (id : JobId) (fuel : Nat) : Quiet (waitForJobFrom id fuel) := by
  induction fuel with
  | zero => exact Quiet.died
  | succ fuel ih =>
      apply Quiet.bind (quiet_getJob id)
      intro view
      apply Within.ite
      · apply Within.ite (Quiet.pure _)
        apply Quiet.bind quiet_deadlinePassed
        intro passed
        exact Within.ite (Quiet.pure _) ih
      · apply Quiet.bind quiet_pollStop
        intro stop
        cases stop with
        | none => exact ih
        | some stop =>
            apply Quiet.bind quiet_next
            intro move
            cases move.answer with
            | done | refused =>
                exact Quiet.bind (quiet_settleCanceled id view (fuel + 1)) fun _ => Quiet.pure _
            | lost | failed => exact Quiet.fail _

theorem quiet_waitForJob (id : JobId) : Quiet (waitForJob id) :=
  Quiet.bind Quiet.get fun _ => quiet_waitForJobFrom id _

theorem quiet_attemptAt (i j : Nat) : Quiet (attemptAt i j) := by
  apply Quiet.bind Quiet.get
  intro s
  cases (s.record.shots[i]?).bind fun shot => shot.attempts[j]? with
  | none => exact Quiet.died
  | some attempt => exact Quiet.pure _

/-- A job is looked for by its id and then by its key. -/
theorem quiet_knownJob (jobId : Option JobId) (key : String) : Quiet (knownJob jobId key) := by
  cases jobId with
  | some id => exact Quiet.pure _
  | none => exact quiet_findJobByIdempotencyKey key

theorem quiet_findShot (shotId : String) : Quiet (findShot shotId) :=
  Quiet.bind Quiet.get fun _ => Quiet.pure _

theorem quiet_pendingSince : Quiet pendingSince := by
  apply Quiet.bind Quiet.get
  intro s
  cases s.record.exportPending with
  | some pending => exact Quiet.pure _
  | none => exact quiet_utcNow

theorem quiet_findExportJob (timelineId : String) (exclude : List JobId) (notBefore : Nat) :
    Quiet (findExportJob timelineId exclude notBefore) :=
  Quiet.bind quiet_projectJobs fun _ => Quiet.pure _

theorem quiet_knownExport (timelineId : String) (inFlight : Option JobId) :
    Quiet (knownExport timelineId inFlight) := by
  apply Quiet.bind quiet_pendingSince
  intro notBefore
  apply Quiet.bind Quiet.get
  intro s
  cases inFlight with
  | some id => exact Quiet.pure _
  | none => exact quiet_findExportJob _ _ _

end Controller
end FilmRun
end SceneWorks
