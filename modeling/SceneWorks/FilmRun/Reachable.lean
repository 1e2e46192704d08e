import SceneWorks.FilmRun.Invocations
import SceneWorks.Library.Run

/-!
What every directory a run can reach satisfies. An invocation leaves the record on disk
somewhere along the automatic work from where it found it, a replacement after its one human
step; so a run of invocations, each of which may die at any call, keeps every promise about
keys, attempts and selection.
-/

namespace SceneWorks
namespace FilmRun

open Crash ShotRunRecord Controller

/-- A record on disk, and the jobs the API holds beside it. -/
structure OnDisk (plan : Plan) (world : World) (saved : RunRecord) : Prop where
  shape : Shaped plan saved.shots
  regular : ∀ shot ∈ orderedShots plan saved.shots,
    Regular saved.runId plan.maxAttemptsPerShot shot
  lines : LinesKeyed plan saved
  distinct : world.keys.Nodup
  recorded : ∀ key ∈ world.keys, ∀ shotId ∈ plan.shotIds, ∀ number,
    key = idempotencyKey saved.runId shotId number →
      ∃ shot ∈ orderedShots plan saved.shots, shot.shotId = shotId ∧
        ∃ attempt ∈ shot.attempts, attempt.attempt = number

def Kept (plan : Plan) (directory : Directory) : Prop :=
  match directory.disk with
  | none => directory.world.keys = []
  | some saved => OnDisk plan directory.world saved

/-- The record on disk is where automatic work from `start` can get. -/
def Advanced (plan : Plan) (runId : String) (start : List ShotRunRecord) (directory : Directory) :
    Prop :=
  ∃ saved, directory.disk = some saved ∧ saved.runId = runId ∧
    Evolves runId plan.maxAttemptsPerShot start (orderedShots plan saved.shots) ∧
    OnDisk plan directory.world saved

variable {plan : Plan} {runId : String} {start : List ShotRunRecord}

theorem Loose.advanced {s : Session} (h : Loose plan runId start s) :
    Advanced plan runId start s.directory := by
  obtain ⟨saved, h⟩ := h
  refine ⟨saved, h.disk, h.savedRun, h.sinceStart, h.savedShape, ?_, h.savedLines, h.distinct, ?_⟩
  · intro shot hshot
    obtain ⟨first, hfirst, hrun⟩ := h.sinceStart.mem_right hshot
    rw [h.savedRun]
    exact hrun.regular plan.bounded (h.regular first hfirst)
  · rw [h.savedRun]
    exact h.recorded

theorem Advanced.kept {directory : Directory} (h : Advanced plan runId start directory) :
    Kept plan directory := by
  obtain ⟨saved, hdisk, -, -, honDisk⟩ := h
  simp only [Kept, hdisk]
  exact honDisk

/-- A controller that has just read the record holds it. -/
theorem OnDisk.held {s : Session} {saved : RunRecord} (h : OnDisk plan s.world saved)
    (hdisk : s.disk = some saved) (hrecord : s.record = saved) :
    Held plan saved.runId (orderedShots plan saved.shots) s := by
  subst hrecord
  exact ⟨s.record, ⟨h.regular, hdisk, rfl, rfl, h.shape, h.shape, Evolves.refl _ _ _,
    Evolves.refl _ _ _, h.lines, h.lines, h.distinct, h.recorded⟩, rfl⟩

theorem Held.reloaded {s : Session} (h : Held plan runId start s) {saved : RunRecord}
    (hdisk : s.disk = some saved) : Held plan runId start { s with record := saved } := by
  obtain ⟨found, h, -⟩ := h
  obtain rfl := Option.some.inj (hdisk.symm.trans h.disk)
  exact ⟨saved, ⟨h.regular, h.disk, h.savedRun, h.savedRun, h.savedShape, h.savedShape,
    h.sinceStart, Evolves.refl _ _ _, h.savedLines, h.savedLines, h.distinct, h.recorded⟩, rfl⟩

theorem keeps_continueRun :
    Keeps (Held plan runId start) (Loose plan runId start) continueRun := by
  apply Triple.bind fun s' s => Held plan runId start s ∧ s.disk = s'.disk
  · exact triple_get fun s hs => ⟨hs, rfl⟩
  · intro s'
    split
    · exact triple_throw fun s hs => hs.1.loose
    · next saved hsaved =>
        apply Triple.bind fun _ s => Held plan runId start s ∧ s.disk = some saved
        · refine Triple.mono (Within.keeps (L := Loose plan runId start) quiet_expectOk ?_ ?_)
            fun s hs => ⟨hs.1, hs.2.trans hsaved⟩
          · exact fun s s' hdrift hs => ⟨hs.1.drift hdrift, hdrift.disk.trans hs.2⟩
          · exact fun s hs => hs.1.loose
        · intro _
          exact triple_modify fun s hs => hs.1.reloaded hs.2

theorem keeps_resume :
    Keeps (Held plan runId start) (Loose plan runId start) (resume plan) := by
  apply Keeps.bind keeps_continueRun
  intro _
  apply Keeps.bind (Quiet.keepsHeld Quiet.get)
  intro s'
  dsimp only
  split
  · exact keeps_recoverTakeOperation _
  · apply Keeps.ite (Keeps.throw (fun _ hs => hs.loose) _)
    apply Keeps.bind
    · exact keeps_bookkeeping (fun _ => rfl) (fun _ => rfl) fun _ => rfl
    · intro _
      apply Keeps.bind keeps_persistHeld
      intro _
      apply Keeps.bind (Quiet.keepsHeld quiet_deadlinePassed)
      intro passed
      apply Keeps.ite
      · apply Keeps.bind (Quiet.keepsHeld quiet_canceled)
        intro isCanceled
        apply Keeps.ite keeps_drive
        apply Keeps.bind (keeps_haltHeld _ _ _)
        intro _
        apply Keeps.bind (keeps_finish false)
        exact fun _ => Keeps.bind (Quiet.keepsHeld Quiet.get) fun _ => Keeps.pure _
      · exact keeps_drive

/-- The state an invocation leaves, read off a triple of its controller. -/
theorem Triple.final {α : Type} {pre P : Session → Prop} {program : Controller α}
    (h : Triple pre program (fun _ => P) (fun _ => P)) {s : Session} (hs : pre s) :
    P (final (program s)) := by
  have := h s hs
  cases hrun : program s with
  | ok a s' =>
      rw [hrun] at this
      exact this
  | error e s' =>
      rw [hrun] at this
      exact this

/-- What a replacement leaves on disk: nothing happened, or the human step did and automatic
work after it. -/
def Replaced (plan : Plan) (saved : RunRecord) (shotId reason : String) (directory : Directory) :
    Prop :=
  Advanced plan saved.runId (orderedShots plan saved.shots) directory ∨
    ∃ i shot, saved.shots[i]? = some shot ∧ shot.shotId = shotId ∧
      Advanced plan saved.runId (saved.shots.set i (replacedShot saved.runId shot reason)) directory

/-- A controller that has read the record and worked on nothing. -/
structure Reading (plan : Plan) (saved : RunRecord) (s : Session) : Prop where
  disk : s.disk = some saved
  onDisk : OnDisk plan s.world saved
  runId : s.record.runId = saved.runId
  shots : s.record.shots = saved.shots
  lines : s.record.synthesizedSound = saved.synthesizedSound

theorem OnDisk.drift {world world' : World} (hdrift : World.Drift world world') {saved : RunRecord}
    (h : OnDisk plan world saved) : OnDisk plan world' saved :=
  ⟨h.shape, h.regular, h.lines, hdrift.keys_eq ▸ h.distinct, hdrift.keys_eq ▸ h.recorded⟩

theorem Reading.drift {saved : RunRecord} {s s' : Session} (hdrift : Drifts s s')
    (h : Reading plan saved s) : Reading plan saved s' :=
  ⟨hdrift.disk.trans h.disk, h.onDisk.drift hdrift.world, hdrift.record ▸ h.runId,
    hdrift.record ▸ h.shots, hdrift.record ▸ h.lines⟩

theorem OnDisk.advanced {s : Session} {saved : RunRecord} (h : OnDisk plan s.world saved)
    (hdisk : s.disk = some saved) :
    Advanced plan saved.runId (orderedShots plan saved.shots) s.directory :=
  ⟨saved, hdisk, rfl, Evolves.refl _ _ _, h⟩

/-- The replacement is written in memory, not yet on disk. -/
structure Rejecting (plan : Plan) (saved : RunRecord) (i : Nat) (shot : ShotRunRecord)
    (reason : String) (s : Session) : Prop where
  disk : s.disk = some saved
  onDisk : OnDisk plan s.world saved
  place : saved.shots[i]? = some shot
  runId : s.record.runId = saved.runId
  shots : s.record.shots = saved.shots.set i (replacedShot saved.runId shot reason)
  lines : s.record.synthesizedSound = saved.synthesizedSound

theorem Rejecting.drift {saved : RunRecord} {i : Nat} {shot : ShotRunRecord} {reason : String}
    {s s' : Session} (hdrift : Drifts s s') (h : Rejecting plan saved i shot reason s) :
    Rejecting plan saved i shot reason s' :=
  ⟨hdrift.disk.trans h.disk, h.onDisk.drift hdrift.world, h.place, hdrift.record ▸ h.runId,
    hdrift.record ▸ h.shots, hdrift.record ▸ h.lines⟩

theorem Rejecting.linesKeyed {saved : RunRecord} {i : Nat} {shot : ShotRunRecord} {reason : String}
    {s : Session} (h : Rejecting plan saved i shot reason s) : LinesKeyed plan s.record := by
  intro line hline
  rw [h.lines] at hline
  rw [h.runId]
  exact h.onDisk.lines line hline

theorem mem_set_of_getElem? {shots : List ShotRunRecord} {i : Nat} {shot : ShotRunRecord}
    (hi : shots[i]? = some shot) (shot' : ShotRunRecord) {other : ShotRunRecord}
    (hmem : other ∈ shots) : (other = shot ∧ shot' ∈ shots.set i shot') ∨
        other ∈ shots.set i shot' := by
  have hlt : i < shots.length := (List.getElem?_eq_some_iff.mp hi).1
  obtain ⟨k, hk⟩ := List.mem_iff_getElem?.mp hmem
  by_cases hik : i = k
  · subst hik
    obtain rfl := Option.some.inj (hi.symm.trans hk)
    exact .inl ⟨rfl, List.mem_set hlt _⟩
  · refine .inr (List.mem_of_getElem? (i := k) ?_)
    rw [List.getElem?_set_ne hik]
    exact hk

theorem map_shotId_set {shots : List ShotRunRecord} {i : Nat} {shot shot' : ShotRunRecord}
    (hi : shots[i]? = some shot) (hid : shot'.shotId = shot.shotId) :
    (shots.set i shot').map (·.shotId) = shots.map (·.shotId) := by
  apply List.ext_getElem?
  intro k
  rw [List.getElem?_map, List.getElem?_map, List.getElem?_set]
  by_cases hik : i = k
  · subst hik
    have hlt : i < shots.length := (List.getElem?_eq_some_iff.mp hi).1
    rw [if_pos rfl, if_pos hlt, hi, Option.map_some, Option.map_some, hid]
  · rw [if_neg hik]

section Replacing

variable {saved : RunRecord} {i : Nat} {shot : ShotRunRecord} {reason : String} {s : Session}

theorem shotIds_replaced (h : Rejecting plan saved i shot reason s) :
    (saved.shots.set i (replacedShot saved.runId shot reason)).map (·.shotId) = plan.shotIds := by
  have hid : (replacedShot saved.runId shot reason).shotId = shot.shotId := rfl
  exact (map_shotId_set h.place hid).trans (h.onDisk.shape.ids_of_getElem? h.place)

/-- A replacement rejects and appends, so every job keeps its attempt. -/
theorem recorded_replaced (h : Rejecting plan saved i shot reason s) :
    ∀ key ∈ s.world.keys, ∀ shotId ∈ plan.shotIds, ∀ number,
      key = idempotencyKey saved.runId shotId number →
        ∃ other ∈ saved.shots.set i (replacedShot saved.runId shot reason),
          other.shotId = shotId ∧ ∃ attempt ∈ other.attempts, attempt.attempt = number := by
  intro key hkey shotId hshotId number hnumber
  obtain ⟨other, hother, hid, attempt, hattempt, hsame⟩ :=
    h.onDisk.recorded key hkey shotId hshotId number hnumber
  rw [orderedShots_of_ids (h.onDisk.shape.ids_of_getElem? h.place)] at hother
  obtain ⟨rfl, hset⟩ | hset :=
    mem_set_of_getElem? h.place (replacedShot saved.runId shot reason) hother
  · have hgrows := grows_replacedShot saved.runId other reason
    obtain ⟨attempt', hattempt', hsame'⟩ := hgrows.mem hattempt
    exact ⟨_, hset, hid, attempt', hattempt', hsame'.trans hsame⟩
  · exact ⟨other, hset, hid, attempt, hattempt, hsame⟩

theorem regular_replaced (h : Rejecting plan saved i shot reason s) :
    ∀ other ∈ saved.shots.set i (replacedShot saved.runId shot reason),
      Regular saved.runId plan.maxAttemptsPerShot other := by
  have hregular : ∀ other ∈ saved.shots, Regular saved.runId plan.maxAttemptsPerShot other := by
    have := h.onDisk.regular
    rwa [orderedShots_of_ids (h.onDisk.shape.ids_of_getElem? h.place)] at this
  intro other hother
  obtain hother | rfl := List.mem_or_eq_of_mem_set hother
  · exact hregular other hother
  · exact regular_replacedShot (hregular shot (List.mem_of_getElem? h.place)) reason

/-- Once the replacement is on disk the controller holds the replaced shots, and the attempt
the human asked for is in flight. -/
theorem Rejecting.persisted (h : Rejecting plan saved i shot reason s) :
    With (Held plan saved.runId (saved.shots.set i (replacedShot saved.runId shot reason)))
      (InFlight i shot.attempts.length) { s with disk := some s.record } := by
  have hids := shotIds_replaced h
  have hordered := orderedShots_of_ids hids
  constructor
  · refine ⟨s.record, ⟨regular_replaced h, rfl, h.runId, h.runId, .inr ?_, .inr ?_, ?_,
      Evolves.refl _ _ _, ?_, ?_, h.onDisk.distinct, ?_⟩, rfl⟩
    · rw [h.shots]
      exact hids
    · rw [h.shots]
      exact hids
    · rw [h.shots, hordered]
      exact Evolves.refl _ _ _
    · exact h.linesKeyed
    · exact h.linesKeyed
    · have hrecorded := recorded_replaced h
      rw [h.shots, hordered]
      exact hrecorded
  · have hlt : i < saved.shots.length := (List.getElem?_eq_some_iff.mp h.place).1
    have hlength : (rejectTake shot reason).length = shot.attempts.length := by
      obtain hkept | ⟨j, old, -, -, hset⟩ := rejectTake_cases shot reason
      · rw [hkept]
      · rw [hset, List.length_set]
    refine ⟨freshAttempt saved.runId shot true, ⟨replacedShot saved.runId shot reason, ?_, ?_⟩, ?_⟩
    · simp [h.shots, hlt]
    · simp [replacedShot, ← hlength]
    · simp [freshAttempt, AttemptRecord.isTerminal, terminalAttemptStatuses]

theorem Reading.replaced (h : Reading plan saved s) (shotId reason : String) :
    Replaced plan saved shotId reason s.directory :=
  .inl (h.onDisk.advanced h.disk)

theorem Rejecting.replaced (h : Rejecting plan saved i shot reason s) :
    Replaced plan saved shot.shotId reason s.directory :=
  .inl (h.onDisk.advanced h.disk)

theorem Loose.replaced (hplace : saved.shots[i]? = some shot)
    (h : Loose plan saved.runId (saved.shots.set i (replacedShot saved.runId shot reason)) s) :
    Replaced plan saved shot.shotId reason s.directory :=
  .inr ⟨i, shot, hplace, rfl, h.advanced⟩

theorem triple_persistReplacement (hplace : saved.shots[i]? = some shot) :
    Triple (Rejecting plan saved i shot reason) persist
      (fun _ => With
        (Held plan saved.runId (saved.shots.set i (replacedShot saved.runId shot reason)))
        (InFlight i shot.attempts.length))
      (fun _ s => Replaced plan saved shot.shotId reason s.directory) := by
  apply Triple.bind fun _ => Rejecting plan saved i shot reason
  · exact (Within.keeps quiet_next (fun _ _ hdrift hs => hs.drift hdrift) fun _ hs => hs).weaken
      (fun _ hs => hs) (fun _ _ hs => hs) fun _ _ hs => hs.replaced
  · intro move
    cases move.answer with
    | done => exact triple_modify fun s hs => hs.persisted
    | lost =>
        apply Triple.bind fun _ => Held plan saved.runId
          (saved.shots.set i (replacedShot saved.runId shot reason))
        · exact triple_modify fun s hs => hs.persisted.1
        · exact fun _ => triple_throw fun s hs => hs.loose.replaced hplace
    | refused | failed => exact triple_throw fun s hs => hs.replaced

theorem findShot_eq_some {shots : List ShotRunRecord} {shotId : String}
    (h : ((shots.findIdx? fun shot => shot.shotId == shotId).bind fun i =>
      (shots[i]?).map (i, ·)) = some (i, shot)) : shots[i]? = some shot ∧ shot.shotId = shotId := by
  obtain ⟨k, hk, hpair⟩ := Option.bind_eq_some_iff.mp h
  obtain ⟨found, hfound, hsame⟩ := Option.map_eq_some_iff.mp hpair
  obtain ⟨rfl, rfl⟩ := Prod.mk.inj hsame
  obtain ⟨hlt, hid, -⟩ := List.findIdx?_eq_some_iff_getElem.mp hk
  obtain ⟨_, hget⟩ := List.getElem?_eq_some_iff.mp hfound
  rw [hget] at hid
  exact ⟨hfound, by simpa using hid⟩

/-- The human step: the rejection and the new attempt are written down together, and the rest
is automatic work on them. -/
theorem triple_beginReplacement (shotId : String) (prior : RunOutcome × Option RunStop)
    (hplace : saved.shots[i]? = some shot) (hid : shot.shotId = shotId) :
    Triple (Reading plan saved)
      (do
        let exporting := (← get).exporting
        modifyRecord fun record => beginReplacement record i shot reason exporting prior
        persist
        let _ ← workAttempt plan i shot.attempts.length
        completeTakeOperation plan i shotId prior)
      (fun _ s => Replaced plan saved shotId reason s.directory)
      (fun _ s => Replaced plan saved shotId reason s.directory) := by
  subst hid
  apply Triple.bind fun _ => Reading plan saved
  · exact triple_get fun s hs => hs
  · intro s'
    apply Triple.bind fun _ => Rejecting plan saved i shot reason
    · apply triple_modify
      intro s hs
      refine ⟨hs.disk, hs.onDisk, hplace, hs.runId, ?_, hs.lines⟩
      simp only [beginReplacement, RunRecord.modifyShot]
      rw [hs.shots, hs.runId, modify_of_getElem? hplace]
    · intro _
      apply Triple.bind _ (triple_persistReplacement hplace)
      intro _
      apply Triple.bind fun _ => Held plan saved.runId
        (saved.shots.set i (replacedShot saved.runId shot reason))
      · exact (triple_workAttempt i _).weaken (fun _ hs => hs) (fun _ _ hs => hs)
          fun _ _ hs => hs.replaced hplace
      · intro _
        exact (keeps_completeTakeOperation i _ _).weaken (fun _ hs => hs)
          (fun _ _ hs => hs.loose.replaced hplace) fun _ _ hs => hs.replaced hplace

theorem Quiet.reads {α : Type} {program : Controller α} (h : Quiet program)
    (shotId reason : String) :
    Triple (Reading plan saved) program (fun _ => Reading plan saved)
      (fun _ s => Replaced plan saved shotId reason s.directory) :=
  Within.keeps h (fun _ _ hdrift hs => hs.drift hdrift) fun _ hs => hs.replaced shotId reason

theorem triple_replaceTake (shotId reason : String) :
    Triple (Reading plan saved) (replaceTake plan shotId reason)
      (fun _ s => Replaced plan saved shotId reason s.directory)
      (fun _ s => Replaced plan saved shotId reason s.directory) := by
  have hfail : ∀ e : HarnessError, Triple (Reading plan saved) (fail e : Controller RunRecord)
      (fun _ s => Replaced plan saved shotId reason s.directory)
      (fun _ s => Replaced plan saved shotId reason s.directory) :=
    fun e => triple_throw fun s hs => hs.replaced shotId reason
  apply Triple.bind fun _ => Reading plan saved
  · apply Triple.bind fun s' s => Reading plan saved s ∧ s'.disk = some saved
    · exact triple_get fun s hs => ⟨hs, hs.disk⟩
    · intro s'
      apply Triple.given
      intro hdisk
      rw [hdisk]
      apply Triple.bind _ (Quiet.reads quiet_expectOk shotId reason)
      exact fun _ => triple_modify fun s hs => ⟨hs.disk, hs.onDisk, rfl, rfl, rfl⟩
  · intro _
    apply Triple.bind _ (Quiet.reads Quiet.get shotId reason)
    intro s'
    dsimp only
    apply Triple.ite fun _ => hfail _
    intro _
    apply Triple.ite fun _ => hfail _
    intro _
    apply Triple.ite fun _ => hfail _
    intro _
    apply Triple.ite fun _ => hfail _
    intro _
    apply Triple.bind _ (Quiet.reads quiet_canceled shotId reason)
    intro isCanceled
    apply Triple.ite fun _ => hfail _
    intro _
    apply Triple.bind fun _ => Reading plan saved
    · exact triple_modify fun s hs => ⟨hs.disk, hs.onDisk, hs.runId, hs.shots, hs.lines⟩
    · intro _
      apply Triple.bind fun found s => Reading plan saved s ∧ ∀ i shot, found = some (i, shot) →
        saved.shots[i]? = some shot ∧ shot.shotId = shotId
      · apply Triple.bind fun s' s => Reading plan saved s ∧ s'.record.shots = saved.shots
        · exact triple_get fun s hs => ⟨hs, hs.shots⟩
        · intro s'
          apply triple_pure
          intro s ⟨hs, hshots⟩
          refine ⟨hs, fun i shot hfound => ?_⟩
          rw [hshots] at hfound
          exact findShot_eq_some hfound
      · intro found
        cases found with
        | none => exact triple_throw fun s hs => hs.1.replaced shotId reason
        | some found =>
            obtain ⟨i, shot⟩ := found
            apply Triple.given
            intro hfound
            obtain ⟨hplace, hid⟩ := hfound i shot rfl
            apply Triple.ite fun _ => hfail _
            intro _
            exact triple_beginReplacement shotId _ hplace hid

end Replacing

/-- Before a run has written anything there is no job of it. -/
structure Blank (s : Session) : Prop where
  disk : s.disk = none
  keys : s.world.keys = []

def Started (plan : Plan) (directory : Directory) : Prop :=
  (directory.disk = none ∧ directory.world.keys = []) ∨
    ∃ runId, Advanced plan runId (orderedShots plan []) directory

theorem Blank.drift {s s' : Session} (hdrift : Drifts s s') (h : Blank s) : Blank s' :=
  ⟨hdrift.disk.trans h.disk, hdrift.world.keys_eq.trans h.keys⟩

theorem Blank.started {s : Session} (h : Blank s) : Started plan s.directory :=
  .inl ⟨h.disk, h.keys⟩

theorem Loose.started {s : Session} (h : Loose plan runId (orderedShots plan []) s) :
    Started plan s.directory :=
  .inr ⟨runId, h.advanced⟩

theorem regular_orderedShots_nil (runId : String) :
    ∀ shot ∈ orderedShots plan [], Regular runId plan.maxAttemptsPerShot shot := by
  intro shot hshot
  obtain ⟨planned, -, rfl⟩ := List.mem_map.mp hshot
  exact regular_fresh runId plan.maxAttemptsPerShot planned.id

/-- The first record of a run: no shot of it has been worked. -/
theorem Blank.persisted {s : Session} (h : Blank s) (hshots : s.record.shots = [])
    (hlines : s.record.synthesizedSound = []) :
    Held plan s.record.runId (orderedShots plan []) { s with disk := some s.record } := by
  have hkeyed : LinesKeyed plan s.record := by
    intro line hline
    rw [hlines] at hline
    cases hline
  refine ⟨s.record, ⟨regular_orderedShots_nil _, rfl, rfl, rfl, .inl hshots, .inl hshots, ?_,
    Evolves.refl _ _ _, hkeyed, hkeyed, ?_, ?_⟩, rfl⟩
  · rw [hshots]
    exact Evolves.refl _ _ _
  · rw [h.keys]
    exact List.nodup_nil
  · rw [h.keys]
    intro key hkey
    cases hkey

theorem triple_persistFirst (runId : String) :
    Triple (fun s => Blank s ∧ s.record.runId = runId ∧ s.record.shots = [] ∧
        s.record.synthesizedSound = []) persist
      (fun _ => Held plan runId (orderedShots plan [])) (fun _ s => Started plan s.directory) := by
  apply Triple.bind fun _ s => Blank s ∧ s.record.runId = runId ∧ s.record.shots = [] ∧
    s.record.synthesizedSound = []
  · refine Within.keeps quiet_next ?_ fun s hs => hs.1.started
    intro s s' hdrift hs
    rw [hdrift.record]
    exact ⟨hs.1.drift hdrift, hs.2⟩
  · intro move
    have hpersist : ∀ s : Session, (Blank s ∧ s.record.runId = runId ∧ s.record.shots = [] ∧
        s.record.synthesizedSound = []) →
        Held plan runId (orderedShots plan []) { s with disk := some s.record } := by
      rintro s ⟨hs, rfl, hshots, hlines⟩
      exact hs.persisted hshots hlines
    cases move.answer with
    | done => exact triple_modify hpersist
    | lost =>
        apply Triple.bind fun _ => Held plan runId (orderedShots plan [])
        · exact triple_modify hpersist
        · exact fun _ => triple_throw fun s hs => hs.loose.started
    | refused | failed => exact triple_throw fun s hs => hs.1.started

theorem triple_run (runId : String) (shotIds : Option (List String)) (project : Option String) :
    Triple Blank (run plan runId shotIds project) (fun _ s => Started plan s.directory)
      (fun _ s => Started plan s.directory) := by
  apply Triple.bind fun s' s => Blank s ∧ s'.disk = none
  · exact triple_get fun s hs => ⟨hs, hs.disk⟩
  · intro s'
    apply Triple.given
    intro hdisk
    rw [hdisk]
    apply Triple.ite fun h => absurd h (by simp)
    intro _
    apply Triple.bind fun _ => Blank
    · exact Within.keeps quiet_next (fun _ _ hdrift hs => hs.drift hdrift) fun _ hs => hs.started
    · intro move
      apply Triple.bind fun _ s => Blank s ∧ s.record.runId = runId ∧ s.record.shots = [] ∧
        s.record.synthesizedSound = []
      · exact triple_modify fun s hs => ⟨⟨hs.disk, hs.keys⟩, rfl, rfl, rfl⟩
      · intro _
        cases move.answer with
        | done =>
            apply Triple.bind _ (triple_persistFirst runId)
            intro _
            exact keeps_drive.weaken (fun _ hs => hs) (fun _ _ hs => hs.loose.started)
              fun _ _ hs => hs.started
        | refused =>
            apply Triple.bind fun _ => Held plan runId (orderedShots plan [])
            · apply Triple.bind fun _ s => Blank s ∧ s.record.runId = runId ∧
                s.record.shots = [] ∧ s.record.synthesizedSound = []
              · exact triple_modify fun s hs => ⟨⟨hs.1.disk, hs.1.keys⟩, hs.2⟩
              · exact fun _ => triple_persistFirst runId
            · exact fun _ => triple_throw fun s hs => hs.loose.started
        | lost | failed => exact triple_throw fun s hs => hs.1.started

/-- Without a record there is nothing to continue. -/
theorem triple_continueRun_blank {α : Type} (rest : Unit → Controller α) :
    Triple Blank (continueRun >>= rest) (fun _ s => Started plan s.directory)
      (fun _ s => Started plan s.directory) := by
  apply Triple.bind fun _ _ => False
  · apply Triple.bind fun s' s => Blank s ∧ s'.disk = none
    · exact triple_get fun s hs => ⟨hs, hs.disk⟩
    · intro s'
      apply Triple.given
      intro hdisk
      rw [hdisk]
      exact triple_throw fun s hs => hs.started
  · intro _ s hs
    exact hs.elim

/-- A directory that holds a run is not given another. -/
theorem triple_run_taken (newId : String) (shotIds : Option (List String))
    (project : Option String) :
    Triple (Held plan runId start) (run plan newId shotIds project)
      (fun _ s => Advanced plan runId start s.directory)
      (fun _ s => Advanced plan runId start s.directory) := by
  apply Triple.bind fun s' s => Held plan runId start s ∧ s'.disk.isSome
  · apply triple_get
    intro s hs
    refine ⟨hs, ?_⟩
    obtain ⟨saved, htracked, -⟩ := hs
    rw [htracked.disk]
    rfl
  · intro s'
    apply Triple.given
    intro hdisk
    apply Triple.ite
    · exact fun _ => triple_throw fun s hs => hs.loose.advanced
    · exact fun h => absurd hdisk h

/-- What one invocation does to the directory, whatever its script: only a replacement does
more than automatic work. -/
def Progress (plan : Plan) (directory : Directory) (action : Action) (after : Directory) : Prop :=
  match directory.disk, action with
  | none, _ => Started plan after
  | some saved, .replaceTake shotId reason => Replaced plan saved shotId reason after
  | some saved, _ => Advanced plan saved.runId (orderedShots plan saved.shots) after

theorem invoke_progress {directory : Directory} (h : Kept plan directory)
    (invocation : Invocation) :
    Progress plan directory invocation.action (invoke plan directory invocation) := by
  obtain ⟨action, exporting, script⟩ := invocation
  cases hdisk : directory.disk with
  | none =>
      simp only [Kept, hdisk] at h
      simp only [Progress, hdisk]
      have hblank : Blank (Invocation.session { action, exporting, script } directory) :=
        ⟨hdisk, h⟩
      cases action with
      | run runId shotIds project => exact Triple.final (triple_run runId shotIds project) hblank
      | resume => exact Triple.final (triple_continueRun_blank _) hblank
      | replaceTake shotId reason => exact Triple.final (triple_continueRun_blank _) hblank
  | some saved =>
      simp only [Kept, hdisk] at h
      simp only [Progress, hdisk]
      have hrecord : (Invocation.session { action, exporting, script } directory).record =
          saved := by
        simp [Invocation.session, hdisk]
      have honDisk : OnDisk plan (Invocation.session { action, exporting, script } directory).world
          saved := ⟨h.shape, h.regular, h.lines, h.distinct, h.recorded⟩
      have hheld := honDisk.held hdisk hrecord
      cases action with
      | run runId shotIds project => exact Triple.final (triple_run_taken _ _ _) hheld
      | resume =>
          exact Triple.final (keeps_resume.weaken (fun _ hs => hs)
            (fun _ _ hs => hs.loose.advanced) (fun _ _ hs => hs.advanced)) hheld
      | replaceTake shotId reason =>
          have hreading : Reading plan saved _ := ⟨hdisk, honDisk, congrArg RunRecord.runId hrecord,
            congrArg RunRecord.shots hrecord, congrArg RunRecord.synthesizedSound hrecord⟩
          exact Triple.final (triple_replaceTake shotId reason) hreading

theorem Progress.kept {directory after : Directory} {action : Action}
    (h : Progress plan directory action after) : Kept plan after := by
  cases hdisk : directory.disk with
  | none =>
      simp only [Progress, hdisk] at h
      obtain ⟨hnone, hkeys⟩ | ⟨runId, h⟩ := h
      · simp only [Kept, hnone]
        exact hkeys
      · exact h.kept
  | some saved =>
      simp only [Progress, hdisk] at h
      cases action with
      | replaceTake shotId reason =>
          obtain h | ⟨i, shot, -, -, h⟩ := h
          · exact h.kept
          · exact h.kept
      | run _ _ _ => exact h.kept
      | resume => exact h.kept

theorem kept_empty (now : Nat) : Kept plan (Directory.empty now) := rfl

theorem kept_run {directory : Directory} (h : Kept plan directory)
    (invocations : List Invocation) : Kept plan (Run.exec (invoke plan) directory invocations) := by
  induction invocations generalizing directory with
  | nil => exact h
  | cons invocation invocations ih => exact ih (invoke_progress h invocation).kept

/-- What the record and the API hold of a film run whenever one looks: no key twice, no two
intents under one key, every render job of an attempt on record, and the plan's cap. -/
structure DispatchedOnce (plan : Plan) (world : World) (saved : RunRecord) : Prop where
  once : ∀ shotId ∈ plan.shotIds, ∀ number,
    world.keys.count (idempotencyKey saved.runId shotId number) ≤ 1
  pairs : ∀ a ∈ plan.shotIds, ∀ b ∈ plan.shotIds, ∀ m n,
    idempotencyKey saved.runId a m = idempotencyKey saved.runId b n → a = b ∧ m = n
  spoken : ∀ shotId ∈ plan.shotIds, ∀ number role model voice text attempt,
    dialogueIdempotencyKey plan.digest saved.runId role model voice text attempt ≠
      idempotencyKey saved.runId shotId number
  lines : ∀ line ∈ saved.synthesizedSound, ∀ shotId ∈ plan.shotIds, ∀ number,
    line.idempotencyKey ≠ idempotencyKey saved.runId shotId number
  recorded : ∀ shotId ∈ plan.shotIds, ∀ number,
    idempotencyKey saved.runId shotId number ∈ world.keys →
      ∃ shot ∈ saved.shots, shot.shotId = shotId ∧
        ∃ attempt ∈ shot.attempts, attempt.attempt = number
  capped : ∀ shot ∈ saved.shots,
    (shot.attempts.countP fun attempt => !attempt.humanRequested) ≤ plan.maxAttemptsPerShot

/-- A shot that has attempts is in the record itself. -/
theorem mem_of_mem_orderedShots {shots : List ShotRunRecord} (hshape : Shaped plan shots)
    {shot : ShotRunRecord} (hmem : shot ∈ orderedShots plan shots) {attempt : AttemptRecord}
    (hattempt : attempt ∈ shot.attempts) : shot ∈ shots := by
  obtain rfl | hids := hshape
  · obtain ⟨planned, -, rfl⟩ := List.mem_map.mp hmem
    cases hattempt
  · rwa [orderedShots_of_ids hids] at hmem

theorem mem_orderedShots {shots : List ShotRunRecord} (hshape : Shaped plan shots)
    {shot : ShotRunRecord} (hmem : shot ∈ shots) : shot ∈ orderedShots plan shots := by
  obtain rfl | hids := hshape
  · cases hmem
  · rwa [orderedShots_of_ids hids]

theorem OnDisk.dispatchedOnce {world : World} {saved : RunRecord}
    (h : OnDisk plan world saved) : DispatchedOnce plan world saved where
  once shotId _ number := List.nodup_iff_count_le_one.mp h.distinct _
  pairs a ha b _ m n hkey := idempotencyKey_inj (Plan.colon_notMem ha) hkey
  spoken shotId hshotId number role model voice text attempt :=
    dialogueIdempotencyKey_ne (Plan.colon_notMem hshotId)
  lines line hline shotId hshotId number := by
    obtain ⟨role, model, voice, text, attempt, hkey⟩ := h.lines line hline
    rw [hkey]
    exact dialogueIdempotencyKey_ne (Plan.colon_notMem hshotId)
  recorded shotId hshotId number hkey := by
    obtain ⟨shot, hshot, hid, attempt, hattempt, hnumber⟩ :=
      h.recorded _ hkey shotId hshotId number rfl
    exact ⟨shot, mem_of_mem_orderedShots h.shape hshot hattempt, hid, attempt, hattempt, hnumber⟩
  capped shot hshot := (h.regular shot (mem_orderedShots h.shape hshot)).capped

/-- A render attempt is dispatched at most once, whatever the invocations and wherever each of
them dies. -/
theorem attempts_dispatched_once (plan : Plan) (now : Nat) (invocations : List Invocation) :
    match (Run.exec (invoke plan) (Directory.empty now) invocations).disk with
    | none => (Run.exec (invoke plan) (Directory.empty now) invocations).world.keys = []
    | some saved =>
        DispatchedOnce plan (Run.exec (invoke plan) (Directory.empty now) invocations).world
          saved := by
  have hkept : Kept plan _ := kept_run (kept_empty now) invocations
  generalize Run.exec (invoke plan) (Directory.empty now) invocations = directory at hkept
  cases hdisk : directory.disk with
  | none => simpa only [Kept, hdisk] using hkept
  | some saved =>
      simp only [Kept, hdisk] at hkept
      exact hkept.dispatchedOnce

end FilmRun
end SceneWorks
