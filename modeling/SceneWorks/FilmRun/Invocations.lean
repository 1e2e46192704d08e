import SceneWorks.FilmRun.Work

/-!
Whole invocations keep the dispatch invariant: speaking the lines, assembling and exporting
change nothing it speaks of, and starting, resuming and replacing are made of these parts.
-/

namespace SceneWorks
namespace FilmRun

open Crash ShotRunRecord Controller

variable {plan : Plan} {runId : String} {start : List ShotRunRecord}

/-- A spoken line carries a key of the spoken kind. -/
def LineKeyed (plan : Plan) (runId : String) (line : SynthesizedSoundRecord) : Prop :=
  ∃ role model voice text attempt,
    line.idempotencyKey = dialogueIdempotencyKey plan.digest runId role model voice text attempt

theorem Held.lines {s : Session} (h : Held plan runId start s) :
    ∀ line ∈ s.record.synthesizedSound, LineKeyed plan runId line := by
  obtain ⟨saved, h, -⟩ := h
  intro line hline
  have := h.memoryLines line hline
  rwa [h.memoryRun] at this

/-- A change of the record that touches neither its shots nor its run. -/
theorem Held.rewritten {s : Session} (h : Held plan runId start s) {record : RunRecord}
    (hrun : record.runId = s.record.runId) (hshots : record.shots = s.record.shots)
    (hlines : ∀ line ∈ record.synthesizedSound, LineKeyed plan runId line) :
    Held plan runId start { s with record } := by
  have hmemory : s.record.runId = runId := by
    obtain ⟨saved, htracked, -⟩ := h
    exact htracked.memoryRun
  apply h.bookkeeping hrun hshots
  intro line hline
  rw [hrun, hmemory]
  exact hlines line hline

/-- The columns of the record that neither shot nor line owns may be rewritten at any time. -/
theorem keeps_bookkeeping {f : RunRecord → RunRecord}
    (hrun : ∀ record, (f record).runId = record.runId)
    (hshots : ∀ record, (f record).shots = record.shots)
    (hlines : ∀ record, (f record).synthesizedSound = record.synthesizedSound) :
    Keeps (Held plan runId start) (Loose plan runId start) (modifyRecord f) := by
  apply Crash.Keeps.modify
  intro s hs
  apply hs.rewritten (hrun _) (hshots _)
  rw [hlines]
  exact hs.lines

theorem putLine_lines {record : RunRecord} {line : SynthesizedSoundRecord}
    (hline : LineKeyed plan runId line)
    (h : ∀ line ∈ record.synthesizedSound, LineKeyed plan runId line) :
    ∀ other ∈ (record.putLine line).synthesizedSound, LineKeyed plan runId other := by
  intro other hother
  simp only [RunRecord.putLine] at hother
  split at hother
  · obtain hother | hsame := List.mem_or_eq_of_mem_set hother
    · exact h other hother
    · rw [hsame]
      exact hline
  · obtain hother | hother := List.mem_append.mp hother
    · exact h other hother
    · rw [List.mem_singleton.mp hother]
      exact hline

theorem keeps_putLine {line : SynthesizedSoundRecord} (hline : LineKeyed plan runId line) :
    Keeps (Held plan runId start) (Loose plan runId start)
      (modifyRecord fun record => record.putLine line) := by
  apply Crash.Keeps.modify
  intro s hs
  exact hs.rewritten rfl rfl (putLine_lines hline hs.lines)

theorem quiet_spokenFile (record : RunRecord) (entry : SoundEntry) (text file : String) :
    Quiet (spokenFile record entry text file) := by
  unfold spokenFile
  split
  · exact Quiet.pure _
  · apply Within.ite (Quiet.pure _)
    apply Quiet.bind quiet_present
    exact fun _ => Within.ite (Quiet.pure _) (Quiet.pure _)

/-- The line that is continued or made afresh carries a spoken key. -/
theorem triple_dialogueLine (entry : SoundEntry) (text : String) :
    Triple (Held plan runId start) (dialogueLine plan entry text)
      (fun found s => Held plan runId start s ∧ ∀ line, found = some line →
      LineKeyed plan runId line)
      (fun _ => Loose plan runId start) := by
  apply Triple.bind fun s' s => With (Held plan runId start) (fun record => record = s'.record) s
  · exact triple_get fun s hs => ⟨hs, rfl⟩
  · intro s'
    dsimp only
    split
    · next line hline =>
        apply triple_pure
        intro s hs
        refine ⟨hs.1, ?_⟩
        intro line' hsame
        obtain rfl := Option.some.inj hsame
        obtain ⟨hcontinued, -⟩ := Option.filter_eq_some_iff.mp hline
        obtain ⟨hfound, -⟩ := Option.filter_eq_some_iff.mp hcontinued
        apply hs.1.lines
        rw [hs.2]
        exact List.mem_of_find?_eq_some hfound
    · apply Triple.bind _ (Quiet.keeps quiet_canceled _)
      intro isCanceled
      apply Triple.ite
      · intro _
        apply Triple.bind _ (keeps_halt _ _ _ _)
        exact fun _ => triple_pure fun s hs => ⟨hs.1, by simp⟩
      · intro _
        apply Triple.bind fun _ => With (Held plan runId start) fun _ =>
          LineKeyed plan runId (freshLine plan s'.record entry text)
        · apply triple_modify
          intro s hs
          have hrun : s'.record.runId = runId := by
            obtain ⟨saved, htracked, -⟩ := hs.1
            rw [← hs.2]
            exact htracked.memoryRun
          have hkeyed : LineKeyed plan runId (freshLine plan s'.record entry text) := by
            rw [← hrun]
            exact ⟨_, _, _, _, _, rfl⟩
          exact ⟨hs.1.rewritten rfl rfl (putLine_lines hkeyed hs.1.lines), hkeyed⟩
        · intro _
          apply Triple.bind _ (keeps_persist _)
          intro _
          apply triple_pure
          intro s hs
          refine ⟨hs.1, ?_⟩
          intro line hsame
          obtain rfl := Option.some.inj hsame
          exact hs.2

/-- A spoken key is the key of no attempt, so its job may be asked for without one. -/
theorem keeps_lineJob {line : SynthesizedSoundRecord} (hline : LineKeyed plan runId line) :
    Keeps (Held plan runId start) (Loose plan runId start) (lineJob line) := by
  have hpre : ∀ s, Held plan runId start s →
      With (Held plan runId start) (fun _ => True) s := fun s hs => ⟨hs, trivial⟩
  apply Triple.bind _ ((triple_knownJob _ line.jobId line.idempotencyKey).mono hpre)
  intro found
  cases found with
  | some id => exact triple_pure fun s hs => hs.1.1
  | none =>
      apply Triple.bind fun _ =>
        Unasked (With (Held plan runId start) fun _ => True) line.idempotencyKey
      · exact (Quiet.keepsUnasked quiet_canceled _ _).mono fun s hs => ⟨hs.1, hs.2 rfl⟩
      · intro isCanceled
        apply Triple.ite
        · intro _
          apply Triple.bind fun _ => Held plan runId start
          · exact (keeps_haltHeld _ _ _).mono fun s hs => hs.1.1
          · exact fun _ => Keeps.bind keeps_persistHeld fun _ => Keeps.pure _
        · intro _
          apply Triple.bind _ (triple_postJob _ rfl ?_)
          · intro created
            cases created with
            | some id => exact triple_pure fun s hs => hs.1
            | none =>
                apply Triple.bind fun _ => Held plan runId start
                · exact Triple.mono (keeps_putLine hline) fun s hs => hs.1
                · intro _
                  apply Keeps.bind keeps_persistHeld
                  exact fun _ => Keeps.bind (keeps_haltHeld _ _ _) fun _ => Keeps.pure _
          · intro s hs shotId hshotId number hkey
            obtain ⟨role, model, voice, text, attempt, hdialogue⟩ := hline
            rw [hdialogue] at hkey
            exact absurd hkey (dialogueIdempotencyKey_ne (Plan.colon_notMem hshotId))

theorem keeps_haltUnspoken (stop : PollStop) :
    Keeps (Held plan runId start) (Loose plan runId start) (haltUnspoken stop) := by
  cases stop <;> exact keeps_haltHeld _ _ _

theorem keeps_watchLine {line : SynthesizedSoundRecord} (hline : LineKeyed plan runId line)
    (id : JobId) (file : String) :
    Keeps (Held plan runId start) (Loose plan runId start) (watchLine line id file) := by
  apply Keeps.bind
  · exact keeps_putLine hline
  · intro _
    apply Keeps.bind keeps_persistHeld
    intro _
    apply Keeps.bind (Quiet.keepsHeld (quiet_waitForJob id))
    intro ⟨view, stop⟩
    dsimp only
    split
    · apply Keeps.bind
      · exact keeps_putLine hline
      · intro _
        apply Keeps.bind keeps_persistHeld
        exact fun _ => Keeps.bind (keeps_haltUnspoken stop) fun _ => Keeps.pure _
    · apply Keeps.bind (Quiet.keepsHeld quiet_expectOk)
      intro _
      apply Keeps.bind
      · exact keeps_putLine hline
      · exact fun _ => Keeps.bind keeps_persistHeld fun _ => Keeps.pure _

theorem keeps_synthesizeDialogue (entry : SoundEntry) :
    Keeps (Held plan runId start) (Loose plan runId start) (synthesizeDialogue plan entry) := by
  unfold synthesizeDialogue
  split
  · exact Keeps.throw (fun _ hs => hs.loose) _
  · next text _ =>
      apply Keeps.bind (Quiet.keepsHeld Quiet.get)
      intro s'
      apply Keeps.bind (Quiet.keepsHeld (quiet_spokenFile _ entry text _))
      intro spoken
      cases spoken with
      | some file => exact Keeps.pure _
      | none =>
          apply Triple.bind _ (triple_dialogueLine entry text)
          intro found
          cases found with
          | none => exact triple_pure fun s hs => hs.1
          | some line =>
              by_cases hline : LineKeyed plan runId line
              · apply Triple.bind _ ((keeps_lineJob hline).mono fun s hs => hs.1)
                intro job
                cases job with
                | none => exact Keeps.pure _
                | some id => exact keeps_watchLine hline id _
              · intro s hs
                exact absurd (hs.2 line rfl) hline

/-- Lines are spoken one after the other, and the first that is not spoken ends the run of them. -/
theorem keeps_synthesizeAll (entries : List SoundEntry) :
    Keeps (Held plan runId start) (Loose plan runId start) (synthesizeAll plan entries) := by
  induction entries with
  | nil => exact Keeps.pure _
  | cons entry entries ih =>
      apply Keeps.ite
      · apply Keeps.bind (keeps_synthesizeDialogue entry)
        intro spoken
        cases spoken with
        | none => exact Keeps.pure _
        | some file => exact Keeps.bind ih fun _ => Keeps.pure _
      · exact Keeps.bind ih fun _ => Keeps.pure _

theorem keeps_importClip (entry : SoundEntry) :
    Keeps (Held plan runId start) (Loose plan runId start) (importClip entry) := by
  unfold importClip
  split
  · exact Keeps.throw (fun _ hs => hs.loose) _
  · apply Keeps.bind (Quiet.keepsHeld Quiet.get)
    intro s'
    apply Keeps.ite (Keeps.pure _)
    apply Keeps.bind (Quiet.keepsHeld quiet_expectOk)
    intro _
    apply Keeps.bind
    · exact keeps_bookkeeping (fun _ => rfl) (fun _ => rfl) fun _ => rfl
    · exact fun _ => keeps_persistHeld

theorem quiet_lineAlreadySpoken (record : RunRecord) (entry : SoundEntry) :
    Quiet (lineAlreadySpoken record entry) := by
  unfold lineAlreadySpoken
  split
  · exact Quiet.pure _
  · split
    · exact Quiet.pure _
    · exact Within.ite (Quiet.pure _) quiet_present

theorem quiet_anyOwed (record : RunRecord) (entries : List SoundEntry) :
    Quiet (anyOwed record entries) := by
  induction entries with
  | nil => exact Quiet.pure _
  | cons entry entries ih =>
      apply Within.ite
      · apply Quiet.bind (quiet_lineAlreadySpoken record entry)
        exact fun _ => Within.ite ih (Quiet.bind ih fun _ => Quiet.pure _)
      · exact ih

theorem quiet_audioWorkerLive (owed : Bool) : Quiet (audioWorkerLive owed) :=
  Within.ite (Quiet.bind quiet_expectOk fun _ => quiet_present) (Quiet.pure _)

theorem keeps_ensureSound :
    Keeps (Held plan runId start) (Loose plan runId start) (ensureSound plan) := by
  apply Keeps.bind (Quiet.keepsHeld quiet_projectId)
  intro _
  apply Keeps.bind (Quiet.keepsHeld Quiet.get)
  intro s'
  apply Keeps.ite (Keeps.pure _)
  apply Keeps.bind (Quiet.keepsHeld (quiet_anyOwed _ _))
  intro owed
  apply Keeps.bind (Quiet.keepsHeld (quiet_audioWorkerLive owed))
  intro live
  apply Keeps.ite
  · apply Keeps.bind (keeps_synthesizeAll _)
    intro spoken
    cases spoken with
    | none => exact Keeps.pure _
    | some spoken =>
        apply Keeps.bind (Quiet.keepsHeld quiet_expectOk)
        exact fun _ => Keeps.forM fun entry _ => keeps_importClip entry
  · exact keeps_haltHeld _ _ _

/-- What happens to the world without touching the keys of its jobs. -/
theorem Held.worldChanged {s : Session} (h : Held plan runId start s) {world : World}
    (hkeys : world.keys = s.world.keys) : Held plan runId start { s with world } := by
  obtain ⟨saved, h, hnumbers⟩ := h
  exact ⟨saved, ⟨h.regular, h.disk, h.savedRun, h.memoryRun, h.savedShape, h.memoryShape,
    h.sinceStart, h.sinceSaved, h.savedLines, h.memoryLines, hkeys ▸ h.distinct,
    hkeys ▸ h.recorded⟩, hnumbers⟩

theorem keeps_modifyWorld {f : World → World} (hf : ∀ world, (f world).keys = world.keys) :
    Keeps (Held plan runId start) (Loose plan runId start) (modifyWorld f) := by
  apply Crash.Keeps.modify
  exact fun s hs => hs.worldChanged (hf s.world)

theorem Held.configured {s : Session} (h : Held plan runId start s) (exporting runDeadline : Bool) :
    Held plan runId start { s with exporting, runDeadline } := by
  obtain ⟨saved, h, hnumbers⟩ := h
  exact ⟨saved, ⟨h.regular, h.disk, h.savedRun, h.memoryRun, h.savedShape, h.memoryShape,
    h.sinceStart, h.sinceSaved, h.savedLines, h.memoryLines, h.distinct, h.recorded⟩, hnumbers⟩

theorem keeps_obtainTimeline :
    Keeps (Held plan runId start) (Loose plan runId start) obtainTimeline := by
  apply Keeps.bind (Quiet.keepsHeld Quiet.get)
  intro s'
  dsimp only
  split
  · exact Keeps.bind (Quiet.keepsHeld quiet_expectOk) fun _ => Keeps.pure _
  · apply Keeps.bind (Quiet.keepsHeld quiet_expectOk)
    intro _
    apply Keeps.bind (Quiet.keepsHeld Quiet.get)
    intro s''
    split
    · exact Keeps.bind (Quiet.keepsHeld quiet_expectOk) fun _ => Keeps.pure _
    · apply Keeps.bind (Quiet.keepsHeld quiet_next)
      intro move
      cases move.answer with
      | done => exact Keeps.bind (keeps_modifyWorld fun _ => rfl) fun _ => Keeps.pure _
      | lost =>
          apply Keeps.bind
          · exact keeps_modifyWorld fun _ => rfl
          · exact fun _ => Keeps.throw (fun _ hs => hs.loose) _
      | refused | failed => exact Keeps.throw (fun _ hs => hs.loose) _

/-- Saving the timeline, whose answer may be lost after it was saved. -/
theorem keeps_saveDelivery :
    Keeps (Held plan runId start) (Loose plan runId start) saveDelivery := by
  apply Keeps.bind (Quiet.keepsHeld quiet_next)
  intro move
  cases move.answer with
  | done =>
      apply Keeps.bind
      · exact keeps_modifyWorld fun _ => rfl
      · intro _
        apply Keeps.ite (Keeps.throw (fun _ hs => hs.loose) _)
        apply Keeps.bind (Quiet.keepsHeld Quiet.get)
        intro s'
        split
        · exact Keeps.pure _
        · exact Keeps.throw (fun _ hs => hs.loose) _
  | lost =>
      apply Keeps.bind
      · exact keeps_modifyWorld fun _ => rfl
      · exact fun _ => Keeps.throw (fun _ hs => hs.loose) _
  | refused | failed => exact Keeps.throw (fun _ hs => hs.loose) _

/-- The delivery is saved before the record names its revision. -/
theorem keeps_assembleTimeline :
    Keeps (Held plan runId start) (Loose plan runId start) assembleTimeline := by
  apply Keeps.bind (Quiet.keepsHeld quiet_projectId)
  intro _
  apply Keeps.bind (Quiet.keepsHeld Quiet.get)
  intro s'
  apply Keeps.ite (Keeps.pure _)
  apply Keeps.bind keeps_obtainTimeline
  intro timelineId
  apply Keeps.bind keeps_saveDelivery
  intro revision
  apply Keeps.bind
  · exact keeps_bookkeeping (fun _ => rfl) (fun _ => rfl) fun _ => rfl
  · exact fun _ => Keeps.bind keeps_persistHeld fun _ => Keeps.pure _

theorem keeps_postExport (timelineId : String) :
    Keeps (Held plan runId start) (Loose plan runId start) (postExport timelineId) := by
  have hcreate : Keeps (Held plan runId start) (Loose plan runId start)
      (modifyWorld fun world => world.create
        (.timelineExport timelineId ((world.timeline.map (·.2)).getD 0))) := by
    apply keeps_modifyWorld
    intro world
    rw [World.keys_create]
    simp [JobKind.key]
  apply Keeps.bind
  · apply Keeps.bind (Quiet.keepsHeld quiet_next)
    intro move
    apply Keeps.bind (Quiet.keepsHeld Quiet.get)
    intro s'
    cases move.answer with
    | done => exact Keeps.bind hcreate fun _ => Keeps.pure _
    | lost => exact Keeps.bind hcreate fun _ => Keeps.throw (fun _ hs => hs.loose) _
    | refused => exact Keeps.pure _
    | failed => exact Keeps.throw (fun _ hs => hs.loose) _
  · intro created
    cases created with
    | some id => exact Keeps.pure _
    | none => exact Keeps.throw (fun _ hs => hs.loose) _

theorem keeps_requestExport (superseded : Option JobId) :
    Keeps (Held plan runId start) (Loose plan runId start) (requestExport superseded) := by
  apply Keeps.bind (Quiet.keepsHeld Quiet.get)
  intro s'
  apply Keeps.ite
  · apply Keeps.bind (Quiet.keepsHeld quiet_utcNow)
    intro requestedAt
    apply Keeps.bind
    · exact keeps_bookkeeping (fun _ => rfl) (fun _ => rfl) fun _ => rfl
    · exact fun _ => keeps_persistHeld
  · exact Keeps.pure _

theorem keeps_exportJob (timelineId : String) (inFlight : Option JobId) :
    Keeps (Held plan runId start) (Loose plan runId start) (exportJob timelineId inFlight) := by
  apply Keeps.bind (Quiet.keepsHeld (quiet_knownExport timelineId inFlight))
  intro known
  cases known with
  | some id => exact Keeps.pure _
  | none =>
      apply Keeps.bind (Quiet.keepsHeld quiet_canceled)
      intro isCanceled
      apply Keeps.ite
      · apply Keeps.bind (keeps_haltHeld _ _ _)
        exact fun _ => Keeps.bind keeps_persistHeld fun _ => Keeps.pure _
      · exact Keeps.bind (keeps_postExport timelineId) fun _ => Keeps.pure _

theorem keeps_haltExport (stop : PollStop) :
    Keeps (Held plan runId start) (Loose plan runId start) (haltExport stop) := by
  cases stop with
  | operator | runBudget => exact keeps_haltHeld _ _ _
  | terminal | shotBudget | assetsUnsettled => exact Keeps.pure _

theorem keeps_watchExport (id : JobId) :
    Keeps (Held plan runId start) (Loose plan runId start) (watchExport id) := by
  apply Keeps.bind (Quiet.keepsHeld (quiet_getSnapshot id))
  intro job
  apply Keeps.bind
  · exact keeps_bookkeeping (fun _ => rfl) (fun _ => rfl) fun _ => rfl
  · intro _
    apply Keeps.bind keeps_persistHeld
    intro _
    apply Keeps.bind (Quiet.keepsHeld (quiet_waitForJob id))
    intro ⟨view, stop⟩
    apply Keeps.bind
    · exact keeps_bookkeeping (fun _ => rfl) (fun _ => rfl) fun _ => rfl
    · intro _
      apply Keeps.bind keeps_persistHeld
      exact fun _ => Keeps.bind (keeps_haltExport stop) fun _ => Keeps.pure _

theorem supersede_frame (record : RunRecord) :
    record.supersede.runId = record.runId ∧ record.supersede.shots = record.shots ∧
      record.supersede.synthesizedSound = record.synthesizedSound := by
  unfold RunRecord.supersede
  split
  · split <;> exact ⟨rfl, rfl, rfl⟩
  · exact ⟨rfl, rfl, rfl⟩

theorem keeps_runExport :
    Keeps (Held plan runId start) (Loose plan runId start) runExport := by
  apply Keeps.bind (Quiet.keepsHeld quiet_projectId)
  intro _
  apply Keeps.bind (Quiet.keepsHeld Quiet.get)
  intro s'
  dsimp only
  split
  · exact Keeps.pure _
  · apply Keeps.ite (Keeps.pure _)
    apply Keeps.bind (Quiet.keepsHeld quiet_canceled)
    intro isCanceled
    apply Keeps.ite
    · exact Keeps.bind (keeps_haltHeld _ _ _) fun _ => Keeps.pure _
    · apply Keeps.bind
      · exact keeps_bookkeeping (fun record => (supersede_frame record).1)
          (fun record => (supersede_frame record).2.1) fun record => (supersede_frame record).2.2
      · intro _
        apply Keeps.bind (keeps_requestExport _)
        intro _
        apply Keeps.bind (keeps_exportJob _ _)
        intro job
        cases job with
        | none => exact Keeps.pure _
        | some id => exact keeps_watchExport id

theorem keeps_assembleAndExport :
    Keeps (Held plan runId start) (Loose plan runId start) assembleAndExport := by
  apply Keeps.bind (Quiet.keepsHeld Quiet.get)
  intro s'
  split
  · exact Keeps.pure _
  · exact Keeps.pure _
  · apply Keeps.bind keeps_assembleTimeline
    intro assembled
    apply Keeps.ite
    · apply Keeps.bind (Quiet.keepsHeld Quiet.get)
      exact fun _ => Keeps.ite keeps_runExport (Keeps.pure _)
    · exact Keeps.pure _

theorem keeps_close (verdict : RunOutcome × Option RunStop) :
    Keeps (Held plan runId start) (Loose plan runId start) (close verdict) := by
  apply Keeps.bind
  · exact keeps_bookkeeping (fun _ => rfl) (fun _ => rfl) fun _ => rfl
  · exact fun _ => keeps_persistHeld

theorem keeps_clearStop :
    Keeps (Held plan runId start) (Loose plan runId start)
      (modify fun s => { s with stop := none } : Controller Unit) :=
  Crash.Keeps.modify fun _ hs => hs.stopped none

/-- The verdict replaces the stop of the run, whatever it was. -/
theorem keeps_finish (exportOk : Bool) :
    Keeps (Held plan runId start) (Loose plan runId start) (finish exportOk) := by
  apply Keeps.bind (Quiet.keepsHeld Quiet.get)
  intro s'
  exact Keeps.bind keeps_clearStop fun _ => keeps_close _

theorem keeps_finishReplacement (exportOk : Bool) (shotId : String)
    (prior : RunOutcome × Option RunStop) :
    Keeps (Held plan runId start) (Loose plan runId start)
      (finishReplacement exportOk shotId prior) := by
  apply Keeps.bind (Quiet.keepsHeld Quiet.get)
  intro s'
  dsimp only
  split
  · apply Keeps.ite (keeps_close _)
    apply Keeps.ite
    · exact Keeps.bind keeps_clearStop fun _ => keeps_close _
    · exact keeps_finish exportOk
  · apply Keeps.ite
    · exact Keeps.ite (keeps_close _) (keeps_close _)
    · exact keeps_finish exportOk
  · exact keeps_finish exportOk

theorem quiet_obtainProject : Quiet obtainProject := by
  apply Quiet.bind quiet_expectOk
  intro _
  apply Quiet.bind quiet_present
  exact fun _ => Within.ite (Quiet.pure _) quiet_expectOk

theorem keeps_ensureProject :
    Keeps (Held plan runId start) (Loose plan runId start) ensureProject := by
  apply Keeps.bind (Quiet.keepsHeld Quiet.get)
  intro s'
  split
  · exact Keeps.bind (Quiet.keepsHeld quiet_expectOk) fun _ => keeps_persistHeld
  · apply Keeps.bind (Quiet.keepsHeld quiet_obtainProject)
    intro _
    apply Keeps.bind
    · exact keeps_bookkeeping (fun _ => rfl) (fun _ => rfl) fun _ => rfl
    · exact fun _ => keeps_persistHeld

theorem keeps_ensureReferences :
    Keeps (Held plan runId start) (Loose plan runId start) ensureReferences := by
  apply Keeps.bind (Quiet.keepsHeld quiet_projectId)
  intro _
  exact Keeps.bind (Quiet.keepsHeld quiet_expectOk) fun _ => keeps_persistHeld

/-- Putting the shots in plan order adds the records that are missing and changes none. -/
theorem keeps_orderShots :
    Keeps (Held plan runId start) (Loose plan runId start)
      (modifyRecord fun record => { record with shots := orderedShots plan record.shots }) := by
  apply Crash.Keeps.modify
  intro s ⟨saved, htracked, hnumbers⟩
  refine ⟨saved, htracked.changed rfl (.inr (shotIds_orderedShots htracked.memoryShape)) ?_
    htracked.memoryLines, ?_⟩
  · simp only [orderedShots_idem htracked.memoryShape]
    exact Evolves.refl _ _ _
  · simp only [orderedShots_idem htracked.memoryShape]
    exact hnumbers

theorem keeps_markUnselected (shotId : String) :
    Keeps (Held plan runId start) (Loose plan runId start)
      (modifyRecord fun record =>
        { record with
          shots := record.shots.map fun other =>
            if other.shotId = shotId then { other with outcome := .notSelected } else other }) := by
  apply Crash.Keeps.modify
  intro s ⟨saved, htracked, hnumbers⟩
  have hstep : ∀ shot : ShotRunRecord, ShotRun runId plan.maxAttemptsPerShot shot
      (if shot.shotId = shotId then { shot with outcome := .notSelected } else shot) := by
    intro shot
    split
    · exact Relation.ReflTransGen.single (.judge shot .notSelected)
    · exact Relation.ReflTransGen.refl
  have hevolves := Evolves.map hstep s.record.shots
  obtain hnone | hids := htracked.memoryShape
  · simp only [hnone, List.map_nil]
    exact ⟨saved, htracked.changed rfl (.inl rfl) (by rw [hnone]; exact Evolves.refl _ _ _)
      htracked.memoryLines, by rw [hnone] at hnumbers; exact hnumbers⟩
  · have hids' := hevolves.shotIds.trans hids
    refine ⟨saved, htracked.changed rfl (.inr hids') ?_ htracked.memoryLines, ?_⟩
    · simp only [orderedShots_of_ids hids, orderedShots_of_ids hids']
      exact hevolves
    · rw [← hnumbers]
      simp only [orderedShots_of_ids hids, orderedShots_of_ids hids', numbers, List.map_map]
      apply List.map_congr_left
      intro shot _
      simp only [Function.comp_apply]
      split <;> rfl

/-- The shots are put in plan order once and then worked one by one. -/
theorem keeps_workShots :
    Keeps (Held plan runId start) (Loose plan runId start) (workShots plan) := by
  apply Keeps.bind (Quiet.keepsHeld quiet_expectOk)
  intro _
  apply Keeps.bind keeps_orderShots
  intro _
  apply Keeps.bind keeps_persistHeld
  intro _
  apply Keeps.forM
  intro shot _
  apply Keeps.bind (Quiet.keepsHeld Quiet.get)
  intro s'
  apply Keeps.ite
  · apply Keeps.bind (keeps_workShot shot.id)
    intro _
    apply Keeps.bind keeps_persistHeld
    exact fun _ => Keeps.bind keeps_assembleTimeline fun _ => Keeps.pure _
  · exact keeps_markUnselected shot.id

/-- A pending attempt is worked to its end under its own key. -/
theorem keeps_settlePending (i j : Nat) :
    Keeps (Held plan runId start) (Loose plan runId start) (settlePending plan i j) := by
  apply Triple.bind _ ((triple_attemptAt (fun _ => True) i j).mono fun s hs => ⟨hs, trivial⟩)
  intro attempt
  apply Triple.ite
  · exact fun _ => triple_pure fun s hs => hs.1
  · intro hterminal
    apply Triple.bind fun _ => Held plan runId start
    · apply (triple_workAttempt i j).mono
      intro s hs
      exact ⟨hs.1, attempt, hs.2.2, by simpa using hterminal⟩
    · intro _
      apply Keeps.bind (Quiet.keepsHeld (quiet_attemptAt i j))
      intro settled
      exact keeps_judge i fun shot =>
        if shot.selectedAttempt.isNone &&
            (settled.status == "canceled" || settled.status == "canceled_by_operator") then
          .canceled
        else
          shot.outcome

theorem keeps_settleShot (shotId : String) :
    Keeps (Held plan runId start) (Loose plan runId start) (settleShot plan shotId) := by
  apply Keeps.bind (Quiet.keepsHeld (quiet_findShot shotId))
  intro found
  cases found with
  | none => exact Keeps.pure _
  | some found =>
      obtain ⟨i, shot⟩ := found
      exact Keeps.forM fun j _ => keeps_settlePending i j

theorem keeps_reconcileCanceledWork :
    Keeps (Held plan runId start) (Loose plan runId start) (reconcileCanceledWork plan) := by
  apply Keeps.bind (Quiet.keepsHeld Quiet.get)
  intro s'
  split
  · exact keeps_haltHeld _ _ _
  · apply Keeps.bind (Quiet.keepsHeld Quiet.get)
    intro s'
    apply Keeps.bind
    · apply Keeps.forM
      intro entry _
      exact Keeps.bind (keeps_synthesizeDialogue entry) fun _ => Keeps.pure _
    · intro _
      apply Keeps.bind
      · exact Keeps.forM fun shot _ => keeps_settleShot shot.id
      · intro _
        apply Keeps.bind (Quiet.keepsHeld Quiet.get)
        intro s'
        apply Keeps.ite
        · exact Keeps.bind keeps_runExport fun _ => keeps_haltHeld _ _ _
        · exact keeps_haltHeld _ _ _

/-- Project, references and sound come before the first shot. -/
theorem keeps_driveInner :
    Keeps (Held plan runId start) (Loose plan runId start) (driveInner plan) := by
  apply Keeps.bind keeps_ensureProject
  intro _
  apply Keeps.bind keeps_ensureReferences
  intro _
  apply Keeps.bind keeps_ensureSound
  intro _
  apply Keeps.bind (Quiet.keepsHeld Quiet.get)
  intro s'
  apply Keeps.ite (Keeps.pure _)
  exact Keeps.bind keeps_workShots fun _ => keeps_assembleAndExport

theorem keeps_driveWork :
    Keeps (Held plan runId start) (Loose plan runId start) (driveWork plan) := by
  apply Keeps.bind (Quiet.keepsHeld quiet_canceled)
  intro isCanceled
  apply Keeps.ite
  · exact Keeps.bind keeps_reconcileCanceledWork fun _ => Keeps.pure _
  · apply Keeps.bind keeps_driveInner
    intro exportOk
    apply Keeps.bind (Quiet.keepsHeld quiet_canceled)
    intro isCanceled
    apply Keeps.ite
    · exact Keeps.bind keeps_reconcileCanceledWork fun _ => Keeps.pure _
    · exact Keeps.pure _

/-- A failure with an attempt in memory only may still write it: no job of it was asked for. -/
theorem keeps_persistOnError {α : Type} {program : Controller α}
    (h : Keeps (Held plan runId start) (Loose plan runId start) program) :
    Keeps (Held plan runId start) (Loose plan runId start) (persistOnError program) := by
  intro s hs
  have hprogram := h s hs
  unfold persistOnError
  cases hrun : program s with
  | ok a s' =>
      rw [hrun] at hprogram
      exact hprogram
  | error failure s' =>
      rw [hrun] at hprogram
      cases failure with
      | died => exact hprogram
      | error e =>
          have hpersist := triple_persist (fun _ => True) s' ⟨hprogram, trivial⟩
          cases hwritten : persist s' with
          | ok _ s'' =>
              rw [hwritten] at hpersist
              simp only [hwritten]
              exact hpersist.1.loose
          | error _ s'' =>
              rw [hwritten] at hpersist
              simp only [hwritten]
              exact hpersist

theorem keeps_drive :
    Keeps (Held plan runId start) (Loose plan runId start) (drive plan) := by
  apply Keeps.bind (keeps_persistOnError keeps_driveWork)
  intro exportOk
  apply Keeps.bind (keeps_finish exportOk)
  exact fun _ => Keeps.bind (Quiet.keepsHeld Quiet.get) fun _ => Keeps.pure _

theorem keeps_deliverReplacement (replaced : Bool) :
    Keeps (Held plan runId start) (Loose plan runId start) (deliverReplacement plan replaced) := by
  apply Keeps.ite
  · apply Keeps.bind keeps_ensureSound
    intro _
    apply Keeps.bind (Quiet.keepsHeld Quiet.get)
    intro s'
    apply Keeps.ite
    · exact Keeps.bind keeps_assembleTimeline fun _ => Keeps.pure _
    · exact Keeps.pure _
  · exact keeps_haltHeld _ _ _

theorem keeps_exportReplacement (replaced : Bool) :
    Keeps (Held plan runId start) (Loose plan runId start) (exportReplacement replaced) := by
  apply Keeps.bind (Quiet.keepsHeld Quiet.get)
  exact fun _ => Keeps.ite keeps_runExport (Keeps.pure _)

theorem keeps_completeTakeOperation (i : Nat) (shotId : String)
    (prior : RunOutcome × Option RunStop) :
    Keeps (Held plan runId start) (Loose plan runId start)
      (completeTakeOperation plan i shotId prior) := by
  have hreturn : Keeps (Held plan runId start) (Loose plan runId start)
      (do return (← get).record : Controller RunRecord) :=
    Keeps.bind (Quiet.keepsHeld Quiet.get) fun _ => Keeps.pure _
  apply Keeps.bind (Quiet.keepsHeld Quiet.get)
  intro s'
  apply Keeps.bind (Quiet.keepsHeld quiet_canceled)
  intro isCanceled
  apply Keeps.ite
  · exact Keeps.bind (keeps_finish false) fun _ => hreturn
  · apply Keeps.bind
    · exact keeps_judge i fun _ => _
    · intro _
      apply Keeps.bind
      · exact keeps_bookkeeping (fun _ => rfl) (fun _ => rfl) fun _ => rfl
      · intro _
        apply Keeps.bind keeps_persistHeld
        intro _
        apply Keeps.bind (keeps_deliverReplacement _)
        intro _
        apply Keeps.bind (keeps_exportReplacement _)
        intro exportOk
        apply Keeps.bind
        · exact keeps_bookkeeping (fun _ => rfl) (fun _ => rfl) fun _ => rfl
        · intro _
          exact Keeps.bind (keeps_finishReplacement exportOk shotId prior) fun _ => hreturn

/-- A replacement that was interrupted goes on with the attempt it names. -/
theorem keeps_recoverTakeOperation (operation : TakeOperation) :
    Keeps (Held plan runId start) (Loose plan runId start)
      (recoverTakeOperation plan operation) := by
  apply Keeps.ite (Keeps.throw (fun _ hs => hs.loose) _)
  apply Keeps.bind
  · exact Crash.Keeps.modify fun s hs => hs.configured _ _
  · intro _
    apply Keeps.bind (Quiet.keepsHeld (quiet_findShot operation.shotId))
    intro found
    cases found with
    | none => exact Keeps.throw (fun _ hs => hs.loose) _
    | some found =>
        obtain ⟨i, shot⟩ := found
        dsimp only
        split
        · exact Keeps.throw (fun _ hs => hs.loose) _
        · next j _ =>
            apply Keeps.bind keeps_persistHeld
            intro _
            apply Triple.bind _
              ((triple_attemptAt (fun _ => True) i j).mono fun s hs => ⟨hs, trivial⟩)
            intro attempt
            apply Triple.ite
            · intro _
              exact (keeps_completeTakeOperation i _ _).mono fun s hs => hs.1
            · intro hterminal
              apply Triple.bind fun _ => Held plan runId start
              · apply (triple_workAttempt i j).mono
                intro s hs
                exact ⟨hs.1, attempt, hs.2.2, by simpa using hterminal⟩
              · exact fun _ => keeps_completeTakeOperation i _ _

end FilmRun
end SceneWorks
