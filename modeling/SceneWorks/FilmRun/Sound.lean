import SceneWorks.FilmRun.Attempts

/-!
The spoken lines of a film. A line is adopted when the run already spoke it, continued when
its job has not ended, and otherwise dispatched as a new attempt under a new key; the clips
are imported once every line has one.
-/

namespace SceneWorks
namespace FilmRun
namespace SoundEntry

def isSynthesized (entry : SoundEntry) : Bool :=
  entry.text.isSome

def synthesisText (entry : SoundEntry) : Option String :=
  (entry.text.map Text.trim).filter (· != "")

def synthesisModel (entry : SoundEntry) : String :=
  ((entry.model.map Text.trim).filter (· != "")).getD "kokoro_82m"

def synthesisVoice (entry : SoundEntry) : Option String :=
  (entry.voice.map Text.trim).filter (· != "")

end SoundEntry

def synthesizedSoundFile (digest : String → String) (role text : String) : String :=
  "sound/" ++ role ++ ".tts-" ++ String.ofList ((digest text).toList.take 12) ++ ".wav"

namespace RunRecord

def line (record : RunRecord) (role : String) : Option SynthesizedSoundRecord :=
  record.synthesizedSound.find? fun line => line.role == role

/-- One record a role: a line takes the place of the one its role had. -/
def putLine (record : RunRecord) (line : SynthesizedSoundRecord) : RunRecord :=
  { record with
    synthesizedSound :=
      match record.synthesizedSound.findIdx? fun other => other.role == line.role with
      | some i => record.synthesizedSound.set i line
      | none => record.synthesizedSound ++ [line] }

end RunRecord

namespace Controller

/-- The line this run already spoke for `entry`, if its record is still of that line. -/
def continuedLine (record : RunRecord) (entry : SoundEntry) (text : String) :
    Option SynthesizedSoundRecord :=
  (record.line entry.role).filter fun line =>
    line.matchesLine entry.synthesisModel entry.synthesisVoice text

/-- The clip of a line that is spoken already: imported, or still in the pack's directory. -/
def spokenFile (record : RunRecord) (entry : SoundEntry) (text file : String) :
    Controller (Option String) := do
  match (continuedLine record entry text).filter (·.isUsable) with
  | none => return none
  | some line => do
      if record.sound.any (fun clip => clip.role == entry.role) && line.file.isSome then
        return line.file
      else if ← present then
        return some file
      else
        return none

def freshLine (plan : Plan) (record : RunRecord) (entry : SoundEntry) (text : String) :
    SynthesizedSoundRecord :=
  let attempt := ((record.line entry.role).map fun line => line.attempt + 1).getD 1
  { role := entry.role
    text
    model := entry.synthesisModel
    voice := entry.synthesisVoice
    attempt
    idempotencyKey := dialogueIdempotencyKey plan.digest record.runId entry.role
      entry.synthesisModel entry.synthesisVoice text attempt
    jobId := none
    status := "dispatching"
    assetId := none
    file := none }

/-- The record of the line to work: the pending one, or a new one written down first. -/
def dialogueLine (plan : Plan) (entry : SoundEntry) (text : String) :
    Controller (Option SynthesizedSoundRecord) := do
  let record := (← get).record
  match (continuedLine record entry text).filter (!·.isTerminal) with
  | some line => return some line
  | none => do
      if ← canceled then do
        halt .canceled "canceled" true
        return none
      else do
        let line := freshLine plan record entry text
        modifyRecord fun record =>
          { record.putLine line with
            sound := record.sound.filter fun clip => clip.role != entry.role }
        persist
        return some line

def lineJob (line : SynthesizedSoundRecord) : Controller (Option JobId) := do
  match ← knownJob line.jobId line.idempotencyKey with
  | some id => return some id
  | none =>
      if ← canceled then do
        halt .canceled "canceled" true
        persist
        return none
      else
        match ← postJob fun _ => .audio line.idempotencyKey with
        | some id => return some id
        | none => do
            modifyRecord fun record => record.putLine { line with status := "rejected" }
            persist
            halt .failed "dialogue_synthesis_refused" true
            return none

def haltUnspoken : PollStop → Controller Unit
  | .operator => halt .canceled "canceled" true
  | .runBudget => halt .stoppedRunBudget "run_budget" true
  | _ => halt .failed "dialogue_synthesis_failed" true

def watchLine (line : SynthesizedSoundRecord) (id : JobId) (file : String) :
    Controller (Option String) := do
  modifyRecord fun record => record.putLine { line with jobId := some id, status := "running" }
  persist
  let (view, stop) ← waitForJob id
  match if settledStatus view stop = "completed" then audioAssetFromResult view.result
      else none with
  | none => do
      modifyRecord fun record =>
        record.putLine { line with jobId := some id, status := settledStatus view stop }
      persist
      haltUnspoken stop
      return none
  | some (assetId, _) => do
      expectOk
      modifyRecord fun record => record.putLine
        { line with
          jobId := some id, status := "completed", assetId := some assetId, file := some file }
      persist
      return some file

/-- Speak one line; `none` means that the run has halted. -/
def synthesizeDialogue (plan : Plan) (entry : SoundEntry) : Controller (Option String) := do
  match entry.synthesisText with
  | none => fail .transport
  | some text => do
      let file := entry.file.getD (synthesizedSoundFile plan.digest entry.role text)
      match ← spokenFile (← get).record entry text file with
      | some spoken => return some spoken
      | none =>
          match ← dialogueLine plan entry text with
          | none => return none
          | some line =>
              match ← lineJob line with
              | none => return none
              | some id => watchLine line id file

def synthesizeAll (plan : Plan) : List SoundEntry → Controller (Option (List SoundEntry))
  | [] => return some []
  | entry :: entries => do
      if entry.isSynthesized then
        match ← synthesizeDialogue plan entry with
        | none => return none
        | some file =>
            return (← synthesizeAll plan entries).map ({ entry with file := some file } :: ·)
      else
        return (← synthesizeAll plan entries).map (entry :: ·)

/-- Import one clip unless the record already names it under this role and file. -/
def importClip (entry : SoundEntry) : Controller Unit := do
  match entry.file with
  | none => fail .transport
  | some file => do
      if (← get).record.sound.contains { role := entry.role, file } then
        return ()
      else do
        expectOk
        modifyRecord fun record =>
          { record with sound := record.sound ++ [{ role := entry.role, file }] }
        persist

/-- The pack's entries that the cut places: its beds and the lines of its selected shots. -/
def placedEntries (plan : Plan) (record : RunRecord) : List SoundEntry :=
  plan.sound.filter fun entry =>
    plan.beds.contains entry.role ||
      (plan.shots.filter fun shot => record.isSelected shot.id).any
        fun shot => shot.dialogueClip == some entry.role

/-- Whether the run has spoken this line and still has its clip. -/
def lineAlreadySpoken (record : RunRecord) (entry : SoundEntry) : Controller Bool := do
  match entry.synthesisText with
  | none => return false
  | some text =>
      match (continuedLine record entry text).filter (·.isUsable) with
      | none => return false
      | some _ => do
          if record.sound.any fun clip => clip.role == entry.role then
            return true
          else
            present

def anyOwed (record : RunRecord) : List SoundEntry → Controller Bool
  | [] => return false
  | entry :: entries => do
      if entry.isSynthesized then
        if ← lineAlreadySpoken record entry then
          anyOwed record entries
        else do
          let _ ← anyOwed record entries
          return true
      else
        anyOwed record entries

/-- Whether a live worker speaks: asked only when a line is owed. -/
def audioWorkerLive (owed : Bool) : Controller Bool := do
  if owed then do
    expectOk
    present
  else
    return true

def ensureSound (plan : Plan) : Controller Unit := do
  let _ ← projectId
  let record := (← get).record
  let entries := placedEntries plan record
  if entries = [] then
    return ()
  else do
    let owed ← anyOwed record entries
    if ← audioWorkerLive owed then
      match ← synthesizeAll plan entries with
      | none => return ()
      | some spoken => do
          expectOk
          spoken.forM importClip
    else
      halt .failed "no_audio_worker" true

end Controller
end FilmRun
end SceneWorks
