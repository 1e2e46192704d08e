import Mathlib.Data.List.Basic
import SceneWorks.Library.Text

/-!
The production record of a film run, and the pure questions its controllers ask of it. A
shot carries every attempt it ever made and the number of the one whose take represents it;
the record carries the verdict of the run, the take operation a human asked for, the
timeline, and what is known of the export.
-/

namespace SceneWorks
namespace FilmRun

abbrev JobId := Nat

/-- The largest attempt number the record's `u32` holds. -/
def maxAttemptNumber : Nat := 4294967295

inductive RunOutcome where
  | completed
  | rejected
  | stoppedRunBudget
  | stoppedMemoryLimit
  | canceled
  | failed
  deriving DecidableEq, Repr, Inhabited

inductive RunState where
  | running
  | finished
  deriving DecidableEq, Repr, Inhabited

inductive ShotOutcome where
  | rendered
  | failed
  | timedOut
  | canceled
  | notDispatched
  | notSelected
  deriving DecidableEq, Repr

structure RunStop where
  reason : String
  resumable : Bool
  deriving DecidableEq, Repr

structure TakeRecord where
  assetId : String
  mediaPath : String
  deriving DecidableEq, Repr

structure TakeRejection where
  reason : String
  deriving DecidableEq, Repr

structure AttemptRecord where
  attempt : Nat
  idempotencyKey : String
  jobId : Option JobId
  status : String
  take : Option TakeRecord
  rejection : Option TakeRejection
  humanRequested : Bool
  deriving DecidableEq, Repr

/-- What an attempt's status says once its job is over, however it ended. -/
def terminalAttemptStatuses : List String :=
  ["completed", "failed", "canceled", "canceled_by_operator", "interrupted", "timed_out",
    "rejected"]

namespace AttemptRecord

def isTerminal (attempt : AttemptRecord) : Bool :=
  terminalAttemptStatuses.contains attempt.status

/-- The attempts a controller reads back from the API before it dispatches anything. -/
def isUnfinished (attempt : AttemptRecord) : Bool :=
  !attempt.isTerminal || (attempt.status == "completed" && attempt.take.isNone)

def hasLiveTake (attempt : AttemptRecord) : Bool :=
  attempt.take.isSome && attempt.rejection.isNone

end AttemptRecord

structure ShotRunRecord where
  shotId : String
  outcome : ShotOutcome
  attempts : List AttemptRecord
  selectedAttempt : Option Nat
  deriving DecidableEq, Repr

namespace ShotRunRecord

def selected (shot : ShotRunRecord) : Option AttemptRecord :=
  shot.selectedAttempt.bind fun number => shot.attempts.find? fun a => a.attempt == number

def automaticAttempts (shot : ShotRunRecord) : Nat :=
  min (shot.attempts.countP fun a => !a.humanRequested) maxAttemptNumber

/-- One more than the largest number so far, as far as the number's type reaches. -/
def nextAttemptNumber (shot : ShotRunRecord) : Nat :=
  min ((shot.attempts.map (·.attempt)).foldl max 0 + 1) maxAttemptNumber

/-- A shot the record has never worked. -/
def fresh (shotId : String) : ShotRunRecord :=
  { shotId, outcome := .notSelected, attempts := [], selectedAttempt := none }

end ShotRunRecord

structure SynthesizedSoundRecord where
  role : String
  text : String
  model : String
  voice : Option String
  attempt : Nat
  idempotencyKey : String
  jobId : Option JobId
  status : String
  assetId : Option String
  file : Option String
  deriving DecidableEq, Repr

def terminalSynthesisStatuses : List String :=
  ["completed", "failed", "rejected", "canceled", "canceled_by_operator", "timed_out"]

namespace SynthesizedSoundRecord

def isUsable (line : SynthesizedSoundRecord) : Bool :=
  line.status == "completed" && line.assetId.isSome && line.file.isSome

def isTerminal (line : SynthesizedSoundRecord) : Bool :=
  terminalSynthesisStatuses.contains line.status

def matchesLine (line : SynthesizedSoundRecord) (model : String) (voice : Option String)
    (text : String) : Bool :=
  line.model == model && line.voice == voice && line.text == text

end SynthesizedSoundRecord

structure SoundClip where
  role : String
  file : String
  deriving DecidableEq, Repr

structure TimelineRecord where
  revision : Nat
  timelineId : String
  deriving DecidableEq, Repr

structure ExportRecord where
  timelineRevision : Option Nat
  jobId : JobId
  status : String
  stale : Bool
  assetId : Option String
  deriving DecidableEq, Repr

/-- The export the record calls current: finished, with a file, and of the current cut. -/
def ExportRecord.isCurrent (record : ExportRecord) : Bool :=
  record.status == "completed" && record.assetId.isSome && !record.stale

structure ExportPending where
  requestedAt : Nat
  supersedes : Option JobId
  deriving DecidableEq, Repr

structure TakeOperation where
  shotId : String
  attempt : Nat
  idempotencyKey : String
  priorOutcome : RunOutcome
  priorStop : Option RunStop
  reason : String
  exporting : Bool
  deriving DecidableEq, Repr

structure RunRecord where
  runId : String
  state : RunState
  outcome : RunOutcome
  stop : Option RunStop
  projectId : Option String
  selectedShotIds : List String
  shots : List ShotRunRecord
  synthesizedSound : List SynthesizedSoundRecord
  sound : List SoundClip
  timeline : Option TimelineRecord
  exported : Option ExportRecord
  exportPending : Option ExportPending
  supersededExportJobIds : List JobId
  activeTakeOperation : Option TakeOperation
  deriving DecidableEq, Repr, Inhabited

namespace RunRecord

def isResumable (record : RunRecord) : Bool :=
  match record.state with
  | .running => record.outcome != .rejected
  | .finished => record.stop.any (·.resumable)

def isSelected (record : RunRecord) (shotId : String) : Bool :=
  record.selectedShotIds.contains shotId

/-- The shots other than `shotId` that the run selected and has no take for. -/
def outstanding (record : RunRecord) (shotId : String) : List ShotRunRecord :=
  record.shots.filter fun shot =>
    shot.shotId != shotId && record.isSelected shot.shotId && shot.selectedAttempt.isNone

def allRendered (record : RunRecord) : Bool :=
  (record.shots.filter fun shot => record.isSelected shot.shotId).all
    fun shot => shot.selectedAttempt.isSome

/-- The shots a timeline is assembled from. -/
def selectedTakes (record : RunRecord) : List (String × TakeRecord) :=
  (record.shots.filter fun shot => record.isSelected shot.shotId).filterMap fun shot =>
    (shot.selected.bind (·.take)).map fun take => (shot.shotId, take)

end RunRecord

def idempotencyKey (runId shotId : String) (attempt : Nat) : String :=
  runId ++ ":" ++ shotId ++ ":a" ++ toString attempt

/-- The key of a spoken line; `digest` is the hash of its model, voice and text. -/
def dialogueIdempotencyKey (digest : String → String) (runId role model : String)
    (voice : Option String) (text : String) (attempt : Nat) : String :=
  runId ++ ":sound:" ++ role ++ ":" ++
    String.ofList ((digest (model ++ "\n" ++ voice.getD "" ++ "\n" ++ Text.trim text)).toList.take
      12) ++
    ":a" ++ toString attempt

/-- The part of an attempt's key after its shot holds no colon. -/
theorem colon_notMem_attempt (attempt : Nat) :
    ':' ∉ 'a' :: (toString attempt).toList := by
  intro h
  obtain h | h := List.mem_cons.mp h
  · exact absurd h (by decide)
  · rw [Nat.toString_eq_repr, Nat.toList_repr] at h
    have hdigit := Nat.isDigit_of_mem_toDigits (by decide) (by decide) h
    exact absurd hdigit (by decide)

theorem toList_idempotencyKey (runId shotId : String) (attempt : Nat) :
    (idempotencyKey runId shotId attempt).toList =
      runId.toList ++ ':' :: (shotId.toList ++ ':' :: 'a' :: (toString attempt).toList) := by
  simp [idempotencyKey]

theorem toString_injective {m n : Nat} (h : (toString m).toList = (toString n).toList) :
    m = n := by
  simp only [Nat.toString_eq_repr, Nat.toList_repr] at h
  have := congrArg (Nat.ofDigitChars 10 · 0) h
  simpa using this

theorem idempotencyKey_inj {runId a b : String} {m n : Nat} (ha : ':' ∉ a.toList)
    (h : idempotencyKey runId a m = idempotencyKey runId b n) : a = b ∧ m = n := by
  have hlist := congrArg String.toList h
  rw [toList_idempotencyKey, toList_idempotencyKey, List.append_cancel_left_eq,
    List.cons_inj_right, List.append_cons_inj_of_notMem ha (colon_notMem_attempt m)] at hlist
  obtain ⟨hshot, -, hnumber⟩ := hlist
  exact ⟨String.toList_inj.mp hshot, toString_injective (List.cons_injective hnumber)⟩

/-- A spoken line is never dispatched under the key of an attempt of a shot. -/
theorem dialogueIdempotencyKey_ne {digest : String → String} {runId shotId role model text : String}
    {voice : Option String} {attempt number : Nat} (hshot : ':' ∉ shotId.toList) :
    dialogueIdempotencyKey digest runId role model voice text attempt ≠
      idempotencyKey runId shotId number := by
  intro h
  have hlist := congrArg String.toList h.symm
  rw [toList_idempotencyKey] at hlist
  have hdialogue :
      ∃ tail, (dialogueIdempotencyKey digest runId role model voice text attempt).toList =
      runId.toList ++ ':' :: ("sound".toList ++ ':' :: (role.toList ++ ':' :: tail)) := by
    refine ⟨(digest (model ++ "\n" ++ voice.getD "" ++ "\n" ++ Text.trim text)).toList.take 12 ++
      ':' :: 'a' :: (toString attempt).toList, ?_⟩
    simp [dialogueIdempotencyKey]
  obtain ⟨tail, htail⟩ := hdialogue
  rw [htail, List.append_cancel_left_eq, List.cons_inj_right,
    List.append_cons_inj_of_notMem hshot (colon_notMem_attempt number)] at hlist
  have hcolon : ':' ∈ 'a' :: (toString number).toList := by
    rw [hlist.2.2]
    simp
  exact colon_notMem_attempt number hcolon

end FilmRun
end SceneWorks
