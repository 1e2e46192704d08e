import Mathlib.Data.List.Sort
import Mathlib.Data.Rat.Floor
import Mathlib.Logic.Function.Basic
import SceneWorks.FilmTimeline.Deliver

/-!
`deliver` over a typed cut with exact rational times. It is the merge of a delivery that
resolves no trim conflict: takes that no mark tells to skip are placed at their slot or
replace the picture of their shot, audio lanes are established, and each audio item of the
run is added once, against its picture.

`FilmTimeline.deliver` is the same function over the documents themselves, where times are
binary64 and lengths need not add up to the end of what they fill. Where items go is decided
here on exact times; which takes are skipped is decided alike (`deliverTake_agrees`).
-/

namespace SceneWorks.FilmAssembly

open FilmTimeline (deliveryId usizeMax)

/-- The bed placement stamped at the last alignment. -/
structure Alignment where
  timelineStart : ℚ
  timelineEnd : ℚ
  sourceIn : ℚ
  sourceOut : ℚ
  deriving DecidableEq

/-- The `filmHarness` block; a text that is missing reads as empty. -/
structure Harness where
  runId : String
  shotId : String
  role : String
  id : String
  attempt : Option Nat
  deliveryId : Option String
  alignedDurationSeconds : Option ℚ
  offsetSeconds : ℚ
  startSeconds : ℚ
  aligned : Option Alignment
  deriving DecidableEq

structure Item where
  id : String
  trackId : String
  assetId : Option String
  sourceIn : ℚ
  sourceOut : ℚ
  timelineStart : ℚ
  timelineEnd : ℚ
  harness : Harness
  deriving DecidableEq

structure Track where
  id : String
  kind : String
  items : List Item
  deriving DecidableEq

structure TrimConflict where
  shotId : String
  itemId : String
  sourceIn : ℚ
  sourceOut : ℚ
  newDuration : ℚ
  choices : List String
  take : Item
  deriving DecidableEq

/-- What the cut keeps of a run. -/
structure RunRecord where
  shotOrder : Option (List String) := none
  deletedShots : List String := []
  trimConflicts : List TrimConflict := []
  appliedDeliveries : List String := []
  audioDelivered : List String := []
  deriving DecidableEq

structure Timeline where
  tracks : List Track
  runs : String → RunRecord

structure Payload where
  runId : String
  shotOrder : List String
  tracks : List Track

/-- The measured length of an asset, and the digest a new item takes its id from. -/
structure DeliveryEnv where
  duration : String → Except String ℚ
  sha256 : String → String

def Timeline.items (timeline : Timeline) : List Item := timeline.tracks.flatMap Track.items

def Timeline.editRun (timeline : Timeline) (run : String) (f : RunRecord → RunRecord) : Timeline :=
  { timeline with runs := Function.update timeline.runs run (f (timeline.runs run)) }

def maxEnd (ends : List ℚ) : ℚ := ends.foldl max 0

def pictureDuration (tracks : List Track) : ℚ :=
  maxEnd (((tracks.filter (·.kind = "video")).flatMap Track.items).map Item.timelineEnd)

def isSequenceBed (item : Item) : Bool :=
  ["ambience", "music", "sfx"].contains item.harness.role && item.harness.shotId = ""

def alignment (item : Item) : Alignment :=
  { timelineStart := item.timelineStart
    timelineEnd := item.timelineEnd
    sourceIn := item.sourceIn
    sourceOut := item.sourceOut }

def stampSequenceBedAlignment (item : Item) : Item :=
  if isSequenceBed item then
    { item with harness := { item.harness with aligned := some (alignment item) } }
  else item

def closeTo (left right : ℚ) : Bool := |left - right| ≤ 1 / 1000000

def declaredStart (item : Item) : ℚ := max item.harness.startSeconds 0

def untouchedBed (item : Item) (oldDuration : ℚ) : Bool :=
  match item.harness.aligned with
  | some aligned =>
      closeTo item.timelineStart aligned.timelineStart &&
        closeTo item.timelineEnd aligned.timelineEnd && closeTo item.sourceIn aligned.sourceIn &&
        closeTo item.sourceOut aligned.sourceOut
  | none =>
      closeTo item.timelineStart (declaredStart item) && closeTo item.timelineEnd oldDuration &&
        closeTo (item.sourceOut - item.sourceIn) (max (oldDuration - declaredStart item) 0)

def desiredBed (incoming : List Track) (run : String) (item : Item) : Option Item :=
  (incoming.flatMap Track.items).find? fun candidate =>
    candidate.harness.runId = run && candidate.harness.id = item.harness.id &&
      candidate.harness.role = item.harness.role && candidate.harness.shotId = ""

def extendBed (incoming : List Track) (run : String) (oldDuration newDuration : ℚ) (item : Item) :
    Item :=
  let desiredIsFullCut := (desiredBed incoming run item).any fun desired =>
    closeTo desired.timelineStart (declaredStart item) && closeTo desired.timelineEnd newDuration &&
      closeTo (desired.sourceOut - desired.sourceIn) (max (newDuration - declaredStart item) 0)
  if item.harness.runId = run && isSequenceBed item && untouchedBed item oldDuration &&
      desiredIsFullCut then
    stampSequenceBedAlignment { item with
      timelineEnd := newDuration
      sourceOut := item.sourceIn + (newDuration - declaredStart item) }
  else item

/-- Every item of the audio tracks. -/
def editAudio (f : Item → Item) (tracks : List Track) : List Track :=
  tracks.map fun track =>
    if track.kind = "audio" then { track with items := track.items.map f } else track

def extendUneditedSequenceBeds (incoming : List Track) (run : String) (oldDuration newDuration : ℚ)
    (tracks : List Track) : List Track :=
  if newDuration ≤ oldDuration then tracks
  else editAudio (extendBed incoming run oldDuration newDuration) tracks

def isShotPicture (run shot : String) (item : Item) : Bool :=
  item.harness.runId = run && item.harness.shotId = shot && item.harness.role = "picture"

/-- The first item that satisfies `p`, in track order. -/
def modifyFirstItem (p : Item → Bool) (f : Item → Item) : List Track → List Track
  | [] => []
  | track :: rest =>
      if track.items.any p then
        { track with
          items := match track.items.span fun item => !p item with
            | (front, item :: back) => front ++ f item :: back
            | (front, []) => front } :: rest
      else track :: modifyFirstItem p f rest

def incompatibleTrim (current : Item) (length : ℚ) : Bool :=
  current.sourceIn < 0 || current.sourceOut ≤ current.sourceIn ||
    length + 1 / 1000000 < current.sourceOut

def conflictRecord (current take : Item) (shot : String) (length : ℚ) : TrimConflict :=
  { shotId := shot
    itemId := current.id
    sourceIn := current.sourceIn
    sourceOut := current.sourceOut
    newDuration := length
    choices :=
      if 1 / 10 ≤ length - current.sourceIn then ["clamp", "reset", "keepCurrent"]
      else ["reset", "keepCurrent"]
    take }

def shotRank (order : List String) (shot : String) : Nat :=
  (order.findIdx? fun slot => slot = shot).getD usizeMax

def minPlace : List ℚ → Option ℚ
  | [] => none
  | x :: xs => some (xs.foldl min x)

/-- A new picture goes before the first one of a later slot, else after everything. -/
def insertionPlace (order : List String) (run shot : String) (items : List Item) : ℚ :=
  let later := items.filter fun item =>
    item.harness.runId = run && shotRank order shot < shotRank order item.harness.shotId
  (minPlace (later.map Item.timelineStart)).getD (maxEnd (items.map Item.timelineEnd))

def shiftItem (length : ℚ) (item : Item) : Item :=
  { item with
    timelineStart := item.timelineStart + length
    timelineEnd := item.timelineEnd + length }

def byTimelineStart (a b : Item) : Prop := a.timelineStart ≤ b.timelineStart

instance : DecidableRel byTimelineStart :=
  fun a b => inferInstanceAs (Decidable (a.timelineStart ≤ b.timelineStart))

variable (env : DeliveryEnv)

def placeTake (run shot trackId : String) (take : Item) (start length : ℚ) : Item :=
  { take with
    id := (("item_film_" ++ env.sha256 (run ++ "\x00" ++ shot)).take 34).toString
    trackId
    sourceIn := 0
    sourceOut := length
    timelineStart := start
    timelineEnd := start + length }

/-- The first track that satisfies `p`. -/
def modifyFirst (p : Track → Bool) (f : Track → Track) : List Track → List Track
  | [] => []
  | x :: xs => if p x then f x :: xs else x :: modifyFirst p f xs

/-- The picture items after a take was put at its place. -/
def insertItem (order : List String) (run shot trackId : String) (take : Item) (length : ℚ)
    (items : List Item) : List Item :=
  let start := insertionPlace order run shot items
  let moved :=
    items.map fun item => if start ≤ item.timelineStart then shiftItem length item else item
  (moved ++ [placeTake env run shot trackId take start length]).insertionSort byTimelineStart

/-- The shots whose pictures move when a take is put at its place. -/
def shiftedShots (order : List String) (run shot : String) (items : List Item) : List String :=
  (items.filter fun item =>
    insertionPlace order run shot items ≤ item.timelineStart && item.harness.runId = run).map
      fun item => item.harness.shotId

/-- The sound of the shots moved goes with them. -/
def shiftWith (run : String) (shifted : List String) (length : ℚ) (item : Item) : Item :=
  if item.harness.runId = run && shifted.contains item.harness.shotId then shiftItem length item
  else item

def insertPicture (run : String) (order : List String) (incoming : List Track) (shot : String)
    (tracks : List Track) (take : Item) (length : ℚ) : Except String (List Track) :=
  match tracks.find? (·.kind = "video") with
  | none => .error "Timeline has no picture track"
  | some track =>
      let shifted := shiftedShots order run shot track.items
      let placed := modifyFirst (·.kind = "video") (fun track => { track with
        items := insertItem env order run shot track.id take length track.items }) tracks
      let moved := editAudio (shiftWith run shifted length) placed
      .ok (extendUneditedSequenceBeds incoming run (pictureDuration tracks) (pictureDuration moved)
        moved)

/-- The marks by which a delivery recognises a take it has seen. -/
def isReplay (timeline : Timeline) (run shot : String) (attempt : Nat) : Bool :=
  let id := deliveryId run shot attempt
  (timeline.runs run).appliedDeliveries.contains id ||
    (timeline.items.find? (isShotPicture run shot)).any (fun current =>
      current.harness.deliveryId = some id || current.harness.attempt.any (attempt ≤ ·)) ||
    (timeline.runs run).trimConflicts.any fun conflict =>
      conflict.shotId = shot && conflict.take.harness.deliveryId = some id

def stampTake (run : String) (take : Item) (length : ℚ) : Item :=
  { take with harness := { take.harness with
      deliveryId := some (deliveryId run take.harness.shotId (take.harness.attempt.getD 0))
      alignedDurationSeconds := some length } }

/-- One take of the payload that no mark of the cut tells to skip. -/
def mergeTake (run : String) (incoming : List Track) (timeline : Timeline) (take : Item) :
    Except String Timeline := do
  let shot := take.harness.shotId
  let id := deliveryId run shot (take.harness.attempt.getD 0)
  let asset ← match take.assetId with
    | some asset => .ok asset
    | none => .error "Delivery assetId is required"
  let length ← env.duration asset
  let take := stampTake run take length
  match timeline.items.find? (isShotPicture run shot) with
  | some current =>
      if incompatibleTrim current length then
        return timeline.editRun run fun record => { record with
          trimConflicts := record.trimConflicts.filter (·.shotId ≠ shot) ++
            [conflictRecord current take shot length] }
      else
        let replaced := modifyFirstItem (isShotPicture run shot)
          (fun current => { current with assetId := take.assetId, harness := take.harness })
          timeline.tracks
        return { timeline with tracks := replaced }.editRun run fun record => { record with
          trimConflicts := record.trimConflicts.filter (·.shotId ≠ shot)
          appliedDeliveries := id :: record.appliedDeliveries }
  | none => do
      let order := (timeline.runs run).shotOrder.getD []
      let tracks ← insertPicture env run order incoming shot timeline.tracks take length
      return { timeline with tracks }.editRun run fun record => { record with
        appliedDeliveries := id :: record.appliedDeliveries }

def deliverTake (run : String) (incoming : List Track) (timeline : Timeline) (take : Item) :
    Except String Timeline :=
  let shot := take.harness.shotId
  if shot = "" then .error "Delivery shotId is required"
  else if (timeline.runs run).deletedShots.contains shot then .ok timeline
  else if isReplay timeline run shot (take.harness.attempt.getD 0) then .ok timeline
  else mergeTake env run incoming timeline take

/-- A lane of the payload that the cut lacks is added empty. -/
def establishLane (timeline : Timeline) (lane : Track) : Timeline :=
  if lane.id = "" || timeline.tracks.any (·.id = lane.id) then timeline
  else { timeline with tracks := timeline.tracks ++ [{ lane with items := [] }] }

def pictureOf (timeline : Timeline) (run shot : String) : Option Item :=
  timeline.items.find? fun item =>
    (item.harness.role = "picture" && item.harness.runId ≠ "") && item.harness.runId = run &&
      item.harness.shotId = shot

/-- An audio item of a shot keeps its offset to the shot's picture. -/
def placeAudio (item : Item) (picture : Option Item) : Item :=
  match picture with
  | none => stampSequenceBedAlignment item
  | some picture =>
      let start := picture.timelineStart + item.harness.offsetSeconds
      stampSequenceBedAlignment { item with
        timelineStart := start
        timelineEnd := start + (item.timelineEnd - item.timelineStart) }

def pushItem (audio : Item) (track : Track) : Track :=
  if track.items.any (·.id = audio.id) then track
  else { track with items := track.items ++ [audio] }

def addAudio (lane : Track) (audio : Item) (tracks : List Track) : List Track :=
  if tracks.any (·.id = lane.id) then modifyFirst (·.id = lane.id) (pushItem audio) tracks
  else tracks ++ [pushItem audio { lane with items := [] }]

/-- One audio item: it is added once, and one that belongs to a shot waits for its picture. -/
def deliverAudio (run : String) (timeline : Timeline) (entry : Track × Item) : Timeline :=
  let (lane, item) := entry
  let picture := pictureOf timeline run item.harness.shotId
  if (timeline.runs run).audioDelivered.contains item.id then timeline
  else if item.harness.shotId ≠ "" && picture.isNone then timeline
  else
    { timeline with tracks := addAudio lane (placeAudio item picture) timeline.tracks }.editRun run
      fun record => { record with audioDelivered := item.id :: record.audioDelivered }

def incomingTakes (payload : Payload) : List Item :=
  (payload.tracks.flatMap Track.items).filter fun item =>
    item.harness.runId = payload.runId && item.harness.role = "picture"

def incomingLanes (payload : Payload) : List Track := payload.tracks.filter (·.kind = "audio")

def incomingAudio (payload : Payload) : List (Track × Item) :=
  (incomingLanes payload).flatMap fun lane =>
    (lane.items.filter (·.harness.runId = payload.runId)).map fun item => (lane, item)

/-- The run gets its slots from the first delivery. -/
def openRun (payload : Payload) (timeline : Timeline) : Timeline :=
  timeline.editRun payload.runId fun record =>
    { record with shotOrder := some (record.shotOrder.getD payload.shotOrder) }

def deliver (timeline : Timeline) (payload : Payload) : Except String Timeline := do
  if payload.runId = "" then .error "runId is required"
  else
    let timeline := openRun payload timeline
    let timeline ← (incomingTakes payload).foldlM
      (deliverTake env payload.runId payload.tracks) timeline
    let timeline := (incomingLanes payload).foldl establishLane timeline
    return (incomingAudio payload).foldl (deliverAudio payload.runId) timeline

section Documents

/-- An item of a document, its times aside. -/
structure ReadsItem (json : Json) (item : Item) : Prop where
  runId : FilmTimeline.field json "runId" = item.harness.runId
  shotId : FilmTimeline.field json "shotId" = item.harness.shotId
  role : FilmTimeline.field json "role" = item.harness.role
  attempt : FilmTimeline.attemptField json = item.harness.attempt
  deliveryId : ∀ id, FilmTimeline.deliveryIdOf json = .str id ↔ item.harness.deliveryId = some id

/-- A document whose items and marks of the run are those of the typed cut. -/
structure Reads (run : String) (json : Json) (timeline : Timeline) : Prop where
  items : List.Forall₂ ReadsItem (FilmTimeline.items json) timeline.items
  deleted : ∀ shot, FilmTimeline.isDeleted json run shot =
    (timeline.runs run).deletedShots.contains shot
  applied : ∀ id, FilmTimeline.isApplied json run id =
    (timeline.runs run).appliedDeliveries.contains id
  pending : ∀ shot id, FilmTimeline.isPending json run shot id =
    (timeline.runs run).trimConflicts.any fun conflict =>
      conflict.shotId = shot && conflict.take.harness.deliveryId = some id

variable {run shot : String} {json : Json} {timeline : Timeline}

theorem ReadsItem.isShotPicture {item : Item} (h : ReadsItem json item) :
    FilmTimeline.isShotPicture run shot json = isShotPicture run shot item := by
  rw [FilmTimeline.isShotPicture, FilmAssembly.isShotPicture, h.runId, h.shotId, h.role]
  simp only [beq_eq_decide]

/-- A take replaces the same picture in both. -/
theorem Reads.existingPicture (h : Reads run json timeline) (shot : String) :
    Option.Rel ReadsItem (FilmTimeline.existingPicture json run shot)
      (timeline.items.find? (FilmAssembly.isShotPicture run shot)) := by
  have hitems := h.items
  rw [FilmTimeline.existingPicture]
  generalize FilmTimeline.items json = documents at hitems ⊢
  generalize timeline.items = items at hitems ⊢
  induction hitems with
  | nil => exact .none
  | @cons first item rest items hitem _ ih =>
      rw [List.find?_cons, List.find?_cons, hitem.isShotPicture]
      cases FilmAssembly.isShotPicture run shot item with
      | true => exact .some hitem
      | false => exact ih

theorem Reads.isReplay (h : Reads run json timeline) (shot : String) (attempt : Nat) :
    FilmTimeline.isReplay json run shot attempt = isReplay timeline run shot attempt := by
  have haligned : (FilmTimeline.existingPicture json run shot).any
      (FilmTimeline.isAligned (deliveryId run shot attempt) attempt) =
      (timeline.items.find? (FilmAssembly.isShotPicture run shot)).any fun current =>
        current.harness.deliveryId = some (deliveryId run shot attempt) ||
          current.harness.attempt.any (attempt ≤ ·) := by
    have hpicture := h.existingPicture shot
    generalize FilmTimeline.existingPicture json run shot = found at hpicture ⊢
    generalize timeline.items.find? (FilmAssembly.isShotPicture run shot) = item at hpicture ⊢
    cases hpicture with
    | none => rfl
    | @some found item hitem =>
        have hid := hitem.deliveryId (deliveryId run shot attempt)
        simp only [Option.any_some, FilmTimeline.isAligned, hitem.attempt, beq_eq_decide, hid]
  rw [FilmTimeline.isReplay, FilmAssembly.isReplay, h.applied, haligned, h.pending]

/-- A take is refused, skipped or merged in the typed cut as it is in the document. -/
theorem deliverTake_agrees (h : Reads run json timeline) {takeJson : Json} {take : Item}
    (htake : ReadsItem takeJson take) (store : FilmTimeline.DeliveryEnv) (choice : Option String)
    (incomingJson : Json) (incoming : List Track) :
    let d : FilmTimeline.Delivery := ⟨run, none, choice, incomingJson⟩
    (FilmTimeline.deliverTake store d json takeJson =
        .error (.badRequest "Delivery shotId is required") ∧
      deliverTake env run incoming timeline take = .error "Delivery shotId is required") ∨
    (FilmTimeline.deliverTake store d json takeJson = .ok json ∧
      deliverTake env run incoming timeline take = .ok timeline) ∨
    (FilmTimeline.deliverTake store d json takeJson = FilmTimeline.mergeTake store d json takeJson ∧
      deliverTake env run incoming timeline take = mergeTake env run incoming timeline take) := by
  intro d
  have hattempt : FilmTimeline.attemptOf takeJson = take.harness.attempt.getD 0 := by
    rw [FilmTimeline.attemptOf, htake.attempt]
  simp only [FilmTimeline.deliverTake, FilmAssembly.deliverTake, htake.shotId, hattempt,
    h.deleted, d, Option.isNone_none, Bool.true_and, h.isReplay]
  by_cases hshot : take.harness.shotId = ""
  · exact .inl ⟨if_pos hshot, if_pos hshot⟩
  · rw [if_neg hshot, if_neg hshot]
    split
    · exact .inr (.inl ⟨rfl, rfl⟩)
    · split
      · exact .inr (.inl ⟨rfl, rfl⟩)
      · exact .inr (.inr ⟨rfl, rfl⟩)

end Documents

end SceneWorks.FilmAssembly
