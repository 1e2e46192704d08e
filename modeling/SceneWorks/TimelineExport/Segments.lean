import Mathlib.Data.List.Sort
import SceneWorks.Library.FloatReading
import SceneWorks.Library.JsonIndex

/-!
The export of a saved timeline: the picture items planned into segments, the segments
joined by ffmpeg, the clock of the joined picture, and the sound placed by that clock.
Seconds are exact rationals: a stored float is the number it stands for. A segment names
the item its file shows in place of the file's path.
-/

namespace SceneWorks.TimelineExport

def valueF64 (value : Json) (default : ℚ) : ℚ :=
  match (value.asF64.or (value.asStr.bind F64.parse)).filter F64.isFinite with
  | some x => x.toRat
  | none => default

def itemF64 (item : Json) (field : String) (default : ℚ) : ℚ :=
  match item.get field with
  | some value => valueF64 value default
  | none => default

def defaultTransitionDurationSeconds : ℚ := 1 / 2

def textOf (value : Json) (key : String) : Option String := (value.get key).bind Json.asStr

/-- The picture track: `track_main` by id, or the first of kind video. -/
def isPictureTrack (track : Json) : Bool :=
  textOf track "id" == some "track_main" || textOf track "kind" == some "video"

def pictureTrackIndex (timeline : Json) : Option Nat :=
  ((timeline.get "tracks").bind Json.asArray).bind (List.findIdx? isPictureTrack)

def itemsOf (track : Json) : Option (List Json) := (track.get "items").bind Json.asArray

def mainTrackItems (timeline : Json) : List Json :=
  ((pictureTrackIndex timeline).bind fun index =>
    ((timeline.idx "tracks").elements[index]?).bind itemsOf).getD []

structure PlannedItem where
  leadingGap : Option ℚ
  item : Json
  transition : Option String
  transitionDuration : ℚ

def timelineStart (item : Json) : ℚ := itemF64 item "timelineStart" 0

/-- The loop of `plan_segments`, from a cursor. -/
def planSegments (cursor : ℚ) : List Json → Except String (List PlannedItem × ℚ)
  | [] => .ok ([], cursor)
  | item :: rest => do
      let start := timelineStart item
      let itemEnd := itemF64 item "timelineEnd" start
      if itemEnd ≤ start then
        .error "timelineEnd must be greater than timelineStart."
      else
        let transitionIn := item.idx "transitionIn"
        let planned : PlannedItem :=
          { leadingGap := if cursor < start then some (start - cursor) else none
            item := item
            transition := textOf transitionIn "type"
            transitionDuration :=
              valueF64 (transitionIn.idx "duration") defaultTransitionDurationSeconds }
        let (plan, total) ←
          planSegments (max (if cursor < start then start else cursor) itemEnd) rest
        .ok (planned :: plan, total)

structure TimelineSegment where
  shows : Option Json
  duration : ℚ
  transition : Option String
  transitionDuration : ℚ

/-- The length `render_item_segment` returns. -/
def renderItemSegment (item : Json) : ℚ :=
  let sourceIn := itemF64 item "sourceIn" 0
  let sourceOut := itemF64 item "sourceOut" (itemF64 item "timelineEnd" 4)
  let timelineDuration := itemF64 item "timelineEnd" 4 - itemF64 item "timelineStart" 0
  let sourceDuration := max (sourceOut - sourceIn) (1 / 10)
  let speed := max (itemF64 item "speed" 1) (1 / 10)
  if 0 < timelineDuration then max timelineDuration (1 / 10)
  else max (sourceDuration / speed) (1 / 10)

def gapSegment (duration : ℚ) : TimelineSegment := ⟨none, duration, none, 0⟩

def render (plan : List PlannedItem) : List TimelineSegment :=
  plan.flatMap fun planned =>
    planned.leadingGap.toList.map gapSegment ++
      [⟨some planned.item, renderItemSegment planned.item, planned.transition,
        planned.transitionDuration⟩]

def crossfadeDuration (duration : ℚ) : ℚ := max (1 / 10) (min duration (3 / 2))

def TimelineSegment.crossfades (segment : TimelineSegment) : Bool :=
  segment.transition == some "crossfade"

/-- How a segment is joined to the picture so far. -/
inductive Joint where
  | concat
  | xfade (duration offset : ℚ)

/-- The loop of `crossfade_filter_complex`, from the length it has counted. -/
def crossfadeJoints (currentDuration : ℚ) : List TimelineSegment → List Joint
  | [] => []
  | segment :: rest =>
      if segment.crossfades then
        let duration := crossfadeDuration segment.transitionDuration
        .xfade duration (max (currentDuration - duration) 0) ::
          crossfadeJoints (currentDuration + (segment.duration - duration)) rest
      else .concat :: crossfadeJoints (currentDuration + segment.duration) rest

def crossfadeFilterComplex : List TimelineSegment → List Joint
  | [] => []
  | first :: rest => crossfadeJoints first.duration rest

/-- A picture ffmpeg has joined: where each segment starts in it, and its length. -/
structure Picture where
  starts : List ℚ
  length : ℚ

/-- What ffmpeg makes of one joint: `concat` puts the next picture at the end, `xfade` at
its offset, and the result ends with it. -/
def Picture.join (picture : Picture) (duration : ℚ) : Joint → Picture
  | .concat => ⟨picture.starts ++ [picture.length], picture.length + duration⟩
  | .xfade _ offset => ⟨picture.starts ++ [offset], offset + duration⟩

def Picture.joinAll (picture : Picture) (pieces : List (TimelineSegment × Joint)) : Picture :=
  pieces.foldl (fun joined piece => joined.join piece.1.duration piece.2) picture

/-- A crossfade anywhere after the first segment takes the filter graph; otherwise the files
are concatenated. -/
def muxSegments : List TimelineSegment → Picture
  | [] => ⟨[], 0⟩
  | first :: rest =>
      let joints :=
        if rest.any TimelineSegment.crossfades then crossfadeFilterComplex (first :: rest)
        else rest.map fun _ => .concat
      Picture.joinAll ⟨[0], first.duration⟩ (rest.zip joints)

structure PictureTiming where
  duration : ℚ
  absorbed : List (ℚ × ℚ)

/-- The loop of `from_segments`. -/
def PictureTiming.walk (index : Nat) (timelineCursor total : ℚ) (absorbed : List (ℚ × ℚ)) :
    List TimelineSegment → PictureTiming
  | [] => ⟨max (timelineCursor - total) 0, absorbed⟩
  | segment :: rest =>
      let total :=
        if 0 < index ∧ segment.crossfades then
          total + crossfadeDuration segment.transitionDuration
        else total
      let absorbed := if 0 < index then absorbed ++ [(timelineCursor, total)] else absorbed
      walk (index + 1) (timelineCursor + segment.duration) total absorbed rest

def PictureTiming.fromSegments (segments : List TimelineSegment) : PictureTiming :=
  walk 0 0 0 [] segments

/-- The slack a segment's start is compared with. -/
def slack : ℚ := 1 / 10 ^ 9

def PictureTiming.pictureTime (timing : PictureTiming) (timelineTime : ℚ) : ℚ :=
  let absorbed := (((timing.absorbed.takeWhile fun entry => entry.1 ≤ timelineTime + slack).map
    Prod.snd).getLast?).getD 0
  max (timelineTime - absorbed) 0

structure AudioPlacement where
  assetId : String
  trackId : String
  role : String
  sourceIn : ℚ
  sourceOut : ℚ
  pictureStart : ℚ
  span : ℚ
  speed : ℚ
  gain : ℚ
  fadeIn : ℚ
  fadeOut : ℚ
  generated : Bool

def clamp (low high value : ℚ) : ℚ := max low (min value high)

/-- The fields of a track every placement on it carries. -/
structure Bus where
  trackId : String
  role : String
  gain : ℚ
  isAudio : Bool

def busOf (track : Json) : Bus :=
  let kind := (textOf track "kind").getD "video"
  { trackId := (textOf track "id").getD ""
    role := (textOf track "role").getD
      (if kind = "overlay" then "overlay" else if kind = "audio" then "sound" else "picture")
    gain := clamp 0 4 (itemF64 track "gain" 1)
    isAudio := kind == "audio" }

/-- The placement of one item, when it has a sound to place inside the picture. -/
def placeItem (timing : PictureTiming) (bus : Bus) (item : Json) : Option AudioPlacement :=
  let generated := !bus.isAudio
  let start := max (timelineStart item) 0
  let timelineEnd := itemF64 item "timelineEnd" 0
  let pictureStart := timing.pictureTime start
  let span := max (min (timelineEnd - start) (timing.duration - pictureStart)) 0
  let speed := clamp (1 / 10) 8 (itemF64 item "speed" 1)
  let sourceIn := max (itemF64 item "sourceIn" 0) 0
  let declaredOut := itemF64 item "sourceOut" 0
  if generated && textOf item "generatedAudio" != some "include" then none
  else (textOf item "assetId").bind fun assetId =>
    if timelineEnd ≤ start ∨ timing.duration ≤ pictureStart ∨ span ≤ 0 then none
    else some
      { assetId := assetId
        trackId := bus.trackId
        role := bus.role
        sourceIn := sourceIn
        sourceOut := if sourceIn < declaredOut then declaredOut else sourceIn + span * speed
        pictureStart := pictureStart
        span := span
        speed := speed
        gain := clamp 0 8 (bus.gain * clamp 0 2 (itemF64 item "volume" 1))
        fadeIn := clamp 0 span (itemF64 item "fadeInSeconds" 0)
        fadeOut := clamp 0 span (itemF64 item "fadeOutSeconds" 0)
        generated := generated }

/-- The placements of one track, each with the item it comes from. -/
def placeTrack (timing : PictureTiming) (isPicture : Bool) (track : Json) :
    List (Json × AudioPlacement) :=
  let bus := busOf track
  if ((track.get "muted").bind Json.asBool).getD false then []
  else if !bus.isAudio && !isPicture then []
  else ((itemsOf track).getD []).filterMap fun item =>
    (placeItem timing bus item).map fun placement => (item, placement)

/-- Every placement of a timeline, in the order the tracks stand. -/
def placements (timeline : Json) (timing : PictureTiming) : List (Json × AudioPlacement) :=
  ((timeline.idx "tracks").elements.zipIdx).flatMap fun entry =>
    placeTrack timing (pictureTrackIndex timeline == some entry.2) entry.1

def AudioPlacement.before (left right : AudioPlacement) : Prop :=
  left.pictureStart < right.pictureStart ∨ left.pictureStart = right.pictureStart ∧
    (left.trackId < right.trackId ∨ left.trackId = right.trackId ∧ left.assetId ≤ right.assetId)

instance : DecidableRel AudioPlacement.before := fun _ _ =>
  inferInstanceAs (Decidable (_ ∨ _ ∧ (_ ∨ _ ∧ _)))

def audioPlacements (timeline : Json) (timing : PictureTiming) : List AudioPlacement :=
  ((placements timeline timing).map Prod.snd).insertionSort AudioPlacement.before

def startsBefore (left right : Json) : Prop := timelineStart left ≤ timelineStart right

instance : DecidableRel startsBefore := fun left right =>
  inferInstanceAs (Decidable (timelineStart left ≤ timelineStart right))

/-- The picture items in the order they are planned. -/
def pictureItems (timeline : Json) : List Json :=
  (mainTrackItems timeline).insertionSort startsBefore

def exportSegments (timeline : Json) : Except String (List TimelineSegment) :=
  if (pictureItems timeline).isEmpty then .error "Timeline has no main video items to export."
  else do
    let (plan, _) ← planSegments 0 (pictureItems timeline)
    .ok (render plan)

end SceneWorks.TimelineExport
