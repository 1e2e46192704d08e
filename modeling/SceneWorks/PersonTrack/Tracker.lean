import Mathlib.Algebra.Order.Field.Rat
import SceneWorks.Library.GreedyChoice

/-!
`PersonTracker` of `person_track.rs`: the identities of the people in a sequence of frames, by a
prediction of every box and two greedy rounds of matching. Coordinates and confidences are exact
rational numbers.
-/

namespace SceneWorks.PersonTrack

/-- A normalized (0..1) `x/y/width/height` box. -/
structure NormalizedBox where
  x : ℚ
  y : ℚ
  width : ℚ
  height : ℚ
  deriving DecidableEq, Inhabited

def NormalizedBox.center (box : NormalizedBox) : ℚ × ℚ :=
  (box.x + box.width / 2, box.y + box.height / 2)

/-- Intersection-over-union of two normalized boxes. -/
def boxIou (a b : NormalizedBox) : ℚ :=
  let interW := max (min (a.x + a.width) (b.x + b.width) - max a.x b.x) 0
  let interH := max (min (a.y + a.height) (b.y + b.height) - max a.y b.y) 0
  let intersection := interW * interH
  let union := a.width * a.height + b.width * b.height - intersection
  if union > 0 then intersection / union else 0

/-- One tracked identity: a constant-velocity estimate of the box center and size. -/
structure Track where
  id : Int
  cx : ℚ
  cy : ℚ
  w : ℚ
  h : ℚ
  vcx : ℚ
  vcy : ℚ
  timeSinceUpdate : Nat
  deriving DecidableEq, Inhabited

namespace Track

def fromBox (id : Int) (box : NormalizedBox) : Track where
  id := id
  cx := box.center.1
  cy := box.center.2
  w := box.width
  h := box.height
  vcx := 0
  vcy := 0
  timeSinceUpdate := 0

def predict (track : Track) : Track :=
  { track with
    cx := track.cx + track.vcx
    cy := track.cy + track.vcy
    timeSinceUpdate := track.timeSinceUpdate + 1 }

def predictedBox (track : Track) : NormalizedBox where
  x := track.cx - track.w / 2
  y := track.cy - track.h / 2
  width := track.w
  height := track.h

def update (track : Track) (box : NormalizedBox) : Track :=
  { track with
    vcx := 1 / 2 * track.vcx + 1 / 2 * (box.center.1 - track.cx)
    vcy := 1 / 2 * track.vcy + 1 / 2 * (box.center.2 - track.cy)
    cx := box.center.1
    cy := box.center.2
    w := box.width
    h := box.height
    timeSinceUpdate := 0 }

@[simp] theorem predict_id (track : Track) : track.predict.id = track.id := rfl

@[simp] theorem predict_timeSinceUpdate (track : Track) :
    track.predict.timeSinceUpdate = track.timeSinceUpdate + 1 := rfl

@[simp] theorem update_id (track : Track) (box : NormalizedBox) :
    (track.update box).id = track.id := rfl

@[simp] theorem update_timeSinceUpdate (track : Track) (box : NormalizedBox) :
    (track.update box).timeSinceUpdate = 0 := rfl

end Track

/-- A box a detector found, and its confidence. -/
abbrev Detection := NormalizedBox × ℚ

/-- What a frame records: a track id, the box of the detection, and its confidence. -/
abbrev Assignment := Int × NormalizedBox × ℚ

structure PersonTracker where
  tracks : List Track
  nextId : Int
  highThresh : ℚ
  minConf : ℚ
  matchThreshHigh : ℚ
  matchThreshLow : ℚ
  maxAge : Nat
  deriving DecidableEq

def PersonTracker.default : PersonTracker where
  tracks := []
  nextId := 1
  highThresh := 1 / 2
  minConf := 1 / 10
  matchThreshHigh := 1 / 5
  matchThreshLow := 1 / 2
  maxAge := 2

section Matching

variable (tracks : List Track) (detections : List Detection)

/-- `detections[index]`, for an index of one of them. -/
def detectionAt (index : Nat) : Detection := detections.getD index Inhabited.default

def trackAt (index : Nat) : Track := tracks.getD index Inhabited.default

/-- The overlap of a detection with the predicted box of a track. -/
def overlap (det track : Nat) : ℚ :=
  boxIou (detectionAt detections det).1 (trackAt tracks track).predictedBox

/-- The pairs of a detection and a free track that overlap enough. -/
def candidatePairs (detIndices : List Nat) (trackTaken : List Bool) (thresh : ℚ) :
    List (ℚ × Nat × Nat) :=
  detIndices.flatMap fun det => (List.range tracks.length).filterMap fun track =>
    if trackTaken.getD track false then none
    else if overlap tracks detections det track ≥ thresh then
      some (overlap tracks detections det track, det, track)
    else none

structure MatchState where
  trackTaken : List Bool
  detTaken : List Nat
  matched : List (Nat × Nat)

def MatchState.take (state : MatchState) (pair : ℚ × Nat × Nat) : MatchState :=
  let (_, det, track) := pair
  if state.trackTaken.getD track false || state.detTaken.contains det then state
  else
    { trackTaken := state.trackTaken.set track true
      detTaken := state.detTaken ++ [det]
      matched := state.matched ++ [(det, track)] }

/-- Greedy matching of detections to free tracks, highest overlap first. -/
def greedyMatch (detIndices : List Nat) (trackTaken : List Bool) (thresh : ℚ) :
    List (Nat × Nat) × List Bool :=
  let pairs := (candidatePairs tracks detections detIndices trackTaken thresh).insertionSort
    fun a b => b.1 ≤ a.1
  let state := pairs.foldl MatchState.take ⟨trackTaken, [], []⟩
  (state.matched, state.trackTaken)

end Matching

/-- The tracks and what has been recorded, as an update goes on. -/
structure Recording where
  tracks : List Track
  assignments : List Assignment

def Recording.recordMatch (detections : List Detection) (recording : Recording)
    (pair : Nat × Nat) : Recording :=
  let (det, track) := pair
  let tracks := recording.tracks.modify track fun found =>
    found.update (detectionAt detections det).1
  { tracks := tracks
    assignments := recording.assignments ++
      [((trackAt tracks track).id, detectionAt detections det)] }

def startTrack (detections : List Detection) (state : Recording × Int) (det : Nat) :
    Recording × Int :=
  let (recording, nextId) := state
  ({ tracks := recording.tracks ++ [Track.fromBox nextId (detectionAt detections det).1]
     assignments := recording.assignments ++ [(nextId, detectionAt detections det)] }, nextId + 1)

namespace PersonTracker

variable (tracker : PersonTracker) (detections : List Detection)

def highIndices : List Nat :=
  (List.range detections.length).filter fun index =>
    (detectionAt detections index).2 ≥ tracker.highThresh

def lowIndices : List Nat :=
  (List.range detections.length).filter fun index =>
    (detectionAt detections index).2 < tracker.highThresh &&
      (detectionAt detections index).2 ≥ tracker.minConf

/-- Associate one frame's detections into track ids. -/
def update : PersonTracker × List Assignment :=
  let tracks := tracker.tracks.map Track.predict
  let high := tracker.highIndices detections
  let low := tracker.lowIndices detections
  let (matchedHigh, trackTaken) :=
    greedyMatch tracks detections high (List.replicate tracks.length false) tracker.matchThreshHigh
  let afterHigh := matchedHigh.foldl (Recording.recordMatch detections) ⟨tracks, []⟩
  let (matchedLow, _) :=
    greedyMatch afterHigh.tracks detections low trackTaken tracker.matchThreshLow
  let afterLow := matchedLow.foldl (Recording.recordMatch detections) afterHigh
  let unmatched := high.filter fun det => !(matchedHigh.map Prod.fst).contains det
  let (started, nextId) := unmatched.foldl (startTrack detections) (afterLow, tracker.nextId)
  ({ tracker with
      tracks := started.tracks.filter fun track => track.timeSinceUpdate ≤ tracker.maxAge
      nextId := nextId }, started.assignments)

/-- The tracker after some frames. -/
def after (frames : List (List Detection)) : PersonTracker :=
  frames.foldl (fun tracker detections => (tracker.update detections).1) default

def ids : List Int := tracker.tracks.map Track.id

end PersonTracker

example : ((PersonTracker.default.update [(⟨0, 0, 1/2, 1/2⟩, 9/10), (⟨1/2, 1/2, 1/2, 1/2⟩, 1/20),
    (⟨1/2, 0, 1/2, 1/2⟩, 7/10)]).2.map Prod.fst) = [1, 2] := by decide +kernel

end SceneWorks.PersonTrack
