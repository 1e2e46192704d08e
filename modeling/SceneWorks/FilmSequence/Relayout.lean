import Mathlib.Algebra.Order.Field.Rat
import Mathlib.Data.Finset.Dedup
import Mathlib.Data.List.Sort
import Mathlib.Logic.Function.Basic
import Mathlib.Order.WithBot
import SceneWorks.Library.Debug

/-!
`relayout_timeline`: the one place that decides where the pictures and the sounds of a film sit.
Times are exact rational numbers. A member of the document that is missing, or is not what it should
be, reads as `none`.
-/

namespace SceneWorks.FilmSequence

/-- The `filmHarness` block of an item. -/
structure Harness where
  role : Option String := none
  shotId : Option String := none
  offsetSeconds : Option ℚ := none
  startSeconds : Option ℚ := none
  sourceDurationSeconds : Option ℚ := none
  deriving DecidableEq

structure Item where
  id : Option String := none
  timelineStart : Option ℚ := none
  timelineEnd : Option ℚ := none
  sourceIn : Option ℚ := none
  sourceOut : Option ℚ := none
  speed : Option ℚ := none
  harness : Harness := {}
  deriving DecidableEq

structure Track where
  id : Option String
  kind : Option String
  items : Option (List Item)
  deriving DecidableEq

structure Timeline where
  tracks : Option (List Track)
  duration : Option ℚ
  deriving DecidableEq

def pictureTrackId : String := "track_main"

def minItemSeconds : ℚ := 1 / 25

/-- A number of the harness block that is missing or negative reads as zero. -/
def harnessF64 (value : Option ℚ) : ℚ := (value.filter fun value => 0 ≤ value).getD 0

def number (value : Option ℚ) (fallback : ℚ) : ℚ := value.getD fallback

def itemSpan (item : Item) : ℚ :=
  let sourceIn := max (number item.sourceIn 0) 0
  let sourceOut := number item.sourceOut (sourceIn + minItemSeconds)
  let speed := min (max (number item.speed 1) (1 / 10)) 8
  max ((sourceOut - sourceIn) / speed) minItemSeconds

def Item.start (item : Item) : ℚ := number item.timelineStart 0
def Item.finish (item : Item) : ℚ := number item.timelineEnd 0

/-- `track_main`, or the first video track. -/
def pictureTrackIndex (timeline : Timeline) : Option ℕ :=
  timeline.tracks.bind fun tracks =>
    (tracks.findIdx? fun track => track.id = some pictureTrackId).or
      (tracks.findIdx? fun track => track.kind = some "video")

section Pictures

/-- Where an item stands in the order; what is no shot of it comes after everything. -/
def rank (order : List String) (item : Item) : WithTop ℕ :=
  match item.harness.shotId.bind fun shot => order.findIdx? fun id => id = shot with
  | some position => position
  | none => ⊤

/-- The `{:?}` of a set of texts. -/
def setText (printable : Char → Bool) (texts : List String) : String :=
  "\x7b" ++ String.intercalate ", "
    ((texts.dedup.insertionSort (· ≤ ·)).map (Debug.string printable)) ++ "\x7d"

def shots (items : List Item) : List String := items.filterMap fun item => item.harness.shotId

/-- The pictures in the requested order, which has to name the shots that are there, or in the
order they stand in. -/
def sortPictures (printable : Char → Bool) (order : Option (List String)) (items : List Item) :
    Except String (List Item) :=
  match order with
  | some order =>
      if (shots items).toFinset ≠ order.toFinset then
        .error ("the requested order names " ++ setText printable order ++
          " but the sequence holds " ++ setText printable (shots items) ++
          "; a reorder must list every shot on the picture track exactly once")
      else .ok (items.insertionSort fun left right => rank order left ≤ rank order right)
  | none => .ok (items.insertionSort fun left right => left.start ≤ right.start)

/-- Where a shot starts, once its picture is laid; a later picture of the same shot wins. -/
def markStart (shotStarts : String → Option ℚ) (start : ℚ) : Option String → String → Option ℚ
  | some shot => Function.update shotStarts shot (some start)
  | none => shotStarts

/-- The pictures end to end from the cursor, with where each shot starts and where the last ends. -/
def layPictures : ℚ → (String → Option ℚ) → List Item → List Item × (String → Option ℚ) × ℚ
  | cursor, shotStarts, [] => ([], shotStarts, cursor)
  | cursor, shotStarts, item :: items =>
      let finish := cursor + itemSpan item
      let rest := layPictures finish (markStart shotStarts cursor item.harness.shotId) items
      ({ item with timelineStart := some cursor, timelineEnd := some finish } :: rest.1, rest.2)

end Pictures

section Sounds

def isBed (role : String) : Bool := role = "ambience" || role = "music" || role = "sfx"

/-- The editor's own clip is only clamped, and dropped only when there is no room for it. -/
def clampClip (duration : ℚ) (item : Item) : Option Item :=
  let start := max (number item.timelineStart 0) 0
  let finish := min (number item.timelineEnd (start + itemSpan item)) duration
  if duration ≤ start ∨ finish ≤ start then none
  else some { item with timelineStart := some start, timelineEnd := some finish }

/-- A line goes with its shot, a bed from its declared start as far as its source is measured. -/
def soundWindow (shotStarts : String → Option ℚ) (duration : ℚ) (item : Item) : Option (ℚ × ℚ) :=
  if item.harness.role = some "dialogue" then
    (item.harness.shotId.bind shotStarts).map fun shotStart =>
      let start := shotStart + harnessF64 item.harness.offsetSeconds
      (start, start + itemSpan item)
  else
    let start := harnessF64 item.harness.startSeconds
    let sourceIn := max (number item.sourceIn 0) 0
    let finish := match item.harness.sourceDurationSeconds with
      | some sourceDuration => start + max (sourceDuration - sourceIn) 0
      | none => duration
    some (start, finish)

/-- The source range of a bed follows what of it is played. -/
def bedSourceOut (duration start finish : ℚ) (item : Item) : ℚ :=
  let sourceIn := max (number item.sourceIn 0) 0
  match item.harness.sourceDurationSeconds with
  | some sourceDuration =>
      let sourceRemaining := max (sourceDuration - sourceIn) 0
      let pictureRemaining := max (duration - start) 0
      if sourceRemaining ≤ pictureRemaining then sourceDuration else sourceIn + (finish - start)
  | none => sourceIn + (finish - start)

def placeSound (shotStarts : String → Option ℚ) (duration : ℚ) (item : Item) : Option Item :=
  let role := item.harness.role.getD ""
  if role = "dialogue" || isBed role then
    match soundWindow shotStarts duration item with
    | none => none
    | some (start, finish) =>
        if duration - minItemSeconds ≤ start then none
        else
          let finish := min finish duration
          if finish ≤ start then none
          else
            let placed := { item with timelineStart := some start, timelineEnd := some finish }
            some (if isBed role then
              { placed with sourceOut := some (bedSourceOut duration start finish item) }
            else placed)
  else clampClip duration item

def placeTrack (shotStarts : String → Option ℚ) (duration : ℚ) (track : Track) : Track :=
  if track.kind = some "audio" then
    { track with items := track.items.map (List.filterMap (placeSound shotStarts duration)) }
  else track

end Sounds

def settle (tracks : List Track) (shotStarts : String → Option ℚ) (duration : ℚ) :
    Timeline × Except String ℚ :=
  ({ tracks := some (tracks.map (placeTrack shotStarts duration)), duration := some duration },
    .ok duration)

def relayoutTimeline (printable : Char → Bool) (timeline : Timeline)
    (order : Option (List String)) : Timeline × Except String ℚ :=
  match pictureTrackIndex timeline with
  | none => (timeline, .error "timeline has no track_main and no video track to re-lay")
  | some index =>
      match timeline.tracks with
      | none => (timeline, .error "timeline has no tracks array")
      | some tracks =>
          match tracks[index]? with
          | none => settle tracks (fun _ => none) 0
          | some track =>
              match track.items with
              | none => (timeline, .error "picture track has no items")
              | some items =>
                  match sortPictures printable order items with
                  | .error error => (timeline, .error error)
                  | .ok sorted =>
                      let (laid, shotStarts, duration) := layPictures 0 (fun _ => none) sorted
                      settle (tracks.set index { track with items := some laid }) shotStarts
                        duration

end SceneWorks.FilmSequence
