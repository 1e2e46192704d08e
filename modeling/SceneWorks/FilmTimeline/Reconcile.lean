import SceneWorks.Library.JsonIndex
import Mathlib.Data.List.Sort

/-!
The film metadata of a timeline document: what a save checks, and `reconcile_cut`, which
turns the difference between two cuts into tombstones and pending slots. Documents are
JSON values of any shape; a write through an index that the library would panic on is
`none`.
-/

namespace SceneWorks

inductive ProjectStoreError where
  | io (detail : String)
  | badRequest (detail : String)
  | notFound (detail : String)
  | timelineConflict (code : String) (context : Json)
  -- The call unwinds: an `unwrap` or an index write met a value of another shape.
  | panicked
  deriving DecidableEq

namespace FilmTimeline

def revision (timeline : Json) : Nat :=
  ((timeline.get "revision").bind Json.asU64).getD 0

def invalidMetadata : ProjectStoreError :=
  .badRequest
    "filmAssembly must contain object runs with array shotOrder and object delivery metadata"

def deliveryMetadataKeys : List String :=
  ["deletedShots", "trimConflicts", "audioDelivered", "appliedDeliveries"]

/-- Absent, null or an object. -/
def optionalObject : Option Json → Bool
  | none => true
  | some value => value.isNull || value.isObject

def validShotOrder : Option Json → Bool
  | none => true
  | some order =>
      match order.asArray with
      | none => false
      | some slots => slots.all fun slot => slot.asStr.isSome

def validRun (data : Json) : Bool :=
  data.isObject && deliveryMetadataKeys.all (fun key => optionalObject (data.get key)) &&
    validShotOrder (data.get "shotOrder")

def validRuns : Option Json → Bool
  | none | some .null => true
  | some runs =>
      match runs.asObject with
      | none => false
      | some runs => runs.all fun entry => validRun entry.2

def validAssembly : Option Json → Bool
  | none | some .null => true
  | some assembly => assembly.isObject && validRuns (assembly.get "runs")

def validateMetadata (timeline : Json) : Except ProjectStoreError Unit :=
  if validAssembly (timeline.get "filmAssembly") then .ok () else .error invalidMetadata

def field (item : Json) (key : String) : String :=
  (((item.get "filmHarness").bind (·.get key)).bind Json.asStr).getD ""

def number (item : Json) (key : String) : F64 :=
  (item.idx key).asF64.getD F64.zero

def tracks (timeline : Json) : List Json :=
  (timeline.idx "tracks").elements

def trackItems (track : Json) : List Json :=
  (track.idx "items").elements

def items (timeline : Json) : List Json :=
  (tracks timeline).flatMap trackItems

def isPicture (item : Json) : Bool :=
  field item "role" == "picture" && field item "runId" != ""

def pictures (timeline : Json) : List Json :=
  (items timeline).filter isPicture

/-- A picture of the next cut: its run, shot, item id and place. -/
structure Present where
  run : String
  shot : String
  id : String
  timelineStart : F64

def present (timeline : Json) : List Present :=
  (pictures timeline).map fun item =>
    { run := field item "runId"
      shot := field item "shotId"
      id := (item.idx "id").asStr.getD ""
      timelineStart := number item "timelineStart" }

def Present.holds (cut : List Present) (run shot : String) : Bool :=
  cut.any fun p => p.run == run && p.shot == shot

def deletedStamp (item : Json) (nextRevision : Nat) : Json :=
  .obj [("deletedRevision", .int nextRevision), ("itemId", item.idx "id")]

def deletedShotsPath (run : String) : List String :=
  ["filmAssembly", "runs", run, "deletedShots"]

/-- A picture of the previous cut that the next one lacks leaves a tombstone. -/
def buryDropped (cut : List Present) (nextRevision : Nat) (next item : Json) : Option Json :=
  let run := field item "runId"
  let shot := field item "shotId"
  if Present.holds cut run shot then some next
  else next.put (deletedShotsPath run ++ [shot]) (deletedStamp item nextRevision)

/-- The tombstones of a document, run by run. -/
def tombstones (timeline : Json) : List (String × String × Json) :=
  (JsonObject.entries ((((timeline.idx "filmAssembly").idx "runs").asObject).getD [])).flatMap
    fun entry => (JsonObject.entries (((entry.2.idx "deletedShots").asObject).getD [])).map
      fun stamp => (entry.1, stamp.1, stamp.2)

def carryTombstone (cut : List Present) (next : Json) (stone : String × String × Json) :
    Option Json :=
  if Present.holds cut stone.1 stone.2.1 then some next
  else next.put (deletedShotsPath stone.1 ++ [stone.2.1]) stone.2.2

def removeEntry (key : String) : Json → Json
  | .obj fields => .obj (JsonObject.remove fields key)
  | value => value

/-- A picture that is there again clears its tombstone. -/
def clearTombstone (next : Json) (p : Present) : Option Json :=
  next.edit (deletedShotsPath p.run) (removeEntry p.shot)

/-- The slots of shots in the cut take these shots in cut order; the other slots stay. -/
def fillSlots (ordered : List String) : List Json → List String → List Json
  | [], _ => []
  | slot :: slots, cursor =>
      if ordered.any (fun shot => slot.asStr == some shot) then
        match cursor with
        | [] => slot :: fillSlots ordered slots []
        | shot :: cursor => .str shot :: fillSlots ordered slots cursor
      else slot :: fillSlots ordered slots cursor

def byPlace (a b : Present) : Prop := F64.totalLe a.timelineStart b.timelineStart

instance : DecidableRel byPlace :=
  fun a b => inferInstanceAs (Decidable (F64.totalLe a.timelineStart b.timelineStart))

def orderedShots (cut : List Present) (run : String) : List String :=
  ((cut.filter fun p => p.run == run).insertionSort byPlace).map Present.shot

def reorderSlots (ordered : List String) : Json → Json
  | .arr slots => .arr (fillSlots ordered slots ordered)
  | value => value

def reorderRun (cut : List Present) (run : String) (data : Json) : Option Json :=
  data.edit ["shotOrder"] (reorderSlots (orderedShots cut run))

/-- The pending slots of every listed run follow the order of the cut. -/
def reorderRuns (cut : List Present) (next : Json) : Option Json :=
  match ((next.get "filmAssembly").bind (·.get "runs")).bind Json.asObject with
  | none => some next
  | some runs => do
      let runs ← runs.mapM fun entry =>
        (reorderRun cut entry.1 entry.2).map fun data => (entry.1, data)
      next.put ["filmAssembly", "runs"] (.obj runs)

/-- A document that does not mention the film assembly keeps the stored one. -/
def carryAssembly (previous next : Json) : Option Json :=
  if (next.get "filmAssembly").isNone && (previous.get "filmAssembly").isSome then
    next.put ["filmAssembly"] (previous.idx "filmAssembly")
  else some next

def reconcileCut (previous next : Json) (nextRevision : Nat) : Option Json := do
  let next ← carryAssembly previous next
  if (next.get "filmAssembly").any Json.isObject then
    let cut := present next
    let next ← (pictures previous).foldlM (buryDropped cut nextRevision) next
    let next ← (tombstones previous).foldlM (carryTombstone cut) next
    let next ← cut.foldlM clearTombstone next
    reorderRuns cut next
  else some next

end FilmTimeline

end SceneWorks
