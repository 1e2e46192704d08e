import SceneWorks.Library.Json
import SceneWorks.Library.StableSort
import SceneWorks.Library.Text
import SceneWorks.Library.Window
import SceneWorks.SessionLog.Redact

/-!
The session log: three rings, one for each severity lane, that share a sequence
counter, and the query that scans them.
-/

namespace SceneWorks.SessionLog

structure LogEntry where
  seq : Nat
  source : String
  level : String
  timestamp : String
  message : String
  event : Option Json
  raw : String
  deriving DecidableEq

structure LogQuery where
  afterSeq : Option Nat := none
  limit : Option Nat := none
  source : Option String := none
  level : Option String := none
  search : Option String := none

/-- The JSON reader and writer, and the capture time of the line with a given number. -/
structure Capture where
  fromStr : String → Option Json
  toText : Json → String
  utcNow : Nat → String

inductive Lane where
  | error
  | warn
  | routine
  deriving DecidableEq

def laneForLevel (level : String) : Lane :=
  if level = "error" then .error else if level = "warn" then .warn else .routine

def Lane.all : List Lane := [.error, .warn, .routine]

def isNull (value : Json) : Bool := value = .null

/-- The declared level of an event, when it has one that is not blank. -/
def declaredLevel (event : Json) : Option String :=
  (((event.get "level").bind Json.asStr).map fun level => Text.asciiLower (Text.trim level)).filter
    (· ≠ "")

def inferEventLevel (event : Json) : String :=
  match declaredLevel event with
  | some declared => declared
  | none =>
      let name := ((event.get "event").bind Json.asStr).getD ""
      if Text.endsWith "_failed" name || Text.endsWith "_error" name
          || (event.get "error").any (!isNull ·) || (event.get "errorType").any (!isNull ·) then
        "error"
      else if name = "claim_lock_contention" || Text.containsText "warn" name then "warn"
      else "info"

def inferTextLevel (line : String) : String :=
  let lowered := Text.asciiLower line
  if ["panic", "traceback", "error", "_failed", "failed:"].any (Text.containsText · lowered) then
    "error"
  else if Text.containsText "warn" lowered then "warn"
  else "info"

def inferLevel (line : String) (event : Option Json) : String :=
  match event with
  | some event => inferEventLevel event
  | none => inferTextLevel line

def summaryFields : List String :=
  ["decision", "reason", "model", "jobId", "gpuId", "adapter", "imageIndex", "imageCount",
    "consecutiveFailures", "status", "path", "detail", "error"]

variable (capture : Capture)

def summaryField (event : Json) (field : String) : String :=
  match event.get field with
  | none | some .null => ""
  | some (.str text) => " " ++ field ++ "=" ++ text
  | some other => " " ++ field ++ "=" ++ capture.toText other

def summarizeEvent (event : Json) : Option String :=
  match (event.get "event").bind Json.asStr with
  | none => (event.get "message").bind Json.asStr
  | some name =>
      some (summaryFields.foldl (fun summary field => summary ++ summaryField capture event field)
        name)

def classify (source line : String) (seq : Nat) : LogEntry :=
  let event := (capture.fromStr line).filter fun value => value.asObject.isSome
  { seq
    source
    level := inferLevel line event
    timestamp :=
      (event.bind fun value => (value.get "reportedAt").bind Json.asStr).getD (capture.utcNow seq)
    message := (event.bind (summarizeEvent capture)).getD line
    event
    raw := line }

structure Inner where
  lanes : Lane → List LogEntry
  nextSeq : Nat
  capacity : Nat

def withCapacity (capacity : Nat) : Inner :=
  { lanes := fun _ => [], nextSeq := 0, capacity := max capacity 1 }

/-- The lines of a chunk that become entries, each without its carriage return. -/
def chunkLines (chunk : String) : List String :=
  ((Text.splitOn '\n' chunk).map fun line =>
    String.ofList ((Text.before ['\r'] line.toList).getD line.toList)).filter
      fun line => Text.trim line ≠ ""

def entryLane (entry : LogEntry) : Lane := laneForLevel entry.level

def Inner.pushBack (log : Inner) (entry : LogEntry) : Inner :=
  { log with
    lanes := Function.update log.lanes (entryLane entry)
      (Window.evict log.capacity (log.lanes (entryLane entry) ++ [entry])) }

def redactLine (line : String) : String := String.ofList (redactSecrets line.toList)

def Inner.pushOne (source : String) (log : Inner) (line : String) : Inner :=
  let entry := classify capture source (redactLine line) log.nextSeq
  { log.pushBack entry with nextSeq := min (log.nextSeq + 1) (2 ^ 64 - 1) }

def Inner.pushLine (log : Inner) (source chunk : String) : Inner :=
  (chunkLines chunk).foldl (Inner.pushOne capture source) log

def LogQuery.effectiveLimit (query : LogQuery) : Nat := min (max (query.limit.getD 500) 1) 5000

def LogQuery.matches (query : LogQuery) (entry : LogEntry) : Bool :=
  query.afterSeq.all (fun seq => seq < entry.seq)
    && query.source.all (fun source => entry.source = source)
    && query.level.all (fun level => entry.level = level)
    && query.search.all (fun needle =>
      Text.containsText (Text.asciiLower needle) (Text.asciiLower entry.raw))

def LogQuery.lanes (query : LogQuery) : List Lane :=
  match query.level with
  | some level => [laneForLevel level]
  | none => Lane.all

def Inner.candidates (log : Inner) (query : LogQuery) : List LogEntry :=
  query.lanes.flatMap fun lane =>
    ((log.lanes lane).reverse.filter query.matches).take query.effectiveLimit

def bySeq (a b : LogEntry) : Prop := a.seq ≤ b.seq

instance : DecidableRel bySeq := fun a b => inferInstanceAs (Decidable (a.seq ≤ b.seq))

/-- Entries have different numbers, so any sort by number gives this list. -/
def Inner.query (log : Inner) (query : LogQuery) : List LogEntry :=
  let candidates := (log.candidates query).insertionSort bySeq
  candidates.drop (candidates.length - query.effectiveLimit)

end SceneWorks.SessionLog
