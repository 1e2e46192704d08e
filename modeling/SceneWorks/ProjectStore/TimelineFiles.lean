import Mathlib.Data.List.Perm.Basic
import SceneWorks.Library.Table
import SceneWorks.Library.Text
import SceneWorks.ProjectStore.Timelines

/-!
The timelines of a project on disk. A timeline is a file named after its title and the end of
its id, and the index of the project says under which path each id is kept; a path the index
lost is looked for among the files.
-/

namespace SceneWorks.ProjectStore

open FilmTimeline

/-- One character of a title; whether the last one written was a separator is kept beside. -/
def pushSlug (separator : Char) (state : List Char × Bool) (character : Char) : List Char × Bool :=
  if Text.isAsciiAlphanumeric character then (state.1 ++ [character.toLower], false)
  else if !state.2 && !state.1.isEmpty then (state.1 ++ [separator], true)
  else state

/-- An identifier from a title. The fallback is plain ASCII, so that bytes are characters. -/
def slugifyWith (value fallback : String) (maxLength : Option Nat) (separator : Char) : List Char :=
  let slug := ((Text.trim value).toList.foldl (pushSlug separator) ([], false)).1.rdropWhile
    (· = separator)
  let slug := if slug.isEmpty then fallback.toList else slug
  match maxLength with
  | none => slug
  | some length => (slug.take length).rdropWhile (· = separator)

def slugify (value fallback : String) (maxLength : Option Nat) : List Char :=
  slugifyWith value fallback maxLength '-'

def timelineSuffix : String := ".sceneworks.timeline.json"

def idSuffix (timelineId : String) : List Char := (timelineId.toList.reverse.take 8).reverse

def timelineFilePath (timelineId name : String) : String :=
  String.ofList ("timelines".toList ++ '/' :: (slugify name "timeline" (some 48) ++
    '-' :: (idSuffix timelineId ++ timelineSuffix.toList)))

def isTimelineFile (path : String) : Bool := timelineSuffix.toList.isSuffixOf path.toList

def isAsciiControl (c : Char) : Bool := c.toNat < 32 || c.toNat = 127

/-- The components of a relative path are names: redundant separators and inner dots are
skipped, the rest is checked as portable text. -/
def isSafeRelativePath (relative : String) : Bool :=
  let parts := relative.toList.splitOn '/'
  let names := parts.filter fun part => part ≠ [] && part ≠ ['.']
  !relative.toList.contains '\\' && !relative.toList.contains ':' &&
    relative.toList.head? ≠ some '/' && parts.head? ≠ some ['.'] && !names.contains ['.', '.'] &&
    !(['/'].intercalate names).all Text.isWhiteSpace && !names.any (·.any isAsciiControl)

/-- A document on disk, under its path within the project. -/
structure TimelineFile where
  path : String
  document : Json
  deriving DecidableEq

/-- A row of the timelines table; the summary columns are left out. -/
structure IndexRow where
  id : String
  filePath : String
  deriving DecidableEq

structure Project where
  files : Table TimelineFile String TimelineFile.path
  index : Table IndexRow String IndexRow.id

def Project.empty : Project := ⟨.empty, .empty⟩

/-- The order in which a directory is read. -/
structure ReadOrder where
  list : List TimelineFile → List TimelineFile
  perm : ∀ files, (list files).Perm files

def textOf (document : Json) (key : String) : Option String := (document.get key).bind Json.asStr

variable (order : ReadOrder)

/-- The indexed path, when it leads to a file of the project. -/
def Project.indexed (project : Project) (timelineId : String) : Option String :=
  (project.index.find timelineId).bind fun row =>
    if isSafeRelativePath row.filePath && (project.files.find row.filePath).isSome then
      some row.filePath
    else none

def Project.scan (project : Project) (timelineId : String) : Option TimelineFile :=
  (order.list project.files.rows).find? fun file =>
    isTimelineFile file.path && textOf file.document "id" = some timelineId

/-- `update timelines set file_path = … where id = …`. -/
def Project.repoint (project : Project) (timelineId path : String) : Project :=
  { project with
    index := project.index.update (·.id = timelineId) (fun row => { row with filePath := path })
      fun _ => rfl }

def missingTimeline (project : Project) (timelineId : String) : ProjectStoreError :=
  match project.index.find timelineId with
  | some row =>
      let path := row.filePath
      .notFound s!"Timeline file not found at indexed path {path}; reindex required"
  | none => .notFound "Timeline not found"

def findTimelineFile (project : Project) (timelineId : String) :
    Except ProjectStoreError String × Project :=
  match project.indexed timelineId with
  | some path => (.ok path, project)
  | none =>
      match project.scan order timelineId with
      | some file => (.ok file.path, project.repoint timelineId file.path)
      | none => (.error (missingTimeline project timelineId), project)

def readJson (project : Project) (path : String) : Except ProjectStoreError Json :=
  match project.files.find path with
  | some file => .ok file.document
  | none => .error (.io "No such file or directory")

def getTimeline (project : Project) (timelineId : String) :
    Except ProjectStoreError Json × Project :=
  match findTimelineFile order project timelineId with
  | (.ok path, project) => (readJson project path, project)
  | (.error error, project) => (.error error, project)

/-- The stored document a save starts from; a timeline that is not found is new. -/
def existingTimeline (project : Project) (timelineId : String) :
    Except ProjectStoreError (Option Json) × Project :=
  match getTimeline order project timelineId with
  | (.ok document, project) => (.ok (some document), project)
  | (.error (.notFound _), project) => (.ok none, project)
  | (.error error, project) => (.error error, project)

/-- Every other readable document with this id is removed. -/
def removeStaleTimelineFiles (timelineId authoritativePath : String)
    (files : Table TimelineFile String TimelineFile.path) :
    Table TimelineFile String TimelineFile.path :=
  files.delete fun file => file.path ≠ authoritativePath && isTimelineFile file.path &&
    textOf file.document "id" = some timelineId

/-- The new document reaches the disk under the name it has, then the index. -/
def writeTimeline (project : Project) (timelineId : String) (timeline : Json) : Project :=
  let path := timelineFilePath timelineId ((textOf timeline "name").getD "")
  { files := removeStaleTimelineFiles timelineId path (project.files.put ⟨path, timeline⟩)
    index := project.index.put ⟨timelineId, path⟩ }

def saveTimelineFile (env : CallEnv) (document : Json) (project : Project) :
    Except ProjectStoreError Json × Project :=
  match requiredStr document "id" with
  | .error error => (.error error, project)
  | .ok timelineId =>
      if !(isSafeId timelineId) then (.error (.badRequest "Invalid timeline id"), project)
      else
        match existingTimeline order project timelineId with
        | (.error error, project) => (.error error, project)
        | (.ok existing, project) =>
            match saveTimeline env existing document with
            | .error error => (.error error, project)
            | .ok timeline => (.ok timeline, writeTimeline project timelineId timeline)

def timelineAspectRatios : List (String × Nat × Nat) :=
  [("16:9", 1280, 720), ("9:16", 720, 1280), ("1:1", 1024, 1024)]

def timelineDimensions (aspectRatio : String) : Except ProjectStoreError (Nat × Nat) :=
  match timelineAspectRatios.find? (·.1 = aspectRatio) with
  | some (_, width, height) => .ok (width, height)
  | none => .error (.badRequest "Aspect ratio must be one of 16:9, 9:16, or 1:1")

def newTimeline (env : CallEnv) (name aspectRatio : String) (fps : Nat) :
    Except ProjectStoreError (Json × List String) := do
  if name.isEmpty then .error (.badRequest "Timeline name is required")
  else if 120 < name.length then
    .error (.badRequest "Timeline name must be at most 120 characters")
  else if fps < 1 ∨ 60 < fps then .error (.badRequest "FPS must be between 1 and 60")
  else
    let (width, height) ← timelineDimensions aspectRatio
    let (hex, rest) ← randomHex env.random
    return (.obj [("aspectRatio", .str aspectRatio), ("createdAt", .null),
      ("duration", .ofF64 F64.zero), ("fps", .int fps), ("height", .int height),
      ("id", .str ("timeline_" ++ hex)), ("name", .str name), ("projectId", .str env.projectId),
      ("schemaVersion", .int 1), ("tracks", defaultTimelineTracks), ("transitions", .arr []),
      ("updatedAt", .null), ("width", .int width)], rest)

/-- The calls that write a timeline of the project. -/
inductive StoreCall where
  | createTimeline (env : CallEnv) (name aspectRatio : String) (fps : Nat)
  | saveTimeline (env : CallEnv) (document : Json)

/-- The document a call saves. -/
def StoreCall.document : StoreCall → Except ProjectStoreError (CallEnv × Json)
  | .createTimeline env name aspectRatio fps => do
      let (timeline, rest) ← newTimeline env name aspectRatio fps
      return ({ env with random := rest }, timeline)
  | .saveTimeline env document => .ok (env, document)

def StoreCall.run (project : Project) (c : StoreCall) : Except ProjectStoreError Json × Project :=
  match c.document with
  | .ok (env, document) => saveTimelineFile order env document project
  | .error error => (.error error, project)

def storeStep (project : Project) (c : StoreCall) : Project := (c.run order project).2

end SceneWorks.ProjectStore
