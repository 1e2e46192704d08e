import Mathlib.Data.List.Sort
import Mathlib.Order.WithBot
import SceneWorks.HfRepoId
import SceneWorks.ModelArtifacts.Paths

/-!
`ResolvedBundleClosure::new`: the members of a bundle, each with its files sorted and checked, in
the order of where they go, and refused where two of their files would meet.
-/

namespace SceneWorks.ModelArtifacts

/-- What the contract refuses, with what its message names. -/
inductive ArtifactContractError where
  | repository (message : String)
  | mutableRevision (revision : String)
  | emptyVariant
  | fingerprintDiffers
  | identitiesDiffer
  | emptyPath (label : String)
  | unconfinedPath (label : String) (path : Path)
  | nonPortablePath (label : String) (path : Path)
  | pattern (path : Path)
  | invalidSha256 (hash : String)
  | noComponentId (role : String)
  | noFiles (componentId : Option String)
  | notOnePrimary
  | duplicateOutput (path : String)
  | ancestorOutput (path descendant : String)
  deriving DecidableEq

structure ArtifactIdentity where
  repository : String
  revision : String
  variant : String
  fingerprint : String
  deriving DecidableEq

def isLowerHex (c : Char) : Bool := c.isDigit || 'a' ≤ c && c ≤ 'f'

/-- A resolved commit: forty lower-case digits, each of one byte. -/
def validateImmutableRevision (revision : String) : Except ArtifactContractError Unit :=
  if revision.toList.length = 40 && revision.toList.all isLowerHex then .ok ()
  else .error (.mutableRevision revision)

def validateSha256 (hash : String) : Except ArtifactContractError Unit :=
  match Text.after "sha256:".toList hash.toList with
  | some value =>
      if value.length = 64 && value.all isLowerHex then .ok () else .error (.invalidSha256 hash)
  | none => .error (.invalidSha256 hash)

def isEmptyVariant (variant : String) : Bool :=
  Text.trim variant = "" || variant.toList.contains '/' || variant.toList.contains '\\' ||
    variant = "." || variant = ".."

def ArtifactIdentity.pinned (repository revision variant : String) :
    Except ArtifactContractError ArtifactIdentity :=
  match HfRepoId.namespaced repository with
  | .error message => .error (.repository message)
  | .ok repository => do
      validateImmutableRevision revision
      if isEmptyVariant variant then .error .emptyVariant
      else
        .ok
          { repository := repository
            revision := revision
            variant := variant
            fingerprint := repository ++ "@" ++ revision ++ ":" ++ variant }

def ArtifactIdentity.validate (identity : ArtifactIdentity) :
    Except ArtifactContractError Unit := do
  let expected ← ArtifactIdentity.pinned identity.repository identity.revision identity.variant
  if identity.fingerprint ≠ expected.fingerprint then .error .fingerprintDiffers else .ok ()

inductive ArtifactMemberRole where
  | primary
  | requiredComponent
  | optionalComponent
  | coRequisite
  | lora
  | control
  | derivedOverlay
  | utility
  | trainingBase
  deriving DecidableEq

/-- The place of a role among the roles, which is its `Ord`. -/
def ArtifactMemberRole.rank : ArtifactMemberRole → ℕ
  | .primary => 0
  | .requiredComponent => 1
  | .optionalComponent => 2
  | .coRequisite => 3
  | .lora => 4
  | .control => 5
  | .derivedOverlay => 6
  | .utility => 7
  | .trainingBase => 8

/-- `{:?}` of a role. -/
def ArtifactMemberRole.debug : ArtifactMemberRole → String
  | .primary => "Primary"
  | .requiredComponent => "RequiredComponent"
  | .optionalComponent => "OptionalComponent"
  | .coRequisite => "CoRequisite"
  | .lora => "Lora"
  | .control => "Control"
  | .derivedOverlay => "DerivedOverlay"
  | .utility => "Utility"
  | .trainingBase => "TrainingBase"

structure ArtifactFile where
  relativePath : Path
  sizeBytes : Option ℕ := none
  sha256 : Option String := none
  deriving DecidableEq

structure ResolvedBundleMember where
  role : ArtifactMemberRole
  componentId : Option String
  source : ArtifactIdentity
  tier : Option String
  sourceSubpath : Path
  destination : Path
  files : List ArtifactFile
  deriving DecidableEq

structure ResolvedBundleClosure where
  members : List ResolvedBundleMember
  deriving DecidableEq

section Paths

def validateRelativePathAllowEmpty (path : Path) (label : String) :
    Except ArtifactContractError Unit :=
  if path ≠ [] ∧ (pathNormalComponents path).isOk = false then .error (.unconfinedPath label path)
  else .ok ()

def validateRelativePath (path : Path) (label : String) : Except ArtifactContractError Unit :=
  if path = [] then .error (.emptyPath label) else validateRelativePathAllowEmpty path label

def isPattern (path : Path) : Bool :=
  path.any fun component => component.text.toList.any ['*', '?', '[', ']'].contains

def validateConcreteRelativeFile (path : Path) : Except ArtifactContractError Unit := do
  validateRelativePath path "artifact file"
  if isPattern path then .error (.pattern path) else .ok ()

def portableComponent (label : String) (path : Path) (component : Component) :
    Except ArtifactContractError String :=
  if component.text.toList.contains '\\' then .error (.nonPortablePath label path)
  else .ok component.text

/-- The validation before leaves nothing but normal components. -/
def portableRelativePath (path : Path) (label : String) : Except ArtifactContractError String := do
  validateRelativePathAllowEmpty path label
  let names ← path.mapM (portableComponent label path)
  .ok ("/".intercalate names)

end Paths

section Members

def ArtifactFile.validate (file : ArtifactFile) : Except ArtifactContractError Unit := do
  validateConcreteRelativeFile file.relativePath
  match file.sha256 with
  | some hash => validateSha256 hash
  | none => .ok ()

def ResolvedBundleMember.validate (member : ResolvedBundleMember) :
    Except ArtifactContractError Unit := do
  member.source.validate
  validateRelativePathAllowEmpty member.sourceSubpath "artifact source subpath"
  validateRelativePathAllowEmpty member.destination "artifact destination"
  if member.role ≠ .primary ∧ (member.componentId.all fun value => Text.trim value = "") then
    .error (.noComponentId member.role.debug)
  else if member.files = [] then .error (.noFiles member.componentId)
  else member.files.forM ArtifactFile.validate

/-- `None` comes before every value. -/
def bottomed {α : Type} (value : Option α) : WithBot α := value

/-- `Ord` of a file: its path, its size, its digest. -/
def ArtifactFile.key (file : ArtifactFile) :
    List (ℕ ×ₗ String) ×ₗ (WithBot ℕ ×ₗ WithBot String) :=
  toLex (file.relativePath.key, toLex (bottomed file.sizeBytes, bottomed file.sha256))

def ResolvedBundleMember.sortFiles (member : ResolvedBundleMember) : ResolvedBundleMember :=
  { member with files := member.files.insertionSort fun left right => left.key ≤ right.key }

/-- `member_sort_key`: where a member goes, its role and its component id. -/
def ResolvedBundleMember.sortKey (member : ResolvedBundleMember) :
    List (ℕ ×ₗ String) ×ₗ (ℕ ×ₗ WithBot String) :=
  toLex (member.destination.key, toLex (member.role.rank, bottomed member.componentId))

def sortMembers (members : List ResolvedBundleMember) : List ResolvedBundleMember :=
  members.insertionSort fun left right => left.sortKey ≤ right.sortKey

def ResolvedBundleMember.isPrimary (member : ResolvedBundleMember) : Bool := member.role = .primary

end Members

section Outputs

/-- Where the files of a member go. -/
def ResolvedBundleMember.outputs (member : ResolvedBundleMember) : List Path :=
  member.files.map fun file => member.destination.join file.relativePath

/-- `strip_prefix` leaves something that begins with a slash. -/
def isAncestor (path descendant : String) : Bool :=
  match Text.after path.toList descendant.toList with
  | some ('/' :: _) => true
  | _ => false

/-- The first path, in sorted order, that meets the next one or stands above a later one. -/
def checkOutputs : List String → Except ArtifactContractError Unit
  | [] => .ok ()
  | path :: rest =>
      if rest.head? = some path then .error (.duplicateOutput path)
      else
        match rest.find? (isAncestor path) with
        | some descendant => .error (.ancestorOutput path descendant)
        | none => checkOutputs rest

def ResolvedBundleClosure.new (members : List ResolvedBundleMember) :
    Except ArtifactContractError ResolvedBundleClosure := do
  let members ← members.mapM fun member => do
    let member := member.sortFiles
    member.validate
    .ok member
  let members := sortMembers members
  if members.countP ResolvedBundleMember.isPrimary ≠ 1 then .error .notOnePrimary
  else do
    let outputPaths ← (members.flatMap ResolvedBundleMember.outputs).mapM fun path =>
      portableRelativePath path "artifact output file"
    checkOutputs (outputPaths.insertionSort (· ≤ ·))
    .ok ⟨members⟩

/-- What `validate_paths_and_sizes` hands on: the same members without a digest. -/
def ResolvedBundleMember.eraseDigests (member : ResolvedBundleMember) : ResolvedBundleMember :=
  { member with files := member.files.map fun file => { file with sha256 := none } }

def ResolvedBundleClosure.eraseDigests (closure : ResolvedBundleClosure) : ResolvedBundleClosure :=
  ⟨closure.members.map ResolvedBundleMember.eraseDigests⟩

end Outputs

end SceneWorks.ModelArtifacts
