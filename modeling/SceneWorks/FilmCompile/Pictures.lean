import SceneWorks.FilmCompile.Documents
import SceneWorks.Library.Debug
import Mathlib.Data.List.Nodup
import Mathlib.Data.List.Perm.Basic
import Mathlib.Logic.Function.Basic

/-!
The pictures of a shot. The engine labels the images it is supplied in order, so the number in a
binding sentence and the position of the asset dispatched for it have to be one decision: both walk
`shotReferencePictures`, which gives one picture to each file. The continuity roles are joined to
pictures that are there already, and only for the sentences.
-/

namespace SceneWorks.FilmCompile

structure BoundReferenceRole where
  role : String
  entry : Option ReferenceEntry

structure ReferencePicture where
  number : UInt32
  roles : List BoundReferenceRole

def BoundReferenceRole.file (bound : BoundReferenceRole) : Option String :=
  bound.entry.bind ReferenceEntry.file

namespace ReferencePicture

def dispatchRole (picture : ReferencePicture) : Option String :=
  picture.roles.head?.map BoundReferenceRole.role

/-- The file of the role that was bound to the picture first. -/
def file (picture : ReferencePicture) : Option String :=
  picture.roles.head?.bind BoundReferenceRole.file

def push (picture : ReferencePicture) (bound : BoundReferenceRole) : ReferencePicture :=
  { picture with roles := picture.roles ++ [bound] }

end ReferencePicture

/-- `u32::try_from`, or the largest `u32` where it does not fit. -/
def pictureNumber (count : Nat) : UInt32 :=
  if count < 2 ^ 32 then UInt32.ofNat count else UInt32.ofNat (2 ^ 32 - 1)

def pushRole (pictures : List ReferencePicture) (index : Nat) (bound : BoundReferenceRole) :
    List ReferencePicture :=
  pictures.modify index fun picture => picture.push bound

def binds (pictures : List ReferencePicture) (role : String) : Bool :=
  pictures.any fun picture => picture.roles.any fun bound => bound.role = role

structure Numbering where
  pictures : List ReferencePicture
  byFile : String → Option Nat

section Numbering

variable (pack : ReferencePack)

/-- The role takes a picture of its own, and its file, if it has one, is known from here on. -/
def Numbering.addPicture (state : Numbering) (bound : BoundReferenceRole) : Numbering where
  pictures := state.pictures ++ [⟨pictureNumber (state.pictures.length + 1), [bound]⟩]
  byFile :=
    match bound.file with
    | some file => Function.update state.byFile file (some state.pictures.length)
    | none => state.byFile

def Numbering.bindRole (state : Numbering) (role : String) : Numbering :=
  let entry := pack.entry role
  if entry.any ReferenceEntry.isDescribedOnly then state
  else
    let bound : BoundReferenceRole := ⟨role, entry⟩
    match bound.file.bind state.byFile with
    | some index => { state with pictures := pushRole state.pictures index bound }
    | none => state.addPicture bound

def Numbering.empty : Numbering := ⟨[], fun _ => none⟩

def shotReferencePictures (referenceRoles : List String) : List ReferencePicture :=
  (referenceRoles.foldl (Numbering.bindRole pack) .empty).pictures

/-- A continuity role whose image is supplied already is named by that picture. -/
def shareRole (pictures : List ReferencePicture) (role : String) : List ReferencePicture :=
  if binds pictures role then pictures
  else
    match pack.approvedEntry role with
    | none => pictures
    | some entry =>
        match entry.file with
        | none => pictures
        | some file =>
            match pictures.findIdx? fun picture => picture.file = some file with
            | none => pictures
            | some index => pushRole pictures index ⟨role, some entry⟩

def picturesWithSharedContinuity (shot : Shot) (pictures : List ReferencePicture) :
    List ReferencePicture :=
  shot.continuityRoles.foldl (shareRole pack) pictures

end Numbering

section Sentences

def normalizedDescription (description : String) : String :=
  String.ofList ([' '].intercalate (Text.splitWhitespace description))

def isTerminal (c : Char) : Bool := c = '.' || c = '!' || c = '?' || c = '…'

/-- The quotes and brackets that may close a sentence after its punctuation. -/
def isClosing (c : Char) : Bool := ['"', '\'', ')', ']', '»', '”', '’'].contains c

def endsSentence (text : String) : Bool :=
  match text.toList.reverse.dropWhile Text.isWhiteSpace with
  | [] => true
  | last :: before => isTerminal last || (isClosing last && before.head?.any isTerminal)

def descriptionSentence (description : String) : Option String :=
  let text := normalizedDescription description
  if text = "" then none
  else if endsSentence text then some text
  else some (text ++ ".")

def boundReferenceNoun (kind : String) : String :=
  if kind = "character" then "person"
  else if kind = "prop" then "object"
  else if kind = "location" then "place"
  else "subject"

def rolePhrase (role : String) : String :=
  String.ofList (role.toList.map fun c => if c = '_' || c = '-' then ' ' else c)

/-- A sentence of the compiler about a role, and the picture it names. -/
structure Binding where
  role : String
  picture : UInt32
  text : String

def pictureLabel (number : UInt32) : String := "<Picture " ++ toString number.toNat ++ ">"

/-- What the sentence says before it comes to the picture. -/
def bindingOpening (bound : BoundReferenceRole) : String :=
  let locator := (bound.entry.bind ReferenceEntry.locator).map normalizedDescription
  match locator.filter fun locator => locator ≠ "" with
  | some locator => "The " ++ rolePhrase bound.role ++ " is " ++ locator ++ " in "
  | none =>
      let kind := (bound.entry.map ReferenceEntry.kind).getD ""
      "The " ++ rolePhrase bound.role ++ " is the " ++ boundReferenceNoun kind ++ " shown in "

/-- The description of the role, in the author's own words. -/
def bindingClose (bound : BoundReferenceRole) : String :=
  match bound.entry.bind fun entry => descriptionSentence entry.description with
  | some description => " " ++ description
  | none => ""

def bindingSentence (picture : ReferencePicture) (bound : BoundReferenceRole) : Binding where
  role := bound.role
  picture := picture.number
  text := bindingOpening bound ++ pictureLabel picture.number ++ "." ++ bindingClose bound

def bindingSentences (pictures : List ReferencePicture) : List Binding :=
  pictures.flatMap fun picture => picture.roles.map (bindingSentence picture)

def sentences (texts : List String) : String := String.intercalate " " texts

def referenceBindingText (pictures : List ReferencePicture) : Option InsertedText :=
  let texts := (bindingSentences pictures).map Binding.text
  if texts.isEmpty then none else some ⟨.referenceBinding, sentences texts⟩

def imageBound (shot : Shot) (pictures : List ReferencePicture) (role : String) : Bool :=
  binds pictures role || shot.conditioning.firstFrameRole = some role ||
    shot.conditioning.lastFrameRole = some role

/-- One entry for each subject, at its first mention. -/
def firstMentions (described : List String) : List ReferenceEntry → List ReferenceEntry
  | [] => []
  | entry :: entries =>
      if described.contains entry.role then firstMentions described entries
      else entry :: firstMentions (entry.role :: described) entries

/-- The identity sentences of the continuity roles that no image shows, each with its role. -/
def identitySentences (shot : Shot) (pictures : List ReferencePicture) (pack : ReferencePack) :
    List (String × String) :=
  let unbound := shot.continuityRoles.filter fun role => !imageBound shot pictures role
  (firstMentions [] (unbound.filterMap pack.approvedEntry)).filterMap fun entry =>
    (descriptionSentence entry.description).map fun sentence => (entry.role, sentence)

def continuityDescriptionText (shot : Shot) (pictures : List ReferencePicture)
    (pack : ReferencePack) : Option InsertedText :=
  let texts := (identitySentences shot pictures pack).map Prod.snd
  if texts.isEmpty then none else some ⟨.continuityDescription, sentences texts⟩

end Sentences

section Dispatch

structure ResolvedConditioning where
  firstFrameAssetId : Option String
  lastFrameAssetId : Option String
  referenceAssetIds : List String

variable (printable : Char → Bool)

namespace CompiledRequest

/-- The finding for a role that was never imported. -/
def unresolved (request : CompiledRequest) (roleAssets : String → Option String)
    (field role : String) : List PlanDiagnostic :=
  if (roleAssets role).isSome then []
  else [.shot request.shotId field
    ("reference role " ++ Debug.string printable role ++ " was never imported as an asset")]

def resolveConditioning (request : CompiledRequest) (pack : ReferencePack)
    (roleAssets : String → Option String) : Except (List PlanDiagnostic) ResolvedConditioning :=
  let unresolved := request.unresolved printable roleAssets
  let pictures := shotReferencePictures pack request.referenceRoles
  let roles := pictures.filterMap ReferencePicture.dispatchRole
  let findings :=
    request.firstFrameRole.toList.flatMap (unresolved "conditioning.firstFrameRole") ++
      request.lastFrameRole.toList.flatMap (unresolved "conditioning.lastFrameRole") ++
      roles.flatMap (unresolved "conditioning.referenceRoles")
  if findings.isEmpty then
    .ok ⟨request.firstFrameRole.bind roleAssets, request.lastFrameRole.bind roleAssets,
      roles.filterMap roleAssets⟩
  else .error findings

end CompiledRequest

end Dispatch

section Bound

variable {pack : ReferencePack} {pictures : List ReferencePicture} {role file : String}
  {bound : BoundReferenceRole} {index : Nat} {state : Numbering}

/-- The roles that are bound, in the order of their sentences. -/
def boundRoles (pictures : List ReferencePicture) : List String :=
  pictures.flatMap fun picture => picture.roles.map BoundReferenceRole.role

theorem binds_iff : binds pictures role = true ↔ role ∈ boundRoles pictures := by
  simp [binds, boundRoles]

theorem push_dispatchRole {picture : ReferencePicture} (h : picture.roles ≠ []) :
    (picture.push bound).dispatchRole = picture.dispatchRole := by
  simp [ReferencePicture.push, ReferencePicture.dispatchRole, List.head?_append_of_ne_nil _ h]

theorem push_file {picture : ReferencePicture} (h : picture.roles ≠ []) :
    (picture.push bound).file = picture.file := by
  simp [ReferencePicture.push, ReferencePicture.file, List.head?_append_of_ne_nil _ h]

theorem map_pushRole {β : Type} {f : ReferencePicture → β}
    (hf : ∀ picture ∈ pictures, f (picture.push bound) = f picture) :
    (pushRole pictures index bound).map f = pictures.map f := by
  apply List.ext_getElem?
  intro i
  simp only [pushRole, List.getElem?_map, List.getElem?_modify]
  cases hpicture : pictures[i]? with
  | none => rfl
  | some picture =>
      by_cases hi : index = i
      · simp [hi, hf picture (List.mem_of_getElem? hpicture)]
      · simp [hi]

theorem boundRoles_pushRole (h : index < pictures.length) :
    (boundRoles (pushRole pictures index bound)).Perm (bound.role :: boundRoles pictures) := by
  induction pictures generalizing index with
  | nil => simp at h
  | cons picture pictures ih =>
      cases index with
      | zero =>
          simp only [pushRole, List.modify_zero_cons, boundRoles, List.flatMap_cons,
            ReferencePicture.push, List.map_append, List.map_cons, List.map_nil, List.append_assoc,
            List.singleton_append]
          exact List.perm_middle
      | succ index =>
          have hrest := ih (Nat.lt_of_succ_lt_succ h)
          simp only [pushRole, List.modify_succ_cons, boundRoles, List.flatMap_cons] at hrest ⊢
          exact (hrest.append_left _).trans List.perm_middle

/-- Every picture was bound to a role that is not only described, and a picture is shared by the
roles of one file only. -/
structure Shown (pack : ReferencePack) (picture : ReferencePicture) : Prop where
  nonempty : picture.roles ≠ []
  entries : ∀ bound ∈ picture.roles, bound.entry = pack.entry bound.role
  shown : ∀ bound ∈ picture.roles, bound.entry.any ReferenceEntry.isDescribedOnly = false
  file : ∀ bound ∈ picture.roles, bound.file = picture.file
  lone : picture.file = none → picture.roles.length = 1

theorem Shown.single (hentry : bound.entry = pack.entry bound.role)
    (hshown : bound.entry.any ReferenceEntry.isDescribedOnly = false) (number : UInt32) :
    Shown pack ⟨number, [bound]⟩ where
  nonempty := by simp
  entries := by simpa using hentry
  shown := by simpa using hshown
  file := by simp [ReferencePicture.file]
  lone := fun _ => rfl

theorem Shown.push {picture : ReferencePicture} (h : Shown pack picture)
    (hentry : bound.entry = pack.entry bound.role)
    (hshown : bound.entry.any ReferenceEntry.isDescribedOnly = false)
    (hfile : bound.file = picture.file) (hsome : picture.file ≠ none) :
    Shown pack (picture.push bound) where
  nonempty := by simp [ReferencePicture.push]
  entries := by
    intro other hother
    rcases List.mem_append.mp hother with hold | hnew
    · exact h.entries other hold
    · rw [List.mem_singleton.mp hnew, hentry]
  shown := by
    intro other hother
    rcases List.mem_append.mp hother with hold | hnew
    · exact h.shown other hold
    · rw [List.mem_singleton.mp hnew, hshown]
  file := by
    intro other hother
    rw [push_file h.nonempty]
    rcases List.mem_append.mp hother with hold | hnew
    · exact h.file other hold
    · rw [List.mem_singleton.mp hnew, hfile]
  lone := by
    rw [push_file h.nonempty]
    exact fun hnone => absurd hnone hsome

theorem forall_mem_pushRole {P : ReferencePicture → Prop} (h : ∀ picture ∈ pictures, P picture)
    (hpush : ∀ picture, pictures[index]? = some picture → P (picture.push bound)) :
    ∀ picture ∈ pushRole pictures index bound, P picture := by
  intro picture hpicture
  obtain ⟨i, hi⟩ := List.mem_iff_getElem?.mp hpicture
  rw [pushRole, List.getElem?_modify] at hi
  cases hold : pictures[i]? with
  | none => simp [hold] at hi
  | some old =>
      by_cases hindex : index = i
      · subst hindex
        obtain rfl : old.push bound = picture := by simpa [hold] using hi
        exact hpush old hold
      · obtain rfl : old = picture := by simpa [hold, hindex] using hi
        exact h old (List.mem_of_getElem? hold)

/-- A role that is listed takes a place unless it is only described. -/
def takesPicture (pack : ReferencePack) (role : String) : Bool :=
  !(pack.entry role).any ReferenceEntry.isDescribedOnly

structure Numbered (pack : ReferencePack) (roles : List String) (state : Numbering) : Prop where
  numbers : state.pictures.map ReferencePicture.number =
    (List.range state.pictures.length).map fun i => pictureNumber (i + 1)
  shown : ∀ picture ∈ state.pictures, Shown pack picture
  byFile : ∀ file i, state.byFile file = some i ↔
    (state.pictures.map ReferencePicture.file)[i]? = some (some file)
  bound : (boundRoles state.pictures).Perm (roles.filter (takesPicture pack))

theorem numbered_empty : Numbered pack [] .empty where
  numbers := rfl
  shown := by simp [Numbering.empty]
  byFile := by simp [Numbering.empty]
  bound := by simp [Numbering.empty, boundRoles]

theorem Numbered.addPicture {roles : List String} (h : Numbered pack roles state)
    (htakes : takesPicture pack role = true)
    (hfresh : ∀ file, (pack.entry role).bind ReferenceEntry.file = some file →
      state.byFile file = none) :
    Numbered pack (roles ++ [role]) (state.addPicture ⟨role, pack.entry role⟩) where
  numbers := by
    simp only [Numbering.addPicture, List.map_append, h.numbers, List.map_cons, List.map_nil,
      List.length_append, List.length_singleton, List.range_succ]
  shown := by
    intro picture hpicture
    rcases List.mem_append.mp hpicture with hold | hnew
    · exact h.shown picture hold
    · rw [List.mem_singleton.mp hnew]
      exact .single rfl (by simpa [takesPicture] using htakes) _
  byFile := by
    intro file i
    have hfiles :
        ((state.addPicture ⟨role, pack.entry role⟩).pictures.map ReferencePicture.file)[i]? =
        some (some file) ↔ (state.pictures.map ReferencePicture.file)[i]? = some (some file) ∨
          i = state.pictures.length ∧ (pack.entry role).bind ReferenceEntry.file = some file := by
      simp only [Numbering.addPicture, List.map_append, List.map_cons, List.map_nil,
        ReferencePicture.file, List.head?_cons, Option.bind_some, BoundReferenceRole.file]
      rw [List.getElem?_append]
      grind
    rw [hfiles, ← h.byFile]
    simp only [Numbering.addPicture, BoundReferenceRole.file]
    cases hnew : (pack.entry role).bind ReferenceEntry.file with
    | none => simp
    | some new =>
        by_cases hfile : file = new
        · subst hfile
          simp [hfresh file hnew, eq_comm]
        · simp [Function.update_of_ne hfile, Ne.symm hfile]
  bound := by
    simp only [Numbering.addPicture, boundRoles, List.flatMap_append, List.filter_append]
    refine h.bound.append ?_
    simp [htakes]

theorem Numbered.pushRole {roles : List String} (h : Numbered pack roles state)
    (htakes : takesPicture pack role = true)
    (hfile : (pack.entry role).bind ReferenceEntry.file = some file)
    (hindex : state.byFile file = some index) :
    Numbered pack (roles ++ [role])
      { state with pictures := pushRole state.pictures index ⟨role, pack.entry role⟩ } := by
  have hplace := (h.byFile file index).mp hindex
  rw [List.getElem?_map] at hplace
  obtain ⟨picture, hpicture, hpictureFile⟩ := Option.map_eq_some_iff.mp hplace
  have hlength : index < state.pictures.length := (List.getElem?_eq_some_iff.mp hpicture).1
  have hfiles : (FilmCompile.pushRole state.pictures index ⟨role, pack.entry role⟩).map
      ReferencePicture.file = state.pictures.map ReferencePicture.file :=
    map_pushRole fun picture hpicture => push_file (h.shown picture hpicture).nonempty
  have hnumbers : (FilmCompile.pushRole state.pictures index ⟨role, pack.entry role⟩).map
      ReferencePicture.number = state.pictures.map ReferencePicture.number :=
    map_pushRole fun picture _ => rfl
  refine ⟨?_, ?_, ?_, ?_⟩
  · rw [hnumbers, h.numbers]
    simp [FilmCompile.pushRole]
  · refine forall_mem_pushRole h.shown ?_
    intro old hold
    obtain rfl : picture = old := by simpa [hpicture] using hold
    refine (h.shown picture (List.mem_of_getElem? hold)).push rfl
      (by simpa [takesPicture] using htakes) ?_ ?_
    · rw [hpictureFile, ← hfile]
      rfl
    · simp [hpictureFile]
  · intro other i
    rw [hfiles]
    exact h.byFile other i
  · refine (boundRoles_pushRole hlength).trans ?_
    rw [List.filter_append, List.filter_cons_of_pos htakes]
    refine (h.bound.cons role).trans ?_
    exact (List.perm_append_singleton role _).symm

theorem Numbered.bindRole {roles : List String} (h : Numbered pack roles state) (role : String) :
    Numbered pack (roles ++ [role]) (state.bindRole pack role) := by
  unfold Numbering.bindRole
  dsimp only
  split
  · next hdescribed =>
      have hskips :
          (roles ++ [role]).filter (takesPicture pack) = roles.filter (takesPicture pack) := by
        simp [takesPicture, hdescribed]
      refine ⟨h.numbers, h.shown, h.byFile, ?_⟩
      rw [hskips]
      exact h.bound
  · next hshown =>
      have htakes : takesPicture pack role = true := by simpa [takesPicture] using hshown
      split
      · next index hindex =>
          obtain ⟨file, hfile, hat⟩ := Option.bind_eq_some_iff.mp hindex
          exact h.pushRole htakes hfile hat
      · next hnone =>
          refine h.addPicture htakes ?_
          intro file hfile
          have hbind := Option.bind_eq_none_iff.mp hnone file hfile
          exact hbind

theorem numbered_foldl {roles : List String} (h : Numbered pack roles state) (more : List String) :
    Numbered pack (roles ++ more) (more.foldl (Numbering.bindRole pack) state) := by
  induction more generalizing roles state with
  | nil => simpa using h
  | cons role more ih =>
      have hrest := ih (h.bindRole role)
      rwa [List.append_assoc, List.singleton_append] at hrest

theorem numbered_shotReferencePictures (pack : ReferencePack) (roles : List String) :
    ∃ byFile, Numbered pack roles ⟨shotReferencePictures pack roles, byFile⟩ :=
  ⟨_, numbered_foldl numbered_empty roles⟩

/-- Two pictures of one file are one picture. -/
theorem Numbered.eq_of_file {roles : List String} (h : Numbered pack roles state) {i j : Nat}
    {one other : ReferencePicture} (hi : state.pictures[i]? = some one)
    (hj : state.pictures[j]? = some other) (hone : one.file = some file)
    (hother : other.file = some file) : i = j := by
  have hfirst := (h.byFile file i).mpr (by simp [hi, hone])
  have hsecond := (h.byFile file j).mpr (by simp [hj, hother])
  exact Option.some.inj (hfirst.symm.trans hsecond)

theorem entry_role {entry : ReferenceEntry} (h : pack.entry role = some entry) :
    entry.role = role := by
  simpa using List.find?_some h

theorem entry_mem {entry : ReferenceEntry} (h : pack.entry role = some entry) :
    entry ∈ pack.references :=
  List.mem_of_find?_eq_some h

theorem approvedEntry_role {entry : ReferenceEntry} (h : pack.approvedEntry role = some entry) :
    entry.role = role := by
  have hfound := List.find?_some h
  simp only [Bool.and_eq_true, decide_eq_true_eq] at hfound
  exact hfound.1

/-- Where roles are distinct, the approved entry of a role is its only one. -/
theorem entry_of_approvedEntry (hdistinct : (pack.references.map ReferenceEntry.role).Nodup)
    {entry : ReferenceEntry} (h : pack.approvedEntry role = some entry) :
    pack.entry role = some entry := by
  have hmem : entry ∈ pack.references := List.mem_of_find?_eq_some h
  have hrole : entry.role = role := approvedEntry_role h
  cases hentry : pack.entry role with
  | none =>
      have hnone := List.find?_eq_none.mp hentry entry hmem
      simp [hrole] at hnone
  | some other =>
      have hother : other.role = entry.role := (entry_role hentry).trans hrole.symm
      rw [List.inj_on_of_nodup_map hdistinct (entry_mem hentry) hmem hother]

/-- What joining continuity roles to the pictures of a shot leaves as it was. -/
structure Shares (pack : ReferencePack) (pictures augmented : List ReferencePicture) : Prop where
  numbers : augmented.map ReferencePicture.number = pictures.map ReferencePicture.number
  dispatch :
    augmented.map ReferencePicture.dispatchRole = pictures.map ReferencePicture.dispatchRole
  shown : ∀ picture ∈ augmented, Shown pack picture
  once : (boundRoles augmented).Nodup

theorem Shares.shareRole (hdistinct : (pack.references.map ReferenceEntry.role).Nodup)
    {augmented : List ReferencePicture} (h : Shares pack pictures augmented) (role : String) :
    Shares pack pictures (shareRole pack augmented role) := by
  unfold FilmCompile.shareRole
  split
  · exact h
  next hfree =>
  split
  · exact h
  next entry hentry =>
  split
  · exact h
  next file hfile =>
  split
  · exact h
  next index hindex =>
  have hlength : index < augmented.length := (List.findIdx?_eq_some_iff_getElem.mp hindex).1
  have hthere : augmented[index].file = some file := by
    simpa using (List.findIdx?_eq_some_iff_getElem.mp hindex).2.1
  have hat : pack.entry role = some entry := entry_of_approvedEntry hdistinct hentry
  refine ⟨?_, ?_, ?_, ?_⟩
  · rw [map_pushRole fun picture _ => rfl]
    exact h.numbers
  · rw [map_pushRole fun picture hpicture => push_dispatchRole (h.shown picture hpicture).nonempty]
    exact h.dispatch
  · refine forall_mem_pushRole h.shown ?_
    intro picture hpicture
    obtain rfl : augmented[index] = picture := by simpa [hlength] using hpicture
    refine (h.shown _ (List.getElem_mem hlength)).push hat.symm ?_ ?_ ?_
    · simp [ReferenceEntry.isDescribedOnly, hfile]
    · rw [hthere, ← hfile]
      rfl
    · simp [hthere]
  · refine (boundRoles_pushRole hlength).nodup_iff.mpr (List.nodup_cons.mpr ⟨?_, h.once⟩)
    rw [← binds_iff]
    exact hfree

theorem Shares.foldl (hdistinct : (pack.references.map ReferenceEntry.role).Nodup)
    {augmented : List ReferencePicture} (h : Shares pack pictures augmented) (roles : List String) :
    Shares pack pictures (roles.foldl (FilmCompile.shareRole pack) augmented) := by
  induction roles generalizing augmented with
  | nil => exact h
  | cons role roles ih => exact ih (h.shareRole hdistinct role)

theorem shares_picturesWithSharedContinuity
    (hdistinct : (pack.references.map ReferenceEntry.role).Nodup) (shot : Shot)
      {roles : List String}
    (hroles : roles.Nodup) :
    Shares pack (shotReferencePictures pack roles)
      (picturesWithSharedContinuity pack shot (shotReferencePictures pack roles)) := by
  obtain ⟨byFile, hnumbered⟩ := numbered_shotReferencePictures pack roles
  have hbase : Shares pack (shotReferencePictures pack roles) (shotReferencePictures pack roles) :=
    ⟨rfl, rfl, hnumbered.shown, hnumbered.bound.nodup_iff.mpr (hroles.filter _)⟩
  exact hbase.foldl hdistinct shot.continuityRoles

end Bound

end SceneWorks.FilmCompile
