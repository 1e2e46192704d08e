import SceneWorks.FilmCompile.Pictures
import Mathlib.Data.List.Infix

/-!
That the numbers in a prompt name the assets that are dispatched. The bound is that of the number
itself: past the largest `u32` two pictures have one number.
-/

namespace SceneWorks.FilmCompile

variable {printable : Char → Bool} {pack : ReferencePack} {shot : Shot} {request : CompiledRequest}
  {roleAssets : String → Option String} {assets : ResolvedConditioning} {role : String}

theorem toNat_pictureNumber {count : Nat} (h : count < 2 ^ 32) :
    (pictureNumber count).toNat = count := by
  rw [pictureNumber, if_pos h]
  exact UInt32.toNat_ofNat_of_lt' h

theorem getElem?_filterMap_of_isSome {α β : Type} {f : α → Option β} {l : List α}
    (h : ∀ a ∈ l, (f a).isSome = true) (i : Nat) : (l.filterMap f)[i]? = l[i]?.bind f := by
  induction l generalizing i with
  | nil => rfl
  | cons a l ih =>
      obtain ⟨b, hb⟩ := Option.isSome_iff_exists.mp (h a List.mem_cons_self)
      rw [List.filterMap_cons_some hb]
      cases i with
      | zero => simp [hb]
      | succ i => simpa using ih (fun a ha => h a (List.mem_cons_of_mem _ ha)) i

/-- A request that resolves dispatches, at the place of each picture, the asset of its first
role. -/
theorem referenceAssetIds_getElem?
    (h : request.resolveConditioning printable pack roleAssets = .ok assets)
    (hshown : ∀ picture ∈ shotReferencePictures pack request.referenceRoles, Shown pack picture)
    (i : Nat) :
    assets.referenceAssetIds[i]? =
      ((shotReferencePictures pack request.referenceRoles)[i]?.bind
        ReferencePicture.dispatchRole).bind roleAssets := by
  unfold CompiledRequest.resolveConditioning at h
  dsimp only at h
  split at h
  · next hnone =>
      cases h
      simp only [List.isEmpty_iff, List.append_eq_nil_iff, List.flatMap_eq_nil_iff] at hnone
      have hdispatch : ∀ picture ∈ shotReferencePictures pack request.referenceRoles,
          picture.dispatchRole.isSome = true := by
        intro picture hpicture
        simp [ReferencePicture.dispatchRole, (hshown picture hpicture).nonempty]
      have hresolved : ∀ role ∈ (shotReferencePictures pack request.referenceRoles).filterMap
          ReferencePicture.dispatchRole, (roleAssets role).isSome = true := by
        intro role hrole
        have hfound := hnone.2 role hrole
        unfold CompiledRequest.unresolved at hfound
        split at hfound
        · assumption
        · cases hfound
      rw [getElem?_filterMap_of_isSome hresolved, getElem?_filterMap_of_isSome hdispatch]
  · cases h

/-- Roles that name one file were given one asset. -/
def SharesAssets (pack : ReferencePack) (roleAssets : String → Option String) : Prop :=
  ∀ one ∈ pack.references, ∀ other ∈ pack.references, ∀ file, one.file = some file →
    other.file = some file → roleAssets one.role = roleAssets other.role

/-- Every role of a picture has the asset of the role it is dispatched for. -/
theorem Shown.asset {picture : ReferencePicture} (h : Shown pack picture)
    (hassets : SharesAssets pack roleAssets) {bound : BoundReferenceRole}
    (hbound : bound ∈ picture.roles) :
    picture.dispatchRole.bind roleAssets = roleAssets bound.role := by
  obtain ⟨first, rest, hroles⟩ := List.exists_cons_of_ne_nil h.nonempty
  have hfirst : first ∈ picture.roles := by simp [hroles]
  have hdispatch : picture.dispatchRole = some first.role := by
    simp [ReferencePicture.dispatchRole, hroles]
  rw [hdispatch, Option.bind_some]
  cases hfile : picture.file with
  | none =>
      have hlone := h.lone hfile
      obtain rfl : rest = [] := by simpa [hroles] using hlone
      obtain rfl : bound = first := by simpa [hroles] using hbound
      rfl
  | some file =>
      -- Both were bound to this picture by the same file.
      obtain ⟨one, hone, honeFile⟩ := Option.bind_eq_some_iff.mp ((h.file first hfirst).trans hfile)
      obtain ⟨other, hother, hotherFile⟩ :=
        Option.bind_eq_some_iff.mp ((h.file bound hbound).trans hfile)
      rw [h.entries first hfirst] at hone
      rw [h.entries bound hbound] at hother
      have hsame := hassets one (entry_mem hone) other (entry_mem hother) file honeFile hotherFile
      rwa [entry_role hone, entry_role hother] at hsame

section Sentences

theorem bindingSentences_map_role (pictures : List ReferencePicture) :
    (bindingSentences pictures).map Binding.role = boundRoles pictures := by
  simp [bindingSentences, boundRoles, List.map_flatMap, bindingSentence, Function.comp_def]

theorem firstMentions_roles (described : List String) (entries : List ReferenceEntry) :
    ((firstMentions described entries).map ReferenceEntry.role).Nodup ∧
      ∀ entry ∈ firstMentions described entries, entry ∈ entries ∧ entry.role ∉ described := by
  induction entries generalizing described with
  | nil => simp [firstMentions]
  | cons entry entries ih =>
      unfold firstMentions
      split
      · obtain ⟨hnodup, hmem⟩ := ih described
        refine ⟨hnodup, ?_⟩
        intro other hother
        exact ⟨List.mem_cons_of_mem _ (hmem other hother).1, (hmem other hother).2⟩
      · next hfresh =>
          obtain ⟨hnodup, hmem⟩ := ih (entry.role :: described)
          constructor
          · refine List.nodup_cons.mpr ⟨?_, hnodup⟩
            intro hagain
            obtain ⟨other, hother, hrole⟩ := List.mem_map.mp hagain
            exact (hmem other hother).2 (by simp [hrole])
          · intro other hother
            rcases List.mem_cons.mp hother with rfl | hrest
            · exact ⟨List.mem_cons_self, by simpa using hfresh⟩
            · have hother := hmem other hrest
              exact ⟨List.mem_cons_of_mem _ hother.1, fun h => hother.2 (List.mem_cons_of_mem _ h)⟩

theorem map_fst_filterMap_sublist {α β γ : Type} (f : α → β) (g : α → Option γ) (l : List α) :
    ((l.filterMap fun a => (g a).map fun c => (f a, c)).map Prod.fst).Sublist (l.map f) := by
  induction l with
  | nil => exact .slnil
  | cons a l ih =>
      cases hg : g a with
      | none =>
          rw [List.filterMap_cons_none (by simp [hg])]
          exact ih.cons (f a)
      | some c =>
          rw [List.filterMap_cons_some (by simp [hg]; rfl)]
          exact ih.cons_cons (f a)

/-- The roles that get an identity sentence, each once and none of them bound. -/
theorem identitySentences_roles (shot : Shot) (pictures : List ReferencePicture)
    (pack : ReferencePack) : ((identitySentences shot pictures pack).map Prod.fst).Nodup ∧
      ∀ role ∈ (identitySentences shot pictures pack).map Prod.fst, role ∉ boundRoles pictures := by
  have hsublist := map_fst_filterMap_sublist ReferenceEntry.role
    (fun entry => descriptionSentence entry.description)
    (firstMentions [] ((shot.continuityRoles.filter fun role =>
      !imageBound shot pictures role).filterMap pack.approvedEntry))
  obtain ⟨hnodup, hmem⟩ := firstMentions_roles [] ((shot.continuityRoles.filter fun role =>
    !imageBound shot pictures role).filterMap pack.approvedEntry)
  refine ⟨hnodup.sublist hsublist, ?_⟩
  intro role hrole
  obtain ⟨entry, hentry, rfl⟩ := List.mem_map.mp (hsublist.subset hrole)
  obtain ⟨unbound, hunbound, happroved⟩ := List.mem_filterMap.mp (hmem entry hentry).1
  have hfree := (List.mem_filter.mp hunbound).2
  rw [approvedEntry_role happroved, ← binds_iff]
  simp only [imageBound, Bool.not_eq_true', Bool.or_eq_false_iff] at hfree
  simp [hfree.1.1]

/-- A role is named by a picture, or described, and neither twice. -/
theorem sentences_once {pictures : List ReferencePicture} (h : (boundRoles pictures).Nodup)
    (shot : Shot) (pack : ReferencePack) (role : String) :
    (((bindingSentences pictures).map Binding.role).count role = 1 ∧
        ((identitySentences shot pictures pack).map Prod.fst).count role = 0) ∨
      (((bindingSentences pictures).map Binding.role).count role = 0 ∧
        ((identitySentences shot pictures pack).map Prod.fst).count role ≤ 1) := by
  obtain ⟨hnodup, hunbound⟩ := identitySentences_roles shot pictures pack
  rw [bindingSentences_map_role]
  by_cases hrole : role ∈ boundRoles pictures
  · refine .inl ⟨List.count_eq_one_of_mem h hrole, List.count_eq_zero_of_not_mem ?_⟩
    exact fun hdescribed => hunbound role hdescribed hrole
  · exact .inr ⟨List.count_eq_zero_of_not_mem hrole, List.nodup_iff_count_le_one.mp hnodup role⟩

end Sentences

/-- What a shot is dispatched with: roles that are distinct in the pack and in the shot, and assets
that resolve its request and follow the files. -/
structure Dispatched (printable : Char → Bool) (pack : ReferencePack) (shot : Shot)
    (request : CompiledRequest) (roleAssets : String → Option String)
    (assets : ResolvedConditioning) : Prop where
  distinct : (pack.references.map ReferenceEntry.role).Nodup
  listed : shot.conditioning.referenceRoles.Nodup
  compiled : request.referenceRoles = shot.conditioning.referenceRoles
  resolved : request.resolveConditioning printable pack roleAssets = .ok assets
  shared : SharesAssets pack roleAssets

def shotPictures (pack : ReferencePack) (shot : Shot) : List ReferencePicture :=
  shotReferencePictures pack shot.conditioning.referenceRoles

/-- The pictures with the continuity roles, from which the sentences are written. -/
def namedPictures (pack : ReferencePack) (shot : Shot) : List ReferencePicture :=
  picturesWithSharedContinuity pack shot (shotPictures pack shot)

def packFile (pack : ReferencePack) (role : String) : Option String :=
  (pack.entry role).bind ReferenceEntry.file

structure NamesAssets (pack : ReferencePack) (shot : Shot) (roleAssets : String → Option String)
    (assets : ResolvedConditioning) : Prop where
  numbered : (shotPictures pack shot).map (fun picture => picture.number.toNat) =
    List.range' 1 (shotPictures pack shot).length
  shared : ∀ one other, one ≠ other → one ∈ boundRoles (shotPictures pack shot) →
    other ∈ boundRoles (shotPictures pack shot) →
      ((∃ picture ∈ shotPictures pack shot, one ∈ picture.roles.map BoundReferenceRole.role ∧
          other ∈ picture.roles.map BoundReferenceRole.role) ↔
        ∃ file, packFile pack one = some file ∧ packFile pack other = some file)
  written : ∀ sentence ∈ bindingSentences (namedPictures pack shot),
    Text.containsText (pictureLabel sentence.picture) sentence.text = true ∧
      0 < sentence.picture.toNat ∧
      assets.referenceAssetIds[sentence.picture.toNat - 1]? = roleAssets sentence.role
  described : ∀ role entry, pack.entry role = some entry → entry.isDescribedOnly = true →
    role ∉ boundRoles (namedPictures pack shot)
  numbers : (namedPictures pack shot).map ReferencePicture.number =
    (shotPictures pack shot).map ReferencePicture.number
  dispatch : (namedPictures pack shot).map ReferencePicture.dispatchRole =
    (shotPictures pack shot).map ReferencePicture.dispatchRole
  once : ∀ role ∈ shot.continuityRoles,
    (((bindingSentences (namedPictures pack shot)).map Binding.role).count role = 1 ∧
        ((identitySentences shot (namedPictures pack shot) pack).map Prod.fst).count role = 0) ∨
      (((bindingSentences (namedPictures pack shot)).map Binding.role).count role = 0 ∧
        ((identitySentences shot (namedPictures pack shot) pack).map Prod.fst).count role ≤ 1)

section Names

theorem containsText_append (before needle after : String) :
    Text.containsText needle (before ++ needle ++ after) = true := by
  rw [Text.containsText, List.any_eq_true]
  refine ⟨needle.toList ++ after.toList, ?_, by simp⟩
  rw [List.mem_tails]
  exact ⟨before.toList, by simp⟩

theorem bindingSentence_label (picture : ReferencePicture) (bound : BoundReferenceRole) :
    Text.containsText (pictureLabel (bindingSentence picture bound).picture)
      (bindingSentence picture bound).text = true := by
  have h := containsText_append (bindingOpening bound) (pictureLabel picture.number)
    ("." ++ bindingClose bound)
  simpa only [bindingSentence, String.append_assoc] using h

theorem exists_bound_of_mem {pictures : List ReferencePicture} (h : role ∈ boundRoles pictures) :
    ∃ picture ∈ pictures, ∃ bound ∈ picture.roles, bound.role = role := by
  simpa [boundRoles] using h

theorem Shown.packFile {picture : ReferencePicture} (h : Shown pack picture)
    {bound : BoundReferenceRole} (hbound : bound ∈ picture.roles) :
    FilmCompile.packFile pack bound.role = picture.file := by
  rw [← h.file bound hbound, FilmCompile.packFile, ← h.entries bound hbound]
  rfl

theorem Shown.file_ne_none {picture : ReferencePicture} (h : Shown pack picture)
    {one other : String}
    (hne : one ≠ other) (hone : one ∈ picture.roles.map BoundReferenceRole.role)
    (hother : other ∈ picture.roles.map BoundReferenceRole.role) : picture.file ≠ none := by
  intro hnone
  obtain ⟨bound, hroles⟩ := List.length_eq_one_iff.mp (h.lone hnone)
  simp only [hroles, List.map_cons, List.map_nil, List.mem_singleton] at hone hother
  exact hne (hone.trans hother.symm)

/-- Two bound roles share a picture exactly when the pack gives them one file. -/
theorem Numbered.shared_iff {roles : List String} {state : Numbering}
    (h : Numbered pack roles state) {one other : String} (hne : one ≠ other)
    (hone : one ∈ boundRoles state.pictures) (hother : other ∈ boundRoles state.pictures) :
    (∃ picture ∈ state.pictures, one ∈ picture.roles.map BoundReferenceRole.role ∧
        other ∈ picture.roles.map BoundReferenceRole.role) ↔
      ∃ file, packFile pack one = some file ∧ packFile pack other = some file := by
  constructor
  · rintro ⟨picture, hpicture, hone, hother⟩
    have hshown := h.shown picture hpicture
    obtain ⟨file, hfile⟩ := Option.ne_none_iff_exists'.mp (hshown.file_ne_none hne hone hother)
    obtain ⟨bound, hbound, rfl⟩ := List.mem_map.mp hone
    obtain ⟨bound', hbound', rfl⟩ := List.mem_map.mp hother
    exact ⟨file, (hshown.packFile hbound).trans hfile, (hshown.packFile hbound').trans hfile⟩
  · rintro ⟨file, honeFile, hotherFile⟩
    obtain ⟨picture, hpicture, bound, hbound, rfl⟩ := exists_bound_of_mem hone
    obtain ⟨picture', hpicture', bound', hbound', rfl⟩ := exists_bound_of_mem hother
    rw [(h.shown picture hpicture).packFile hbound] at honeFile
    rw [(h.shown picture' hpicture').packFile hbound'] at hotherFile
    obtain ⟨i, hi⟩ := List.mem_iff_getElem?.mp hpicture
    obtain ⟨j, hj⟩ := List.mem_iff_getElem?.mp hpicture'
    have hij : i = j := h.eq_of_file hi hj honeFile hotherFile
    subst hij
    obtain rfl : picture = picture' := Option.some.inj (hi.symm.trans hj)
    exact ⟨picture, hpicture, List.mem_map_of_mem hbound, List.mem_map_of_mem hbound'⟩

end Names

/-- Up to the largest number a picture can have, picture numbers name the dispatched assets. -/
theorem pictures_name_assets (h : Dispatched printable pack shot request roleAssets assets)
    (hcount : (shotPictures pack shot).length < 2 ^ 32) :
    NamesAssets pack shot roleAssets assets := by
  obtain ⟨byFile, hnumbered⟩ : ∃ byFile, Numbered pack shot.conditioning.referenceRoles
      ⟨shotPictures pack shot, byFile⟩ := numbered_shotReferencePictures pack _
  have hshares : Shares pack (shotPictures pack shot) (namedPictures pack shot) :=
    shares_picturesWithSharedContinuity h.distinct shot h.listed
  refine ⟨?_, ?_, ?_, ?_, hshares.numbers, hshares.dispatch, ?_⟩
  · have hnumbers := congrArg (List.map UInt32.toNat) hnumbered.numbers
    rw [List.map_map, List.map_map] at hnumbers
    refine hnumbers.trans ?_
    rw [List.range'_eq_map_range]
    apply List.map_congr_left
    intro i hi
    have hlt : i < (shotPictures pack shot).length := List.mem_range.mp hi
    simp only [Function.comp_apply]
    rw [toNat_pictureNumber (by omega), Nat.add_comm]
  · intro one other hne hone hother
    exact hnumbered.shared_iff hne hone hother
  · intro sentence hsentence
    obtain ⟨picture, hpicture, hwritten⟩ := List.mem_flatMap.mp hsentence
    obtain ⟨bound, hbound, rfl⟩ := List.mem_map.mp hwritten
    obtain ⟨i, hi⟩ := List.mem_iff_getElem?.mp hpicture
    -- The picture stands where the one it was made of stands, and is dispatched for the same role.
    have hnumber : picture.number = pictureNumber (i + 1) ∧
        i < (shotPictures pack shot).length := by
      have hat := congrArg (fun numbers => numbers[i]?) (hshares.numbers.trans hnumbered.numbers)
      simp only [List.getElem?_map, hi, Option.map_some] at hat
      grind
    have hdispatch : (shotPictures pack shot)[i]?.bind ReferencePicture.dispatchRole =
        picture.dispatchRole := by
      have hat := congrArg (fun roles => roles[i]?) hshares.dispatch
      simp only [List.getElem?_map, hi, Option.map_some] at hat
      obtain ⟨base, hbase, hrole⟩ := Option.map_eq_some_iff.mp hat.symm
      rw [hbase, Option.bind_some, hrole]
    have hresolved := referenceAssetIds_getElem? h.resolved (h.compiled ▸ hnumbered.shown) i
    rw [h.compiled, ← shotPictures, hdispatch,
      (hshares.shown picture hpicture).asset h.shared hbound] at hresolved
    have hplace : (bindingSentence picture bound).picture.toNat = i + 1 := by
      rw [bindingSentence, hnumber.1, toNat_pictureNumber (by omega)]
    refine ⟨bindingSentence_label picture bound, by omega, ?_⟩
    rw [hplace, Nat.add_sub_cancel]
    exact hresolved
  · intro role entry hentry hdescribed hbound
    obtain ⟨picture, hpicture, bound, hmem, rfl⟩ := exists_bound_of_mem hbound
    have hshown := (hshares.shown picture hpicture).shown bound hmem
    rw [(hshares.shown picture hpicture).entries bound hmem, hentry] at hshown
    simp [hdescribed] at hshown
  · intro role _
    exact sentences_once hshares.once shot pack role

/-- A shot that asks for these references and nothing else. -/
def referenceShot (referenceRoles continuityRoles : List String) : Shot where
  id := "SH010"
  beat := ""
  prompt := "a courier enters"
  negativePrompt := none
  targetDurationSeconds := .zero
  resolution := none
  audio := "Room tone, no music."
  dialogueClip := none
  conditioning := ⟨"reference_to_video", none, none, referenceRoles, none⟩
  seed := none
  continuityRoles := continuityRoles

def referenceRequest (referenceRoles : List String) : CompiledRequest where
  shotId := "SH010"
  beat := ""
  mode := "reference_to_video"
  model := "minimax_h3_ref"
  referenceImageShortEdge := none
  referenceImageResizeMode := none
  loras := []
  steps := none
  effectiveSteps := none
  turboSchedulerShift := none
  partitionReason := ""
  prompt := ""
  promptSource := .authored
  authoredPrompt := none
  insertedText := []
  negativePrompt := none
  durationSeconds := .zero
  fps := 24
  width := 576
  height := 320
  seed := none
  firstFrameRole := none
  lastFrameRole := none
  referenceRoles := referenceRoles
  chainFromShotId := none
  continuityRoles := []

def imageEntry (role file : String) : ReferenceEntry :=
  ⟨role, "character", some file, none, none, "", true, false, none⟩

/-- One photograph of two people, and a plate. -/
def courierPack : ReferencePack :=
  ⟨1, "courier", 1, "",
    [imageEntry "courier" "pair.png", imageEntry "recipient" "pair.png",
    imageEntry "plate" "plate.png"],
    []⟩

def courierAssets (role : String) : Option String :=
  if role = "plate" then some "asset-2"
  else if role = "courier" ∨ role = "recipient" then some "asset-1"
  else none

theorem courierAssets_shared : SharesAssets courierPack courierAssets := by
  have hfiles : ∀ one ∈ courierPack.references, ∀ other ∈ courierPack.references,
      one.file = other.file → courierAssets one.role = courierAssets other.role := by decide
  intro one hone other hother file honeFile hotherFile
  exact hfiles one hone other hother (honeFile.trans hotherFile.symm)

theorem pictures_name_assets_courier :
    NamesAssets courierPack (referenceShot ["plate", "courier"] ["recipient"]) courierAssets
      ⟨none, none, ["asset-2", "asset-1"]⟩ := by
  have hdispatched : Dispatched (fun _ => true) courierPack
      (referenceShot ["plate", "courier"] ["recipient"]) (referenceRequest ["plate", "courier"])
      courierAssets ⟨none, none, ["asset-2", "asset-1"]⟩ :=
    ⟨by decide, by decide, rfl, rfl, courierAssets_shared⟩
  exact pictures_name_assets hdispatched (by decide)

section Overflow

theorem length_boundRoles {pictures : List ReferencePicture}
    (h : ∀ picture ∈ pictures, picture.roles.length = 1) :
    (boundRoles pictures).length = pictures.length := by
  induction pictures with
  | nil => rfl
  | cons picture pictures ih =>
      have hrest := ih fun other hother => h other (List.mem_cons_of_mem _ hother)
      simp only [boundRoles] at hrest
      simp [boundRoles, hrest, h picture List.mem_cons_self, Nat.add_comm]

def emptyPack : ReferencePack := ⟨1, "empty", 1, "", [], []⟩

theorem emptyPack_pictures (roles : List String) :
    (shotReferencePictures emptyPack roles).length = roles.length := by
  obtain ⟨byFile, hnumbered⟩ := numbered_shotReferencePictures emptyPack roles
  have hlone : ∀ picture ∈ shotReferencePictures emptyPack roles, picture.roles.length = 1 := by
    intro picture hpicture
    have hshown := hnumbered.shown picture hpicture
    obtain ⟨first, rest, hroles⟩ := List.exists_cons_of_ne_nil hshown.nonempty
    have hfirst : first ∈ picture.roles := by simp [hroles]
    apply hshown.lone
    rw [← hshown.packFile hfirst]
    rfl
  have htakes : roles.filter (takesPicture emptyPack) = roles := by
    rw [List.filter_eq_self]
    exact fun _ _ => rfl
  have hlength := hnumbered.bound.length_eq
  rwa [length_boundRoles hlone, htakes] at hlength

def numberedRoles (count : Nat) : List String := (List.range count).map Nat.repr

theorem numberedRoles_nodup (count : Nat) : (numberedRoles count).Nodup := by
  refine List.nodup_range.map ?_
  intro m n h
  have hdigits : Nat.toDigits 10 m = Nat.toDigits 10 n := by
    rw [← Nat.toList_repr, ← Nat.toList_repr, h]
  rw [← Nat.ofDigitChars_ten_toDigits (n := m), hdigits, Nat.ofDigitChars_ten_toDigits]

theorem resolveConditioning_some (request : CompiledRequest) (pack : ReferencePack)
    (printable : Char → Bool) :
    ∃ assets, request.resolveConditioning printable pack some = .ok assets := by
  simp [CompiledRequest.resolveConditioning, CompiledRequest.unresolved]

theorem dispatched_numberedRoles (count : Nat) :
    ∃ assets, Dispatched (fun _ => true) emptyPack (referenceShot (numberedRoles count) [])
      (referenceRequest (numberedRoles count)) some assets := by
  obtain ⟨assets, hassets⟩ :=
    resolveConditioning_some (referenceRequest (numberedRoles count)) emptyPack fun _ => true
  refine ⟨assets, List.nodup_nil, numberedRoles_nodup count, rfl, hassets, ?_⟩
  intro one hone
  cases hone

/-- The number after the last one that fits is not the next. -/
theorem not_numbered_of_lt {count : Nat} (h : 2 ^ 32 ≤ count) {assets : ResolvedConditioning} :
    ¬ NamesAssets emptyPack (referenceShot (numberedRoles count) []) some assets := by
  intro hnames
  have hlength : (shotReferencePictures emptyPack (numberedRoles count)).length = count := by
    rw [emptyPack_pictures, numberedRoles, List.length_map, List.length_range]
  have hmem : count ∈ List.range' 1 count := by
    rw [List.mem_range'_1]
    omega
  have hnumbered := hnames.numbered
  rw [shotPictures, referenceShot, hlength] at hnumbered
  rw [← hnumbered] at hmem
  obtain ⟨picture, -, hnumber⟩ := List.mem_map.mp hmem
  have hlt := picture.number.toNat_lt
  omega

/-- Without a bound the last two pictures have one number. -/
theorem manyRoles_not_named :
    ¬ ∀ (printable : Char → Bool) (pack : ReferencePack) (shot : Shot) (request : CompiledRequest)
      (roleAssets : String → Option String) (assets : ResolvedConditioning),
      Dispatched printable pack shot request roleAssets assets →
        NamesAssets pack shot roleAssets assets := by
  intro h
  obtain ⟨assets, hdispatched⟩ := dispatched_numberedRoles (2 ^ 32)
  exact not_numbered_of_lt (Nat.le_refl _) (h _ _ _ _ _ assets hdispatched)

end Overflow

end SceneWorks.FilmCompile
