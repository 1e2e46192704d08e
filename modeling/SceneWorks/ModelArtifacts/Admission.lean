import SceneWorks.Library.StableSort
import SceneWorks.ModelArtifacts.Closure

/-!
Which lists of members `new` accepts: those whose members are valid, one of them the primary one,
and whose files go to portable paths of which none is another or stands above another. None of this
sees the order of the members or of their files.
-/

namespace SceneWorks.ModelArtifacts

section Paths

variable {path : Path} {label : String}

theorem normal_of_validated (h : validateRelativePathAllowEmpty path label = .ok ()) :
    path.Normal := by
  unfold validateRelativePathAllowEmpty at h
  split at h
  · exact absurd h nofun
  · rename_i hok
    by_cases hempty : path = []
    · subst hempty
      exact fun component hmem => absurd hmem List.not_mem_nil
    · have hisOk : (pathNormalComponents path).isOk = true := by
        simpa [hempty] using hok
      cases hparts : pathNormalComponents path with
      | error error =>
          rw [hparts] at hisOk
          exact absurd hisOk nofun
      | ok parts =>
          obtain ⟨names, hnames, -⟩ := Fallible.bind_eq_ok.mp hparts
          exact Path.normal_of_mapM hnames

theorem portableComponent_eq (label : String) (path : Path) (component : Component) (name : String)
    (h : portableComponent label path component = .ok name) : name = component.text := by
  unfold portableComponent at h
  split at h
  · exact absurd h nofun
  · exact (Except.ok.inj h).symm

/-- A portable path is spelled by its components. -/
theorem portableRelativePath_eq {text : String} (h : portableRelativePath path label = .ok text) :
    text = path.text := by
  obtain ⟨⟨⟩, -, hrest⟩ := Fallible.bind_eq_ok.mp h
  obtain ⟨names, hnames, htext⟩ := Fallible.bind_eq_ok.mp hrest
  obtain ⟨-, rfl⟩ := (Fallible.mapM_eq_ok_iff_map (portableComponent_eq label path)).mp hnames
  exact (Except.ok.inj htext).symm

theorem isAncestor_iff {above below : String} :
    isAncestor above below = true ↔
      ∃ rest, below.toList = above.toList ++ '/' :: rest := by
  unfold isAncestor
  constructor
  · intro h
    split at h
    · rename_i rest hafter
      exact ⟨rest, (Text.after_eq_some_iff.mp hafter)⟩
    · exact absurd h nofun
  · rintro ⟨rest, hbelow⟩
    rw [hbelow, Text.after_append]
    rfl

/-- What stands above comes first among sorted texts. -/
theorem lt_of_isAncestor {above below : String} (h : isAncestor above below = true) :
    above < below := by
  obtain ⟨rest, hbelow⟩ := isAncestor_iff.mp h
  rw [String.lt_iff_toList_lt, hbelow]
  have hlex := List.Lex.append_left (· < ·) (List.Lex.nil : List.Lex (· < ·) [] ('/' :: rest))
    above.toList
  rwa [List.append_nil] at hlex

/-- A path under another one is spelled as a descendant of it. -/
theorem isAncestor_text {front rest : Path} (hfront : front ≠ []) (hrest : rest ≠ []) :
    isAncestor front.text (front ++ rest).text = true := by
  refine isAncestor_iff.mpr ⟨Path.text rest |>.toList, ?_⟩
  rw [Path.text_append hfront hrest, String.toList_append, String.toList_append,
    List.append_assoc]
  rfl

end Paths

section Outputs

/-- Two outputs that do not meet. -/
def Clear (left right : String) : Prop :=
  left ≠ right ∧ isAncestor left right = false ∧ isAncestor right left = false

theorem Clear.symm {left right : String} (h : Clear left right) : Clear right left :=
  ⟨h.1.symm, h.2.2, h.2.1⟩

theorem checkOutputs_ok_iff {paths : List String} (hsorted : paths.Pairwise (· ≤ ·)) :
    checkOutputs paths = .ok () ↔ paths.Pairwise Clear := by
  induction paths with
  | nil => exact iff_of_true rfl List.Pairwise.nil
  | cons path rest ih =>
      have hle := (List.pairwise_cons.mp hsorted).1
      rw [List.pairwise_cons, ← ih hsorted.of_cons, checkOutputs]
      constructor
      · intro h
        split at h
        · exact absurd h nofun
        · rename_i hhead
          split at h
          · exact absurd h nofun
          · rename_i hnone
            refine ⟨fun other hother => ⟨?_, ?_, ?_⟩, h⟩
            · rintro rfl
              -- An equal path later on would put an equal one next.
              cases rest with
              | nil => exact absurd hother List.not_mem_nil
              | cons next rest =>
                  have hfirst : path ≤ next := hle next (List.mem_cons_self ..)
                  have hlast : next ≤ path := by
                    rcases List.mem_cons.mp hother with rfl | hmem
                    · exact le_rfl
                    · exact List.rel_of_pairwise_cons hsorted.of_cons hmem
                  exact hhead (congrArg some (le_antisymm hlast hfirst))
            · simpa using List.find?_eq_none.mp hnone other hother
            · refine Bool.eq_false_iff.mpr fun habove => ?_
              exact absurd (lt_of_isAncestor habove) (not_lt.mpr (hle other hother))
      · rintro ⟨hclear, hrest⟩
        have hhead : rest.head? ≠ some path := fun heq =>
          (hclear path (List.mem_of_head? heq)).1 rfl
        have hnone : rest.find? (isAncestor path) = none :=
          List.find?_eq_none.mpr fun other hother => by simp [(hclear other hother).2.1]
        rw [if_neg hhead, hnone]
        exact hrest

end Outputs

section Members

variable {member : ResolvedBundleMember} {files : List ArtifactFile}

/-- A member passes by what it says of itself and by each of its files. -/
theorem validate_ok_iff (member : ResolvedBundleMember) :
    member.validate = .ok () ↔
      (member.source.validate = .ok () ∧
        validateRelativePathAllowEmpty member.sourceSubpath "artifact source subpath" = .ok () ∧
        validateRelativePathAllowEmpty member.destination "artifact destination" = .ok () ∧
        ¬ (member.role ≠ .primary ∧
          (member.componentId.all fun value => Text.trim value = "") = true)) ∧
      member.files ≠ [] ∧ ∀ file ∈ member.files, file.validate = .ok () := by
  unfold ResolvedBundleMember.validate
  rw [Fallible.bind_eq_ok]
  constructor
  · rintro ⟨⟨⟩, hsource, hrest⟩
    obtain ⟨⟨⟩, hsubpath, hrest⟩ := Fallible.bind_eq_ok.mp hrest
    obtain ⟨⟨⟩, hdestination, hrest⟩ := Fallible.bind_eq_ok.mp hrest
    split_ifs at hrest with hcomponent hfiles
    exact ⟨⟨hsource, hsubpath, hdestination, hcomponent⟩, hfiles, Fallible.forM_eq_ok_iff.mp hrest⟩
  · rintro ⟨⟨hsource, hsubpath, hdestination, hcomponent⟩, hfiles, hall⟩
    refine ⟨(), hsource, Fallible.bind_eq_ok.mpr ⟨(), hsubpath, ?_⟩⟩
    refine Fallible.bind_eq_ok.mpr ⟨(), hdestination, ?_⟩
    rw [if_neg hcomponent, if_neg hfiles]
    exact Fallible.forM_eq_ok_iff.mpr hall

theorem validate_congr_files
    (hfiles : files ≠ [] ↔ member.files ≠ [])
    (hall : (∀ file ∈ files, file.validate = .ok ()) ↔
      ∀ file ∈ member.files, file.validate = .ok ()) :
    ({ member with files := files } : ResolvedBundleMember).validate = .ok () ↔
      member.validate = .ok () := by
  rw [validate_ok_iff, validate_ok_iff, hall]
  exact and_congr_right fun _ => and_congr_left fun _ => hfiles

theorem validate_of_perm (h : files.Perm member.files) :
    ({ member with files := files } : ResolvedBundleMember).validate = .ok () ↔
      member.validate = .ok () := by
  refine validate_congr_files ?_ ?_
  · exact not_congr ⟨fun hnil => (hnil ▸ h).symm.eq_nil, fun hnil => (hnil ▸ h).eq_nil⟩
  · exact forall_congr' fun file => imp_congr_left h.mem_iff

theorem perm_sortFiles (member : ResolvedBundleMember) :
    member.sortFiles.files.Perm member.files :=
  List.perm_insertionSort _ _

theorem validate_sortFiles (member : ResolvedBundleMember) :
    member.sortFiles.validate = .ok () ↔ member.validate = .ok () :=
  validate_of_perm (perm_sortFiles member)

theorem outputs_perm {left right : ResolvedBundleMember}
    (hdestination : left.destination = right.destination) (h : left.files.Perm right.files) :
    left.outputs.Perm right.outputs := by
  unfold ResolvedBundleMember.outputs
  rw [hdestination]
  exact h.map _

end Members

section Admission

variable {members members' : List ResolvedBundleMember} {closure : ResolvedBundleClosure}

/-- All outputs of a list of members. -/
def outputsOf (members : List ResolvedBundleMember) : List Path :=
  members.flatMap ResolvedBundleMember.outputs

/-- What the members of a closure have to be, in any order. -/
structure Admissible (members : List ResolvedBundleMember) : Prop where
  valid : ∀ member ∈ members, member.validate = .ok ()
  primary : members.countP ResolvedBundleMember.isPrimary = 1
  portable : ∀ path ∈ outputsOf members,
    portableRelativePath path "artifact output file" = .ok path.text
  clear : ((outputsOf members).map Path.text).Pairwise Clear

theorem Admissible.of_perm (h : Admissible members)
    (hvalid : ∀ member ∈ members', member.validate = .ok ())
    (hprimary : members'.countP ResolvedBundleMember.isPrimary =
      members.countP ResolvedBundleMember.isPrimary)
    (houtputs : (outputsOf members').Perm (outputsOf members)) : Admissible members' where
  valid := hvalid
  primary := hprimary.trans h.primary
  portable := fun path hpath => h.portable path (houtputs.mem_iff.mp hpath)
  clear := (houtputs.map Path.text).symm.pairwise h.clear fun hclear => hclear.symm

theorem outputsOf_perm_map {f : ResolvedBundleMember → ResolvedBundleMember}
    (hf : ∀ member, (f member).outputs.Perm member.outputs) (members : List ResolvedBundleMember) :
    (outputsOf (members.map f)).Perm (outputsOf members) := by
  induction members with
  | nil => exact List.Perm.refl _
  | cons member members ih =>
      rw [List.map_cons, outputsOf, outputsOf, List.flatMap_cons, List.flatMap_cons]
      exact (hf member).append ih

theorem outputs_sortFiles (member : ResolvedBundleMember) :
    member.sortFiles.outputs.Perm member.outputs :=
  outputs_perm rfl (perm_sortFiles member)

/-- The members in canonical form. -/
def canonical (members : List ResolvedBundleMember) : List ResolvedBundleMember :=
  sortMembers (members.map ResolvedBundleMember.sortFiles)

theorem canonical_perm (members : List ResolvedBundleMember) :
    (canonical members).Perm (members.map ResolvedBundleMember.sortFiles) :=
  List.perm_insertionSort _ _

theorem outputsOf_canonical (members : List ResolvedBundleMember) :
    (outputsOf (canonical members)).Perm (outputsOf members) :=
  ((canonical_perm members).flatMap_right _).trans (outputsOf_perm_map outputs_sortFiles members)

theorem countP_map_of_role {f : ResolvedBundleMember → ResolvedBundleMember}
    (hf : ∀ member, (f member).role = member.role) (members : List ResolvedBundleMember) :
    (members.map f).countP ResolvedBundleMember.isPrimary =
      members.countP ResolvedBundleMember.isPrimary := by
  rw [List.countP_map]
  refine List.countP_congr fun member _ => ?_
  rw [Function.comp_apply, ResolvedBundleMember.isPrimary, ResolvedBundleMember.isPrimary, hf]

theorem countP_canonical (members : List ResolvedBundleMember) :
    (canonical members).countP ResolvedBundleMember.isPrimary =
      members.countP ResolvedBundleMember.isPrimary :=
  ((canonical_perm members).countP_eq _).trans
    (@countP_map_of_role ResolvedBundleMember.sortFiles (fun _ => rfl) members)

theorem mapM_sortFiles (members : List ResolvedBundleMember)
    (canonicalMembers : List ResolvedBundleMember) :
    (members.mapM fun member => (do
        let member := member.sortFiles
        member.validate
        .ok member : Except ArtifactContractError ResolvedBundleMember)) =
          .ok canonicalMembers ↔
      (∀ member ∈ members, member.validate = .ok ()) ∧
        canonicalMembers = members.map ResolvedBundleMember.sortFiles := by
  rw [Fallible.mapM_eq_ok_iff_map]
  · refine and_congr_left fun _ => forall₂_congr fun member _ => ?_
    rw [← validate_sortFiles]
    constructor
    · intro h
      obtain ⟨⟨⟩, hvalid, -⟩ := Fallible.bind_eq_ok.mp h
      exact hvalid
    · intro h
      exact Fallible.bind_eq_ok.mpr ⟨(), h, rfl⟩
  · intro member result h
    obtain ⟨⟨⟩, -, hresult⟩ := Fallible.bind_eq_ok.mp h
    exact (Except.ok.inj hresult).symm

/-- `new` accepts the admissible lists, and gives them in canonical form. -/
theorem new_ok_iff :
    ResolvedBundleClosure.new members = .ok closure ↔
      Admissible members ∧ closure = ⟨canonical members⟩ := by
  unfold ResolvedBundleClosure.new
  rw [Fallible.bind_eq_ok]
  constructor
  · rintro ⟨sorted, hsorted, hrest⟩
    obtain ⟨hvalid, rfl⟩ := (mapM_sortFiles members sorted).mp hsorted
    dsimp only at hrest
    split at hrest
    · exact absurd hrest nofun
    · rename_i hprimary
      obtain ⟨texts, htexts, hrest⟩ := Fallible.bind_eq_ok.mp hrest
      obtain ⟨⟨⟩, hcheck, hclosure⟩ := Fallible.bind_eq_ok.mp hrest
      obtain ⟨hportable, rfl⟩ := (Fallible.mapM_eq_ok_iff_map
        (fun path text => portableRelativePath_eq)).mp htexts
      have hperm := outputsOf_canonical members
      have hsortedTexts : (((outputsOf (canonical members)).map Path.text).insertionSort
          (· ≤ ·)).Pairwise (· ≤ ·) := List.pairwise_insertionSort _ _
      refine ⟨⟨hvalid, ?_, ?_, ?_⟩, (Except.ok.inj hclosure).symm⟩
      · rw [← countP_canonical]
        exact not_not.mp hprimary
      · exact fun path hpath => hportable path (hperm.mem_iff.mpr hpath)
      · have hclear := (checkOutputs_ok_iff hsortedTexts).mp hcheck
        have htextPerm := (List.perm_insertionSort (· ≤ ·)
          ((outputsOf (canonical members)).map Path.text)).trans (hperm.map Path.text)
        exact htextPerm.pairwise hclear fun hpair => hpair.symm
  · rintro ⟨hadmissible, rfl⟩
    refine ⟨_, (mapM_sortFiles members _).mpr ⟨hadmissible.valid, rfl⟩, ?_⟩
    have hperm := outputsOf_canonical members
    have hprimary : (canonical members).countP ResolvedBundleMember.isPrimary = 1 :=
      (countP_canonical members).trans hadmissible.primary
    refine (if_neg (not_not.mpr hprimary)).trans ?_
    refine Fallible.bind_eq_ok.mpr ⟨(outputsOf (canonical members)).map Path.text, ?_, ?_⟩
    · refine (Fallible.mapM_eq_ok_iff_map (fun path text => portableRelativePath_eq)).mpr
        ⟨fun path hpath => hadmissible.portable path (hperm.mem_iff.mp hpath), rfl⟩
    · refine Fallible.bind_eq_ok.mpr ⟨(), ?_, rfl⟩
      refine (checkOutputs_ok_iff (List.pairwise_insertionSort _ _)).mpr ?_
      have htextPerm := (List.perm_insertionSort (· ≤ ·)
        ((outputsOf (canonical members)).map Path.text)).trans (hperm.map Path.text)
      exact htextPerm.symm.pairwise hadmissible.clear fun hpair => hpair.symm

theorem new_refused_iff :
    (∃ error, ResolvedBundleClosure.new members = .error error) ↔ ¬ Admissible members := by
  constructor
  · rintro ⟨error, herror⟩ hadmissible
    have hok := new_ok_iff.mpr ⟨hadmissible, rfl⟩
    exact absurd (herror.symm.trans hok) nofun
  · intro hnot
    cases hnew : ResolvedBundleClosure.new members with
    | error error => exact ⟨error, rfl⟩
    | ok closure => exact absurd (new_ok_iff.mp hnew).1 hnot

end Admission

end SceneWorks.ModelArtifacts
