import SceneWorks.ModelArtifacts.Admission

/-!
How far the canonical closure forgets the order its members came in. The files of a member are told
apart by their paths, and sorting them forgets their order; members are sorted by a key that does
not tell all of them apart, and those that tie stay as they came.
-/

namespace SceneWorks.ModelArtifacts

variable {members members' : List ResolvedBundleMember} {closure : ResolvedBundleClosure}
  {member : ResolvedBundleMember}

/-- The same member with its files in another order. -/
def SameButFileOrder (member other : ResolvedBundleMember) : Prop :=
  ∃ files, member.files.Perm files ∧ other = { member with files := files }

/-- The same members in another order, each with its files in another order. -/
def Rearranged (members others : List ResolvedBundleMember) : Prop :=
  ∃ middle, members.Perm middle ∧ List.Forall₂ SameButFileOrder middle others

section Rearranging

theorem SameButFileOrder.symm {other : ResolvedBundleMember} (h : SameButFileOrder member other) :
    SameButFileOrder other member := by
  obtain ⟨files, hperm, rfl⟩ := h
  exact ⟨member.files, hperm.symm, rfl⟩

theorem Admissible.of_members_perm (h : Admissible members) (hperm : members.Perm members') :
    Admissible members' :=
  h.of_perm (fun member hmem => h.valid member (hperm.mem_iff.mpr hmem))
    (hperm.symm.countP_eq _) (hperm.symm.flatMap_right _)

theorem exists_of_forall₂ {α β : Type} {r : α → β → Prop} {left : List α} {right : List β} {b : β}
    (h : List.Forall₂ r left right) (hb : b ∈ right) : ∃ a ∈ left, r a b := by
  induction h with
  | nil => exact absurd hb List.not_mem_nil
  | @cons a c left right hfirst _ ih =>
      rcases List.mem_cons.mp hb with rfl | hb
      · exact ⟨a, List.mem_cons_self .., hfirst⟩
      · obtain ⟨d, hd, hrd⟩ := ih hb
        exact ⟨d, List.mem_cons_of_mem a hd, hrd⟩

theorem Admissible.of_forall₂ (h : Admissible members)
    (hsame : List.Forall₂ SameButFileOrder members members') : Admissible members' := by
  refine h.of_perm ?_ ?_ ?_
  · intro other hother
    obtain ⟨member, hmember, files, hperm, rfl⟩ := exists_of_forall₂ hsame hother
    exact (validate_of_perm hperm.symm).mpr (h.valid member hmember)
  · clear h
    induction hsame with
    | nil => rfl
    | cons hfirst _ ih =>
        obtain ⟨files, -, rfl⟩ := hfirst
        rw [List.countP_cons, List.countP_cons, ih]
        rfl
  · clear h
    induction hsame with
    | nil => exact List.Perm.refl _
    | @cons first _ _ _ hfirst _ ih =>
        obtain ⟨files, hperm, rfl⟩ := hfirst
        have houtputs : ({ first with files := files } : ResolvedBundleMember).outputs.Perm
            first.outputs := outputs_perm rfl hperm.symm
        rw [outputsOf, outputsOf, List.flatMap_cons, List.flatMap_cons]
        exact houtputs.append ih

theorem Rearranged.admissible_iff (h : Rearranged members members') :
    Admissible members ↔ Admissible members' := by
  obtain ⟨middle, hperm, hsame⟩ := h
  constructor
  · intro hadmissible
    exact (hadmissible.of_members_perm hperm).of_forall₂ hsame
  · intro hadmissible
    have hback : List.Forall₂ SameButFileOrder members' middle :=
      hsame.flip.imp fun _ _ hpair => SameButFileOrder.symm hpair
    exact (hadmissible.of_forall₂ hback).of_members_perm hperm.symm

end Rearranging

section Files

/-- The files of a member of an accepted list go to different paths. -/
theorem Admissible.files_apart (h : Admissible members) (hmem : member ∈ members) :
    member.files.Pairwise fun left right => left.relativePath ≠ right.relativePath := by
  have hclear := (List.pairwise_map.mp h.clear)
  have hmember := (List.pairwise_flatMap.mp hclear).1 member hmem
  refine (List.pairwise_map.mp hmember).imp fun hpair hpath => hpair.1 ?_
  rw [hpath]

theorem ArtifactFile.path_of_key {left right : ArtifactFile} (h : left.key = right.key) :
    left.relativePath = right.relativePath := by
  have hpath : (ofLex left.key).1 = (ofLex right.key).1 := by rw [h]
  exact Path.key_injective hpath

theorem Admissible.sortFiles_eq {other : ResolvedBundleMember} (h : Admissible members)
    (hmem : member ∈ members) (hsame : SameButFileOrder member other) :
    other.sortFiles = member.sortFiles := by
  obtain ⟨files, hperm, rfl⟩ := hsame
  have hkeys : member.files.Pairwise fun left right => left.key ≠ right.key :=
    (h.files_apart hmem).imp fun hpath hkey => hpath (ArtifactFile.path_of_key hkey)
  have hsort := StableSort.insertionSort_eq_of_perm ArtifactFile.key hperm hkeys
  unfold ResolvedBundleMember.sortFiles
  dsimp only
  rw [← hsort]

/-- The order of the files is forgotten. -/
theorem Rearranged.map_sortFiles (h : Rearranged members members')
    (hadmissible : Admissible members) : (members.map ResolvedBundleMember.sortFiles).Perm
      (members'.map ResolvedBundleMember.sortFiles) := by
  obtain ⟨middle, hperm, hsame⟩ := h
  have hmiddle := hadmissible.of_members_perm hperm
  have heq : members'.map ResolvedBundleMember.sortFiles =
      middle.map ResolvedBundleMember.sortFiles := by
    have hall : List.Forall₂ (fun other member : ResolvedBundleMember =>
        other.sortFiles = member.sortFiles) members' middle := by
      refine List.forall₂_iff_get.mpr ⟨hsame.length_eq.symm, fun i hi hi' => ?_⟩
      have hat := (List.forall₂_iff_get.mp hsame).2 i hi' hi
      exact hmiddle.sortFiles_eq (List.get_mem _ _) hat
    have hmap := List.forall₂_map_left_iff.mpr (List.forall₂_map_right_iff.mpr hall)
    exact List.forall₂_eq_eq_eq ▸ hmap
  rw [heq]
  exact hperm.map _

end Files

section Members

/-- Two members of an accepted list share no output, so they differ. -/
theorem Admissible.members_apart (h : Admissible members) :
    members.Pairwise fun left right => left.sortFiles ≠ right.sortFiles := by
  have hclear := List.pairwise_map.mp h.clear
  refine (List.pairwise_flatMap.mp hclear).2.imp_of_mem fun {left right} hleft _ hpair heq => ?_
  obtain ⟨-, hfiles, -⟩ := (validate_ok_iff left).mp (h.valid left hleft)
  obtain ⟨file, hfile⟩ := List.exists_mem_of_ne_nil _ hfiles
  have hsorted : file ∈ right.sortFiles.files :=
    heq ▸ (perm_sortFiles left).mem_iff.mpr hfile
  have hright : file ∈ right.files := (perm_sortFiles right).mem_iff.mp hsorted
  have hsortedDestination : left.sortFiles.destination = right.sortFiles.destination :=
    congrArg ResolvedBundleMember.destination heq
  have hdestination : left.destination = right.destination := hsortedDestination
  have hmeet := hpair _ (List.mem_map_of_mem hfile) _ (List.mem_map_of_mem hright)
  rw [hdestination] at hmeet
  exact hmeet.1 rfl

/-- A list whose reverse has the same canonical form has no two members that tie. -/
theorem sortKey_ne_of_reverse (h : Admissible members)
    (hsame : canonical members = canonical members.reverse) :
    members.Pairwise fun left right => left.sortKey ≠ right.sortKey := by
  have hclass : ∀ k, (members.filter fun member => member.sortKey = k).length ≤ 1 := by
    intro k
    have hfilter : ∀ members : List ResolvedBundleMember,
        (canonical members).filter (fun member => member.sortKey = k) =
          (members.filter fun member => member.sortKey = k).map
            ResolvedBundleMember.sortFiles := by
      intro members
      have hkey := StableSort.filter_key_insertionSort ResolvedBundleMember.sortKey k
        (members.map ResolvedBundleMember.sortFiles)
      rw [List.filter_map] at hkey
      convert hkey using 2
      · funext member
        exact decide_eq_decide.mpr Iff.rfl
      · rfl
      · congr 1
        funext member
        exact decide_eq_decide.mpr Iff.rfl
    have hpalindrome := (hfilter members).symm.trans ((congrArg _ hsame).trans (hfilter _))
    rw [List.filter_reverse, List.map_reverse] at hpalindrome
    have hapart := (h.members_apart.filter fun member => member.sortKey = k)
    generalize members.filter (fun member => member.sortKey = k) = tied at hpalindrome hapart
    cases tied with
    | nil => exact Nat.zero_le 1
    | cons first rest =>
        cases hrest : rest with
        | nil => exact Nat.le_refl 1
        | cons second others =>
            -- The last of the tied members would be the first one again.
            have hne : rest ≠ [] := hrest ▸ List.cons_ne_nil second others
            have hlast := congrArg List.head? hpalindrome
            rw [List.map_cons, List.head?_cons, List.head?_reverse,
              List.getLast?_cons, List.getLast?_map,
              List.getLast?_eq_getLast_of_ne_nil hne] at hlast
            have hends : first.sortFiles = (rest.getLast hne).sortFiles := by
              simpa using hlast
            exact absurd hends (List.rel_of_pairwise_cons hapart (List.getLast_mem hne))
  clear hsame h
  induction members with
  | nil => exact List.Pairwise.nil
  | cons first rest ih =>
      refine List.pairwise_cons.mpr ⟨fun other hother hkey => ?_, ih fun k => ?_⟩
      · have hshort := hclass first.sortKey
        rw [List.filter_cons_of_pos (by simp), List.length_cons] at hshort
        have hmem : other ∈ rest.filter fun member => member.sortKey = first.sortKey :=
          List.mem_filter.mpr ⟨hother, decide_eq_true hkey.symm⟩
        have hpos := List.length_pos_of_mem hmem
        omega
      · refine le_trans ?_ (hclass k)
        exact ((List.sublist_cons_self first rest).filter _).length_le

end Members

section Fixed

theorem sortFiles_sortFiles (member : ResolvedBundleMember) :
    member.sortFiles.sortFiles = member.sortFiles := by
  have : Std.Total fun left right : ArtifactFile => left.key ≤ right.key :=
    ⟨fun left right => le_total left.key right.key⟩
  have : IsTrans ArtifactFile fun left right => left.key ≤ right.key := ⟨fun _ _ _ => le_trans⟩
  unfold ResolvedBundleMember.sortFiles
  dsimp only
  rw [(List.pairwise_insertionSort (fun left right : ArtifactFile => left.key ≤ right.key)
    member.files).insertionSort_eq]

theorem sorted_canonical (members : List ResolvedBundleMember) :
    (canonical members).Pairwise fun left right => left.sortKey ≤ right.sortKey := by
  have : Std.Total fun left right : ResolvedBundleMember => left.sortKey ≤ right.sortKey :=
    ⟨fun left right => le_total left.sortKey right.sortKey⟩
  have : IsTrans ResolvedBundleMember fun left right => left.sortKey ≤ right.sortKey :=
    ⟨fun _ _ _ => le_trans⟩
  exact List.pairwise_insertionSort
    (fun left right : ResolvedBundleMember => left.sortKey ≤ right.sortKey) _

/-- Sorted members with sorted files are canonical. -/
theorem canonical_of_sorted (hfiles : ∀ member ∈ members, member.sortFiles = member)
    (hsorted : members.Pairwise fun left right => left.sortKey ≤ right.sortKey) :
    canonical members = members := by
  have hmap : members.map ResolvedBundleMember.sortFiles = members :=
    (List.map_congr_left hfiles).trans (List.map_id' members)
  rw [canonical, hmap]
  exact hsorted.insertionSort_eq

theorem sortFiles_of_mem_canonical (hmem : member ∈ canonical members) :
    member.sortFiles = member := by
  obtain ⟨before, -, rfl⟩ := List.mem_map.mp ((canonical_perm members).mem_iff.mp hmem)
  exact sortFiles_sortFiles before

theorem Admissible.canonical (h : Admissible members) : Admissible (canonical members) := by
  refine h.of_perm (fun member hmem => ?_) (countP_canonical members) (outputsOf_canonical members)
  obtain ⟨before, hbefore, rfl⟩ := List.mem_map.mp ((canonical_perm members).mem_iff.mp hmem)
  exact (validate_sortFiles before).mpr (h.valid before hbefore)

theorem outputs_eraseDigests (member : ResolvedBundleMember) :
    member.eraseDigests.outputs = member.outputs := by
  unfold ResolvedBundleMember.outputs ResolvedBundleMember.eraseDigests
  rw [List.map_map]
  rfl

theorem ArtifactFile.validate_erased {file : ArtifactFile} (h : file.validate = .ok ()) :
    ({ file with sha256 := none } : ArtifactFile).validate = .ok () := by
  obtain ⟨⟨⟩, hpath, -⟩ := Fallible.bind_eq_ok.mp h
  exact Fallible.bind_eq_ok.mpr ⟨(), hpath, rfl⟩

theorem validate_eraseDigests (h : member.validate = .ok ()) :
    member.eraseDigests.validate = .ok () := by
  obtain ⟨hhead, hfiles, hall⟩ := (validate_ok_iff member).mp h
  refine (validate_ok_iff member.eraseDigests).mpr ⟨hhead, mt List.map_eq_nil_iff.mp hfiles, ?_⟩
  intro file hfile
  obtain ⟨before, hbefore, rfl⟩ := List.mem_map.mp hfile
  exact ArtifactFile.validate_erased (hall before hbefore)

theorem Admissible.eraseDigests (h : Admissible members) :
    Admissible (members.map ResolvedBundleMember.eraseDigests) := by
  refine h.of_perm ?_ (@countP_map_of_role ResolvedBundleMember.eraseDigests (fun _ => rfl) members)
    (outputsOf_perm_map (fun member => by rw [outputs_eraseDigests]) members)
  intro member hmem
  obtain ⟨before, hbefore, rfl⟩ := List.mem_map.mp hmem
  exact validate_eraseDigests (h.valid before hbefore)

/-- Files in the order of different paths stay in order without their digests. -/
theorem sortFiles_eraseDigests (hsorted : member.sortFiles = member)
    (hpaths : member.files.Pairwise fun left right => left.relativePath ≠ right.relativePath) :
    member.eraseDigests.sortFiles = member.eraseDigests := by
  have : Std.Total fun left right : ArtifactFile => left.key ≤ right.key :=
    ⟨fun left right => le_total left.key right.key⟩
  have : IsTrans ArtifactFile fun left right => left.key ≤ right.key := ⟨fun _ _ _ => le_trans⟩
  have hfiles : member.files.Pairwise fun left right => left.key ≤ right.key := by
    have hpairs := List.pairwise_insertionSort
      (fun left right : ArtifactFile => left.key ≤ right.key) member.files
    rwa [show member.files.insertionSort _ = member.files from
      congrArg ResolvedBundleMember.files hsorted] at hpairs
  have herased : member.eraseDigests.files.Pairwise fun left right => left.key ≤ right.key := by
    refine List.pairwise_map.mpr ((hfiles.and hpaths).imp fun {left right} hpair => ?_)
    obtain ⟨hle, hne⟩ := hpair
    rcases Prod.Lex.le_iff.mp hle with hless | ⟨hpath, -⟩
    · exact Prod.Lex.le_iff.mpr (.inl hless)
    · exact absurd (Path.key_injective hpath) hne
  unfold ResolvedBundleMember.sortFiles
  rw [herased.insertionSort_eq]

end Fixed

/-- The closure of a list of members is a function of the set of them: no rearrangement is treated
otherwise, `new` gives what it gave back, with its digests or without, and no output meets another
or lies below it. -/
structure FunctionOfTheSet (members : List ResolvedBundleMember) : Prop where
  order : ∀ others, Rearranged members others →
    ((∃ error, ResolvedBundleClosure.new members = .error error) ∧
        ∃ error, ResolvedBundleClosure.new others = .error error) ∨
      ∃ closure, ResolvedBundleClosure.new members = .ok closure ∧
        ResolvedBundleClosure.new others = .ok closure
  fixed : ∀ closure, ResolvedBundleClosure.new members = .ok closure →
    ResolvedBundleClosure.new closure.members = .ok closure ∧
      ResolvedBundleClosure.new closure.eraseDigests.members = .ok closure.eraseDigests
  apart : ∀ closure, ResolvedBundleClosure.new members = .ok closure →
    (outputsOf closure.members).Pairwise fun left right =>
      left ≠ right ∧ ¬ left <+: right ∧ ¬ right <+: left

section Plans

theorem fixed_of_new (h : ResolvedBundleClosure.new members = .ok closure) :
    ResolvedBundleClosure.new closure.members = .ok closure ∧
      ResolvedBundleClosure.new closure.eraseDigests.members = .ok closure.eraseDigests := by
  obtain ⟨hadmissible, rfl⟩ := new_ok_iff.mp h
  have hcanonical := hadmissible.canonical
  constructor
  · refine new_ok_iff.mpr ⟨hcanonical, ?_⟩
    rw [canonical_of_sorted (fun member => sortFiles_of_mem_canonical) (sorted_canonical members)]
  · refine new_ok_iff.mpr ⟨hcanonical.eraseDigests, ?_⟩
    have hsorted : ((canonical members).map ResolvedBundleMember.eraseDigests).Pairwise
        fun left right => left.sortKey ≤ right.sortKey :=
      List.pairwise_map.mpr (sorted_canonical members)
    refine congrArg ResolvedBundleClosure.mk (canonical_of_sorted ?_ hsorted).symm
    intro member hmem
    obtain ⟨before, hbefore, rfl⟩ := List.mem_map.mp hmem
    exact sortFiles_eraseDigests (sortFiles_of_mem_canonical hbefore)
      (hcanonical.files_apart hbefore)

/-- A file goes somewhere. -/
theorem ne_nil_of_mem_outputsOf (h : Admissible members) {path : Path}
    (hpath : path ∈ outputsOf members) : path ≠ [] := by
  obtain ⟨member, hmember, hfiles⟩ := List.mem_flatMap.mp hpath
  obtain ⟨file, hfile, rfl⟩ := List.mem_map.mp hfiles
  obtain ⟨-, -, hall⟩ := (validate_ok_iff member).mp (h.valid member hmember)
  obtain ⟨⟨⟩, hconcrete, -⟩ := Fallible.bind_eq_ok.mp (hall file hfile)
  obtain ⟨⟨⟩, hrelative, -⟩ := Fallible.bind_eq_ok.mp hconcrete
  unfold validateRelativePath at hrelative
  split at hrelative
  · exact absurd hrelative nofun
  · rename_i hne
    rw [Path.join_of_normal _ (normal_of_validated hrelative)]
    exact fun hnil => hne (List.append_eq_nil_iff.mp hnil).2

theorem not_isPrefix_of_clear {left right : Path} (hleft : left ≠ [])
    (hclear : Clear left.text right.text) : left ≠ right ∧ ¬ left <+: right := by
  refine ⟨fun heq => hclear.1 (congrArg Path.text heq), ?_⟩
  rintro ⟨rest, rfl⟩
  by_cases hrest : rest = []
  · subst hrest
    exact hclear.1 (by rw [List.append_nil])
  · exact absurd (isAncestor_text hleft hrest) (Bool.eq_false_iff.mp hclear.2.1)

theorem apart_of_new (h : ResolvedBundleClosure.new members = .ok closure) :
    (outputsOf closure.members).Pairwise fun left right =>
      left ≠ right ∧ ¬ left <+: right ∧ ¬ right <+: left := by
  obtain ⟨hadmissible, rfl⟩ := new_ok_iff.mp h
  have hcanonical := hadmissible.canonical
  refine (List.pairwise_map.mp hcanonical.clear).imp_of_mem fun hleft hright hclear => ?_
  obtain ⟨hne, hbelow⟩ := not_isPrefix_of_clear (ne_nil_of_mem_outputsOf hcanonical hleft) hclear
  obtain ⟨-, habove⟩ :=
    not_isPrefix_of_clear (ne_nil_of_mem_outputsOf hcanonical hright) hclear.symm
  exact ⟨hne, hbelow, habove⟩

/-- The closure is a function of the set of members exactly when the list is refused in any order,
or no two of its members agree in where they go, their role and their component. -/
theorem functionOfTheSet_iff (members : List ResolvedBundleMember) :
    FunctionOfTheSet members ↔
      (Admissible members → members.Pairwise fun left right => left.sortKey ≠ right.sortKey) := by
  constructor
  · intro h hadmissible
    have hreverse : Rearranged members members.reverse := by
      refine ⟨members.reverse, (List.reverse_perm members).symm, ?_⟩
      exact List.forall₂_same.mpr fun member _ => ⟨member.files, List.Perm.refl _, rfl⟩
    rcases h.order _ hreverse with ⟨hrefused, -⟩ | ⟨closure, hnew, hagain⟩
    · exact absurd hadmissible (new_refused_iff.mp hrefused)
    · obtain ⟨-, rfl⟩ := new_ok_iff.mp hnew
      obtain ⟨-, hsame⟩ := new_ok_iff.mp hagain
      exact sortKey_ne_of_reverse hadmissible (congrArg ResolvedBundleClosure.members hsame)
  · intro hkeys
    refine ⟨fun others hothers => ?_, fun closure => fixed_of_new, fun closure => apart_of_new⟩
    by_cases hadmissible : Admissible members
    · have hsame : canonical members = canonical others :=
        StableSort.insertionSort_eq_of_perm ResolvedBundleMember.sortKey
          (hothers.map_sortFiles hadmissible) (List.pairwise_map.mpr (hkeys hadmissible))
      have hadmissible' := hothers.admissible_iff.mp hadmissible
      exact .inr ⟨_, new_ok_iff.mpr ⟨hadmissible, rfl⟩,
        new_ok_iff.mpr ⟨hadmissible', by rw [hsame]⟩⟩
    · have hrefused := mt hothers.admissible_iff.mpr hadmissible
      exact .inl ⟨new_refused_iff.mpr hadmissible, new_refused_iff.mpr hrefused⟩

end Plans

section Tie

def sampleIdentity (variant : String) : ArtifactIdentity where
  repository := "owner/model"
  revision := "0000000000000000000000000000000000000000"
  variant := variant
  fingerprint := "owner/model@0000000000000000000000000000000000000000:" ++ variant

def sampleMember (role : ArtifactMemberRole) (variant name : String) : ResolvedBundleMember where
  role := role
  componentId := some "style"
  source := sampleIdentity variant
  tier := none
  sourceSubpath := []
  destination := []
  files := [{ relativePath := [.normal name] }]

def basis : ResolvedBundleMember := sampleMember .primary "base" "model.safetensors"

def firstLora : ResolvedBundleMember := sampleMember .lora "first" "first.safetensors"

def secondLora : ResolvedBundleMember := sampleMember .lora "second" "second.safetensors"

/-- Two adapters of one component that go to one place stay in the order they came in. -/
theorem tied_adapters_keep_their_order :
    ResolvedBundleClosure.new [basis, firstLora, secondLora] =
        .ok ⟨[basis, firstLora, secondLora]⟩ ∧
      ResolvedBundleClosure.new [basis, secondLora, firstLora] =
        .ok ⟨[basis, secondLora, firstLora]⟩ ∧
      firstLora ≠ secondLora := by
  decide +kernel

end Tie

end SceneWorks.ModelArtifacts
