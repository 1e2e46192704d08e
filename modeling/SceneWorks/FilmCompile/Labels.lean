import SceneWorks.FilmCompile.Assets
import SceneWorks.FilmCompile.Conformance
import SceneWorks.Ids

/-!
The labels of the engine in a refined prompt. The structural checks keep `<` out of every text the
compiler repeats, and the refiner may not write a label, so that what is left are the labels of the
binding sentences. Of those checks only the ones about such texts are stated here: a document that
passes all of them passes these.
-/

namespace SceneWorks.FilmCompile

open Ids

section Findings

variable (printable : Char → Bool)

/-- The field and the message of what is wrong with a text that is repeated into a prompt. -/
def insertedProseFindings (field noun text : String) : List (String × String) :=
  (if text.toList.any fun c => c = '<' || c = '>' then
    [(field, noun ++ " " ++ Debug.string printable text ++ " must not contain '<' or '>': it is " ++
      "repeated into the dispatched prompt, where a marker like <Picture 1> would bind the " ++
      "model to media this shot never supplies")]
  else []) ++
  (if text.toList.any fun c => Text.isControl c && !(c = '\n' || c = '\r' || c = '\t') then
    [(field, noun ++ " " ++ Debug.string printable text ++ " must not contain control " ++
      "characters: it is repeated into the dispatched prompt verbatim apart from whitespace")]
  else [])

def shotAudioFindings (shot : Shot) : List PlanDiagnostic :=
  (insertedProseFindings printable "audio" "audio" shot.audio).map fun (field, message) =>
    .shot shot.id field message

def referenceProseFindings (field name text : String) : List PlanDiagnostic :=
  (insertedProseFindings printable (field ++ "." ++ name) name text).map fun (field, message) =>
    .plan field message

def referenceDescriptionFindings (field description : String) : List PlanDiagnostic :=
  referenceProseFindings printable field "description" description

def referenceLocatorFindings (field : String) (locator : Option String) : List PlanDiagnostic :=
  match locator with
  | some locator => referenceProseFindings printable field "locator" locator
  | none => []

def referenceRoleFindings (field : String) (entry : ReferenceEntry) : List PlanDiagnostic :=
  if isSafePlanId entry.role then []
  else [.plan (field ++ ".role")
    ("role " ++ Debug.string printable entry.role ++ " must be 1-64 characters of [A-Za-z0-9_-]")]

/-- What the structural checks of a plan say about the texts its prompts repeat. -/
def planTextFindings (plan : ProductionPlan) : List PlanDiagnostic :=
  plan.shots.flatMap (shotAudioFindings printable)

/-- The same for a reference pack. -/
def packTextFindings (pack : ReferencePack) : List PlanDiagnostic :=
  pack.references.zipIdx.flatMap fun (entry, index) =>
    let field := "referencePack.references[" ++ toString index ++ "]"
    referenceRoleFindings printable field entry ++
      referenceDescriptionFindings printable field entry.description ++
      referenceLocatorFindings printable field entry.rawLocator

variable {printable} {plan : ProductionPlan} {pack : ReferencePack} {shot : Shot}
  {entry : ReferenceEntry}

theorem notMem_of_insertedProseFindings {field noun text : String}
    (h : insertedProseFindings printable field noun text = []) : '<' ∉ text.toList := by
  intro hmem
  rw [insertedProseFindings, List.append_eq_nil_iff] at h
  have hany : (text.toList.any fun c => c = '<' || c = '>') = true :=
    List.any_eq_true.mpr ⟨'<', hmem, by decide⟩
  rw [if_pos hany] at h
  cases h.1

theorem notMem_audio (h : planTextFindings printable plan = []) (hshot : shot ∈ plan.shots) :
    '<' ∉ shot.audio.toList := by
  have hfindings := List.flatMap_eq_nil_iff.mp h shot hshot
  rw [shotAudioFindings, List.map_eq_nil_iff] at hfindings
  exact notMem_of_insertedProseFindings hfindings

/-- What a prompt repeats of an entry has no label in it. -/
structure Plain (entry : ReferenceEntry) : Prop where
  role : '<' ∉ entry.role.toList
  description : '<' ∉ entry.description.toList
  locator : ∀ locator, entry.locator = some locator → '<' ∉ locator.toList

theorem plain_of_packTextFindings (h : packTextFindings printable pack = [])
    (hentry : entry ∈ pack.references) : Plain entry := by
  obtain ⟨index, hindex⟩ := List.mem_iff_getElem?.mp hentry
  have hfindings := List.flatMap_eq_nil_iff.mp h (entry, index)
    (List.mem_zipIdx_iff_getElem?.mpr hindex)
  simp only [List.append_eq_nil_iff] at hfindings
  obtain ⟨⟨hrole, hdescription⟩, hlocator⟩ := hfindings
  refine ⟨?_, ?_, ?_⟩
  · rw [referenceRoleFindings] at hrole
    split at hrole
    · next hsafe => exact notMem_of_isSafePlanId hsafe (by decide)
    · cases hrole
  · rw [referenceDescriptionFindings, referenceProseFindings, List.map_eq_nil_iff] at hdescription
    exact notMem_of_insertedProseFindings hdescription
  · intro locator hsome
    rw [ReferenceEntry.locator, given] at hsome
    obtain ⟨raw, hraw, rfl⟩ := Option.map_eq_some_iff.mp (Option.filter_eq_some_iff.mp hsome).1
    rw [hraw, referenceLocatorFindings, referenceProseFindings, List.map_eq_nil_iff] at hlocator
    exact fun hmem => notMem_of_insertedProseFindings hlocator ((Text.trim_sublist raw).subset hmem)

end Findings

section Sources

variable {pack : ReferencePack} {roles : List String} {pictures : List ReferencePicture}
  {bound : BoundReferenceRole} {role : String}

/-- A bound role is one of the pack, with its entry, or one of the shot that the pack does not
have. -/
def Sourced (pack : ReferencePack) (roles : List String) (bound : BoundReferenceRole) : Prop :=
  (bound.entry = none ∧ bound.role ∈ roles ∧ pack.entry bound.role = none) ∨
    ∃ entry ∈ pack.references, bound.entry = some entry ∧ entry.role = bound.role

def AllSourced (pack : ReferencePack) (roles : List String) (pictures : List ReferencePicture) :
    Prop :=
  ∀ picture ∈ pictures, ∀ bound ∈ picture.roles, Sourced pack roles bound

theorem sourced_entry (h : role ∈ roles) : Sourced pack roles ⟨role, pack.entry role⟩ := by
  cases hentry : pack.entry role with
  | none => exact .inl ⟨rfl, h, hentry⟩
  | some entry => exact .inr ⟨entry, entry_mem hentry, rfl, entry_role hentry⟩

theorem AllSourced.pushRole (h : AllSourced pack roles pictures) (hbound : Sourced pack roles bound)
    (index : Nat) : AllSourced pack roles (pushRole pictures index bound) := by
  refine forall_mem_pushRole h ?_
  intro picture hpicture other hother
  rcases List.mem_append.mp hother with hold | hnew
  · exact h picture (List.mem_of_getElem? hpicture) other hold
  · rw [List.mem_singleton.mp hnew]
    exact hbound

theorem AllSourced.bindRole {state : Numbering} (h : AllSourced pack roles state.pictures)
    (hrole : role ∈ roles) : AllSourced pack roles (state.bindRole pack role).pictures := by
  rw [Numbering.bindRole]
  dsimp only
  split
  · exact h
  split
  · exact h.pushRole (sourced_entry hrole) _
  · intro picture hpicture
    rcases List.mem_append.mp hpicture with hold | hnew
    · exact h picture hold
    · intro bound hbound
      rw [List.mem_singleton.mp hnew] at hbound
      rw [List.mem_singleton.mp hbound]
      exact sourced_entry hrole

theorem allSourced_foldl {more : List String} {state : Numbering}
    (h : AllSourced pack roles state.pictures) (hmore : ∀ role ∈ more, role ∈ roles) :
    AllSourced pack roles (more.foldl (Numbering.bindRole pack) state).pictures := by
  induction more generalizing state with
  | nil => exact h
  | cons role more ih =>
      exact ih (h.bindRole (hmore role List.mem_cons_self))
        fun other hother => hmore other (List.mem_cons_of_mem _ hother)

theorem AllSourced.shareRole (h : AllSourced pack roles pictures) (role : String) :
    AllSourced pack roles (shareRole pack pictures role) := by
  rw [FilmCompile.shareRole]
  split
  · exact h
  split
  · exact h
  next entry hentry =>
  split
  · exact h
  split
  · exact h
  · exact h.pushRole
      (.inr ⟨entry, List.mem_of_find?_eq_some hentry, rfl, approvedEntry_role hentry⟩) _

theorem number_shareRole (role : String) :
    (shareRole pack pictures role).map ReferencePicture.number =
      pictures.map ReferencePicture.number := by
  rw [FilmCompile.shareRole]
  split
  · rfl
  split
  · rfl
  split
  · rfl
  split
  · rfl
  · exact map_pushRole fun picture _ => rfl

theorem allSourced_picturesWithSharedContinuity (shot : Shot) :
    AllSourced pack roles
      (picturesWithSharedContinuity pack shot (shotReferencePictures pack roles)) := by
  have hbase : AllSourced pack roles (shotReferencePictures pack roles) :=
    allSourced_foldl nofun fun _ hrole => hrole
  have hshared : ∀ (more : List String) (pictures : List ReferencePicture),
      AllSourced pack roles pictures →
        AllSourced pack roles (more.foldl (shareRole pack) pictures) := by
    intro more
    induction more with
    | nil => exact fun _ h => h
    | cons role more ih => exact fun _ h => ih _ (h.shareRole role)
  exact hshared _ _ hbase

theorem number_picturesWithSharedContinuity (shot : Shot) (pictures : List ReferencePicture) :
    (picturesWithSharedContinuity pack shot pictures).map ReferencePicture.number =
      pictures.map ReferencePicture.number := by
  rw [picturesWithSharedContinuity]
  induction shot.continuityRoles generalizing pictures with
  | nil => rfl
  | cons role more ih => rw [List.foldl_cons, ih, number_shareRole]

/-- The number in a binding sentence is that of a picture of the shot. -/
theorem number_bounds {picture : ReferencePicture} {shot : Shot}
    (h : picture ∈ picturesWithSharedContinuity pack shot (shotReferencePictures pack roles)) :
    1 ≤ picture.number.toNat ∧
      picture.number.toNat ≤ (shotReferencePictures pack roles).length := by
  obtain ⟨byFile, hnumbered⟩ := numbered_shotReferencePictures pack roles
  have hnumber := List.mem_map_of_mem (f := ReferencePicture.number) h
  rw [number_picturesWithSharedContinuity, hnumbered.numbers] at hnumber
  obtain ⟨i, hi, hnumber⟩ := List.mem_map.mp hnumber
  have hlt : i < (shotReferencePictures pack roles).length := List.mem_range.mp hi
  rw [← hnumber, pictureNumber]
  split
  · next hsmall =>
      rw [UInt32.toNat_ofNat_of_lt' hsmall]
      omega
  · next hlarge =>
      rw [UInt32.toNat_ofNat_of_lt' (by decide)]
      omega

end Sources

section Texts

/-- The label of a picture, as the compiler writes it. -/
def labelOf (n : Nat) : List Char := ("<Picture " ++ toString n ++ ">").toList

/-- Every `<` of the text opens the label of one of the first pictures. -/
def Labelled (count : Nat) (text : List Char) : Prop :=
  ∀ front rest, text = front ++ '<' :: rest →
    ∃ n, 1 ≤ n ∧ n ≤ count ∧ labelOf n <+: '<' :: rest

def Unlabelled (text : List Char) : Prop :=
  ∀ front rest, text = front ++ '<' :: rest → isLabelled rest = false

variable {count : Nat} {text more front rest : List Char}

/-- A character of two texts is one of the first or one of the second. -/
theorem append_eq_split {c : Char} (h : text ++ more = front ++ c :: rest) :
    (∃ after, text = front ++ c :: after ∧ rest = after ++ more) ∨
      ∃ before, front = text ++ before ∧ more = before ++ c :: rest := by
  rcases List.append_eq_append_iff.mp h with ⟨before, hfront, hmore⟩ | ⟨after, htext, hrest⟩
  · exact .inr ⟨before, hfront, hmore⟩
  · cases after with
    | nil => exact .inr ⟨[], by simpa using htext.symm, by simpa using hrest.symm⟩
    | cons d after =>
        obtain ⟨rfl, rfl⟩ := List.cons.inj hrest
        exact .inl ⟨after, htext, rfl⟩

theorem labelled_of_notMem (h : '<' ∉ text) : Labelled count text := by
  rintro front rest rfl
  exact absurd (by simp) h

theorem Labelled.append (h : Labelled count text) (hmore : Labelled count more) :
    Labelled count (text ++ more) := by
  intro front rest heq
  rcases append_eq_split heq with ⟨after, htext, rfl⟩ | ⟨before, -, hbefore⟩
  · obtain ⟨n, hone, hle, hlabel⟩ := h front after htext
    exact ⟨n, hone, hle, hlabel.trans (List.prefix_append ('<' :: after) more)⟩
  · exact hmore before rest hbefore

theorem labelled_labelOf {n : Nat} (hone : 1 ≤ n) (hle : n ≤ count) :
    Labelled count (labelOf n) := by
  intro front rest heq
  have hdigits : '<' ∉ Nat.toDigits 10 n := by
    intro hmem
    exact absurd (Nat.isDigit_of_mem_toDigits (by decide) (by decide) hmem) (by decide)
  have hlabel : labelOf n = '<' :: ("Picture ".toList ++ Nat.toDigits 10 n ++ ['>']) := by
    have htext : (toString n).toList = Nat.toDigits 10 n := by
      rw [Nat.toString_eq_ofList_toDigits, String.toList_ofList]
    rw [labelOf, String.toList_append, String.toList_append, htext]
    rfl
  cases front with
  | nil => exact ⟨n, hone, hle, by rw [heq]; exact List.prefix_rfl⟩
  | cons c front =>
      rw [hlabel] at heq
      have hmem : '<' ∈ "Picture ".toList ++ Nat.toDigits 10 n ++ ['>'] := by
        rw [(List.cons.inj heq).2]
        simp
      simp only [List.mem_append, hdigits, or_false] at hmem
      exact absurd hmem (by decide)

theorem labelled_intercalate {texts : List (List Char)} (h : ∀ text ∈ texts, Labelled count text) :
    Labelled count ([' '].intercalate texts) := by
  induction texts with
  | nil => exact labelled_of_notMem (by simp)
  | cons text texts ih =>
      have hrest := ih fun other hother => h other (List.mem_cons_of_mem _ hother)
      cases texts with
      | nil => simpa using h text List.mem_cons_self
      | cons next texts =>
          rw [List.intercalate_cons_cons]
          exact ((h text List.mem_cons_self).append (labelled_of_notMem (by decide))).append hrest

theorem notMem_intercalate {c : Char} {separator : List Char} {texts : List (List Char)}
    (hseparator : c ∉ separator) (h : ∀ text ∈ texts, c ∉ text) :
    c ∉ separator.intercalate texts := by
  induction texts with
  | nil => simp
  | cons text texts ih =>
      have hrest := ih fun other hother => h other (List.mem_cons_of_mem _ hother)
      cases texts with
      | nil => simpa using h text List.mem_cons_self
      | cons next texts =>
          rw [List.intercalate_cons_cons, List.mem_append, List.mem_append]
          rintro ((hmem | hmem) | hmem)
          · exact h text List.mem_cons_self hmem
          · exact hseparator hmem
          · exact hrest hmem

theorem notMem_normalizedDescription {description : String} (h : '<' ∉ description.toList) :
    '<' ∉ (normalizedDescription description).toList := by
  rw [normalizedDescription, String.toList_ofList]
  refine notMem_intercalate (by decide) ?_
  intro word hword hmem
  exact h (Text.mem_of_mem_splitWhitespace hword hmem).1

theorem notMem_rolePhrase {role : String} (h : '<' ∉ role.toList) :
    '<' ∉ (rolePhrase role).toList := by
  rw [rolePhrase, String.toList_ofList]
  intro hmem
  obtain ⟨c, hc, hsame⟩ := List.mem_map.mp hmem
  split at hsame
  · cases hsame
  · exact h (hsame ▸ hc)

theorem notMem_descriptionSentence {description sentence : String} (h : '<' ∉ description.toList)
    (hsentence : descriptionSentence description = some sentence) : '<' ∉ sentence.toList := by
  have hnormal := notMem_normalizedDescription h
  simp only [descriptionSentence] at hsentence
  split at hsentence
  · cases hsentence
  split at hsentence
  · obtain rfl := Option.some.inj hsentence
    exact hnormal
  · obtain rfl := Option.some.inj hsentence
    rw [String.toList_append, List.mem_append]
    rintro (hmem | hmem)
    · exact hnormal hmem
    · exact absurd hmem (by decide)

theorem notMem_bindingOpening {bound : BoundReferenceRole} (hrole : '<' ∉ bound.role.toList)
    (hplain : ∀ entry, bound.entry = some entry → Plain entry) :
    '<' ∉ (bindingOpening bound).toList := by
  have hphrase := notMem_rolePhrase hrole
  rw [bindingOpening]
  split
  · next locator hlocator =>
      obtain ⟨raw, hraw, rfl⟩ := Option.map_eq_some_iff.mp (Option.filter_eq_some_iff.mp hlocator).1
      obtain ⟨entry, hentry, hgiven⟩ := Option.bind_eq_some_iff.mp hraw
      have hwords := notMem_normalizedDescription ((hplain entry hentry).locator raw hgiven)
      simp [hphrase, hwords]
  · have hnoun : ∀ kind, '<' ∉ (boundReferenceNoun kind).toList := by
      intro kind
      rw [boundReferenceNoun]
      split
      · decide
      split
      · decide
      split <;> decide
    simp [hphrase, hnoun]

theorem notMem_bindingClose {bound : BoundReferenceRole}
    (hplain : ∀ entry, bound.entry = some entry → Plain entry) :
    '<' ∉ (bindingClose bound).toList := by
  rw [bindingClose]
  split
  · next description hdescription =>
      obtain ⟨entry, hentry, hsentence⟩ := Option.bind_eq_some_iff.mp hdescription
      have hwords := notMem_descriptionSentence (hplain entry hentry).description hsentence
      simp [hwords]
  · simp

end Texts

section Leading

variable {count : Nat} {pictures : List ReferencePicture}

/-- A text of the compiler: it opens with a capital and ends on something. -/
def Solid (text : String) : Prop := ∃ more, text = "T" ++ more ∧ Ends more

theorem Solid.trim {text : String} (h : Solid text) : Text.trim text = text := by
  obtain ⟨more, rfl, front, c, hmore, hblank⟩ := h
  exact Text.trim_append (by decide) (by decide) hmore hblank

theorem ends_intercalate {words : List (List Char)} (hne : words ≠ [])
    (h : ∀ word ∈ words, word ≠ [] ∧ ∀ c ∈ word, Text.isWhiteSpace c = false) :
    ∃ front c, [' '].intercalate words = front ++ [c] ∧ Text.isWhiteSpace c = false := by
  induction words with
  | nil => exact absurd rfl hne
  | cons word words ih =>
      cases words with
      | nil =>
          obtain ⟨hword, hblank⟩ := h word List.mem_cons_self
          refine ⟨word.dropLast, word.getLast hword, ?_, hblank _ (List.getLast_mem hword)⟩
          rw [List.intercalate_singleton, List.dropLast_append_getLast hword]
      | cons next words =>
          obtain ⟨front, c, hrest, hc⟩ :=
            ih (List.cons_ne_nil _ _) fun other hother => h other (List.mem_cons_of_mem _ hother)
          refine ⟨word ++ [' '] ++ front, c, ?_, hc⟩
          rw [List.intercalate_cons_cons, hrest]
          simp only [List.append_assoc]

theorem ends_normalizedDescription {description : String}
    (h : normalizedDescription description ≠ "") : Ends (normalizedDescription description) := by
  have hne : Text.splitWhitespace description ≠ [] := by
    intro hnil
    rw [normalizedDescription, hnil] at h
    exact h rfl
  have hwords : ∀ word ∈ Text.splitWhitespace description,
      word ≠ [] ∧ ∀ c ∈ word, Text.isWhiteSpace c = false := by
    intro word hword
    have hfilter := (List.mem_filter.mp hword).2
    exact ⟨by simpa using hfilter, fun c hc => (Text.mem_of_mem_splitWhitespace hword hc).2⟩
  obtain ⟨front, c, hchars, hc⟩ := ends_intercalate hne hwords
  exact ⟨front, c, by rw [normalizedDescription, String.toList_ofList, hchars], hc⟩

theorem ends_descriptionSentence {description sentence : String}
    (h : descriptionSentence description = some sentence) : Ends sentence := by
  simp only [descriptionSentence] at h
  split at h
  · cases h
  next hne =>
  split at h
  · obtain rfl := Option.some.inj h
    exact ends_normalizedDescription hne
  · obtain rfl := Option.some.inj h
    exact ⟨_, '.', by rw [String.toList_append]; rfl, by decide⟩

theorem solid_bindingSentence (picture : ReferencePicture) (bound : BoundReferenceRole) :
    Solid (bindingSentence picture bound).text := by
  have hopening : ∃ more, bindingOpening bound = "T" ++ more := by
    rw [bindingOpening]
    split
    · next locator _ =>
        exact ⟨"he " ++ rolePhrase bound.role ++ " is " ++ locator ++ " in ", by
          simp [← String.toList_inj]⟩
    · exact ⟨"he " ++ rolePhrase bound.role ++ " is the " ++
        boundReferenceNoun ((bound.entry.map ReferenceEntry.kind).getD "") ++ " shown in ", by
          simp [← String.toList_inj]⟩
  obtain ⟨more, hmore⟩ := hopening
  refine ⟨more ++ pictureLabel picture.number ++ "." ++ bindingClose bound, ?_, ?_⟩
  · simp [bindingSentence, hmore, String.append_assoc]
  · rw [bindingClose]
    split
    · next description hdescription =>
        obtain ⟨entry, -, hsentence⟩ := Option.bind_eq_some_iff.mp hdescription
        rw [← String.append_assoc]
        exact (ends_descriptionSentence hsentence).append _
    · exact ⟨(more ++ pictureLabel picture.number).toList, '.', by simp, by decide⟩

theorem solid_sentences {texts : List String} (hne : texts ≠ []) (h : ∀ text ∈ texts, Solid text) :
    Solid (sentences texts) := by
  induction texts with
  | nil => exact absurd rfl hne
  | cons text texts ih =>
      obtain ⟨more, rfl, hmore⟩ := h text List.mem_cons_self
      cases texts with
      | nil => exact ⟨more, by simp [sentences], hmore⟩
      | cons next texts =>
          obtain ⟨rest, hrest, hends⟩ :=
            ih (List.cons_ne_nil _ _) fun other hother => h other (List.mem_cons_of_mem _ hother)
          refine ⟨more ++ " " ++ "T" ++ rest, ?_, hends.append _⟩
          rw [sentences] at hrest ⊢
          rw [String.intercalate_cons_cons, hrest]
          simp only [String.append_assoc]

/-- The binding sentences hold no other labels than their own. -/
theorem labelled_bindingSentence {picture : ReferencePicture} {bound : BoundReferenceRole}
    (hone : 1 ≤ picture.number.toNat) (hle : picture.number.toNat ≤ count)
    (hrole : '<' ∉ bound.role.toList) (hplain : ∀ entry, bound.entry = some entry → Plain entry) :
    Labelled count (bindingSentence picture bound).text.toList := by
  have hopening := notMem_bindingOpening hrole hplain
  have hclose := notMem_bindingClose hplain
  simp only [bindingSentence, String.toList_append]
  refine (Labelled.append ((labelled_of_notMem hopening).append ?_) ?_).append
    (labelled_of_notMem hclose)
  · exact labelled_labelOf hone hle
  · exact labelled_of_notMem (by decide)

theorem referenceBindingText_spec {piece : InsertedText}
    (hpictures : ∀ picture ∈ pictures, 1 ≤ picture.number.toNat ∧ picture.number.toNat ≤ count)
    (hbound : ∀ picture ∈ pictures, ∀ bound ∈ picture.roles, '<' ∉ bound.role.toList ∧
      ∀ entry, bound.entry = some entry → Plain entry)
    (h : referenceBindingText pictures = some piece) :
    Text.trim piece.text = piece.text ∧ Labelled count piece.text.toList := by
  simp only [referenceBindingText] at h
  split at h
  · cases h
  next hne =>
  obtain rfl := Option.some.inj h
  have hall : ∀ text ∈ (bindingSentences pictures).map Binding.text,
      Solid text ∧ Labelled count text.toList := by
    intro text htext
    obtain ⟨binding, hbinding, rfl⟩ := List.mem_map.mp htext
    obtain ⟨picture, hpicture, hroles⟩ := List.mem_flatMap.mp hbinding
    obtain ⟨bound, hmem, rfl⟩ := List.mem_map.mp hroles
    obtain ⟨hone, hle⟩ := hpictures picture hpicture
    obtain ⟨hrole, hplain⟩ := hbound picture hpicture bound hmem
    exact ⟨solid_bindingSentence picture bound, labelled_bindingSentence hone hle hrole hplain⟩
  refine ⟨?_, ?_⟩
  · have hsome : (bindingSentences pictures).map Binding.text ≠ [] := by simpa using hne
    exact (solid_sentences hsome fun text htext => (hall text htext).1).trim
  · rw [sentences, String.toList_intercalate]
    refine labelled_intercalate ?_
    intro chars hchars
    obtain ⟨text, htext, rfl⟩ := List.mem_map.mp hchars
    exact (hall text htext).2

theorem notMem_continuityDescriptionText {shot : Shot} {pack : ReferencePack} {piece : InsertedText}
    (hpack : ∀ entry ∈ pack.references, Plain entry)
    (h : continuityDescriptionText shot pictures pack = some piece) :
    '<' ∉ piece.text.toList := by
  simp only [continuityDescriptionText] at h
  split at h
  · cases h
  obtain rfl := Option.some.inj h
  rw [sentences, String.toList_intercalate]
  refine notMem_intercalate (by decide) ?_
  intro chars hchars
  obtain ⟨text, htext, rfl⟩ := List.mem_map.mp hchars
  obtain ⟨⟨role, sentence⟩, hidentity, rfl⟩ := List.mem_map.mp htext
  obtain ⟨entry, hentry, hsentence⟩ := List.mem_filterMap.mp hidentity
  obtain ⟨other, hother, hpair⟩ := Option.map_eq_some_iff.mp hsentence
  obtain rfl := (Prod.mk.inj hpair).2
  obtain ⟨named, -, happroved⟩ := List.mem_filterMap.mp ((firstMentions_roles _ _).2 entry hentry).1
  have hmem : entry ∈ pack.references := List.mem_of_find?_eq_some happroved
  exact notMem_descriptionSentence (hpack entry hmem).description hother

end Leading

section Around

variable {inserted : List InsertedText} {middle : String} {text more front rest : List Char}

/-- A character at which the keyword of a label, and the blank before it, come to an end. -/
def Stop (c : Char) : Prop :=
  c ≠ '<' ∧ isAsciiWhitespace c = false ∧ ∀ label ∈ engineMediaLabels, c.toLower ∉ label.toList

instance (c : Char) : Decidable (Stop c) := inferInstanceAs (Decidable (_ ∧ _))

theorem stop_of_isTerminal {c : Char} (h : isTerminal c = true) : Stop c := by
  simp only [isTerminal, Bool.or_eq_true, decide_eq_true_eq] at h
  obtain ((rfl | rfl) | rfl) | rfl := h <;> decide

theorem stop_of_isClosing {c : Char} (h : isClosing c = true) : Stop c := by
  have hall : ∀ c ∈ ['"', '\'', ')', ']', '»', '”', '’'], Stop c := by decide
  exact hall c (List.contains_iff_mem.mp h)

/-- What follows a character that stops a label does not make one. -/
theorem isLabelled_append {c : Char} (hc : Stop c) (hmem : c ∈ text)
    (h : isLabelled text = false) : isLabelled (text ++ more) = false := by
  obtain ⟨-, hblank, hletters⟩ := hc
  have hkept : c ∈ text.dropWhile isAsciiWhitespace := by
    rw [← List.takeWhile_append_dropWhile (p := isAsciiWhitespace) (l := text),
      List.mem_append] at hmem
    refine hmem.resolve_left fun htaken => ?_
    rw [List.mem_takeWhile_imp htaken] at hblank
    cases hblank
  have hne : ¬ (text.dropWhile isAsciiWhitespace).isEmpty = true := by
    rw [List.isEmpty_iff]
    exact List.ne_nil_of_mem hkept
  rw [isLabelled, List.dropWhile_append, if_neg hne]
  simp only [isLabelled, List.any_eq_false, decide_eq_true_eq] at h ⊢
  intro label hlabel hhere
  by_cases hlong : label.length ≤ (text.dropWhile isAsciiWhitespace).length
  · rw [List.take_append_of_le_length hlong] at hhere
    exact h label hlabel hhere
  · -- the keyword would go on past the character that stops it
    rw [List.take_append, List.take_of_length_le (Nat.le_of_not_le hlong), List.map_append] at hhere
    refine hletters label hlabel ?_
    rw [← hhere]
    exact List.mem_append_left _ (List.mem_map_of_mem hkept)

theorem unlabelled_of_engineLabelAt (h : engineLabelAt text = none) : Unlabelled text := by
  rintro front rest rfl
  induction front with
  | nil =>
      rw [List.nil_append, engineLabelAt] at h
      split at h
      · cases h
      · next hlabel => simpa using hlabel
  | cons c front ih =>
      rw [List.cons_append, engineLabelAt] at h
      split at h
      · cases h
      · exact ih h

theorem Unlabelled.append (h : Unlabelled text)
    (hstop : more = [] ∨ ∃ before c, text = before ++ [c] ∧ Stop c) (hmore : '<' ∉ more) :
    Unlabelled (text ++ more) := by
  intro front rest heq
  rcases append_eq_split heq with ⟨after, htext, rfl⟩ | ⟨before, -, hbefore⟩
  · rcases hstop with rfl | ⟨before, c, hend, hc⟩
    · rw [List.append_nil]
      exact h front after htext
    · have hlast : ('<' :: after).getLast? = some c := by
        have hsame := congrArg List.getLast? (htext.symm.trans hend)
        simpa using hsame
      have hmem : c ∈ after :=
        (List.mem_cons.mp (List.mem_of_getLast? hlast)).resolve_left hc.1
      exact isLabelled_append hc hmem (h front after htext)
  · exact absurd (by rw [hbefore]; simp) hmore

theorem unlabelled_append_of_notMem (htext : '<' ∉ text) (h : Unlabelled more) :
    Unlabelled (text ++ more) := by
  intro front rest heq
  rcases append_eq_split heq with ⟨after, hfront, -⟩ | ⟨before, -, hbefore⟩
  · exact absurd (by rw [hfront]; simp) htext
  · exact h before rest hbefore

theorem notMem_trim {value : String} (h : '<' ∉ value.toList) : '<' ∉ (Text.trim value).toList :=
  fun hmem => h ((Text.trim_sublist value).subset hmem)

theorem notMem_pushFixed {fixed : String} {piece : InsertedText} (hfixed : '<' ∉ fixed.toList)
    (hpiece : '<' ∉ piece.text.toList) : '<' ∉ (pushFixed fixed piece).toList := by
  have htrim := notMem_trim hpiece
  rw [pushFixed]
  split <;> simp [hfixed, htrim]

theorem notMem_fixedText {pieces : List InsertedText}
    (h : ∀ piece ∈ pieces, '<' ∉ piece.text.toList) : '<' ∉ (fixedText pieces).toList := by
  cases pieces with
  | nil => simp [fixedText]
  | cons piece pieces =>
      have hfold : ∀ (pieces : List InsertedText) (fixed : String),
          (∀ piece ∈ pieces, '<' ∉ piece.text.toList) → '<' ∉ fixed.toList →
            '<' ∉ (pieces.foldl pushFixed fixed).toList := by
        intro pieces
        induction pieces with
        | nil => exact fun _ _ hfixed => hfixed
        | cons piece pieces ih =>
            intro fixed hpieces hfixed
            exact ih _ (fun other hother => hpieces other (List.mem_cons_of_mem _ hother))
              (notMem_pushFixed hfixed (hpieces piece List.mem_cons_self))
      have htrim := notMem_trim (h piece List.mem_cons_self)
      exact hfold pieces _ (fun other hother => h other (List.mem_cons_of_mem _ hother))
        (by simp [htrim])

/-- Where something follows the middle, it ends on what closes a sentence. -/
theorem endedMiddle_stop (hmiddle : Text.trim middle = middle) (hne : middle ≠ "")
    (htrailing : trailingPieces inserted ≠ []) :
    ∃ before c, (endedMiddle inserted middle).toList = before ++ [c] ∧ Stop c := by
  by_cases h : endsSentence (leadingText inserted ++ middle) = true
  · have hends : Ends middle := by
      have hblank : Text.trim middle ≠ "" := by rwa [hmiddle]
      have htrim := ends_trim hblank
      rwa [hmiddle] at htrim
    obtain ⟨before, c, hlist, hblank⟩ := hends
    rw [endedMiddle, h, Bool.or_true, if_pos rfl]
    refine ⟨before, c, hlist, ?_⟩
    have hreverse : (leadingText inserted ++ middle).toList.reverse.dropWhile Text.isWhiteSpace =
        c :: (before.reverse ++ (leadingText inserted).toList.reverse) := by
      simp [hlist, hblank]
    rw [endsSentence, hreverse, Bool.or_eq_true, Bool.and_eq_true] at h
    rcases h with hterminal | ⟨hclosing, -⟩
    · exact stop_of_isTerminal hterminal
    · exact stop_of_isClosing hclosing
  · have hsome : ¬ ((trailingPieces inserted).isEmpty ||
        endsSentence (leadingText inserted ++ middle)) = true := by
      simpa [h] using htrailing
    rw [endedMiddle, if_neg hsome]
    exact ⟨middle.toList, '.', by rw [String.toList_append]; rfl, by decide⟩

end Around

section Prompts

variable {printable : Char → Bool} {builtin : Builtin} {plan : ProductionPlan} {shot : Shot}
  {pack : ReferencePack} {inputs : CompileInputs} {fps : UInt32} {request : CompiledRequest}

theorem filter_toList {pieces : Option InsertedText} {p : InsertedText → Bool} {kept : Bool}
    (h : ∀ piece, pieces = some piece → p piece = kept) :
    pieces.toList.filter p = if kept then pieces.toList else [] := by
  cases pieces with
  | none => cases kept <;> rfl
  | some piece =>
      rw [Option.toList_some, List.filter_singleton, h piece rfl]
      cases kept <;> rfl

theorem referenceBindingText_kind {pictures : List ReferencePicture} {piece : InsertedText}
    (h : referenceBindingText pictures = some piece) : piece.kind = .referenceBinding := by
  simp only [referenceBindingText] at h
  split at h
  · cases h
  · obtain rfl := Option.some.inj h
    rfl

theorem continuityDescriptionText_kind {pictures : List ReferencePicture} {piece : InsertedText}
    (h : continuityDescriptionText shot pictures pack = some piece) :
    piece.kind = .continuityDescription := by
  simp only [continuityDescriptionText] at h
  split at h
  · cases h
  · obtain rfl := Option.some.inj h
    rfl

theorem audioText_eq_some {piece : InsertedText} (h : audioText shot = some piece) :
    piece = ⟨.audio, audioPromptPrefix ++ " " ++ normalizedDescription shot.audio⟩ := by
  simp only [audioText] at h
  split at h
  · cases h
  · exact (Option.some.inj h).symm

theorem noSpeechText_eq_some {piece : InsertedText} (h : noSpeechText shot = some piece) :
    piece = ⟨.noSpeech, noSpeechSentence⟩ := by
  obtain ⟨_, -, rfl⟩ := Option.map_eq_some_iff.mp h
  rfl

theorem leadingPieces_insertedTextForShot (pictures : List ReferencePicture) :
    leadingPieces (insertedTextForShot shot pictures pack) =
      (referenceBindingText (picturesWithSharedContinuity pack shot pictures)).toList ++
        (continuityDescriptionText shot (picturesWithSharedContinuity pack shot pictures)
          pack).toList := by
  simp only [leadingPieces, insertedTextForShot, List.filter_append]
  have hbinding : ∀ piece,
      referenceBindingText (picturesWithSharedContinuity pack shot pictures) = some piece →
        decide (piece.kind.placement = .leading) = true := by
    intro piece hpiece
    rw [referenceBindingText_kind hpiece]
    rfl
  have hidentity : ∀ piece, continuityDescriptionText shot
      (picturesWithSharedContinuity pack shot pictures) pack = some piece →
        decide (piece.kind.placement = .leading) = true := by
    intro piece hpiece
    rw [continuityDescriptionText_kind hpiece]
    rfl
  have haudio : ∀ piece, audioText shot = some piece →
      decide (piece.kind.placement = .leading) = false := by
    intro piece hpiece
    rw [audioText_eq_some hpiece]
    rfl
  have hspeech : ∀ piece, noSpeechText shot = some piece →
      decide (piece.kind.placement = .leading) = false := by
    intro piece hpiece
    rw [noSpeechText_eq_some hpiece]
    rfl
  rw [filter_toList hbinding, filter_toList hidentity, filter_toList haudio, filter_toList hspeech]
  simp

theorem notMem_trailing (haudio : '<' ∉ shot.audio.toList) (pictures : List ReferencePicture) :
    ∀ piece ∈ trailingPieces (insertedTextForShot shot pictures pack),
      '<' ∉ piece.text.toList := by
  intro piece hpiece
  simp only [trailingPieces, insertedTextForShot, List.mem_filter, List.mem_append,
    Option.mem_toList, decide_eq_true_eq] at hpiece
  obtain ⟨((hbinding | hidentity) | hsound) | hspeech, hplacement⟩ := hpiece
  · rw [referenceBindingText_kind hbinding] at hplacement
    cases hplacement
  · rw [continuityDescriptionText_kind hidentity] at hplacement
    cases hplacement
  · have hwords := notMem_normalizedDescription haudio
    rw [audioText_eq_some hsound]
    simp [audioPromptPrefix, hwords]
  · rw [noSpeechText_eq_some hspeech]
    decide

/-- The pieces that follow the binding sentences, as they stand before the prompt. -/
def identityText (shot : Shot) (pictures : List ReferencePicture) (pack : ReferencePack) : String :=
  String.join ((continuityDescriptionText shot pictures pack).toList.map fun piece =>
    Text.trim piece.text ++ " ")

theorem notMem_identityText (hpack : ∀ entry ∈ pack.references, Plain entry)
    (pictures : List ReferencePicture) : '<' ∉ (identityText shot pictures pack).toList := by
  rw [identityText]
  cases hpiece : continuityDescriptionText shot pictures pack with
  | none => simp
  | some piece =>
      have htrim := notMem_trim (notMem_continuityDescriptionText hpack hpiece)
      simp [htrim]

theorem plain_sharedContinuity (hpack : ∀ entry ∈ pack.references, Plain entry)
    (hroles : ∀ role ∈ shot.conditioning.referenceRoles, pack.entry role = none →
      '<' ∉ role.toList) :
    ∀ picture ∈ picturesWithSharedContinuity pack shot
      (shotReferencePictures pack shot.conditioning.referenceRoles), ∀ bound ∈ picture.roles,
        '<' ∉ bound.role.toList ∧ ∀ entry, bound.entry = some entry → Plain entry := by
  intro picture hpicture bound hmem
  rcases allSourced_picturesWithSharedContinuity shot picture hpicture bound hmem with
    ⟨hnone, hrole, hunknown⟩ | ⟨entry, hentry, hsome, hrole⟩
  · refine ⟨hroles bound.role hrole hunknown, ?_⟩
    intro entry hentry
    rw [hnone] at hentry
    cases hentry
  · refine ⟨hrole ▸ (hpack entry hentry).role, ?_⟩
    intro other hother
    rw [hsome] at hother
    exact Option.some.inj hother ▸ hpack entry hentry

/-- What leads a prompt is the binding sentences, and then nothing that has a label. -/
theorem leadingText_labels (hpack : ∀ entry ∈ pack.references, Plain entry)
    (hroles : ∀ role ∈ shot.conditioning.referenceRoles, pack.entry role = none →
      '<' ∉ role.toList) :
    ∃ bindings others, (leadingText (shotInsertedText pack shot)).toList = bindings ++ others ∧
      '<' ∉ others ∧
      Labelled (shotReferencePictures pack shot.conditioning.referenceRoles).length bindings ∧
      (bindings = [] ∨ ∃ piece ∈ shotInsertedText pack shot, piece.kind = .referenceBinding ∧
        bindings = piece.text.toList) := by
  let pictures := picturesWithSharedContinuity pack shot
    (shotReferencePictures pack shot.conditioning.referenceRoles)
  have hidentity : '<' ∉ (identityText shot pictures pack).toList :=
    notMem_identityText hpack pictures
  have hleading : leadingText (shotInsertedText pack shot) =
      String.join ((referenceBindingText pictures).toList.map fun piece =>
        Text.trim piece.text ++ " ") ++ identityText shot pictures pack := by
    rw [leadingText, shotInsertedText, leadingPieces_insertedTextForShot, List.map_append,
      String.join_append]
    rfl
  cases hbinding : referenceBindingText pictures with
  | none =>
      refine ⟨[], (identityText shot pictures pack).toList, ?_, hidentity,
        labelled_of_notMem (by simp), .inl rfl⟩
      rw [hleading, hbinding]
      simp
  | some piece =>
      obtain ⟨htrim, hlabelled⟩ := referenceBindingText_spec
        (fun picture hpicture => number_bounds hpicture) (plain_sharedContinuity hpack hroles)
        hbinding
      refine ⟨piece.text.toList, " ".toList ++ (identityText shot pictures pack).toList, ?_, ?_,
        hlabelled, .inr ⟨piece, ?_, referenceBindingText_kind hbinding, rfl⟩⟩
      · rw [hleading, hbinding]
        simp [htrim]
      · rw [List.mem_append]
        rintro (hmem | hmem)
        · exact absurd hmem (by decide)
        · exact hidentity hmem
      · have hpiece : piece ∈ (referenceBindingText pictures).toList :=
          Option.mem_toList.mpr hbinding
        simp only [shotInsertedText, insertedTextForShot, List.append_assoc]
        exact List.mem_append_left _ hpiece

/-- The labels of a refined prompt are those of its binding sentences, one of the pictures of the
shot each, where a role that the pack does not have brings none. -/
theorem refinedPrompt_labels (hplan : planTextFindings printable plan = [])
    (hpack : packTextFindings printable pack = []) (hshot : shot ∈ plan.shots)
    (hroles : ∀ role ∈ shot.conditioning.referenceRoles, pack.entry role = none → '<' ∉ role.toList)
    (h : compileShot printable builtin plan shot pack inputs fps = .ok request)
    (hrefined : request.promptSource = .refined) :
    ∀ front rest, request.prompt.toList = front ++ '<' :: rest → isLabelled rest = true →
      ∃ n, 1 ≤ n ∧ n ≤ (shotReferencePictures pack shot.conditioning.referenceRoles).length ∧
        ∃ piece ∈ request.insertedText, piece.kind = .referenceBinding ∧
          front ++ labelOf n <+: piece.text.toList ∧
            piece.text.toList <+: request.prompt.toList := by
  obtain ⟨placement, chosen, prompt, recipe, -, hchosen, hprompt, -, rfl⟩ := compileShot_eq_ok h
  rcases choosePrompt_eq_ok hchosen with rfl | ⟨-, -, htrim, hne, hlabel⟩
  · cases hrefined
  obtain ⟨rfl, -⟩ := composePrompt_eq_ok hprompt
  obtain ⟨bindings, others, hleading, hothers, hlabelled, hwhere⟩ :=
    leadingText_labels (fun entry hentry => plain_of_packTextFindings hpack hentry) hroles
  have hfixed : '<' ∉ (fixedText (trailingPieces (shotInsertedText pack shot))).toList :=
    notMem_fixedText (notMem_trailing (notMem_audio hplan hshot) _)
  have hlist : (applyInsertedText chosen.text (shotInsertedText pack shot)).toList =
      bindings ++ (others ++ ((endedMiddle (shotInsertedText pack shot) chosen.text).toList ++
        (fixedText (trailingPieces (shotInsertedText pack shot))).toList)) := by
    have hsolid : ∀ piece ∈ trailingPieces (shotInsertedText pack shot),
        Text.trim piece.text ≠ "" := trailing_ne_blank _ _ _
    rw [applyInsertedText_eq hsolid htrim hne, String.toList_append, String.toList_append, hleading]
    simp only [List.append_assoc]
  have hrest : Unlabelled (others ++
      ((endedMiddle (shotInsertedText pack shot) chosen.text).toList ++
        (fixedText (trailingPieces (shotInsertedText pack shot))).toList)) := by
    refine unlabelled_append_of_notMem hothers ?_
    refine (unlabelled_of_engineLabelAt (engineLabelAt_endedMiddle _ hlabel)).append ?_ hfixed
    by_cases hnone : trailingPieces (shotInsertedText pack shot) = []
    · exact .inl (by rw [hnone]; rfl)
    · exact .inr (endedMiddle_stop htrim hne hnone)
  intro front rest heq hfires
  rw [shotRequest] at heq ⊢
  dsimp only at heq ⊢
  rw [hlist] at heq
  rcases append_eq_split heq with ⟨after, hbinding, rfl⟩ | ⟨before, -, hbefore⟩
  · obtain ⟨n, hone, hle, hlabelHere⟩ := hlabelled front after hbinding
    refine ⟨n, hone, hle, ?_⟩
    rcases hwhere with rfl | ⟨piece, hpiece, hkind, rfl⟩
    · exact absurd hbinding (by simp)
    · refine ⟨piece, hpiece, hkind, ?_, ?_⟩
      · rw [hbinding]
        exact (List.prefix_append_right_inj front).mpr hlabelHere
      · rw [hlist]
        exact List.prefix_append _ _
  · rw [hrest before rest hbefore] at hfires
    cases hfires

/-- A silent shot with one reference. -/
def boundShot (role : String) : Shot :=
  { arrivalShot "A" with
    audio := ""
    dialogueClip := none
    conditioning := ⟨"reference_to_video", none, none, [role], none⟩ }

def boundPlan (role : String) : ProductionPlan :=
  { arrivalPlan "A" with shots := [boundShot role] }

def heroPack : ReferencePack :=
  ⟨2, "pack", 1, "", [⟨"hero", "prop", some "hero.png", none, none, "", true, false, none⟩], []⟩

def boundRequest (role : String) : Except (List PlanDiagnostic) CompiledRequest :=
  compileShot (fun _ => true) noBuiltin (boundPlan role) (boundShot role) heroPack
    (arrivalInputs (some "A man")) 24

theorem boundRequest_exists (role : String) {P : CompiledRequest → Prop} [DecidablePred P]
    (h : (boundRequest role).toOption.any (fun request => P request) = true) :
    ∃ request, boundRequest role = .ok request ∧ P request := by
  cases hrequest : boundRequest role with
  | error findings => simp [hrequest, Except.toOption] at h
  | ok request => exact ⟨request, rfl, by simpa [hrequest, Except.toOption] using h⟩

theorem refinedPrompt_labels_hero : ∃ request, boundRequest "hero" = .ok request ∧
    ∀ front rest, request.prompt.toList = front ++ '<' :: rest → isLabelled rest = true →
      ∃ n, 1 ≤ n ∧ n ≤ (shotReferencePictures heroPack ["hero"]).length ∧
        ∃ piece ∈ request.insertedText, piece.kind = .referenceBinding ∧
          front ++ labelOf n <+: piece.text.toList ∧
            piece.text.toList <+: request.prompt.toList := by
  obtain ⟨request, hrequest, hrefined⟩ := boundRequest_exists "hero"
    (P := fun request => request.promptSource = .refined) (by decide +kernel)
  have hplan : planTextFindings (fun _ => true) (boundPlan "hero") = [] := by decide
  have hpack : packTextFindings (fun _ => true) heroPack = [] := by decide
  exact ⟨request, hrequest, refinedPrompt_labels hplan hpack (List.mem_singleton_self _) (by decide)
    hrequest hrefined⟩

/-- A role that the pack does not have is written into its sentence as it is. -/
theorem undeclared_role_labels : ∃ request, boundRequest "<Picture 9>" = .ok request ∧
    planTextFindings (fun _ => true) (boundPlan "<Picture 9>") = [] ∧
    packTextFindings (fun _ => true) heroPack = [] ∧ request.promptSource = .refined ∧
    ∃ front rest, request.prompt.toList = front ++ '<' :: rest ∧ isLabelled rest = true ∧
      ∀ n, 1 ≤ n → n ≤ (shotReferencePictures heroPack ["<Picture 9>"]).length →
        ¬ labelOf n <+: '<' :: rest := by
  obtain ⟨request, hrequest, hrefined, hprompt⟩ := boundRequest_exists "<Picture 9>"
    (P := fun request => request.promptSource = .refined ∧
      request.prompt.toList = "The ".toList ++ '<' :: request.prompt.toList.drop 5 ∧
      isLabelled (request.prompt.toList.drop 5) = true ∧
      ¬ labelOf 1 <+: '<' :: request.prompt.toList.drop 5) (by decide +kernel)
  refine ⟨request, hrequest, by decide, by decide, hrefined, _, _, hprompt.1, hprompt.2.1, ?_⟩
  intro n hone hle
  have hcount : (shotReferencePictures heroPack ["<Picture 9>"]).length = 1 := by decide
  rw [hcount] at hle
  obtain rfl : n = 1 := by omega
  exact hprompt.2.2

end Prompts

end SceneWorks.FilmCompile
