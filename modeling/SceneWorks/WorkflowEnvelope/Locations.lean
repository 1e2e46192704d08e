import Mathlib.Data.List.Infix
import SceneWorks.WorkflowEnvelope.Shapes

/-!
Texts that name no location: what the characters of a text say about the path guard. Field
names, digests, repository ids and lists of numbers are all cleared by it.
-/

namespace SceneWorks.WorkflowEnvelope

section Characters

theorem toLower_eq_iff {c d : Char} (h : d.toNat < 65) : c.toLower = d ↔ c = d := by
  delta Char.toLower
  split
  case isFalse => rfl
  case isTrue hupper =>
    have hc : 65 ≤ c.val.toNat ∧ c.val.toNat ≤ 90 := by
      simp only [ge_iff_le, UInt32.le_iff_toNat_le] at hupper
      exact hupper
    have hd : d.val.toNat < 65 := h
    constructor
    · intro hlower
      have hval : (c.val + ('a'.val - 'A'.val)).toNat = d.val.toNat :=
        congrArg (fun c : Char => c.val.toNat) hlower
      have hgap : ('a'.val - 'A'.val).toNat = 32 := rfl
      rw [UInt32.toNat_add] at hval
      omega
    · intro hsame
      rw [hsame] at hc
      omega

theorem not_mem_asciiLower {value : String} {d : Char} (h : d.toNat < 65) (hd : d ∉ value.toList) :
    d ∉ (Text.asciiLower value).toList := by
  intro hmem
  rw [Text.asciiLower, String.toList_ofList] at hmem
  obtain ⟨c, hc, hlower⟩ := List.mem_map.mp hmem
  rw [(toLower_eq_iff h).mp hlower] at hc
  exact hd hc

/-- A text that contains another has all its characters. -/
theorem mem_of_containsText {needle value : String} (h : Text.containsText needle value = true)
    {c : Char} (hc : c ∈ needle.toList) : c ∈ value.toList := by
  rw [Text.containsText, List.any_eq_true] at h
  obtain ⟨tail, htail, hfront⟩ := h
  have hsuffix := (List.mem_tails tail value.toList).mp htail
  exact hsuffix.subset ((List.isPrefixOf_iff_prefix.mp hfront).subset hc)

theorem isDriveToken_eq_false {token : List Char} (h : ':' ∉ token) :
    isDriveToken token = false := by
  rw [isDriveToken.eq_def]
  split
  · exact absurd (List.mem_cons_of_mem _ List.mem_cons_self) h
  · rfl

theorem relativeTreeSegments_go_le (previous : Option Char) (chars : List Char) (length : Nat) :
    relativeTreeSegments.go previous chars length ≤ chars.count '/' + 1 := by
  induction chars generalizing previous length with
  | nil =>
      rw [relativeTreeSegments.go]
      split <;> simp
  | cons c rest ih =>
      rw [relativeTreeSegments.go]
      split
      case isTrue hslash =>
        have hc : c = '/' := by
          simp only [Bool.and_eq_true, decide_eq_true_eq] at hslash
          exact hslash.1.1
        have hrest := ih (some c) 0
        rw [hc, List.count_cons_self]
        rw [hc] at hrest
        split <;> omega
      case isFalse =>
        have hrest := ih (some c) (length + 1)
        have hcount := List.count_le_count_cons (a := '/') (b := c) (l := rest)
        omega

theorem percentDecodeSeparators_eq_self {chars : List Char} (h : '%' ∉ chars) :
    percentDecodeSeparators chars = chars := by
  induction chars with
  | nil => rfl
  | cons c rest ih =>
      have hc : c ≠ '%' := fun hc => h (hc ▸ List.mem_cons_self)
      have hrest := ih fun hrest => h (List.mem_cons_of_mem _ hrest)
      rw [percentDecodeSeparators.eq_def]
      split
      case h_1 hcons => exact absurd (List.cons.inj hcons).1 hc
      case h_2 hcons =>
        obtain ⟨rfl, rfl⟩ := List.cons.inj hcons
        rw [hrest]
      case h_3 hnil => cases hnil

end Characters

section Locations

theorem splitOn_of_not_mem {c : Char} {value : String} (h : c ∉ value.toList) :
    Text.splitOn c value = [value] := by
  rw [Text.splitOn, List.splitOn_eq_singleton h, List.map_singleton, String.ofList_toList]

/-- A text without a colon and a backslash is no location if its segments are not. -/
theorem looksLikeALocation_eq_false {value : String} (hcolon : ':' ∉ value.toList)
    (hslash : '\\' ∉ value.toList) (hroot : value.toList.head? ≠ some '/')
    (hhome : '~' ∉ value.toList ∨ '/' ∉ value.toList) (hup : ".." ∉ Text.splitOn '/' value)
    (hhere : (Text.splitOn '/' value).head? ≠ some "." ∨ '/' ∉ value.toList)
    (hcount : value.toList.count '/' ≤ 1) : looksLikeALocation value = false := by
  have hlower : ':' ∉ (Text.asciiLower value).toList := not_mem_asciiLower (by decide) hcolon
  have hfile : Text.containsText "file://" (Text.asciiLower value) = false := by
    by_contra hfile
    exact hlower (mem_of_containsText (Bool.eq_true_of_not_eq_false hfile) (by decide))
  have hdrive : (((Text.asciiLower value).toList.splitOnP
      fun c => !(Text.isAsciiAlphanumeric c) && c ≠ ':').any isDriveToken) = false := by
    rw [List.any_eq_false]
    intro token htoken
    rw [isDriveToken_eq_false fun hmem => hlower (Text.mem_of_mem_splitOnP htoken hmem).1]
    exact Bool.false_ne_true
  have htilde : (decide (value.toList.head? = some '~') && value.toList.contains '/') = false := by
    obtain hhome | hhome := hhome
    · have hhead : value.toList.head? ≠ some '~' := fun hhead => hhome (List.mem_of_head? hhead)
      simp [hhead]
    · simp [hhome]
  have hdot : (decide (1 < (Text.splitOn '/' value).length) &&
      decide ((Text.splitOn '/' value).head? = some ".")) = false := by
    obtain hhere | hhere := hhere
    · simp [hhere]
    · simp [splitOn_of_not_mem hhere]
  have htree : ¬ 3 ≤ relativeTreeSegments value := by
    have hle := relativeTreeSegments_go_le none value.toList 0
    rw [relativeTreeSegments]
    omega
  simp only [looksLikeALocation]
  rw [hfile, hdrive, htilde, hdot]
  simp [hslash, hroot, hup, htree]

theorem isPathShaped_eq_false {value : String}
    (hplace : looksLikeALocation (Text.trim value) = false)
    (hdecode : percentDecodeSeparators (Text.trim value).toList = (Text.trim value).toList) :
    isPathShaped value = false := by
  have hround : decodesToALocation percentDecodeRounds (Text.trim value) = false := by
    rw [percentDecodeRounds, decodesToALocation, hdecode, String.ofList_toList]
    exact if_pos rfl
  simp only [isPathShaped, hplace, hround, Bool.or_false, Bool.and_false]

/-- What separates the parts of a location. -/
def isSeparating (c : Char) : Bool := c = '/' || c = '\\' || c = ':'

theorem isPathShaped_of_not_separating {value : String}
    (h : ∀ c ∈ value.toList, isSeparating c = false) (hup : Text.trim value ≠ "..")
    (hdecode : percentDecodeSeparators (Text.trim value).toList = (Text.trim value).toList) :
    isPathShaped value = false := by
  have hnot : ∀ c, isSeparating c = true → c ∉ (Text.trim value).toList := by
    intro c hc hmem
    exact absurd ((h c ((Text.trim_sublist value).subset hmem)).symm.trans hc) Bool.false_ne_true
  have hslash : '/' ∉ (Text.trim value).toList := hnot '/' rfl
  refine isPathShaped_eq_false ?_ hdecode
  refine looksLikeALocation_eq_false (hnot ':' rfl) (hnot '\\' rfl)
    (fun hhead => hslash (List.mem_of_head? hhead)) (Or.inr hslash) ?_ (Or.inr hslash) ?_
  · rw [splitOn_of_not_mem hslash]
    exact fun hmem => hup (List.mem_singleton.mp hmem).symm
  · rw [List.count_eq_zero_of_not_mem hslash]
    exact Nat.zero_le 1

end Locations

section Guarded

/-- The fields that hold what the user typed. -/
def authoredFields : List String :=
  ["prompt", "negativePrompt", "promptBatch", "appearancePromptBatch", "desc"] ++ proseKeys

/-- No control character but newline and tab. -/
def IsPlain (text : String) : Prop :=
  ∀ c ∈ text.toList, Text.isControl c = true → c = '\n' ∨ c = '\t'

/-- A text under a field that a reader can show: plain and bounded, and, unless it was
authored, short and no location. -/
structure Guarded (field text : String) : Prop where
  plain : IsPlain text
  bounded : text.utf8ByteSize ≤ proseMaxBytes
  label : field ∉ authoredFields → isPathShaped text = false ∧ text.length ≤ labelMaxChars

theorem utf8ByteSize_ofList (chars : List Char) :
    (String.ofList chars).utf8ByteSize = (chars.map Char.utf8Size).sum := by
  induction chars with
  | nil => rfl
  | cons c rest ih =>
      have hcons : String.ofList (c :: rest) = String.singleton c ++ String.ofList rest := by simp
      rw [hcons, String.utf8ByteSize_append, ih, String.utf8ByteSize_singleton, List.map_cons,
        List.sum_cons]

theorem utf8ByteSize_eq_sum (text : String) :
    text.utf8ByteSize = (text.toList.map Char.utf8Size).sum := by
  rw [← utf8ByteSize_ofList, String.ofList_toList]

/-- A short text is a bounded one. -/
theorem utf8ByteSize_le_of_short {text : String} (h : text.length ≤ labelMaxChars) :
    text.utf8ByteSize ≤ proseMaxBytes := by
  have hsum : (text.toList.map Char.utf8Size).sum ≤ text.toList.length * 4 := by
    have hle := List.sum_le_card_nsmul (text.toList.map Char.utf8Size) 4 (by
      intro size hsize
      obtain ⟨c, -, rfl⟩ := List.mem_map.mp hsize
      exact utf8Size_le c)
    rw [List.length_map] at hle
    exact hle
  have hlabel : labelMaxChars * 4 ≤ proseMaxBytes := by decide
  rw [utf8ByteSize_eq_sum]
  rw [String.length_toList] at hsum
  omega

theorem guarded_of_short {field text : String} (hplain : IsPlain text)
    (hpath : isPathShaped text = false) (hshort : text.length ≤ labelMaxChars) :
    Guarded field text :=
  ⟨hplain, utf8ByteSize_le_of_short hshort, fun _ => ⟨hpath, hshort⟩⟩

theorem guarded_shareableLabel {field value label : String}
    (h : shareableLabel value = some label) : Guarded field label := by
  simp only [shareableLabel] at h
  split at h
  case isTrue => cases h
  case isFalse hkept =>
    obtain rfl := Option.some.inj h
    simp only [Bool.or_eq_true, decide_eq_true_eq, not_or, List.any_eq_true, not_exists, not_and,
      Bool.not_eq_true, not_lt] at hkept
    obtain ⟨⟨⟨-, hshort⟩, hcontrol⟩, hpath⟩ := hkept
    refine guarded_of_short ?_ hpath hshort
    intro c hc hbad
    exact absurd ((hcontrol c hc).symm.trans hbad) Bool.false_ne_true

theorem guarded_shareableProse {field : String} (h : field ∈ authoredFields) (value : String) :
    Guarded field (shareableProse value) := by
  have hsub := shareableProse_sublist value
  refine ⟨?_, ?_, fun hfield => absurd h hfield⟩
  · intro c hc hcontrol
    have hprose := (List.mem_filter.mp ((fitting_isPrefix _ _).subset (hsub.subset hc))).2
    simp only [isProse, hcontrol, Bool.true_or, Bool.not_true, Bool.or_false, Bool.or_eq_true,
      decide_eq_true_eq] at hprose
    exact hprose
  · rw [utf8ByteSize_eq_sum]
    exact ((hsub.map Char.utf8Size).sum_le_sum fun _ _ => Nat.zero_le _).trans (sum_fitting_le _ _)

/-- A character of the names the program gives its fields. -/
def isNameChar (c : Char) : Bool := Text.isAsciiAlphanumeric c || c = '_'

def isNameText (text : String) : Bool :=
  text.length ≤ labelMaxChars && text.toList.all isNameChar

theorem isNameChar_toNat {c : Char} (h : isNameChar c = true) :
    (48 ≤ c.toNat ∧ c.toNat ≤ 57) ∨ (65 ≤ c.toNat ∧ c.toNat ≤ 90) ∨ c.toNat = 95 ∨
      (97 ≤ c.toNat ∧ c.toNat ≤ 122) := by
  simp only [isNameChar, Text.isAsciiAlphanumeric, Text.isAsciiAlphabetic, Char.isDigit,
    Bool.or_eq_true, Bool.and_eq_true, decide_eq_true_eq] at h
  obtain ((⟨hlow, hhigh⟩ | ⟨hlow, hhigh⟩) | ⟨hlow, hhigh⟩) | rfl := h
  · exact Or.inr (Or.inr (Or.inr ⟨hlow, hhigh⟩))
  · exact Or.inr (Or.inl ⟨hlow, hhigh⟩)
  · exact Or.inl ⟨hlow, hhigh⟩
  · exact Or.inr (Or.inr (Or.inl rfl))

theorem guarded_of_name {field text : String} (h : isNameText text = true) :
    Guarded field text := by
  simp only [isNameText, Bool.and_eq_true, decide_eq_true_eq, List.all_eq_true] at h
  obtain ⟨hshort, hname⟩ := h
  have hchar : ∀ c ∈ text.toList, Text.isControl c = false ∧ isSeparating c = false ∧
      Text.isWhiteSpace c = false ∧ c ≠ '%' ∧ c ≠ '.' := by
    intro c hc
    have hnat := isNameChar_toNat (hname c hc)
    have hne : ∀ d : Char, c.toNat ≠ d.toNat → c ≠ d :=
      fun d hd hsame => hd (congrArg Char.toNat hsame)
    refine ⟨?_, ?_, ?_, hne '%' ?_, hne '.' ?_⟩
    · simp only [Text.isControl]
      simp
      omega
    · simp only [isSeparating, Bool.or_eq_false_iff, decide_eq_false_iff_not]
      refine ⟨⟨hne '/' ?_, hne '\\' ?_⟩, hne ':' ?_⟩ <;> simp <;> omega
    · simp [Text.isWhiteSpace]
      omega
    · simp
      omega
    · simp
      omega
  have htrim : Text.trim text = text := Text.trim_of_no_whiteSpace fun c hc => (hchar c hc).2.2.1
  refine guarded_of_short ?_ (isPathShaped_of_not_separating ?_ ?_ ?_) hshort
  · intro c hc hcontrol
    exact absurd ((hchar c hc).1.symm.trans hcontrol) Bool.false_ne_true
  · exact fun c hc => (hchar c hc).2.1
  · intro hup
    rw [htrim] at hup
    exact (hchar '.' (by rw [hup]; decide)).2.2.2.2 rfl
  · rw [htrim]
    exact percentDecodeSeparators_eq_self fun hmem => (hchar '%' hmem).2.2.2.1 rfl

theorem isNameChar_of_hex : ∀ c ∈ hexDigits, isNameChar c.toLower = true := by decide

theorem guarded_normalizeSha256 {field value digest : String}
    (h : normalizeSha256 value = some digest) : Guarded field digest := by
  simp only [normalizeSha256, Bool.and_eq_true, decide_eq_true_eq, List.all_eq_true] at h
  split at h
  case isFalse => cases h
  case isTrue hvalue =>
    obtain ⟨hlength, hhex⟩ := hvalue
    obtain rfl := Option.some.inj h
    have hsame : (Text.asciiLower (Text.trim value)).length = 64 := by
      rw [← hlength, Text.asciiLower, ← String.length_toList, String.toList_ofList, List.length_map,
        String.length_toList]
    apply guarded_of_name
    simp only [isNameText, Bool.and_eq_true, decide_eq_true_eq, List.all_eq_true]
    refine ⟨by rw [hsame]; decide, ?_⟩
    intro c hc
    rw [Text.asciiLower, String.toList_ofList] at hc
    obtain ⟨d, hd, rfl⟩ := List.mem_map.mp hc
    exact isNameChar_of_hex d (by simpa using hhex d hd)

theorem length_le_utf8ByteSize (text : String) : text.length ≤ text.utf8ByteSize := by
  rw [utf8ByteSize_eq_sum, ← String.length_toList]
  induction text.toList with
  | nil => exact Nat.le_refl 0
  | cons c rest ih =>
      have hpos := Char.utf8Size_pos c
      rw [List.length_cons, List.map_cons, List.sum_cons]
      omega

theorem guarded_isLowerSha256 {field digest : String} (h : isLowerSha256 digest = true) :
    Guarded field digest := by
  simp only [isLowerSha256, Bool.and_eq_true, decide_eq_true_eq, List.all_eq_true] at h
  apply guarded_of_name
  simp only [isNameText, Bool.and_eq_true, decide_eq_true_eq, List.all_eq_true]
  constructor
  · have hlength := length_le_utf8ByteSize digest
    have hmax : labelMaxChars = 200 := rfl
    omega
  · intro c hc
    have hdigit := h.2 c hc
    simp only [Bool.or_eq_true, Bool.and_eq_true, decide_eq_true_eq] at hdigit
    simp only [isNameChar, Text.isAsciiAlphanumeric, Text.isAsciiAlphabetic, Bool.or_eq_true,
      Bool.and_eq_true, decide_eq_true_eq]
    obtain hdigit | ⟨hlow, hhigh⟩ := hdigit
    · exact Or.inl (Or.inr hdigit)
    · exact Or.inl (Or.inl (Or.inl ⟨hlow, Char.le_trans hhigh (by decide)⟩))

section Repo

/-- A character of a text is the separator or stands in one of the parts. -/
theorem mem_part_of_mem {c d : Char} {l : List Char} (h : d ∈ l) (hd : d ≠ c) :
    ∃ part ∈ l.splitOn c, d ∈ part := by
  induction l with
  | nil => cases h
  | cons e l ih =>
      rw [List.splitOn_cons_eq_if_modifyHead]
      split
      case isTrue he =>
        obtain rfl | h := List.mem_cons.mp h
        · exact absurd (beq_iff_eq.mp he) hd
        · obtain ⟨part, hpart, hmem⟩ := ih h
          exact ⟨part, List.mem_cons_of_mem _ hpart, hmem⟩
      case isFalse =>
        obtain ⟨first, rest, hsplit⟩ := List.exists_cons_of_ne_nil (List.splitOn_ne_nil c l)
        rw [hsplit, List.modifyHead_cons]
        obtain rfl | h := List.mem_cons.mp h
        · exact ⟨d :: first, List.mem_cons_self, List.mem_cons_self⟩
        · obtain ⟨part, hpart, hmem⟩ := ih h
          rw [hsplit] at hpart
          obtain rfl | hpart := List.mem_cons.mp hpart
          · exact ⟨e :: part, List.mem_cons_self, List.mem_cons_of_mem _ hmem⟩
          · exact ⟨part, List.mem_cons_of_mem _ hpart, hmem⟩

theorem count_lt_length_splitOn (c : Char) (l : List Char) : l.count c < (l.splitOn c).length := by
  induction l with
  | nil => simp
  | cons e l ih =>
      rw [List.splitOn_cons_eq_if_modifyHead, List.count_cons]
      split
      · rw [List.length_cons]
        omega
      · rw [List.length_modifyHead]
        exact ih

/-- A character of a repository id but for its slash. -/
theorem isComponent_char {part : String} (h : HfRepoId.isComponent part = true) {c : Char}
    (hc : c ∈ part.toList) :
    Text.isControl c = false ∧ c ≠ ':' ∧ c ≠ '\\' ∧ c ≠ '%' ∧ c ≠ '~' := by
  simp only [HfRepoId.isComponent, Bool.and_eq_true, List.all_eq_true] at h
  have hchar := h.2 c hc
  simp only [Bool.or_eq_true, List.contains_cons, List.contains_nil, Bool.or_false,
    beq_iff_eq] at hchar
  obtain hname | hc | rfl | rfl := hchar
  · have hnat := isNameChar_toNat (c := c) (by simp [isNameChar, hname])
    have hne : ∀ d : Char, c.toNat ≠ d.toNat → c ≠ d :=
      fun d hd hsame => hd (congrArg Char.toNat hsame)
    refine ⟨?_, hne ':' ?_, hne '\\' ?_, hne '%' ?_, hne '~' ?_⟩
    · simp only [Text.isControl]
      simp
      omega
    all_goals
      simp
      omega
  · rw [hc]
    decide
  · decide
  · decide

theorem hfRepoId_some {value repo : String} (h : hfRepoId value = some repo) :
    HfRepoId.parse value = .ok repo ∧ repo.length ≤ labelMaxChars := by
  obtain ⟨hrepo, hlength⟩ := Option.filter_eq_some_iff.mp h
  refine ⟨?_, decide_eq_true_eq.mp hlength⟩
  cases hnamespaced : HfRepoId.namespaced value with
  | error message => simp [hnamespaced, Except.toOption] at hrepo
  | ok found =>
      obtain rfl : found = repo := by simpa [hnamespaced, Except.toOption] using hrepo
      obtain ⟨parsed, hparsed, hslash⟩ := Fallible.bind_eq_ok.mp hnamespaced
      split at hslash
      · rw [hparsed, Except.ok.inj hslash]
      · cases hslash

theorem guarded_hfRepoId {field value repo : String} (h : hfRepoId value = some repo) :
    Guarded field repo := by
  obtain ⟨hparse, hshort⟩ := hfRepoId_some h
  obtain ⟨hparts, hlength⟩ := HfRepoId.parse_parts hparse
  have htrim : Text.trim repo = repo := by
    rw [HfRepoId.parse_ok hparse, Text.trim_trim]
  have hchar : ∀ c ∈ repo.toList, c ≠ '/' →
      Text.isControl c = false ∧ c ≠ ':' ∧ c ≠ '\\' ∧ c ≠ '%' ∧ c ≠ '~' := by
    intro c hc hslash
    obtain ⟨part, hpart, hmem⟩ := mem_part_of_mem hc hslash
    refine isComponent_char (hparts (String.ofList part) (List.mem_map_of_mem hpart)) ?_
    rw [String.toList_ofList]
    exact hmem
  refine guarded_of_short ?_ (isPathShaped_eq_false ?_ ?_) hshort
  · intro c hc hcontrol
    by_cases hslash : c = '/'
    · rw [hslash] at hcontrol
      exact absurd hcontrol (by decide)
    · exact absurd ((hchar c hc hslash).1.symm.trans hcontrol) Bool.false_ne_true
  · rw [htrim]
    refine looksLikeALocation_eq_false ?_ ?_ ?_ (Or.inl ?_) ?_ (Or.inl ?_) ?_
    · exact fun hmem => (hchar _ hmem (by decide)).2.1 rfl
    · exact fun hmem => (hchar _ hmem (by decide)).2.2.1 rfl
    · intro hhead
      obtain ⟨rest, hrest⟩ := List.head?_eq_some_iff.mp hhead
      have hempty : HfRepoId.isComponent "" = true := by
        apply hparts
        rw [Text.splitOn, hrest, List.splitOn_cons_eq_if_modifyHead]
        exact List.mem_cons_self
      exact absurd hempty (by decide)
    · exact fun hmem => (hchar _ hmem (by decide)).2.2.2.2 rfl
    · exact fun hmem => absurd (hparts ".." hmem) (by decide)
    · exact fun hhead => absurd (hparts "." (List.mem_of_head? hhead)) (by decide)
    · have hcount := count_lt_length_splitOn '/' repo.toList
      rw [Text.splitOn, List.length_map] at hlength
      omega
  · rw [htrim]
    exact percentDecodeSeparators_eq_self fun hmem => (hchar _ hmem (by decide)).2.2.2.1 rfl

end Repo

end Guarded

end SceneWorks.WorkflowEnvelope
