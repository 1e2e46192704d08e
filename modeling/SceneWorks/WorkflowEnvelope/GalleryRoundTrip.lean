import SceneWorks.WorkflowEnvelope.Gallery
import SceneWorks.WorkflowEnvelope.RoundTrip

/-!
A gallery reads back the settings that were written, as long as no label on the line is
misread; and the lines before it split into the prompt with its tags and the negative prompt.
-/

namespace SceneWorks.WorkflowEnvelope

open JsonObject (get)

section Bare

/-- A text of visible ASCII characters other than the double quote. -/
def IsBare (text : List Char) : Prop := ∀ c ∈ text, 33 ≤ c.toNat ∧ c.toNat < 127 ∧ c ≠ '"'

theorem IsBare.append {a b : List Char} (ha : IsBare a) (hb : IsBare b) : IsBare (a ++ b) :=
  fun c hc => (List.mem_append.mp hc).elim (ha c) (hb c)

theorem IsBare.cons {c : Char} {text : List Char} (hc : 33 ≤ c.toNat ∧ c.toNat < 127 ∧ c ≠ '"')
    (h : IsBare text) : IsBare (c :: text) := fun x hx =>
  (List.mem_cons.mp hx).elim (fun heq => heq ▸ hc) (h x)

theorem isBare_of_digits {text : List Char} (h : ∀ c ∈ text, c.isDigit = true) : IsBare text := by
  intro c hc
  have hdigit := h c hc
  simp only [Char.isDigit, Bool.and_eq_true, decide_eq_true_eq] at hdigit
  obtain ⟨hlow, hhigh⟩ := hdigit
  have hlow' : 48 ≤ c.toNat := hlow
  have hhigh' : c.toNat ≤ 57 := hhigh
  refine ⟨by omega, by omega, ?_⟩
  rintro rfl
  exact absurd hlow' (by decide)

theorem isBare_toDigits (n : Nat) : IsBare (Nat.toDigits 10 n) :=
  isBare_of_digits (F64.toDigits_isDigit n)

theorem isBare_signed (negative : Bool) {text : List Char} (h : IsBare text) :
    IsBare (F64.signed? negative text) := by
  unfold F64.signed?
  split
  · exact IsBare.cons (by decide) h
  · exact h

theorem isBare_positional (fraction : Bool) (decimal : F64.Decimal) :
    IsBare (F64.positional fraction decimal) := by
  unfold F64.positional
  dsimp only
  split
  · refine (isBare_toDigits _).append ?_
    split
    · exact IsBare.cons (by decide) (IsBare.cons (by decide) fun c hc => absurd hc List.not_mem_nil)
    · exact fun c hc => absurd hc List.not_mem_nil
  · refine (isBare_toDigits _).append (IsBare.cons (by decide) ?_)
    exact isBare_of_digits (F64.padded_isDigit _ _)

theorem isBare_display (value : F64) : IsBare (F64.display value).toList := by
  have hword : ∀ text : List Char, (∀ c ∈ text, 33 ≤ c.toNat ∧ c.toNat < 127 ∧ c ≠ '"') →
      IsBare text := fun _ h => h
  rw [F64.display, String.toList_ofList]
  unfold F64.valueText
  split
  · exact hword _ (by decide)
  · exact isBare_signed _ (hword _ (by decide))
  · exact isBare_signed _ (isBare_positional _ _)

theorem isBare_formatNumber (value : F64) : IsBare (formatNumber value).toList := by
  unfold formatNumber
  split
  · split
    · rw [wholeText, String.toList_ofList]
      exact isBare_signed _ (isBare_toDigits _)
    · exact isBare_display value
  · exact isBare_display value

theorem isBare_intDigits (n : Int) : IsBare (F64.intDigits n) := by
  cases n with
  | ofNat n => exact isBare_toDigits n
  | negSucc n => exact IsBare.cons (by decide) (isBare_toDigits _)

theorem isWhiteSpace_of_visible {c : Char} (hlow : 33 ≤ c.toNat) (hhigh : c.toNat < 127) :
    Text.isWhiteSpace c = false := by
  unfold Text.isWhiteSpace
  dsimp only
  rw [decide_eq_false_iff_not]
  omega

theorem trimmed_of_bare {text : String} (h : IsBare text.toList) : Trimmed text :=
  Text.trim_of_no_whiteSpace fun c hc => isWhiteSpace_of_visible (h c hc).1 (h c hc).2.1

theorem misread_of_bare {text : List Char} (last : Bool) (h : IsBare text) :
    misread last text = false := by
  refine misread_of_no_quote last fun body heq => ?_
  rw [heq] at h
  exact (h '"' List.mem_cons_self).2.2 rfl

end Bare

section Tidy

/-- What the reduction leaves of the texts that the line is made of. -/
structure Tidy (share : WorkflowShare) : Prop where
  model : Trimmed share.model
  modelHash : ∀ digest ∈ share.modelHash, IsBare digest.toList
  name : Trimmed share.producer.name
  version : IsBare share.producer.version.toList
  negative : Trimmed share.negativePrompt

theorem trimmed_label {value label : String} (h : shareableLabel value = some label) :
    Trimmed label := by
  simp only [shareableLabel] at h
  split at h
  · cases h
  · rw [← Option.some.inj h]
    exact Text.trim_trim value

theorem trimmed_getD (value : Option String) (h : ∀ label ∈ value, Trimmed label) :
    Trimmed (value.getD "") := by
  cases value with
  | none => rfl
  | some label => exact h label rfl

theorem isBare_hash {value digest : String} (h : normalizeSha256 value = some digest) :
    IsBare digest.toList := by
  have hhex : ∀ c ∈ hexDigits, 33 ≤ c.toLower.toNat ∧ c.toLower.toNat < 127 ∧ c.toLower ≠ '"' := by
    decide
  simp only [normalizeSha256, Bool.and_eq_true, decide_eq_true_eq, List.all_eq_true] at h
  split at h
  case isFalse => cases h
  case isTrue hvalue =>
    rw [← Option.some.inj h, Text.asciiLower, String.toList_ofList]
    intro c hc
    obtain ⟨d, hd, rfl⟩ := List.mem_map.mp hc
    exact hhex d (by simpa using hvalue.2 d hd)

theorem mem_intercalate {c : Char} {separator : List Char} {parts : List (List Char)}
    (h : c ∈ separator.intercalate parts) : c ∈ separator ∨ ∃ part ∈ parts, c ∈ part := by
  induction parts with
  | nil => exact absurd h List.not_mem_nil
  | cons part parts ih =>
      cases parts with
      | nil => exact Or.inr ⟨part, List.mem_cons_self, by simpa [List.intercalate] using h⟩
      | cons next parts =>
          rw [List.intercalate_cons_cons, List.append_assoc, List.mem_append, List.mem_append] at h
          obtain h | h | h := h
          · exact Or.inr ⟨part, List.mem_cons_self, h⟩
          · exact Or.inl h
          · refine (ih h).imp id ?_
            rintro ⟨other, hother, hc⟩
            exact ⟨other, List.mem_cons_of_mem part hother, hc⟩

/-- A version is made of digits and dots. -/
theorem isBare_version {version : String} (h : isStrictSemver version = true) :
    IsBare version.toList := by
  have hparts := (Bool.and_eq_true_iff.mp h).2
  rw [Text.splitOn, List.all_map, List.all_eq_true] at hparts
  intro c hc
  have hjoin : ['.'].intercalate (version.toList.splitOn '.') = version.toList :=
    List.intercalate_splitOn '.'
  rw [← hjoin] at hc
  cases mem_intercalate hc with
  | inl hdot =>
      rw [List.mem_singleton.mp hdot]
      decide
  | inr hpart =>
      obtain ⟨part, hmem, hcPart⟩ := hpart
      have hsemver := hparts part hmem
      rw [Function.comp_apply, isSemverPart, String.toList_ofList] at hsemver
      simp only [Bool.and_eq_true, List.all_eq_true] at hsemver
      exact isBare_of_digits hsemver.1.2 c hcPart

theorem trimmed_shareableLabel (value : String) : Trimmed ((shareableLabel value).getD "") :=
  trimmed_getD _ fun _ h => trimmed_label h

theorem tidy_reduce (moss : MossCore) (serde : Serde) (share : WorkflowShare) :
    Tidy (reduceWorkflowShare moss serde share) where
  model := by
    dsimp only [reduceWorkflowShare]
    exact trimmed_shareableLabel share.model
  modelHash digest hdigest := by
    obtain ⟨value, -, hvalue⟩ := Option.bind_eq_some_iff.mp hdigest
    exact isBare_hash hvalue
  name := by
    dsimp only [reduceWorkflowShare, reduceProducer]
    exact trimmed_shareableLabel share.producer.name
  version := by
    dsimp only [reduceWorkflowShare, reduceProducer]
    cases hversion : (shareableLabel share.producer.version).filter isStrictSemver with
    | none => exact fun c hc => absurd hc List.not_mem_nil
    | some version => exact isBare_version (Option.filter_eq_some_iff.mp hversion).2
  negative := Text.trim_trim _

end Tidy

section Fields

variable {share : WorkflowShare} {encoded : UInt32 × UInt32}

/-- The fields that have a value. -/
def pairsOf (fields : List (String × Option String)) : List (String × String) :=
  fields.filterMap fun field => field.2.map fun value => (field.1, value)

theorem legible_cons (key : String) (value : Option String)
    (fields : List (String × Option String)) :
    Legible (pairsOf ((key, value) :: fields)) ↔
      (∀ text ∈ value, misread (pairsOf fields).isEmpty text.toList = false) ∧
        Legible (pairsOf fields) := by
  cases value with
  | none => simp [pairsOf]
  | some text => simp [pairsOf, Legible]

theorem mem_nonempty {text value : String} : value ∈ nonempty text ↔ value = text ∧ text ≠ "" := by
  unfold nonempty
  split
  · next hempty => simp [hempty]
  · next hne => simp [hne, eq_comm]

theorem hasSeparator_loraHashes (h : loraHashes share ≠ "") :
    hasSeparator (loraHashes share).toList = true := by
  have hentry : ∀ entry ∈ share.loras.filterMap loraHash, ':' ∈ entry.toList := by
    intro entry hentry
    obtain ⟨lora, -, hlora⟩ := List.mem_filterMap.mp hentry
    simp only [loraHash, Option.bind_eq_bind, Option.bind_eq_some_iff, Option.some.injEq] at hlora
    obtain ⟨name, -, digest, -, rfl⟩ := hlora
    simp
  have hmem : ':' ∈ (loraHashes share).toList := by
    unfold loraHashes at h ⊢
    rw [String.toList_ofList]
    cases hentries : share.loras.filterMap loraHash with
    | nil => exact absurd (by rw [hentries]; rfl) h
    | cons entry entries =>
        have hcolon := hentry entry (hentries ▸ List.mem_cons_self)
        cases entries with
        | nil => simpa [List.intercalate] using hcolon
        | cons next entries =>
            rw [List.map_cons, List.map_cons, List.intercalate_cons_cons, List.append_assoc]
            exact List.mem_append_left _ hcolon
  simp [hasSeparator, hmem]

/-- A value that is read back wherever it stands. -/
def Plain (text : String) : Prop :=
  (Trimmed text ∨ hasSeparator text.toList = true) ∧ ∀ last, misread last text.toList = false

theorem plain_of_bare {text : String} (h : IsBare text.toList) : Plain text :=
  ⟨Or.inl (trimmed_of_bare h), fun last => misread_of_bare last h⟩

theorem plain_of_separator {text : String} (h : hasSeparator text.toList = true) : Plain text :=
  ⟨Or.inr h, fun last => misread_of_separator last h⟩

/-- The fields other than the three labels. -/
structure PlainFields (share : WorkflowShare) (encoded : UInt32 × UInt32) : Prop where
  steps : ∀ text ∈ ((exactSteps share).filter (1 ≤ ·)).map fun steps =>
    String.ofList (Nat.toDigits 10 steps), Plain text
  cfg : ∀ text ∈ (cfgScale share).map formatNumber, Plain text
  seed : ∀ text ∈ share.seed.map fun seed => String.ofList (F64.intDigits seed.toInt), Plain text
  size : Plain (String.ofList (Nat.toDigits 10 encoded.1.toNat ++
    'x' :: Nat.toDigits 10 encoded.2.toNat))
  hash : ∀ text ∈ (if share.model = "" then none else share.modelHash), Plain text
  loras : ∀ text ∈ nonempty (loraHashes share), Plain text
  version : ∀ text ∈ nonempty share.producer.version, Plain text

theorem Tidy.plainFields (h : Tidy share) (encoded : UInt32 × UInt32) :
    PlainFields share encoded where
  steps text htext := by
    obtain ⟨steps, -, rfl⟩ := Option.map_eq_some_iff.mp htext
    exact plain_of_bare (by rw [String.toList_ofList]; exact isBare_toDigits steps)
  cfg text htext := by
    obtain ⟨scale, -, rfl⟩ := Option.map_eq_some_iff.mp htext
    exact plain_of_bare (isBare_formatNumber scale)
  seed text htext := by
    obtain ⟨seed, -, rfl⟩ := Option.map_eq_some_iff.mp htext
    exact plain_of_bare (by rw [String.toList_ofList]; exact isBare_intDigits _)
  size := by
    refine plain_of_bare ?_
    rw [String.toList_ofList]
    exact (isBare_toDigits _).append (IsBare.cons (by decide) (isBare_toDigits _))
  hash text htext := by
    split at htext
    · cases htext
    · exact plain_of_bare (h.modelHash text htext)
  loras text htext := by
    obtain ⟨rfl, hne⟩ := mem_nonempty.mp htext
    exact plain_of_separator (hasSeparator_loraHashes hne)
  version text htext := by
    obtain ⟨rfl, -⟩ := mem_nonempty.mp htext
    exact plain_of_bare h.version

/-- Nothing on the line comes after the model. -/
def modelIsLast (share : WorkflowShare) : Bool :=
  share.modelHash.isNone && loraHashes share = "" && share.producer.version = "" &&
    share.producer.name = ""

/-- The labels of the envelope, none of which is misread. -/
structure LabelsLegible (share : WorkflowShare) : Prop where
  sampler : ∀ sampler ∈ samplerLabel share, misread false sampler.toList = false
  model : misread (modelIsLast share) share.model.toList = false
  software : misread true share.producer.name.toList = false

theorem pushed_settingsPairs (h : Tidy share) : Pushed (settingsPairs share encoded) := by
  have hplain := h.plainFields encoded
  have hfield : ∀ field ∈ settingsFields share encoded, IsKey field.1 ∧
      ∀ text ∈ field.2, Trimmed text ∨ hasSeparator text.toList = true := by
    simp only [settingsFields, List.forall_mem_cons]
    refine ⟨⟨by decide, fun text ht => (hplain.steps text ht).1⟩, ⟨by decide, ?_⟩,
      ⟨by decide, fun text ht => (hplain.cfg text ht).1⟩,
      ⟨by decide, fun text ht => (hplain.seed text ht).1⟩, ⟨by decide, ?_⟩, ⟨by decide, ?_⟩,
      ⟨by decide, fun text ht => (hplain.hash text ht).1⟩,
      ⟨by decide, fun text ht => (hplain.loras text ht).1⟩,
      ⟨by decide, fun text ht => (hplain.version text ht).1⟩, ⟨by decide, ?_⟩,
      fun _ hnil => absurd hnil List.not_mem_nil⟩
    · intro text htext
      obtain ⟨hsampler, -⟩ := Option.filter_eq_some_iff.mp htext
      obtain ⟨sampler, -, rfl⟩ := Option.map_eq_some_iff.mp hsampler
      exact Or.inl (Text.trim_trim sampler)
    · intro text htext
      split at htext
      · rw [← Option.some.inj htext]
        exact hplain.size.1
      · cases htext
    · intro text htext
      exact Or.inl ((mem_nonempty.mp htext).1 ▸ h.model)
    · intro text htext
      exact Or.inl ((mem_nonempty.mp htext).1 ▸ h.name)
  intro pair hpair
  obtain ⟨field, hmem, hvalue⟩ := List.mem_filterMap.mp hpair
  obtain ⟨text, htext, rfl⟩ := Option.map_eq_some_iff.mp hvalue
  exact ⟨(hfield field hmem).1, (hfield field hmem).2 text htext⟩

theorem length_pairsOf_cons (key : String) (value : Option String)
    (fields : List (String × Option String)) :
    (pairsOf ((key, value) :: fields)).length ≤ 1 + (pairsOf fields).length := by
  cases value with
  | none => simp [pairsOf]
  | some text => simp [pairsOf, Nat.add_comm]

theorem isEmpty_pairsOf (fields : List (String × Option String)) :
    (pairsOf fields).isEmpty = fields.all fun field => field.2.isNone := by
  induction fields with
  | nil => rfl
  | cons field fields ih =>
      obtain ⟨key, value⟩ := field
      cases value with
      | none => simpa [pairsOf] using ih
      | some text => simp [pairsOf]

theorem isNone_nonempty (text : String) : (nonempty text).isNone = decide (text = "") := by
  unfold nonempty
  split
  · next h => simp [h]
  · next h => simp [h]

/-- On a line that is written something comes after the sampler. -/
theorem sampler_not_last (hfloor : settingsPairFloor ≤ (settingsPairs share encoded).length) :
    (pairsOf ((settingsFields share encoded).drop 2)).isEmpty = false := by
  rw [List.isEmpty_eq_false_iff, ← List.length_pos_iff]
  have hone := length_pairsOf_cons "Steps" (((exactSteps share).filter (1 ≤ ·)).map fun steps =>
    String.ofList (Nat.toDigits 10 steps)) ((settingsFields share encoded).drop 1)
  have htwo := length_pairsOf_cons "Sampler" (samplerLabel share)
    ((settingsFields share encoded).drop 2)
  have hfloor' : 3 ≤ (pairsOf (settingsFields share encoded)).length := hfloor
  change (pairsOf (settingsFields share encoded)).length ≤ _ at hone
  change (pairsOf ((settingsFields share encoded).drop 1)).length ≤ _ at htwo
  omega

theorem model_last (encoded : UInt32 × UInt32) (hmodel : share.model ≠ "") :
    (pairsOf ((settingsFields share encoded).drop 6)).isEmpty = modelIsLast share := by
  rw [isEmpty_pairsOf]
  simp [settingsFields, modelIsLast, isNone_nonempty, hmodel, Bool.and_assoc]

/-- On a line that is written, the labels decide. -/
theorem legible_settingsPairs (h : Tidy share)
    (hfloor : settingsPairFloor ≤ (settingsPairs share encoded).length) :
    Legible (settingsPairs share encoded) ↔ LabelsLegible share := by
  have hplain := h.plainFields encoded
  have hsampler : ∀ text : String, misread (pairsOf ((settingsFields share encoded).drop 2)).isEmpty
      text.toList = misread false text.toList := fun text => by rw [sampler_not_last hfloor]
  have hpairs : settingsPairs share encoded = pairsOf (settingsFields share encoded) := rfl
  rw [hpairs, settingsFields]
  simp only [legible_cons]
  constructor
  · rintro ⟨-, hs, -, -, -, hm, -, -, -, hn, -⟩
    refine ⟨fun sampler hmem => ?_, ?_, ?_⟩
    · exact (hsampler sampler).symm.trans (hs sampler hmem)
    · by_cases hmodel : share.model = ""
      · rw [hmodel]
        rfl
      · rw [← model_last encoded hmodel]
        exact hm share.model (mem_nonempty.mpr ⟨rfl, hmodel⟩)
    · by_cases hname : share.producer.name = ""
      · rw [hname]
        rfl
      · exact hn share.producer.name (mem_nonempty.mpr ⟨rfl, hname⟩)
  · intro hlabels
    refine ⟨fun text ht => (hplain.steps text ht).2 _, fun text ht => ?_,
      fun text ht => (hplain.cfg text ht).2 _, fun text ht => (hplain.seed text ht).2 _,
      fun text ht => ?_, fun text ht => ?_, fun text ht => (hplain.hash text ht).2 _,
      fun text ht => (hplain.loras text ht).2 _, fun text ht => (hplain.version text ht).2 _,
      fun text ht => ?_, trivial⟩
    · exact (hsampler text).trans (hlabels.sampler text ht)
    · split at ht
      · rw [← Option.some.inj ht]
        exact hplain.size.2 _
      · cases ht
    · obtain ⟨rfl, hmodel⟩ := mem_nonempty.mp ht
      have hgood := hlabels.model
      rw [← model_last encoded hmodel] at hgood
      exact hgood
    · obtain ⟨rfl, -⟩ := mem_nonempty.mp ht
      exact hlabels.software

end Fields

section Lines

variable {share : WorkflowShare} {encoded : UInt32 × UInt32}

def negativeMark : List Char := "Negative prompt:".toList

def isNegativeLine (line : List Char) : Bool := negativeMark.isPrefixOf line

/-- What the text tells by its lines: the last one is the settings, and from the first one that
starts with the mark on it is the negative prompt. -/
structure GalleryText where
  prompt : List Char
  negative : List Char
  settings : List Char
  deriving DecidableEq

/-- What follows the mark, if the line starts with it. -/
def stripMark (line : List Char) : List Char :=
  if isNegativeLine line then (line.drop negativeMark.length).dropWhile Text.isWhiteSpace else line

def splitText (text : List Char) : GalleryText :=
  let lines := text.splitOn '\n'
  { prompt := ['\n'].intercalate (lines.dropLast.takeWhile fun line => !isNegativeLine line)
    negative := ['\n'].intercalate
      ((lines.dropLast.dropWhile fun line => !isNegativeLine line).map stripMark)
    settings := lines.getLast?.getD [] }

/-- No line of the text is taken for the start of the negative prompt. -/
def NoNegativeLine (text : String) : Prop :=
  ∀ line ∈ text.toList.splitOn '\n', isNegativeLine line = false

theorem newline_not_mem_escape (c : Char) : '\n' ∉ JsonString.escape c := by
  have hletters : '\n' ∉ ['"', '\\', 'b', 't', 'n', 'f', 'r'] := by decide
  have hdigit : ∀ n < 16, '\n' ≠ n.digitChar := by decide
  have hescaped := JsonString.escaped_escape c
  generalize JsonString.escape c = written at hescaped ⊢
  cases hescaped with
  | @letter letter hmem =>
      have hne : '\n' ≠ letter := fun heq => hletters (heq ▸ hmem)
      simp [hne]
  | number hcontrol =>
      simp [hdigit (c.toNat / 16) (by omega), hdigit (c.toNat % 16) (Nat.mod_lt _ (by decide))]
  | plain hquote hback hshown =>
      intro hmem
      rw [← List.mem_singleton.mp hmem] at hshown
      exact absurd hshown (by decide)

theorem newline_not_mem_quote (text : String) : '\n' ∉ quote text := by
  unfold quote
  split
  · intro hmem
    rw [JsonString.encode, List.mem_cons, List.mem_append, List.mem_flatMap] at hmem
    obtain h | ⟨c, -, h⟩ | h := hmem
    · exact absurd h (by decide)
    · exact newline_not_mem_escape c h
    · exact absurd h (by decide)
  · next hnone =>
      intro hmem
      exact hnone (by simp [hmem])

theorem newline_not_mem_settingsLine (h : Tidy share) : '\n' ∉ settingsLine share encoded := by
  unfold settingsLine
  dsimp only
  split
  · exact List.not_mem_nil
  · intro hmem
    cases mem_intercalate hmem with
    | inl hsep => exact absurd hsep (by decide)
    | inr hpart =>
        obtain ⟨part, hpart, hmem⟩ := hpart
        obtain ⟨pair, hpair, rfl⟩ := List.mem_map.mp hpart
        have hkey := (pushed_settingsPairs h pair hpair).1
        rw [renderPair, List.mem_append, List.mem_cons, List.mem_cons] at hmem
        obtain hmem | hmem | hmem | hmem := hmem
        · exact absurd (hkey.2.2 '\n' hmem).2 (by decide)
        · exact absurd hmem (by decide)
        · exact absurd hmem (by decide)
        · exact newline_not_mem_quote pair.2 hmem

theorem splitOn_cons_of_ne {c : Char} (hc : c ≠ '\n') (text : List Char) :
    (c :: text).splitOn '\n' = (text.splitOn '\n').modifyHead (c :: ·) := by
  rw [List.splitOn, List.splitOnP_cons_eq_if_modifyHead, if_neg (by simpa using hc)]
  rfl

theorem splitOn_cons_newline (text : List Char) :
    ('\n' :: text).splitOn '\n' = [] :: text.splitOn '\n' := by
  rw [List.splitOn, List.splitOnP_cons_eq_if_modifyHead, if_pos (by decide)]
  rfl

theorem splitOn_append_newline (a b : List Char) :
    (a ++ '\n' :: b).splitOn '\n' = a.splitOn '\n' ++ b.splitOn '\n' :=
  List.splitOnP_append_cons a b rfl

/-- A text put before the first line. -/
theorem splitOn_front {front : List Char} (h : '\n' ∉ front) (text : List Char) :
    (front ++ text).splitOn '\n' = (text.splitOn '\n').modifyHead (front ++ ·) := by
  induction front with
  | nil =>
      cases htext : text.splitOn '\n' with
      | nil => exact absurd htext (List.splitOnP_ne_nil _ text)
      | cons line lines => exact htext
  | cons c front ih =>
      have hc : c ≠ '\n' := fun heq => h (heq ▸ List.mem_cons_self)
      rw [List.cons_append, splitOn_cons_of_ne hc, ih fun hmem => h (List.mem_cons_of_mem c hmem)]
      cases text.splitOn '\n' <;> rfl

/-- A text put after the last line. -/
theorem splitOn_back {back : List Char} (h : '\n' ∉ back) (text : List Char) :
    ∃ lines last, text.splitOn '\n' = lines ++ [last] ∧
      (text ++ back).splitOn '\n' = lines ++ [last ++ back] := by
  induction text with
  | nil => exact ⟨[], [], rfl, List.splitOn_eq_singleton h⟩
  | cons c text ih =>
      obtain ⟨lines, last, htext, hback⟩ := ih
      by_cases hc : c = '\n'
      · subst hc
        refine ⟨[] :: lines, last, ?_, ?_⟩
        · rw [splitOn_cons_newline, htext]
          rfl
        · rw [List.cons_append, splitOn_cons_newline, hback]
          rfl
      · rw [List.cons_append, splitOn_cons_of_ne hc, splitOn_cons_of_ne hc, htext, hback]
        cases lines with
        | nil => exact ⟨[], c :: last, rfl, rfl⟩
        | cons line lines => exact ⟨(c :: line) :: lines, last, rfl, rfl⟩

/-- The text of tags: it begins with a blank, or stands for an empty prompt. -/
structure TagText (prompt tags : List Char) : Prop where
  line : '\n' ∉ tags
  start : tags = [] ∨ (∃ rest, tags = ' ' :: '<' :: rest) ∨ prompt = [] ∧ ∃ rest, tags = '<' :: rest

theorem loraTag_text {entry : WorkflowLora × Nat} {tag : String}
    (h : loraTag share entry = some tag) :
    '\n' ∉ tag.toList ∧ ∃ rest, tag.toList = '<' :: rest := by
  unfold loraTag at h
  split at h
  · next name weight digest _ _ _ =>
      split at h
      · next hkey =>
          obtain rfl := Option.some.inj h
          simp only [Bool.and_eq_true, civitaiLoraKey, List.all_eq_true] at hkey
          have hname : '\n' ∉ name.toList := fun hmem =>
            absurd (hkey.1.1.2 '\n' hmem) (by decide)
          have hweight : '\n' ∉ (formatNumber weight).toList := fun hmem =>
            absurd (isBare_formatNumber weight '\n' hmem).1 (by decide)
          constructor
          · simp [hname, hweight]
          · refine ⟨"lora:".toList ++
              (name.toList ++ ':' :: ((formatNumber weight).toList ++ ['>'])), ?_⟩
            simp
      · cases h
  · cases h

theorem foldl_pushTag {tags : List String}
    (htags : ∀ tag ∈ tags, '\n' ∉ tag.toList ∧ ∃ rest, tag.toList = '<' :: rest) (out : String) :
    ∃ text, (tags.foldl pushTag out).toList = out.toList ++ text ∧ TagText out.toList text := by
  induction tags generalizing out with
  | nil => exact ⟨[], (List.append_nil _).symm, List.not_mem_nil, Or.inl rfl⟩
  | cons tag tags ih =>
      obtain ⟨hline, rest, hrest⟩ := htags tag List.mem_cons_self
      obtain ⟨text, htext, hmore⟩ := ih (fun other hother =>
        htags other (List.mem_cons_of_mem tag hother)) (pushTag out tag)
      rw [List.foldl_cons, htext]
      by_cases hout : out = ""
      · refine ⟨tag.toList ++ text, ?_, ?_, ?_⟩
        · rw [pushTag, if_pos hout, hout]
          rfl
        · exact fun hmem => (List.mem_append.mp hmem).elim hline hmore.line
        · exact Or.inr (Or.inr ⟨by rw [hout]; rfl, _, by rw [hrest]; rfl⟩)
      · refine ⟨' ' :: (tag.toList ++ text), ?_, ?_, ?_⟩
        · rw [pushTag, if_neg hout]
          simp
        · intro hmem
          rw [List.mem_cons, List.mem_append] at hmem
          obtain h | h | h := hmem
          · exact absurd h (by decide)
          · exact hline h
          · exact hmore.line h
        · exact Or.inr (Or.inl ⟨rest ++ text, by rw [hrest]; rfl⟩)

/-- Tags do not turn a line into the start of the negative prompt. -/
theorem isNegativeLine_tags {prompt last tags : List Char} (h : TagText prompt tags)
    (hlast : prompt = [] → last = []) (hline : isNegativeLine last = false) :
    isNegativeLine (last ++ tags) = false := by
  rw [Bool.eq_false_iff]
  intro hmark
  obtain ⟨rest, hrest⟩ := List.isPrefixOf_iff_prefix.mp hmark
  obtain ⟨more, hmarkEq, htags⟩ | ⟨more, hlastEq, -⟩ := List.append_eq_append_iff.mp hrest.symm
  · obtain rfl | ⟨tail, rfl⟩ | ⟨hnil, tail, rfl⟩ := h.start
    · have hmore : more = [] := (List.append_eq_nil_iff.mp htags.symm).1
      rw [hmore, List.append_nil] at hmarkEq
      rw [← hmarkEq] at hline
      exact absurd hline (by decide)
    · cases more with
      | nil =>
          rw [List.append_nil] at hmarkEq
          rw [← hmarkEq] at hline
          exact absurd hline (by decide)
      | cons c more =>
          -- a blank within the mark is not followed by an angle bracket
          have hinside : ∀ k < 16, negativeMark[k]? = some ' ' →
              negativeMark[k + 1]? = some 'p' := by
            decide
          obtain ⟨hblank, hnext⟩ := List.cons.inj htags
          have hlength : last.length < 16 := by
            have hsum := congrArg List.length hmarkEq
            have hsixteen : negativeMark.length = 16 := by decide
            rw [List.length_append, List.length_cons, hsixteen] at hsum
            omega
          have hat : negativeMark[last.length]? = some ' ' := by
            rw [hmarkEq, ← hblank]
            simp
          have hafter := hinside last.length hlength hat
          rw [hmarkEq] at hafter
          cases more with
          | nil => simp at hafter
          | cons d more =>
              have hd : d = 'p' := by simpa using hafter
              rw [hd] at hnext
              exact absurd (List.cons.inj hnext).1 (by decide)
    · rw [hlast hnil, List.nil_append] at hmarkEq
      rw [← hmarkEq] at htags
      have hfirst : '<' :: tail = 'N' :: ("egative prompt:".toList ++ rest) := htags
      exact absurd (List.cons.inj hfirst).1 (by decide)
  · have hmarked : isNegativeLine last = true := by
      rw [isNegativeLine, hlastEq]
      exact List.isPrefixOf_iff_prefix.mpr (List.prefix_append _ _)
    rw [hmarked] at hline
    cases hline

/-- Every line of the tagged prompt goes to the prompt. -/
theorem tagged_lines (hprompt : NoNegativeLine share.prompt) :
    NoNegativeLine (taggedPrompt share) := by
  have hshape : ∀ tag ∈ share.loras.zipIdx.filterMap (loraTag share),
      '\n' ∉ tag.toList ∧ ∃ rest, tag.toList = '<' :: rest := fun tag htag => by
    obtain ⟨entry, -, hentry⟩ := List.mem_filterMap.mp htag
    exact loraTag_text hentry
  obtain ⟨text, htext, htags⟩ := foldl_pushTag hshape share.prompt
  obtain ⟨lines, last, hlines, htagged⟩ := splitOn_back htags.line share.prompt.toList
  intro line hline
  rw [taggedPrompt, htext, htagged] at hline
  rw [NoNegativeLine, hlines] at hprompt
  cases List.mem_append.mp hline with
  | inl hmem => exact hprompt line (List.mem_append_left _ hmem)
  | inr hmem =>
      rw [List.mem_singleton.mp hmem]
      refine isNegativeLine_tags htags (fun hnil => ?_) (hprompt last (by simp))
      rw [hnil] at hlines
      have hsingle : lines ++ [last] = [[]] := hlines.symm
      cases lines with
      | nil => exact (List.cons.inj hsingle).1
      | cons line lines => simp at hsingle

theorem splitOn_ne_nil (text : List Char) : text.splitOn '\n' ≠ [] := List.splitOnP_ne_nil _ text

theorem dropLast_concat_getLast (lines : List (List Char)) (last : List Char) :
    (lines ++ [last]).dropLast = lines ∧ (lines ++ [last]).getLast?.getD [] = last :=
  ⟨List.dropLast_concat, by rw [List.getLast?_concat]; rfl⟩

/-- The lines of the prompt stay, and the first line with the mark begins the rest. -/
theorem takeWhile_lines {front : List (List Char)}
    (hfront : ∀ line ∈ front, isNegativeLine line = false)
    {back : List (List Char)} (hback : ∀ line ∈ back.head?, isNegativeLine line = true) :
    ((front ++ back).takeWhile fun line => !isNegativeLine line) = front ∧
      ((front ++ back).dropWhile fun line => !isNegativeLine line) = back := by
  have hall : ∀ line ∈ front, (!isNegativeLine line) = true := fun line hline => by
    rw [hfront line hline]
    rfl
  rw [List.takeWhile_append_of_pos hall, List.dropWhile_append_of_pos hall]
  cases back with
  | nil => exact ⟨List.append_nil front, rfl⟩
  | cons line back =>
      have hstart : ¬ (!isNegativeLine line) = true := by
        rw [hback line rfl]
        exact Bool.false_ne_true
      refine ⟨?_, List.dropWhile_cons_of_neg hstart⟩
      exact (congrArg (front ++ ·) (List.takeWhile_cons_of_neg hstart)).trans
        (List.append_nil front)

/-- The first line of a trimmed text does not begin with a blank. -/
theorem dropWhile_firstLine {text : List Char} (h : text.dropWhile Text.isWhiteSpace = text) :
    ∃ first more, text.splitOn '\n' = first :: more ∧
      first.dropWhile Text.isWhiteSpace = first := by
  cases text with
  | nil => exact ⟨[], [], rfl, rfl⟩
  | cons c text =>
      have hblank : ¬ Text.isWhiteSpace c = true := fun hc => by
        rw [List.dropWhile_cons_of_pos hc] at h
        have hlength := congrArg List.length h
        have hle := (List.dropWhile_suffix (l := text) Text.isWhiteSpace).length_le
        rw [List.length_cons] at hlength
        omega
      have hc : c ≠ '\n' := fun heq => hblank (by rw [heq]; decide)
      rw [splitOn_cons_of_ne hc]
      cases htext : text.splitOn '\n' with
      | nil => exact absurd htext (splitOn_ne_nil text)
      | cons first more =>
          exact ⟨c :: first, more, rfl, List.dropWhile_cons_of_neg hblank⟩

/-- The lines of a negative prompt, with the label in front, are joined to it again. -/
theorem label_lines {text : String} (htrim : Trimmed text) (h : NoNegativeLine text) :
    ['\n'].intercalate (((negativePromptLabel.toList ++ text.toList).splitOn '\n').map stripMark) =
        text.toList ∧
      ∀ line ∈ ((negativePromptLabel.toList ++ text.toList).splitOn '\n').head?,
        isNegativeLine line = true := by
  have hlabel : negativePromptLabel.toList = negativeMark ++ [' '] := by decide
  obtain ⟨first, more, hlines, hfirst⟩ := dropWhile_firstLine (Text.dropWhile_of_trim_eq htrim)
  have hmark : isNegativeLine (negativePromptLabel.toList ++ first) = true := by
    rw [isNegativeLine, hlabel, List.append_assoc]
    exact List.isPrefixOf_iff_prefix.mpr (List.prefix_append _ _)
  rw [splitOn_front (by decide), hlines, List.modifyHead_cons]
  constructor
  · have hrest : (negativePromptLabel.toList ++ first).drop negativeMark.length = ' ' :: first := by
      rw [hlabel, List.append_assoc, List.drop_left]
      rfl
    have hfront : stripMark (negativePromptLabel.toList ++ first) = first := by
      rw [stripMark, if_pos hmark, hrest, List.dropWhile_cons_of_pos (by decide), hfirst]
    have hmore : more.map stripMark = more := by
      refine (List.map_congr_left fun line hline => ?_).trans (List.map_id more)
      have hnone : isNegativeLine line = false :=
        h line (hlines ▸ List.mem_cons_of_mem first hline)
      rw [stripMark, hnone]
      rfl
    rw [List.map_cons, hfront, hmore, ← hlines]
    exact List.intercalate_splitOn '\n'
  · rintro line hline
    rw [← Option.some.inj hline]
    exact hmark

/-- The text before the settings splits into the prompt with its tags and the negative prompt. -/
theorem splitText_parametersText (h : Tidy share) (hline : settingsLine share encoded ≠ [])
    (hprompt : NoNegativeLine share.prompt) (hnegative : NoNegativeLine share.negativePrompt) :
    splitText (parametersText share encoded) =
      { prompt := (taggedPrompt share).toList, negative := share.negativePrompt.toList,
        settings := settingsLine share encoded } := by
  have htagged := tagged_lines hprompt
  have hlast : (parametersText share encoded).splitOn '\n' =
      (promptText share).splitOn '\n' ++ [settingsLine share encoded] := by
    rw [parametersText, if_neg hline, splitOn_append_newline,
      List.splitOn_eq_singleton (newline_not_mem_settingsLine h)]
  obtain ⟨hdrop, hsettings⟩ := dropLast_concat_getLast ((promptText share).splitOn '\n')
    (settingsLine share encoded)
  have hsplit : ∃ back, (promptText share).splitOn '\n' =
      (taggedPrompt share).toList.splitOn '\n' ++ back ∧
        ['\n'].intercalate (back.map stripMark) = share.negativePrompt.toList ∧
          ∀ line ∈ back.head?, isNegativeLine line = true := by
    by_cases hempty : share.negativePrompt = ""
    · refine ⟨[], ?_, by rw [hempty]; rfl, fun _ hnil => absurd hnil (by simp)⟩
      rw [promptText, if_pos hempty, List.append_nil, List.append_nil]
    · obtain ⟨hjoin, hhead⟩ := label_lines h.negative hnegative
      refine ⟨_, ?_, hjoin, hhead⟩
      rw [promptText, if_neg hempty, splitOn_append_newline]
  obtain ⟨back, hback, hjoin, hhead⟩ := hsplit
  obtain ⟨htake, hrest⟩ := takeWhile_lines htagged hhead
  unfold splitText
  dsimp only
  rw [hlast, hdrop, hsettings, hback, htake, hrest, hjoin]
  rw [show ['\n'].intercalate ((taggedPrompt share).toList.splitOn '\n') =
    (taggedPrompt share).toList from List.intercalate_splitOn '\n']

end Lines

section ReadBack

variable {moss : MossCore} {serde : Serde} {share : WorkflowShare} {encoded : UInt32 × UInt32}

/-- An envelope that the reader returns, or a builder. -/
def Returned (moss : MossCore) (serde : Serde) (share : WorkflowShare) : Prop :=
  (∃ value, parseWorkflowShare moss serde value = .ok share) ∨
    ∃ kind facts payload, share = buildShareOfKind moss serde kind facts payload

theorem Returned.tidy (h : Returned moss serde share) : Tidy share := by
  obtain ⟨value, hparse⟩ | ⟨kind, facts, payload, rfl⟩ := h
  · obtain ⟨-, raw, -, -, hreduced⟩ := parseWorkflowShare_isReduced hparse
    rw [hreduced.reduced]
    exact tidy_reduce moss serde raw
  · exact tidy_reduce moss serde _

/-- A gallery gets what was written: the settings pair by pair, and both prompts. -/
structure ReadsBack (table : KeyTable) (share : WorkflowShare) (encoded : UInt32 × UInt32) :
    Prop where
  settings : readSettings table (settingsLine share encoded) = settingsPairs share encoded
  floor : 3 ≤ (settingsPairs share encoded).length
  texts : NoNegativeLine share.prompt → NoNegativeLine share.negativePrompt →
    splitText (parametersText share encoded) =
      { prompt := (taggedPrompt share).toList, negative := share.negativePrompt.toList,
        settings := settingsLine share encoded }

theorem settingsLine_eq (h : settingsLine share encoded ≠ []) :
    settingsPairFloor ≤ (settingsPairs share encoded).length ∧
      settingsLine share encoded =
        [',', ' '].intercalate ((settingsPairs share encoded).map renderPair) := by
  unfold settingsLine at h ⊢
  dsimp only at h ⊢
  split at h
  · exact absurd rfl h
  · next hfloor => exact ⟨Nat.le_of_not_lt hfloor, if_neg hfloor⟩

theorem readsBack_iff_labelsLegible (table : KeyTable) (h : Returned moss serde share)
    (hline : settingsLine share encoded ≠ []) :
    ReadsBack table share encoded ↔ LabelsLegible share := by
  obtain ⟨hfloor, heq⟩ := settingsLine_eq hline
  have hsettings : readSettings table (settingsLine share encoded) = settingsPairs share encoded ↔
      LabelsLegible share := by
    rw [heq, readSettings_line (pushed_settingsPairs h.tidy)]
    exact legible_settingsPairs h.tidy hfloor
  constructor
  · intro hreads
    exact hsettings.mp hreads.settings
  · intro hlabels
    exact
      { settings := hsettings.mpr hlabels
        floor := hfloor
        texts := splitText_parametersText h.tidy hline }

/-- Facts of an image whose model has a name with quotes. -/
def quotedFacts (model : String) : WorkflowAssetFacts := { portraitFacts with model := model }

def asciiTable : KeyTable where
  isAlphanumeric := Char.isAlphanum
  ascii := fun _ _ => rfl

theorem readsBack_of_turbo :
    ReadsBack asciiTable
      (buildShareOfKind idleMoss plainSerde workflowKindImage (quotedFacts "z_image_turbo") [])
      (1024, 768) := by
  refine (readsBack_iff_labelsLegible asciiTable (Or.inr ⟨_, _, _, rfl⟩) (by decide +kernel)).mpr ?_
  exact
    { sampler := by decide +kernel
      model := by decide +kernel
      software := by decide +kernel }

/-- A model that is named in quotes loses them. -/
theorem quoted_model_not_read_back :
    ¬ ∀ (table : KeyTable) (moss : MossCore) (serde : Serde) (share : WorkflowShare)
        (encoded : UInt32 × UInt32), Returned moss serde share → settingsLine share encoded ≠ [] →
        ReadsBack table share encoded := by
  intro h
  have hreads := h asciiTable idleMoss plainSerde
    (buildShareOfKind idleMoss plainSerde workflowKindImage (quotedFacts "\"turbo\"") [])
      (1024, 768)
    (Or.inr ⟨_, _, _, rfl⟩) (by decide +kernel)
  exact absurd hreads.settings (by decide +kernel)

end ReadBack

end SceneWorks.WorkflowEnvelope
