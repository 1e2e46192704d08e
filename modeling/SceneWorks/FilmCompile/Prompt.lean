import SceneWorks.FilmCompile.Pictures

/-!
The prompt of a request. The compiler writes its own sentences around the authored or refined
text, and takes them off again to judge a prompt that was read back. All of the composition is
fixed by the sentences but one character: the period that ends the text where it does not end a
sentence itself, which is left on what is recovered.
-/

namespace SceneWorks.FilmCompile

inductive InsertedTextPlacement where
  | leading
  | trailing
  deriving DecidableEq

namespace InsertedTextKind

def next : InsertedTextKind → Option InsertedTextKind
  | .referenceBinding => some .continuityDescription
  | .continuityDescription => some .audio
  | .audio => some .noSpeech
  | .noSpeech => none

/-- Every kind, in prompt order. -/
def all : List InsertedTextKind := [.referenceBinding, .continuityDescription, .audio, .noSpeech]

example : all.map next = all.tail.map some ++ [none] := rfl

def label : InsertedTextKind → String
  | .referenceBinding => "reference binding sentences"
  | .continuityDescription =>
      "identity text (the pack's description of each continuityRoles entry this shot does not " ++
        "bind to an image, written in word for word)"
  | .audio => "the shot's audio sentence"
  | .noSpeech => "the no-spoken-dialogue sentence"

def placement : InsertedTextKind → InsertedTextPlacement
  | .referenceBinding | .continuityDescription => .leading
  | .audio | .noSpeech => .trailing

end InsertedTextKind

section Insertions

def audioPromptPrefix : String := "Audio:"

def noSpeechSentence : String :=
  "No spoken dialogue in the generated audio; no voices on the soundtrack."

def audioText (shot : Shot) : Option InsertedText :=
  let audio := normalizedDescription shot.audio
  if audio = "" then none else some ⟨.audio, audioPromptPrefix ++ " " ++ audio⟩

def noSpeechText (shot : Shot) : Option InsertedText :=
  shot.dialogueClip.map fun _ => ⟨.noSpeech, noSpeechSentence⟩

def insertedTextForShot (shot : Shot) (pictures : List ReferencePicture) (pack : ReferencePack) :
    List InsertedText :=
  let pictures := picturesWithSharedContinuity pack shot pictures
  (referenceBindingText pictures).toList ++ (continuityDescriptionText shot pictures pack).toList ++
    (audioText shot).toList ++ (noSpeechText shot).toList

end Insertions

section Composition

def leadingPieces (inserted : List InsertedText) : List InsertedText :=
  inserted.filter fun piece => piece.kind.placement = .leading

def trailingPieces (inserted : List InsertedText) : List InsertedText :=
  inserted.filter fun piece => piece.kind.placement = .trailing

def pushSentenceBreak (composed : String) : String :=
  if Text.trimEnd composed = "" then composed
  else (if endsSentence composed then composed else composed ++ ".") ++ " "

def pushTrailing (composed : String) (piece : InsertedText) : String :=
  pushSentenceBreak composed ++ Text.trim piece.text

def leadingText (inserted : List InsertedText) : String :=
  String.join ((leadingPieces inserted).map fun piece => Text.trim piece.text ++ " ")

def applyInsertedText (prompt : String) (inserted : List InsertedText) : String :=
  if inserted.isEmpty then Text.trim prompt
  else (trailingPieces inserted).foldl pushTrailing (leadingText inserted ++ Text.trim prompt)

/-- The trailing composition without the one separator that depends on the middle; every later
one is decided by the piece before it. -/
def pushFixed (fixed : String) (piece : InsertedText) : String :=
  (if endsSentence fixed then fixed else fixed ++ ".") ++ " " ++ Text.trim piece.text

def fixedText : List InsertedText → String
  | [] => ""
  | piece :: pieces => pieces.foldl pushFixed (" " ++ Text.trim piece.text)

/-- The text the compiler was given, recovered from what it composed. -/
def recoveredMiddle (prompt : String) (inserted : List InsertedText) : Option String := do
  let body ← Text.after (leadingText inserted).toList prompt.toList
  let middle ← Text.before (fixedText (trailingPieces inserted)).toList body
  if applyInsertedText (String.ofList middle) inserted = prompt then some (String.ofList middle)
  else none

end Composition

section EngineLabels

def engineMediaLabels : List String := ["picture", "audio", "video"]

def isAsciiWhitespace (c : Char) : Bool :=
  c = ' ' || c = '\t' || c = '\n' || c = '\x0c' || c = '\r'

/-- Whether a keyword of the engine's labels stands here, in any case. -/
def isLabelled (rest : List Char) : Bool :=
  let after := rest.dropWhile isAsciiWhitespace
  engineMediaLabels.any fun label => (after.take label.length).map Char.toLower = label.toList

/-- The text from its first engine label on. -/
def engineLabelAt : List Char → Option (List Char)
  | [] => none
  | c :: rest => if c = '<' && isLabelled rest then some (c :: rest) else engineLabelAt rest

/-- The first label as it was written, or a short run where it is not closed. -/
def quotedEngineLabel (text : String) : String :=
  let rest := (engineLabelAt text.toList).getD text.toList
  String.ofList <|
    if rest.contains '>' then rest.takeWhile (· ≠ '>') ++ ['>'] else rest.take 24

end EngineLabels

section Recovery

/-- A text whose last character is not blank, so that trimming its end changes nothing. -/
def Ends (text : String) : Prop :=
    ∃ front c, text.toList = front ++ [c] ∧ Text.isWhiteSpace c = false

/-- A text long enough to tell by itself whether it ends a sentence. -/
def Settled (text : String) : Prop :=
  ∃ front b c, text.toList = front ++ [b, c] ∧ Text.isWhiteSpace c = false

theorem ends_trim {text : String} (h : Text.trim text ≠ "") : Ends (Text.trim text) := by
  have hne : (text.toList.dropWhile Text.isWhiteSpace).rdropWhile Text.isWhiteSpace ≠ [] := by
    intro hnil
    rw [← Text.toList_trim] at hnil
    exact h (String.toList_inj.mp hnil)
  have hlast := List.rdropWhile_last_not Text.isWhiteSpace _ hne
  refine ⟨_, _, (Text.toList_trim text).trans (List.dropLast_append_getLast hne).symm, ?_⟩
  simpa using hlast

theorem Ends.append (text : String) {back : String} (h : Ends back) : Ends (text ++ back) := by
  obtain ⟨front, c, hback, hblank⟩ := h
  exact ⟨text.toList ++ front, c, by simp [hback], hblank⟩

theorem settled_space {back : String} (h : Ends back) (text : String) :
    Settled (text ++ " " ++ back) := by
  obtain ⟨front, c, hback, hblank⟩ := h
  rcases List.eq_nil_or_concat front with hnil | ⟨front', b, hfront⟩
  · exact ⟨text.toList, ' ', c, by simp [hback, hnil], hblank⟩
  · exact ⟨text.toList ++ ' ' :: front', b, c, by simp [hback, hfront], hblank⟩

theorem Ends.ne_blank {text : String} (h : Ends text) : Text.trimEnd text ≠ "" := by
  obtain ⟨front, c, htext, hblank⟩ := h
  rw [Text.trimEnd, htext, List.rdropWhile_concat_neg _ _ _ (by simp [hblank])]
  simp [← String.toList_inj]

theorem Settled.ends {text : String} (h : Settled text) : Ends text := by
  obtain ⟨front, b, c, htext, hblank⟩ := h
  exact ⟨front ++ [b], c, by simp [htext], hblank⟩

/-- The last two characters decide. -/
theorem endsSentence_append (text : String) {back : String} (h : Settled back) :
    endsSentence (text ++ back) = endsSentence back := by
  obtain ⟨front, b, c, hback, hblank⟩ := h
  simp [endsSentence, hback, hblank]

theorem endsSentence_period (text : String) : endsSentence (text ++ ".") = true := by
  have hblank : Text.isWhiteSpace '.' = false := by decide
  simp [endsSentence, hblank, isTerminal]

theorem pushSentenceBreak_of_ends {text : String} (h : Ends text) :
    pushSentenceBreak text = (if endsSentence text then text else text ++ ".") ++ " " := by
  rw [pushSentenceBreak, if_neg h.ne_blank]

theorem pushTrailing_append (text : String) {back : String} (h : Settled back)
    (piece : InsertedText) : pushTrailing (text ++ back) piece = text ++ pushFixed back piece := by
  rw [pushTrailing, pushSentenceBreak_of_ends (h.ends.append text), endsSentence_append text h,
    pushFixed]
  split <;> simp [String.append_assoc]

theorem foldl_pushTrailing {pieces : List InsertedText}
    (hpieces : ∀ piece ∈ pieces, Text.trim piece.text ≠ "") (text : String) {back : String}
    (h : Settled back) :
    pieces.foldl pushTrailing (text ++ back) = text ++ pieces.foldl pushFixed back := by
  induction pieces generalizing back with
  | nil => rfl
  | cons piece pieces ih =>
      rw [List.foldl_cons, List.foldl_cons, pushTrailing_append text h piece]
      refine ih (fun piece hpiece => hpieces piece (List.mem_cons_of_mem _ hpiece)) ?_
      exact settled_space (ends_trim (hpieces piece List.mem_cons_self)) _

/-- The trailing pieces follow the text ended as a sentence, and what they add does not depend on
it. -/
theorem trailing_eq {pieces : List InsertedText}
    (hpieces : ∀ piece ∈ pieces, Text.trim piece.text ≠ "") {text : String} (h : Ends text) :
    pieces.foldl pushTrailing text =
      (if pieces.isEmpty || endsSentence text then text else text ++ ".") ++ fixedText pieces := by
  cases pieces with
  | nil => simp [fixedText]
  | cons piece pieces =>
      have hpiece := ends_trim (hpieces piece List.mem_cons_self)
      have hsettled : Settled (" " ++ Text.trim piece.text) := by
        simpa using settled_space hpiece ""
      have hfirst : pushTrailing text piece =
          (if endsSentence text then text else text ++ ".") ++ (" " ++ Text.trim piece.text) := by
        rw [pushTrailing, pushSentenceBreak_of_ends h, String.append_assoc]
      rw [List.foldl_cons, hfirst, foldl_pushTrailing
        (fun piece hpiece => hpieces piece (List.mem_cons_of_mem _ hpiece)) _ hsettled]
      rfl

variable {inserted : List InsertedText} {middle : String}

/-- The middle as it stands in the composition, with the period that ends it. -/
def endedMiddle (inserted : List InsertedText) (middle : String) : String :=
  if (trailingPieces inserted).isEmpty || endsSentence (leadingText inserted ++ middle) then middle
  else middle ++ "."

theorem applyInsertedText_eq
    (hpieces : ∀ piece ∈ trailingPieces inserted, Text.trim piece.text ≠ "")
    (hmiddle : Text.trim middle = middle) (hne : middle ≠ "") :
    applyInsertedText middle inserted =
      leadingText inserted ++ endedMiddle inserted middle ++
        fixedText (trailingPieces inserted) := by
  rw [applyInsertedText, hmiddle]
  split
  · next hempty =>
      obtain rfl := List.isEmpty_iff.mp hempty
      simp [leadingText, leadingPieces, endedMiddle, trailingPieces, fixedText]
  · have hends : Ends middle := by
      have hblank : Text.trim middle ≠ "" := by rwa [hmiddle]
      have htrim := ends_trim hblank
      rwa [hmiddle] at htrim
    rw [trailing_eq hpieces (hends.append _), endedMiddle]
    split <;> simp [String.append_assoc]

theorem length_le_applyInsertedText
    (hpieces : ∀ piece ∈ trailingPieces inserted, Text.trim piece.text ≠ "")
    (hmiddle : Text.trim middle = middle) (hne : middle ≠ "") :
    middle.length ≤ (applyInsertedText middle inserted).length := by
  have hended : middle.length ≤ (endedMiddle inserted middle).length := by
    unfold endedMiddle
    split
    · exact Nat.le_refl _
    · simp [String.length_append]
  rw [applyInsertedText_eq hpieces hmiddle hne, String.length_append, String.length_append]
  omega

theorem trim_endedMiddle (hmiddle : Text.trim middle = middle) (hne : middle ≠ "") :
    Text.trim (endedMiddle inserted middle) = endedMiddle inserted middle := by
  unfold endedMiddle
  split
  · exact hmiddle
  · have hperiod : ".".toList = [] ++ ['.'] := rfl
    exact Text.trim_append hmiddle hne hperiod (by decide)

theorem endedMiddle_endedMiddle :
    endedMiddle inserted (endedMiddle inserted middle) = endedMiddle inserted middle := by
  by_cases h : ((trailingPieces inserted).isEmpty ||
      endsSentence (leadingText inserted ++ middle)) = true
  · have hsame : endedMiddle inserted middle = middle := if_pos h
    rw [hsame, hsame]
  · have hperiod : endedMiddle inserted middle = middle ++ "." := if_neg h
    rw [hperiod, endedMiddle, ← String.append_assoc, endsSentence_period, Bool.or_true, if_pos rfl]

/-- What the compiler composed gives back the middle, ended as it stands there. -/
theorem recoveredMiddle_applyInsertedText
    (hpieces : ∀ piece ∈ trailingPieces inserted, Text.trim piece.text ≠ "")
    (hmiddle : Text.trim middle = middle) (hne : middle ≠ "") :
    recoveredMiddle (applyInsertedText middle inserted) inserted =
      some (endedMiddle inserted middle) := by
  have hended : endedMiddle inserted middle ≠ "" := by
    unfold endedMiddle
    split
    · exact hne
    · simp
  have hagain : applyInsertedText (endedMiddle inserted middle) inserted =
      applyInsertedText middle inserted := by
    rw [applyInsertedText_eq hpieces (trim_endedMiddle hmiddle hne) hended,
      applyInsertedText_eq hpieces hmiddle hne, endedMiddle_endedMiddle]
  have hlist : (applyInsertedText middle inserted).toList =
      (leadingText inserted).toList ++ ((endedMiddle inserted middle).toList ++
        (fixedText (trailingPieces inserted)).toList) := by
    rw [applyInsertedText_eq hpieces hmiddle hne]
    simp
  simp only [recoveredMiddle, hlist, Text.after_append, Text.before_append, Option.bind_eq_bind,
    Option.bind_some, String.ofList_toList, hagain, if_true]

/-- Only a composition around the expected sentences has a middle. -/
theorem eq_applyInsertedText {prompt : String} (h : recoveredMiddle prompt inserted = some middle) :
    prompt = applyInsertedText middle inserted := by
  simp only [recoveredMiddle, Option.bind_eq_bind, Option.bind_eq_some_iff] at h
  obtain ⟨body, -, chars, -, hmiddle⟩ := h
  split at hmiddle
  · next hsame =>
      obtain rfl := Option.some.inj hmiddle
      exact hsame.symm
  · cases hmiddle

end Recovery

section Labels

theorem dropWhile_concat_period (rest : List Char) :
    (rest ++ ['.']).dropWhile isAsciiWhitespace = rest.dropWhile isAsciiWhitespace ++ ['.'] := by
  have hperiod : isAsciiWhitespace '.' = false := by decide
  rw [List.dropWhile_append]
  split
  · next hempty =>
      rw [List.isEmpty_iff.mp hempty]
      simp [hperiod]
  · rfl

theorem take_concat_period {label : String} (hlabel : '.' ∉ label.toList) {after : List Char}
    (h : ((after ++ ['.']).take label.length).map Char.toLower = label.toList) :
    (after.take label.length).map Char.toLower = label.toList := by
  by_cases hlong : label.length ≤ after.length
  · rwa [List.take_append_of_le_length hlong] at h
  · have hshort : after.length < label.length := Nat.lt_of_not_le hlong
    have hall : (after ++ ['.']).take label.length = after ++ ['.'] :=
      List.take_of_length_le (by rw [List.length_append]; exact hshort)
    rw [hall] at h
    exact absurd (h ▸ by simp) hlabel

theorem isLabelled_concat (rest : List Char) (h : isLabelled (rest ++ ['.']) = true) :
    isLabelled rest = true := by
  rw [isLabelled, dropWhile_concat_period, List.any_eq_true] at h
  obtain ⟨label, hmem, hhere⟩ := h
  have hperiod : ∀ label ∈ engineMediaLabels, '.' ∉ label.toList := by decide
  rw [isLabelled, List.any_eq_true]
  refine ⟨label, hmem, ?_⟩
  simp only [decide_eq_true_eq] at hhere ⊢
  exact take_concat_period (hperiod label hmem) hhere

/-- A period after a text without a label makes none. -/
theorem engineLabelAt_concat {text : List Char} (h : engineLabelAt text = none) :
    engineLabelAt (text ++ ['.']) = none := by
  induction text with
  | nil => rfl
  | cons c rest ih =>
      rw [engineLabelAt] at h
      split at h
      · cases h
      · next hlabel =>
          rw [List.cons_append, engineLabelAt, if_neg ?_]
          · exact ih h
          · intro hmore
            rw [Bool.and_eq_true] at hmore hlabel
            exact hlabel ⟨hmore.1, isLabelled_concat rest hmore.2⟩

theorem engineLabelAt_endedMiddle {middle : String} (inserted : List InsertedText)
    (h : engineLabelAt middle.toList = none) :
    engineLabelAt (endedMiddle inserted middle).toList = none := by
  unfold endedMiddle
  split
  · exact h
  · rw [String.toList_append]
    exact engineLabelAt_concat h

/-- The sentences the compiler writes after a prompt are not blank. -/
theorem trailing_ne_blank (shot : Shot) (pictures : List ReferencePicture) (pack : ReferencePack) :
    ∀ piece ∈ trailingPieces (insertedTextForShot shot pictures pack),
      Text.trim piece.text ≠ "" := by
  intro piece hpiece
  have hcapital : ∀ {c : Char} {text : String}, c ∈ text.toList → Text.isWhiteSpace c = false →
      Text.trim text ≠ "" := by
    intro c text hmem hblank hempty
    rw [(Text.trim_eq_empty_iff text).mp hempty c hmem] at hblank
    cases hblank
  simp only [trailingPieces, insertedTextForShot, List.mem_filter, List.mem_append,
    Option.mem_toList, decide_eq_true_eq] at hpiece
  obtain ⟨((hbinding | hidentity) | haudio) | hspeech, hplacement⟩ := hpiece
  · simp only [referenceBindingText] at hbinding
    split at hbinding
    · cases hbinding
    · obtain rfl := Option.some.inj hbinding
      cases hplacement
  · simp only [continuityDescriptionText] at hidentity
    split at hidentity
    · cases hidentity
    · obtain rfl := Option.some.inj hidentity
      cases hplacement
  · simp only [audioText] at haudio
    split at haudio
    · cases haudio
    · obtain rfl := Option.some.inj haudio
      exact hcapital (c := 'A') (by simp [audioPromptPrefix]) (by decide)
  · obtain ⟨clip, -, rfl⟩ := Option.map_eq_some_iff.mp hspeech
    exact hcapital (c := 'N') (by simp [noSpeechSentence]) (by decide)

end Labels

end SceneWorks.FilmCompile
