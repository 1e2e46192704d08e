import SceneWorks.FilmCompile.Prompt

/-!
What a prompt must be for the compiler's sentences to come off it: the leading text, a middle that
is trimmed and ends as it stands there, and the trailing text. A prompt made with other sentences
can be of that shape only where its middle, with the sentences beside it, spells out what is
missing. -/

namespace SceneWorks.FilmCompile

section Shape

variable {inserted : List InsertedText} {prompt middle : String}

theorem recoveredMiddle_eq_some_iff :
    recoveredMiddle prompt inserted = some middle ↔
      prompt = leadingText inserted ++ middle ++ fixedText (trailingPieces inserted) ∧
        applyInsertedText middle inserted = prompt := by
  constructor
  · intro h
    refine ⟨?_, (eq_applyInsertedText h).symm⟩
    simp only [recoveredMiddle, Option.bind_eq_bind, Option.bind_eq_some_iff] at h
    obtain ⟨body, hbody, chars, hchars, hmiddle⟩ := h
    rw [Text.after_eq_some_iff] at hbody
    rw [Text.before_eq_some_iff] at hchars
    split at hmiddle
    · obtain rfl := Option.some.inj hmiddle
      rw [← String.toList_inj, hbody, hchars]
      simp
    · cases hmiddle
  · rintro ⟨hprompt, hsame⟩
    have hlist : prompt.toList = (leadingText inserted).toList ++ (middle.toList ++
        (fixedText (trailingPieces inserted)).toList) := by
      rw [hprompt]
      simp
    simp only [recoveredMiddle, hlist, Text.after_append, Text.before_append, Option.bind_eq_bind,
      Option.bind_some, String.ofList_toList, hsame, if_true]

theorem applyInsertedText_trim (middle : String) (inserted : List InsertedText) :
    applyInsertedText (Text.trim middle) inserted = applyInsertedText middle inserted := by
  unfold applyInsertedText
  rw [Text.trim_trim]

/-- Whether a middle ends as it stands in the composition. -/
def Ended (inserted : List InsertedText) (middle : String) : Prop :=
  trailingPieces inserted = [] ∨ endsSentence (leadingText inserted ++ middle) = true

theorem append_period_ne (text : String) : text ++ "." ≠ text := by
  intro h
  have hlength := congrArg String.length h
  rw [String.length_append] at hlength
  exact absurd hlength (by simp)

theorem endedMiddle_eq_self_iff : endedMiddle inserted middle = middle ↔ Ended inserted middle := by
  unfold endedMiddle Ended
  rw [← List.isEmpty_iff, ← Bool.or_eq_true]
  split
  · next h => simp [h]
  · next h => exact iff_of_false (append_period_ne middle) h

theorem applyInsertedText_shape
    (hpieces : ∀ piece ∈ trailingPieces inserted, Text.trim piece.text ≠ "")
    (hmiddle : Text.trim middle ≠ "") :
    applyInsertedText middle inserted = leadingText inserted ++
      endedMiddle inserted (Text.trim middle) ++ fixedText (trailingPieces inserted) := by
  rw [← applyInsertedText_trim, applyInsertedText_eq hpieces (Text.trim_trim middle) hmiddle]

theorem append_cancel {front back a b : String} (h : front ++ a ++ back = front ++ b ++ back) :
    a = b := by
  have hlist := congrArg String.toList h
  simp only [String.toList_append, List.append_assoc, List.append_cancel_left_eq,
    List.append_cancel_right_eq] at hlist
  exact String.toList_inj.mp hlist

/-- What is accepted around a middle that is not blank. -/
theorem accepted_iff (hpieces : ∀ piece ∈ trailingPieces inserted, Text.trim piece.text ≠ "")
    (hmiddle : Text.trim middle ≠ "") :
    recoveredMiddle prompt inserted = some middle ↔
      prompt = leadingText inserted ++ middle ++ fixedText (trailingPieces inserted) ∧
        Text.trim middle = middle ∧ Ended inserted middle := by
  rw [recoveredMiddle_eq_some_iff, applyInsertedText_shape hpieces hmiddle]
  refine and_congr_right fun hprompt => ?_
  constructor
  · intro hsame
    have hended := append_cancel (hsame.trans hprompt)
    have htrim : Text.trim middle = middle := by
      have hagain : Text.trim (endedMiddle inserted (Text.trim middle)) =
          endedMiddle inserted (Text.trim middle) :=
          trim_endedMiddle (Text.trim_trim middle) hmiddle
      rwa [hended] at hagain
    rw [htrim] at hended
    exact ⟨htrim, endedMiddle_eq_self_iff.mp hended⟩
  · rintro ⟨htrim, hended⟩
    rw [htrim, endedMiddle_eq_self_iff.mpr hended, hprompt]

theorem endedMiddle_alike {other : String}
    (h : endedMiddle inserted middle = endedMiddle inserted other) :
    middle = other ∨ middle = other ++ "." ∨ other = middle ++ "." := by
  unfold endedMiddle at h
  split at h
  · split at h
    · exact .inl h
    · exact .inr (.inl h)
  · split at h
    · exact .inr (.inr h.symm)
    · exact .inl ((String.append_left_inj _).mp h)

end Shape

section Labels

theorem takeWhile_digits (n : Nat) (rest : List Char) :
    ((toString n).toList ++ '>' :: rest).takeWhile (· ≠ '>') = Nat.toDigits 10 n := by
  rw [Nat.toString_eq_repr, Nat.toList_repr, List.takeWhile_append_of_pos]
  · simp
  · intro c hc
    have hdigit := Nat.isDigit_of_mem_toDigits (by decide) (by decide) hc
    rw [decide_eq_true_eq]
    rintro rfl
    exact absurd hdigit (by decide)

theorem pictureLabel_inj {a b : UInt32} {s t : String}
    (h : pictureLabel a ++ s = pictureLabel b ++ t) : a = b := by
  have hlist := congrArg String.toList h
  simp only [pictureLabel, String.toList_append, List.append_assoc,
    List.append_cancel_left_eq] at hlist
  have hclose : ∀ text : String, ">".toList ++ text.toList = '>' :: text.toList := fun _ => rfl
  rw [hclose, hclose] at hlist
  have hdigits := congrArg (List.takeWhile (· ≠ '>')) hlist
  rw [takeWhile_digits, takeWhile_digits] at hdigits
  have hnumber := congrArg (Nat.ofDigitChars 10 · 0) hdigits
  exact UInt32.toNat_inj.mp (by simpa using hnumber)

/-- With two picture labels of the leading text exchanged, whatever follows is not accepted. -/
theorem recoveredMiddle_swapped {inserted : List InsertedText} {before between after : String}
    {a b : UInt32} (hleading : leadingText inserted =
      before ++ pictureLabel a ++ between ++ pictureLabel b ++ after) (hab : a ≠ b)
    (rest : String) :
    recoveredMiddle
      (before ++ pictureLabel b ++ between ++ pictureLabel a ++ after ++ rest) inserted = none := by
  cases hrecovered : recoveredMiddle
      (before ++ pictureLabel b ++ between ++ pictureLabel a ++ after ++ rest) inserted with
  | none => rfl
  | some middle =>
      have hprompt := (recoveredMiddle_eq_some_iff.mp hrecovered).1
      rw [hleading] at hprompt
      simp only [String.append_assoc] at hprompt
      exact absurd (pictureLabel_inj ((String.append_right_inj _).mp hprompt)).symm hab

end Labels

section Pieces

theorem leadingText_append (front back : List InsertedText) :
    leadingText (front ++ back) = leadingText front ++ leadingText back := by
  simp [leadingText, leadingPieces, String.join_append]

theorem leadingText_cons {piece : InsertedText} (h : piece.kind.placement = .leading)
    (rest : List InsertedText) :
    leadingText (piece :: rest) = Text.trim piece.text ++ " " ++ leadingText rest := by
  simp [leadingText, leadingPieces, h, String.join_cons]

theorem trailingPieces_leading {piece : InsertedText} (h : piece.kind.placement = .leading)
    (front back : List InsertedText) :
    trailingPieces (front ++ piece :: back) = trailingPieces (front ++ back) := by
  simp [trailingPieces, h]

theorem leadingText_blank_end (pieces : List InsertedText) :
    leadingText pieces = "" ∨ ∃ text, leadingText pieces = text ++ " " := by
  unfold leadingText
  rcases List.eq_nil_or_concat (leadingPieces pieces) with hnil | ⟨front, piece, hfront⟩
  · exact .inl (by rw [hnil]; rfl)
  · refine .inr ⟨String.join (front.map fun piece => Text.trim piece.text ++ " ") ++
      Text.trim piece.text, ?_⟩
    simp [hfront, String.join_append, String.append_assoc]

theorem pushFixed_blank (text : String) (piece : InsertedText) :
    ∃ more, pushFixed (" " ++ text) piece = " " ++ more := by
  unfold pushFixed
  split
  · exact ⟨text ++ " " ++ Text.trim piece.text, by simp [String.append_assoc]⟩
  · exact ⟨text ++ "." ++ " " ++ Text.trim piece.text, by simp [String.append_assoc]⟩

theorem fixedText_blank_start (pieces : List InsertedText) :
    fixedText pieces = "" ∨ ∃ text, fixedText pieces = " " ++ text := by
  have hfold : ∀ (pieces : List InsertedText) (text : String),
      ∃ more, pieces.foldl pushFixed (" " ++ text) = " " ++ more := by
    intro pieces
    induction pieces with
    | nil => exact fun text => ⟨text, rfl⟩
    | cons piece pieces ih =>
        intro text
        obtain ⟨more, hmore⟩ := pushFixed_blank text piece
        rw [List.foldl_cons, hmore]
        exact ih more
  cases pieces with
  | nil => exact .inl rfl
  | cons piece pieces => exact .inr (hfold pieces _)

/-- A text with nothing but blanks at its end does not end. -/
theorem not_ends_append {text blanks : String} (hne : blanks ≠ "")
    (hblank : ∀ c ∈ blanks.toList, Text.isWhiteSpace c = true) : ¬ Ends (text ++ blanks) := by
  rintro ⟨front, c, heq, hc⟩
  have hlist : blanks.toList ≠ [] := fun hnil => hne (String.toList_inj.mp hnil)
  have hlast : (text ++ blanks).toList.getLast? = some (blanks.toList.getLast hlist) := by
    rw [String.toList_append, List.getLast?_append, List.getLast?_eq_some_getLast hlist]
    rfl
  rw [heq, List.getLast?_concat] at hlast
  rw [Option.some.inj hlast, hblank _ (List.getLast_mem hlist)] at hc
  cases hc

theorem starts_of_trim {text : String} (htrim : Text.trim text = text) (hne : text ≠ "") :
    ∃ c rest, text.toList = c :: rest ∧ Text.isWhiteSpace c = false := by
  have hdrop := Text.dropWhile_of_trim_eq htrim
  cases hlist : text.toList with
  | nil => exact absurd (String.toList_inj.mp hlist) hne
  | cons c rest =>
      refine ⟨c, rest, rfl, ?_⟩
      rw [hlist] at hdrop
      cases hc : Text.isWhiteSpace c with
      | false => rfl
      | true =>
          rw [List.dropWhile_cons_of_pos hc] at hdrop
          have hless := (List.dropWhile_suffix Text.isWhiteSpace (l := rest)).length_le
          rw [hdrop, List.length_cons] at hless
          omega

theorem ends_of_trim {text : String} (htrim : Text.trim text = text) (hne : text ≠ "") :
    Ends text := by
  have hblank : Text.trim text ≠ "" := by rwa [htrim]
  have hends := ends_trim hblank
  rwa [htrim] at hends

variable {inserted others : List InsertedText} {middle middle' : String}

theorem endedMiddle_ne_empty (h : middle ≠ "") : endedMiddle inserted middle ≠ "" := by
  unfold endedMiddle
  split
  · exact h
  · simp

theorem endedMiddle_solid (inserted : List InsertedText) (h : Text.trim middle ≠ "") :
    Text.trim (endedMiddle inserted (Text.trim middle)) = endedMiddle inserted (Text.trim middle) ∧
      endedMiddle inserted (Text.trim middle) ≠ "" :=
  ⟨trim_endedMiddle (Text.trim_trim middle) h, endedMiddle_ne_empty h⟩

theorem endsSentence_endedMiddle (h : trailingPieces inserted ≠ []) :
    endsSentence (leadingText inserted ++ endedMiddle inserted middle) = true :=
  (endedMiddle_eq_self_iff.mp endedMiddle_endedMiddle).resolve_left h

/-- With one leading sentence left out, the prompt is accepted exactly where the text after the gap
begins with that sentence and what follows it, once more. -/
theorem recoveredMiddle_without_leading {front back : List InsertedText} {piece : InsertedText}
    (hpieces : ∀ other ∈ front ++ piece :: back, Text.trim other.text ≠ "")
    (hplacement : piece.kind.placement = .leading) (hmiddle : Text.trim middle ≠ "") :
    recoveredMiddle (applyInsertedText middle (front ++ back)) (front ++ piece :: back) =
        some middle' ↔
      leadingText back ++ endedMiddle (front ++ back) (Text.trim middle) =
          Text.trim piece.text ++ " " ++ leadingText back ++ middle' ∧
        Text.trim middle' = middle' := by
  have htrailing := trailingPieces_leading hplacement front back
  have hfixed : ∀ other ∈ trailingPieces (front ++ back), Text.trim other.text ≠ "" := by
    intro other hother
    rw [← htrailing] at hother
    exact hpieces other (List.mem_of_mem_filter hother)
  have hprompt := applyInsertedText_shape hfixed hmiddle
  rw [leadingText_append] at hprompt
  have hwhole : leadingText (front ++ piece :: back) =
      leadingText front ++ (Text.trim piece.text ++ " " ++ leadingText back) := by
    rw [leadingText_append, leadingText_cons hplacement]
  -- What is recovered is not blank: the text ends with a character that is not.
  have hsolid : leadingText back ++ endedMiddle (front ++ back) (Text.trim middle) =
      Text.trim piece.text ++ " " ++ leadingText back ++ middle' → Text.trim middle' ≠ "" := by
    intro heq hblank
    obtain ⟨htrim, hne⟩ := endedMiddle_solid (front ++ back) hmiddle
    have hends := (ends_of_trim htrim hne).append (leadingText back)
    rw [heq] at hends
    obtain ⟨text, htext⟩ :
        ∃ text, Text.trim piece.text ++ " " ++ leadingText back = text ++ " " := by
      rcases leadingText_blank_end back with hnone | ⟨text, hback⟩
      · exact ⟨Text.trim piece.text, by rw [hnone, String.append_empty]⟩
      · exact ⟨Text.trim piece.text ++ " " ++ text, by rw [hback, ← String.append_assoc]⟩
    rw [htext, String.append_assoc] at hends
    refine not_ends_append (by simp) ?_ hends
    intro c hc
    rw [String.toList_append, List.mem_append] at hc
    rcases hc with hspace | hc
    · obtain rfl : c = ' ' := by simpa using hspace
      decide
    · exact (Text.trim_eq_empty_iff middle').mp hblank c hc
  constructor
  · intro h
    have heq := (recoveredMiddle_eq_some_iff.mp h).1
    rw [hprompt, hwhole, htrailing] at heq
    have hsplit : leadingText front ++ (leadingText back ++
          endedMiddle (front ++ back) (Text.trim middle)) ++
          fixedText (trailingPieces (front ++ back)) =
        leadingText front ++ (Text.trim piece.text ++ " " ++ leadingText back ++ middle') ++
          fixedText (trailingPieces (front ++ back)) := by
      simpa only [String.append_assoc] using heq
    have hcancel := append_cancel hsplit
    have hall : ∀ other ∈ trailingPieces (front ++ piece :: back), Text.trim other.text ≠ "" := by
      rwa [htrailing]
    exact ⟨hcancel, ((accepted_iff hall (hsolid hcancel)).mp h).2.1⟩
  · rintro ⟨heq, htrim⟩
    have hall : ∀ other ∈ trailingPieces (front ++ piece :: back), Text.trim other.text ≠ "" := by
      rwa [htrailing]
    have hsame : leadingText (front ++ piece :: back) ++ middle' =
        leadingText (front ++ back) ++ endedMiddle (front ++ back) (Text.trim middle) := by
      rw [hwhole, String.append_assoc, ← heq, leadingText_append, String.append_assoc]
    refine (accepted_iff hall (hsolid heq)).mpr ⟨?_, htrim, ?_⟩
    · rw [hprompt, hsame, htrailing, leadingText_append]
    · by_cases hnone : trailingPieces (front ++ back) = []
      · exact .inl (htrailing.trans hnone)
      · right
        rw [hsame]
        exact endsSentence_endedMiddle hnone

/-- With other trailing sentences, the prompt is accepted exactly where it ends with the expected
ones all the same. -/
theorem recoveredMiddle_other_trailing
    (hpieces : ∀ piece ∈ trailingPieces inserted, Text.trim piece.text ≠ "")
    (hothers : ∀ piece ∈ trailingPieces others, Text.trim piece.text ≠ "")
    (hleading : leadingText others = leadingText inserted) (hmiddle : Text.trim middle ≠ "") :
    recoveredMiddle (applyInsertedText middle others) inserted = some middle' ↔
      endedMiddle others (Text.trim middle) ++ fixedText (trailingPieces others) =
          middle' ++ fixedText (trailingPieces inserted) ∧
        Text.trim middle' = middle' ∧ Ended inserted middle' := by
  have hprompt := applyInsertedText_shape hothers hmiddle
  rw [hleading] at hprompt
  have hsolid : endedMiddle others (Text.trim middle) ++ fixedText (trailingPieces others) =
      middle' ++ fixedText (trailingPieces inserted) → Text.trim middle' ≠ "" := by
    intro heq hblank
    obtain ⟨htrim, hne⟩ := endedMiddle_solid others hmiddle
    obtain ⟨c, rest, hstart, hc⟩ := starts_of_trim htrim hne
    have hlist := congrArg String.toList heq
    rw [String.toList_append, hstart, String.toList_append] at hlist
    have hblanks := (Text.trim_eq_empty_iff middle').mp hblank
    cases hchars : middle'.toList with
    | nil =>
        rw [hchars] at hlist
        rcases fixedText_blank_start (trailingPieces inserted) with hnone | ⟨text, htext⟩
        · rw [hnone] at hlist
          cases hlist
        · rw [htext, String.toList_append] at hlist
          obtain rfl : c = ' ' := (List.cons.inj hlist).1
          exact absurd hc (by decide)
    | cons d chars =>
        rw [hchars] at hlist hblanks
        rw [(List.cons.inj hlist).1, hblanks d List.mem_cons_self] at hc
        cases hc
  constructor
  · intro h
    have heq := (recoveredMiddle_eq_some_iff.mp h).1
    rw [hprompt, String.append_assoc, String.append_assoc] at heq
    have hcancel := (String.append_right_inj _).mp heq
    exact ⟨hcancel, ((accepted_iff hpieces (hsolid hcancel)).mp h).2⟩
  · rintro ⟨heq, htrim, hended⟩
    refine (accepted_iff hpieces (hsolid heq)).mpr ⟨?_, htrim, hended⟩
    rw [hprompt, String.append_assoc, heq, String.append_assoc]

end Pieces

section Exact

/-- Taking the sentences off undoes putting them on, and what it accepts beyond that is spelled out:
never two labels exchanged, and a prompt made with fewer or other sentences only where its text is
all the same the one around another middle. -/
theorem recoveredMiddle_exact (inserted : List InsertedText)
    (hpieces : ∀ piece ∈ inserted, Text.trim piece.text ≠ "") :
    (∀ middle, Text.trim middle ≠ "" →
      recoveredMiddle (applyInsertedText middle inserted) inserted =
        some (if trailingPieces inserted ≠ [] ∧
            endsSentence (leadingText inserted ++ Text.trim middle) = false
          then Text.trim middle ++ "." else Text.trim middle)) ∧
    (∀ prompt middle, recoveredMiddle prompt inserted = some middle →
      applyInsertedText middle inserted = prompt) ∧
    (∀ middle other, Text.trim middle ≠ "" → Text.trim other ≠ "" →
      recoveredMiddle (applyInsertedText middle inserted) inserted =
        recoveredMiddle (applyInsertedText other inserted) inserted →
      Text.trim middle = Text.trim other ∨ Text.trim middle = Text.trim other ++ "." ∨
        Text.trim other = Text.trim middle ++ ".") ∧
    (∀ (before between after rest : String) (a b : UInt32), leadingText inserted =
        before ++ pictureLabel a ++ between ++ pictureLabel b ++ after → a ≠ b →
      recoveredMiddle
        (before ++ pictureLabel b ++ between ++ pictureLabel a ++ after ++ rest) inserted = none) ∧
    (∀ (front back : List InsertedText) (piece : InsertedText) (middle middle' : String),
      inserted = front ++ piece :: back → piece.kind.placement = .leading →
      Text.trim middle ≠ "" →
      (recoveredMiddle (applyInsertedText middle (front ++ back)) inserted = some middle' ↔
        leadingText back ++ endedMiddle (front ++ back) (Text.trim middle) =
            Text.trim piece.text ++ " " ++ leadingText back ++ middle' ∧
          Text.trim middle' = middle')) ∧
    ∀ (others : List InsertedText) (middle middle' : String),
      leadingPieces others = leadingPieces inserted →
      (∀ piece ∈ trailingPieces others, Text.trim piece.text ≠ "") → Text.trim middle ≠ "" →
      (recoveredMiddle (applyInsertedText middle others) inserted = some middle' ↔
        endedMiddle others (Text.trim middle) ++ fixedText (trailingPieces others) =
            middle' ++ fixedText (trailingPieces inserted) ∧
          Text.trim middle' = middle' ∧ Ended inserted middle') := by
  have htrailing : ∀ piece ∈ trailingPieces inserted, Text.trim piece.text ≠ "" :=
    fun piece hpiece => hpieces piece (List.mem_of_mem_filter hpiece)
  have hended : ∀ middle, Text.trim middle ≠ "" →
      recoveredMiddle (applyInsertedText middle inserted) inserted =
        some (endedMiddle inserted (Text.trim middle)) := by
    intro middle hmiddle
    have hrecovered := recoveredMiddle_applyInsertedText htrailing (Text.trim_trim middle) hmiddle
    rwa [applyInsertedText_trim] at hrecovered
  refine ⟨?_, fun prompt middle h => (eq_applyInsertedText h).symm, ?_, ?_, ?_, ?_⟩
  · intro middle hmiddle
    rw [hended middle hmiddle, endedMiddle]
    cases htrail : trailingPieces inserted with
    | nil => simp
    | cons piece pieces =>
        cases endsSentence (leadingText inserted ++ Text.trim middle) <;> simp
  · intro middle other hmiddle hother halike
    rw [hended middle hmiddle, hended other hother] at halike
    exact endedMiddle_alike (Option.some.inj halike)
  · intro before between after rest a b hleading hab
    exact recoveredMiddle_swapped hleading hab rest
  · rintro front back piece middle middle' rfl hplacement hmiddle
    exact recoveredMiddle_without_leading hpieces hplacement hmiddle
  · intro others middle middle' hleading hothers hmiddle
    have hsame : leadingText others = leadingText inserted := by
      rw [leadingText, hleading, leadingText]
    exact recoveredMiddle_other_trailing htrailing hothers hsame hmiddle

def hallSentence : InsertedText := ⟨.continuityDescription, "A long hall."⟩

def rainSentence : InsertedText := ⟨.audio, "Audio: rain."⟩

theorem hall_exact :
    recoveredMiddle (applyInsertedText " She waits " [hallSentence, rainSentence])
      [hallSentence, rainSentence] = some "She waits." :=
  ((recoveredMiddle_exact [hallSentence, rainSentence] (by decide)).1 " She waits "
    (by decide)).trans (by decide)

/-- A prompt without its leading sentence is accepted where the middle opens with that sentence, and
one without its trailing sentence where the middle closes with it. -/
theorem accepts_echoed_sentences :
    ¬ (∀ (front back : List InsertedText) (piece : InsertedText) (middle : String),
        (∀ other ∈ front ++ piece :: back, Text.trim other.text ≠ "") →
        piece.kind.placement = .leading → Text.trim middle ≠ "" →
        recoveredMiddle (applyInsertedText middle (front ++ back)) (front ++ piece :: back) =
          none) ∧
    ¬ (∀ (front back : List InsertedText) (piece : InsertedText) (middle : String),
        (∀ other ∈ front ++ piece :: back, Text.trim other.text ≠ "") →
        piece.kind.placement = .trailing → Text.trim middle ≠ "" →
        recoveredMiddle (applyInsertedText middle (front ++ back)) (front ++ piece :: back) =
            none) := by
  constructor
  · intro h
    have hnone := h [] [] hallSentence "A long hall. She waits." (by decide) rfl (by decide)
    revert hnone
    decide
  · intro h
    have hnone := h [] [] rainSentence "She waits. Audio: rain." (by decide) rfl (by decide)
    revert hnone
    decide

end Exact

end SceneWorks.FilmCompile
