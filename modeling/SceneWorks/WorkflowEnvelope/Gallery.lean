import SceneWorks.WorkflowEnvelope.Parameters

/-!
How a gallery reads the settings line. The reader takes a value that starts with a double
quote for a JSON string, while the renderer quotes a value only for its separators, so a label
that starts with a double quote is where they part.
-/

namespace SceneWorks.WorkflowEnvelope

/-- The alphanumeric characters, of which only the ASCII ones matter here. -/
structure KeyTable where
  isAlphanumeric : Char → Bool
  ascii : ∀ c, c.toNat < 128 → isAlphanumeric c = c.isAlphanum

variable (table : KeyTable)

def KeyTable.isKeyChar (c : Char) : Bool :=
  table.isAlphanumeric c || c = '_' || c = ' ' || c = '-' || c = '/'

/-- The characters up to the closing quote, with it; after a backslash one is skipped. -/
def quotedSpan (skip : Bool) : List Char → List Char × List Char
  | [] => ([], [])
  | c :: rest =>
      if !skip && c = '"' then ([c], rest)
      else
        let read := quotedSpan (!skip && c = '\\') rest
        (c :: read.1, read.2)

def readValue : List Char → List Char × List Char
  | '"' :: body =>
      let raw := '"' :: (quotedSpan false body).1
      ((JsonString.decode raw).getD raw, (quotedSpan false body).2)
  | text => ((text.takeWhile (· ≠ ',')).rdropWhile Text.isWhiteSpace, text.dropWhile (· ≠ ','))

/-- The pairs on a line, as long as there is a key with a colon. -/
def parseParams : Nat → List Char → List (String × String)
  | 0, _ => []
  | fuel + 1, line =>
      let start := line.dropWhile fun c => c = ' ' || c = ','
      let key := start.takeWhile table.isKeyChar
      match start.dropWhile table.isKeyChar with
      | ':' :: after =>
          if key = [] || key.head? = some ' ' then []
          else
            let read := readValue (after.dropWhile (· = ' '))
            (String.ofList key, String.ofList read.1) :: parseParams fuel read.2
      | _ => []

/-- What follows the closing quote, if there is one. -/
def quotedEnd (skip : Bool) : List Char → Option (List Char)
  | [] => none
  | c :: rest => if !skip && c = '"' then some rest else quotedEnd (!skip && c = '\\') rest

def hasSeparator (value : List Char) : Bool :=
  value.contains ',' || value.contains '\n' || value.contains ':'

/-- The reader's quoted text ends with the value: at its last quote, or with the line. -/
def readsWhole (last : Bool) (body : List Char) : Bool :=
  match quotedEnd false body with
  | some rest => rest.isEmpty
  | none => last

/-- A value that the reader takes for a JSON string although it was written bare. -/
def misread (last : Bool) : List Char → Bool
  | '"' :: body =>
      !hasSeparator ('"' :: body) &&
        (!readsWhole last body || (JsonString.decode ('"' :: body)).isSome)
  | _ => false

section Values

variable {table : KeyTable} {body rest tail value : List Char}

theorem quotedSpan_of_end {skip : Bool} (h : quotedEnd skip body = some rest) :
    ∃ front, body = front ++ rest ∧ front ≠ [] ∧
      ∀ tail, quotedSpan skip (body ++ tail) = (front, rest ++ tail) := by
  induction body generalizing skip with
  | nil => cases h
  | cons c body ih =>
      unfold quotedEnd at h
      split at h
      · next hquote =>
          obtain rfl := Option.some.inj h
          refine ⟨[c], rfl, List.cons_ne_nil c [], fun tail => ?_⟩
          rw [List.cons_append, quotedSpan, if_pos hquote]
      · next hquote =>
          obtain ⟨front, rfl, -, hspan⟩ := ih h
          refine ⟨c :: front, rfl, List.cons_ne_nil c front, fun tail => ?_⟩
          rw [List.cons_append, quotedSpan, if_neg hquote, hspan]

/-- An open quote reaches into what follows. -/
theorem quotedSpan_of_open {skip : Bool} (h : quotedEnd skip body = none) (tail : List Char) :
    ∃ front, (∃ skip', quotedSpan skip' tail = (front, (quotedSpan skip (body ++ tail)).2)) ∧
      (quotedSpan skip (body ++ tail)).1 = body ++ front := by
  induction body generalizing skip with
  | nil => exact ⟨_, ⟨skip, rfl⟩, rfl⟩
  | cons c body ih =>
      unfold quotedEnd at h
      split at h
      · cases h
      · next hquote =>
          obtain ⟨front, hread, hspan⟩ := ih h
          refine ⟨front, ?_, ?_⟩
          · rw [List.cons_append, quotedSpan, if_neg hquote]
            exact hread
          · rw [List.cons_append, quotedSpan, if_neg hquote]
            exact congrArg (c :: ·) hspan

theorem quotedEnd_escape (c : Char) (rest : List Char) :
    quotedEnd false (JsonString.escape c ++ rest) = quotedEnd false rest := by
  have hdigit : ∀ n < 16, n.digitChar ≠ '"' ∧ n.digitChar ≠ '\\' := by decide
  have hescaped := JsonString.escaped_escape c
  generalize JsonString.escape c = written at hescaped ⊢
  cases hescaped with
  | letter => rfl
  | number hcontrol =>
      obtain ⟨hhigh, hhigh'⟩ := hdigit (c.toNat / 16) (by omega)
      obtain ⟨hlow, hlow'⟩ := hdigit (c.toNat % 16) (Nat.mod_lt _ (by decide))
      simp [quotedEnd, hhigh, hhigh', hlow, hlow']
  | plain hquote hback => simp [quotedEnd, hquote, hback]

theorem quotedEnd_encoded (text : List Char) :
    quotedEnd false (text.flatMap JsonString.escape ++ ['"']) = some [] := by
  induction text with
  | nil => rfl
  | cons c text ih => rw [List.flatMap_cons, List.append_assoc, quotedEnd_escape, ih]

theorem readValue_encode (text tail : List Char) :
    readValue (JsonString.encode text ++ tail) = (text, tail) := by
  obtain ⟨front, hfront, -, hspan⟩ := quotedSpan_of_end (quotedEnd_encoded text)
  rw [List.append_nil] at hfront
  have hdecode : JsonString.decode ('"' :: front) = some text := by
    rw [← hfront]
    exact JsonString.decode_encode text
  rw [JsonString.encode, List.cons_append, readValue, hspan]
  dsimp only
  rw [hdecode]
  rfl

/-- What can stand after a value: nothing, or a comma. -/
def AfterValue (tail : List Char) : Prop := tail = [] ∨ ∃ more, tail = ',' :: more

theorem takeWhile_value (hvalue : ',' ∉ value) (htail : AfterValue tail) :
    (value ++ tail).takeWhile (· ≠ ',') = value ∧ (value ++ tail).dropWhile (· ≠ ',') = tail := by
  have hall : ∀ c ∈ value, decide (c ≠ ',') = true := fun c hc =>
    decide_eq_true fun heq => hvalue (heq ▸ hc)
  rw [List.takeWhile_append_of_pos hall, List.dropWhile_append_of_pos hall]
  obtain rfl | ⟨more, rfl⟩ := htail
  · exact ⟨List.append_nil value, rfl⟩
  · exact ⟨by simp, by simp⟩

theorem readValue_bare (hquote : ∀ body, value ≠ '"' :: body) (hcomma : ',' ∉ value)
    (htrim : value.rdropWhile Text.isWhiteSpace = value) (htail : AfterValue tail) :
    readValue (value ++ tail) = (value, tail) := by
  have hstart : ∀ body, value ++ tail ≠ '"' :: body := by
    intro body heq
    cases value with
    | nil =>
        obtain rfl | ⟨more, rfl⟩ := htail
        · cases heq
        · cases heq
    | cons c value =>
        obtain ⟨rfl, -⟩ := List.cons.inj heq
        exact hquote value rfl
  obtain ⟨htake, hdrop⟩ := takeWhile_value hcomma htail
  rw [readValue, htake, hdrop, htrim]
  exact hstart

/-- What a quoted text stands for is not the text itself. -/
theorem decoded_ne {raw : List Char} (h : raw.length ≤ body.length)
    (hraw : raw.length < body.length ∨ (JsonString.decode ('"' :: raw)).isSome = true) :
    (JsonString.decode ('"' :: raw)).getD ('"' :: raw) ≠ '"' :: body := by
  intro heq
  have hlength := congrArg List.length heq
  cases hdecode : JsonString.decode ('"' :: raw) with
  | none =>
      rw [hdecode] at hraw
      have hshort := hraw.resolve_right (by simp)
      rw [hdecode] at hlength
      simp only [Option.getD_none, List.length_cons] at hlength
      omega
  | some content =>
      have hshort := (JsonString.decode_length hdecode).1
      rw [hdecode] at hlength
      simp only [Option.getD_some, List.length_cons] at hlength
      omega

/-- A bare value with a quote in front is read back exactly when it is not misread. -/
theorem readValue_quote (hcomma : ',' ∉ '"' :: body) (hsep : hasSeparator ('"' :: body) = false)
    (htail : AfterValue tail) :
    (misread tail.isEmpty ('"' :: body) = false →
        readValue ('"' :: body ++ tail) = ('"' :: body, tail)) ∧
      (misread tail.isEmpty ('"' :: body) = true →
        (readValue ('"' :: body ++ tail)).1 ≠ '"' :: body) := by
  have not_isSome : ∀ {raw : List Char}, (!true || (JsonString.decode raw).isSome) = false →
      JsonString.decode raw = none := fun h => Option.not_isSome_iff_eq_none.mp (by simpa using h)
  rw [List.cons_append, readValue, misread, hsep, Bool.not_false, Bool.true_and, readsWhole]
  cases hend : quotedEnd false body with
  | none =>
      obtain ⟨front, ⟨skip, hread⟩, hspan⟩ := quotedSpan_of_open hend tail
      dsimp only
      rw [hspan]
      obtain rfl | ⟨more, rfl⟩ := htail
      · obtain ⟨rfl, hrest⟩ := Prod.mk.inj hread
        rw [← hrest, List.append_nil]
        exact ⟨fun hgood => by rw [not_isSome hgood]; rfl, fun hbad =>
          decoded_ne le_rfl (Or.inr hbad)⟩
      · refine ⟨fun hgood => absurd hgood (by simp), fun _ heq => ?_⟩
        have hin : ',' ∈ front := by
          have hfront := congrArg Prod.fst hread
          rw [quotedSpan, if_neg (by simp)] at hfront
          dsimp only at hfront
          rw [← hfront]
          exact List.mem_cons_self
        cases hdecode : JsonString.decode ('"' :: (body ++ front)) with
        | none =>
            rw [hdecode, Option.getD_none] at heq
            exact hcomma (heq ▸ List.mem_cons_of_mem _ (List.mem_append_right body hin))
        | some content =>
            rw [hdecode, Option.getD_some] at heq
            have hkept := (JsonString.decode_length hdecode).2 (List.mem_append_right body hin)
            exact hcomma (heq ▸ hkept)
  | some rest =>
      obtain ⟨front, rfl, hne, hspan⟩ := quotedSpan_of_end hend
      dsimp only
      rw [hspan]
      dsimp only
      cases rest with
      | nil =>
          rw [List.append_nil, List.nil_append]
          exact ⟨fun hgood => by rw [not_isSome hgood]; rfl,
            fun hbad => decoded_ne le_rfl (Or.inr hbad)⟩
      | cons c rest =>
          refine ⟨fun hgood => absurd hgood (by simp), fun _ => decoded_ne ?_ (Or.inl ?_)⟩
          · simp
          · simp

theorem misread_of_separator (last : Bool) (h : hasSeparator value = true) :
    misread last value = false := by
  unfold misread
  split
  · rw [h]
    rfl
  · rfl

theorem misread_of_no_quote (last : Bool) (h : ∀ body, value ≠ '"' :: body) :
    misread last value = false := by
  unfold misread
  split
  · exact absurd rfl (h _)
  · rfl

theorem not_mem_of_no_separator (h : hasSeparator value = false) : ',' ∉ value := by
  intro hmem
  rw [hasSeparator, List.contains_iff_mem.mpr hmem] at h
  cases h

/-- A text without blanks at its ends. -/
def Trimmed (text : String) : Prop := Text.trim text = text

theorem dropWhile_blank {text : List Char} (h : text.dropWhile Text.isWhiteSpace = text)
    (htail : AfterValue tail) : (text ++ tail).dropWhile (· = ' ') = text ++ tail := by
  cases text with
  | nil =>
      obtain rfl | ⟨more, rfl⟩ := htail
      · rfl
      · exact List.dropWhile_cons_of_neg (by simp)
  | cons c text =>
      refine List.dropWhile_cons_of_neg fun hc => ?_
      have hspace : c = ' ' := of_decide_eq_true hc
      have hwhite : Text.isWhiteSpace c = true := by rw [hspace]; decide
      rw [List.dropWhile_cons_of_pos hwhite] at h
      have hlength := congrArg List.length h
      have hle := (List.dropWhile_suffix (l := text) Text.isWhiteSpace).length_le
      rw [List.length_cons] at hlength
      omega

/-- A value on the line is read back exactly when it is not misread. -/
theorem readValue_spec {text : String} (htext : Trimmed text ∨ hasSeparator text.toList = true)
    (htail : AfterValue tail) :
    (misread tail.isEmpty text.toList = false →
        readValue ((quote text ++ tail).dropWhile (· = ' ')) = (text.toList, tail)) ∧
      (misread tail.isEmpty text.toList = true →
        (readValue ((quote text ++ tail).dropWhile (· = ' '))).1 ≠ text.toList) := by
  cases hsep : hasSeparator text.toList with
  | true =>
      have hquote : quote text = JsonString.encode text.toList := if_pos hsep
      have hstart : (JsonString.encode text.toList ++ tail).dropWhile (· = ' ') =
          JsonString.encode text.toList ++ tail := List.dropWhile_cons_of_neg (by decide)
      rw [hquote, hstart, misread_of_separator _ hsep, readValue_encode]
      exact ⟨fun _ => rfl, fun h => (nomatch h)⟩
  | false =>
      have hnone : ¬ hasSeparator text.toList = true := by
        rw [hsep]
        exact Bool.false_ne_true
      have hquote : quote text = text.toList := if_neg hnone
      have htrim : Text.trim text = text := htext.resolve_right (hsep ▸ Bool.false_ne_true)
      have hfront := Text.dropWhile_of_trim_eq htrim
      have hback : text.toList.rdropWhile Text.isWhiteSpace = text.toList := by
        have hlist := Text.toList_trim text
        rw [htrim, hfront] at hlist
        exact hlist.symm
      rw [hquote, dropWhile_blank hfront htail]
      have hcomma := not_mem_of_no_separator hsep
      cases hhead : text.toList with
      | nil =>
          have hbare : ∀ body, ([] : List Char) ≠ '"' :: body := fun body h => (nomatch h)
          rw [misread_of_no_quote _ hbare]
          exact ⟨fun _ => readValue_bare hbare List.not_mem_nil rfl htail, fun h => (nomatch h)⟩
      | cons c body =>
          rw [hhead] at hcomma hsep hback
          by_cases hc : c = '"'
          · subst hc
            exact readValue_quote hcomma hsep htail
          · have hbare : ∀ body', c :: body ≠ '"' :: body' := fun body' h => hc (List.cons.inj h).1
            rw [misread_of_no_quote _ hbare]
            exact ⟨fun _ => readValue_bare hbare hcomma hback htail, fun h => (nomatch h)⟩

end Values

section Lines

variable {table : KeyTable} {pairs : List (String × String)} {fuel : Nat}

/-- A key of the line: ASCII words, the first of which starts it. -/
def IsKey (key : String) : Prop :=
  key.toList ≠ [] ∧ key.toList.head? ≠ some ' ' ∧
    ∀ c ∈ key.toList, c.toNat < 128 ∧ (c.isAlphanum || c = ' ') = true

instance (key : String) : Decidable (IsKey key) := inferInstanceAs (Decidable (_ ∧ _ ∧ _))

theorem isKeyChar_of_mem {key : String} (hkey : IsKey key) {c : Char} (hc : c ∈ key.toList) :
    table.isKeyChar c = true := by
  obtain ⟨hascii, hword⟩ := hkey.2.2 c hc
  rw [KeyTable.isKeyChar, table.ascii c hascii]
  simp only [Bool.or_eq_true, decide_eq_true_eq] at hword ⊢
  tauto

theorem not_isKeyChar_colon : table.isKeyChar ':' = false := by
  rw [KeyTable.isKeyChar, table.ascii ':' (by decide)]
  decide

theorem parseParams_pair {key value : String} (hkey : IsKey key) {before : List Char}
    (hbefore : before = [] ∨ before = [',', ' ']) (tail : List Char) (fuel : Nat) :
    parseParams table (fuel + 1) (before ++ (renderPair (key, value) ++ tail)) =
      (key, String.ofList (readValue ((quote value ++ tail).dropWhile (· = ' '))).1) ::
        parseParams table fuel (readValue ((quote value ++ tail).dropWhile (· = ' '))).2 := by
  obtain ⟨hne, hhead, hchars⟩ := hkey
  have hskip : (before ++ (renderPair (key, value) ++ tail)).dropWhile
      (fun c => c = ' ' || c = ',') = key.toList ++ ':' :: ' ' :: (quote value ++ tail) := by
    have hstart : (key.toList ++ ':' :: ' ' :: (quote value ++ tail)).dropWhile
        (fun c => c = ' ' || c = ',') = key.toList ++ ':' :: ' ' :: (quote value ++ tail) := by
      cases hlist : key.toList with
      | nil => exact absurd hlist hne
      | cons c rest =>
          have hword := (hchars c (hlist ▸ List.mem_cons_self)).2
          rw [hlist] at hhead
          have hspace : c ≠ ' ' := fun heq => hhead (by rw [heq]; rfl)
          refine List.dropWhile_cons_of_neg ?_
          rintro hc
          simp only [Bool.or_eq_true, decide_eq_true_eq] at hc hword
          obtain rfl := hc.resolve_left hspace
          exact absurd hword (by decide)
    have hpair : renderPair (key, value) ++ tail =
        key.toList ++ ':' :: ' ' :: (quote value ++ tail) := by
      rw [renderPair, List.append_assoc]
      rfl
    rw [hpair]
    obtain rfl | rfl := hbefore
    · exact hstart
    · exact hstart
  have hall : ∀ c ∈ key.toList, table.isKeyChar c = true := fun c hc =>
    isKeyChar_of_mem ⟨hne, hhead, hchars⟩ hc
  have hcolon : table.isKeyChar ':' = false := not_isKeyChar_colon
  have htake : (key.toList ++ ':' :: ' ' :: (quote value ++ tail)).takeWhile table.isKeyChar =
      key.toList := by
    rw [List.takeWhile_append_of_pos hall, List.takeWhile_cons_of_neg (by simp [hcolon]),
      List.append_nil]
  have hdrop : (key.toList ++ ':' :: ' ' :: (quote value ++ tail)).dropWhile table.isKeyChar =
      ':' :: ' ' :: (quote value ++ tail) := by
    rw [List.dropWhile_append_of_pos hall, List.dropWhile_cons_of_neg (by simp [hcolon])]
  have hblank : (' ' :: (quote value ++ tail)).dropWhile (· = ' ') =
      (quote value ++ tail).dropWhile (· = ' ') := List.dropWhile_cons_of_pos (by decide)
  rw [parseParams]
  simp only [hskip, htake, hdrop, hblank]
  rw [if_neg (by simpa [hne] using hhead), String.ofList_toList]

def lineTail : List (String × String) → List Char
  | [] => []
  | pair :: pairs => ',' :: ' ' :: (renderPair pair ++ lineTail pairs)

theorem afterValue_lineTail (pairs : List (String × String)) : AfterValue (lineTail pairs) := by
  cases pairs with
  | nil => exact Or.inl rfl
  | cons pair pairs => exact Or.inr ⟨_, rfl⟩

theorem isEmpty_lineTail (pairs : List (String × String)) :
    (lineTail pairs).isEmpty = pairs.isEmpty := by
  cases pairs <;> rfl

theorem intercalate_renderPair (pair : String × String) (pairs : List (String × String)) :
    [',', ' '].intercalate ((pair :: pairs).map renderPair) = renderPair pair ++
      lineTail pairs := by
  induction pairs generalizing pair with
  | nil => simp [List.intercalate, lineTail]
  | cons next pairs ih =>
      rw [List.map_cons, List.map_cons, List.intercalate_cons_cons, ← List.map_cons, ih, lineTail,
        List.append_assoc]
      rfl

/-- Every value is read back, the last one up to the end of the line. -/
def Legible : List (String × String) → Prop
  | [] => True
  | pair :: pairs => misread pairs.isEmpty pair.2.toList = false ∧ Legible pairs

/-- The pairs of a line, with keys and values as the renderer pushes them. -/
def Pushed (pairs : List (String × String)) : Prop :=
  ∀ pair ∈ pairs, IsKey pair.1 ∧ (Trimmed pair.2 ∨ hasSeparator pair.2.toList = true)

theorem parseParams_step {pair : String × String} {before : List Char}
    (hpushed : Pushed (pair :: pairs)) (hbefore : before = [] ∨ before = [',', ' ']) :
    parseParams table (fuel + 1) (before ++ (renderPair pair ++ lineTail pairs)) = pair :: pairs ↔
      misread pairs.isEmpty pair.2.toList = false ∧
        parseParams table fuel (lineTail pairs) = pairs := by
  obtain ⟨hkey, hvalue⟩ := hpushed pair List.mem_cons_self
  obtain ⟨hgood, hbad⟩ := readValue_spec hvalue (afterValue_lineTail pairs)
  rw [isEmpty_lineTail] at hgood hbad
  rw [parseParams_pair hkey hbefore, List.cons.injEq]
  cases hmisread : misread pairs.isEmpty pair.2.toList with
  | false =>
      rw [hgood hmisread]
      simp
  | true =>
      constructor
      · rintro ⟨heq, -⟩
        have hread := congrArg (fun p : String × String => p.2.toList) heq
        rw [String.toList_ofList] at hread
        exact absurd hread (hbad hmisread)
      · rintro ⟨h, -⟩
        cases h

theorem parseParams_lineTail (hpushed : Pushed pairs) (hfuel : pairs.length ≤ fuel) :
    parseParams table fuel (lineTail pairs) = pairs ↔ Legible pairs := by
  induction pairs generalizing fuel with
  | nil =>
      refine ⟨fun _ => trivial, fun _ => ?_⟩
      cases fuel <;> rfl
  | cons pair pairs ih =>
      obtain ⟨fuel, rfl⟩ :=
        Nat.exists_eq_add_of_le' (Nat.le_trans (Nat.succ_le_succ (Nat.zero_le _)) hfuel)
      have hrest : Pushed pairs :=
        fun other hother => hpushed other (List.mem_cons_of_mem pair hother)
      rw [Legible, ← ih hrest (Nat.le_of_succ_le_succ hfuel)]
      exact parseParams_step hpushed (Or.inr rfl)

/-- The line is read back exactly when every value on it is. -/
theorem parseParams_line (hpushed : Pushed pairs) (hfuel : pairs.length ≤ fuel) :
    parseParams table fuel ([',', ' '].intercalate (pairs.map renderPair)) = pairs ↔
      Legible pairs := by
  cases pairs with
  | nil =>
      refine ⟨fun _ => trivial, fun _ => ?_⟩
      cases fuel <;> rfl
  | cons pair pairs =>
      obtain ⟨fuel, rfl⟩ :=
        Nat.exists_eq_add_of_le' (Nat.le_trans (Nat.succ_le_succ (Nat.zero_le _)) hfuel)
      have hrest : Pushed pairs :=
        fun other hother => hpushed other (List.mem_cons_of_mem pair hother)
      rw [intercalate_renderPair, Legible,
        ← parseParams_lineTail hrest (Nat.le_of_succ_le_succ hfuel)]
      exact parseParams_step hpushed (Or.inl rfl)

/-- What a gallery reads of a line. -/
def readSettings (table : KeyTable) (line : List Char) : List (String × String) :=
  parseParams table line.length line

theorem length_lineTail (pairs : List (String × String)) :
    pairs.length ≤ (lineTail pairs).length := by
  induction pairs with
  | nil => exact le_rfl
  | cons pair pairs ih =>
      rw [lineTail, List.length_cons, List.length_cons, List.length_cons, List.length_append]
      omega

theorem readSettings_line (hpushed : Pushed pairs) :
    readSettings table ([',', ' '].intercalate (pairs.map renderPair)) = pairs ↔ Legible pairs := by
  refine parseParams_line hpushed ?_
  cases pairs with
  | nil => exact Nat.zero_le _
  | cons pair pairs =>
      have htail := length_lineTail pairs
      rw [intercalate_renderPair, List.length_append, renderPair, List.length_append,
        List.length_cons, List.length_cons]
      omega

end Lines

end SceneWorks.WorkflowEnvelope
