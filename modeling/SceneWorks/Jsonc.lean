import Mathlib.Data.List.Infix
import Mathlib.Data.String.Basic

/-!
Stripping the comments of a JSONC text. The scanner goes character by character with two flags, and
a comment is swallowed by a loop of its own on the same characters. Against it stands a reading of
the text as pieces, literals and comments and single characters, which every text has.
-/

namespace SceneWorks.Jsonc

mutual

/-- The outer loop. -/
def scan (inString escaped : Bool) : List Char → List Char
  | [] => []
  | character :: rest =>
      if inString then
        character ::
          (if escaped then scan true false rest
          else if character = '\\' then scan true true rest
          else if character = '"' then scan false escaped rest
          else scan true escaped rest)
      else if character = '"' then character :: scan true escaped rest
      else
        match rest with
        | [] => [character]
        | next :: after =>
            if character = '/' ∧ next = '/' then scanLine escaped after
            else if character = '/' ∧ next = '*' then scanBlock escaped '\x00' after
            else character :: scan inString escaped (next :: after)

/-- A line comment, to the end of its line. -/
def scanLine (escaped : Bool) : List Char → List Char
  | [] => []
  | next :: rest =>
      if next = '\r' ∨ next = '\n' then next :: scan false escaped rest
      else scanLine escaped rest

/-- A block comment, to the first `*/`. -/
def scanBlock (escaped : Bool) (previous : Char) : List Char → List Char
  | [] => []
  | next :: rest =>
      if previous = '*' ∧ next = '/' then scan false escaped rest
      else scanBlock escaped next rest

end

def stripJsoncComments (value : String) : String :=
  String.ofList (scan false false value.toList)

/-- A character of a literal, or a backslash with the character it escapes. -/
inductive StringPart where
  | char (c : Char) (hquote : c ≠ '"') (hescape : c ≠ '\\')
  | escape (c : Char)

inductive LineEnd where
  | lf
  | cr
  | crlf

/-- A piece of a text. A line comment without an end is the last one. -/
inductive Piece where
  | string (parts : List StringPart)
  | line (body : List Char) (hbody : ∀ c ∈ body, c ≠ '\r' ∧ c ≠ '\n') (ending : Option LineEnd)
  | block (body : List Char) (hbody : ¬ ['*', '/'] <:+: body ++ ['*'])
  | plain (c : Char) (hc : c ≠ '"')

/-- What may stand after the last piece: nothing, or a literal or a block comment left open. -/
inductive Tail where
  | nothing
  | openString (parts : List StringPart) (dangling : Bool)
  | openBlock (body : List Char) (hbody : ¬ ['*', '/'] <:+: body)

def StringPart.text : StringPart → List Char
  | .char c _ _ => [c]
  | .escape c => ['\\', c]

def LineEnd.text : LineEnd → List Char
  | .lf => ['\n']
  | .cr => ['\r']
  | .crlf => ['\r', '\n']

def endingText (ending : Option LineEnd) : List Char := (ending.map LineEnd.text).getD []

def Piece.text : Piece → List Char
  | .string parts => '"' :: (parts.flatMap StringPart.text ++ ['"'])
  | .line body _ ending => '/' :: '/' :: (body ++ endingText ending)
  | .block body _ => '/' :: '*' :: (body ++ ['*', '/'])
  | .plain c _ => [c]

/-- A piece without its comment. -/
def Piece.kept : Piece → List Char
  | .line _ _ ending => endingText ending
  | .block _ _ => []
  | piece => piece.text

def Piece.isComment : Piece → Bool
  | .line _ _ _ | .block _ _ => true
  | .string _ | .plain _ _ => false

def danglingText (dangling : Bool) : List Char := if dangling then ['\\'] else []

def Tail.text : Tail → List Char
  | .nothing => []
  | .openString parts dangling =>
      '"' :: (parts.flatMap StringPart.text ++ danglingText dangling)
  | .openBlock body _ => '/' :: '*' :: body

def Tail.kept : Tail → List Char
  | .openBlock _ _ => []
  | tail => tail.text

def Tail.isComment : Tail → Bool
  | .openBlock _ _ => true
  | .nothing | .openString _ _ => false

/-- A line comment without an end is last, and a slash alone starts no comment. -/
def Piece.Fits : Piece → List Char → Prop
  | .line _ _ none, after => after = []
  | .plain c _, after => c = '/' → after.head? ≠ some '/' ∧ after.head? ≠ some '*'
  | _, _ => True

/-- Every piece fits before the text that follows it. -/
def Readable : List Piece → List Char → Prop
  | [], _ => True
  | piece :: rest, after => piece.Fits (rest.flatMap Piece.text ++ after) ∧ Readable rest after

/-- No comment stands outside a literal. -/
def CommentFree (value : String) : Prop :=
  ∃ (pieces : List Piece) (tail : Tail), Readable pieces tail.text ∧
    value = String.ofList (pieces.flatMap Piece.text ++ tail.text) ∧
    (∀ piece ∈ pieces, piece.isComment = false) ∧ tail.isComment = false

section Scanning

variable {parts : List StringPart} {body rest text : List Char} {c : Char}

theorem scan_inString (escaped : Bool) (c : Char) (rest : List Char) :
    scan true escaped (c :: rest) = c ::
      (if escaped then scan true false rest
      else if c = '\\' then scan true true rest
      else if c = '"' then scan false escaped rest
      else scan true escaped rest) := by
  cases rest <;> simp [scan]

theorem scan_quote (rest : List Char) :
    scan false false ('"' :: rest) = '"' :: scan true false rest := by
  cases rest <;> simp [scan]

theorem scan_parts (parts : List StringPart) (rest : List Char) :
    scan true false (parts.flatMap StringPart.text ++ rest) =
      parts.flatMap StringPart.text ++ scan true false rest := by
  induction parts with
  | nil => rfl
  | cons part parts ih =>
      rw [List.flatMap_cons, List.append_assoc, List.append_assoc]
      cases part with
      | char c hquote hescape =>
          simp [StringPart.text, scan_inString, hquote, hescape, ih]
      | escape c =>
          simp [StringPart.text, scan_inString, ih]

theorem scan_string (parts : List StringPart) (rest : List Char) :
    scan false false ((Piece.string parts).text ++ rest) =
      (Piece.string parts).text ++ scan false false rest := by
  have hclose : scan true false ('"' :: rest) = '"' :: scan false false rest := by
    simp [scan_inString]
  rw [Piece.text, List.cons_append, List.append_assoc, scan_quote, scan_parts,
    List.singleton_append, hclose]
  simp

theorem scanLine_body (hbody : ∀ c ∈ body, c ≠ '\r' ∧ c ≠ '\n') (rest : List Char) :
    scanLine false (body ++ rest) = scanLine false rest := by
  induction body with
  | nil => rfl
  | cons c body ih =>
      obtain ⟨hc, hbody⟩ := List.forall_mem_cons.mp hbody
      rw [List.cons_append, scanLine, if_neg (not_or.mpr hc), ih hbody]

theorem scan_newline (rest : List Char) :
    scan false false ('\n' :: rest) = '\n' :: scan false false rest := by
  cases rest <;> simp [scan]

theorem scanLine_ending (ending : LineEnd) (rest : List Char) :
    scanLine false (ending.text ++ rest) = ending.text ++ scan false false rest := by
  cases ending with
  | lf => simp [LineEnd.text, scanLine]
  | cr => simp [LineEnd.text, scanLine]
  | crlf => simp [LineEnd.text, scanLine, scan_newline]

/-- Whatever `*/` the loop could see before the end of the body would stand in the body. -/
theorem scanBlock_body {previous : Char} (hbody : ¬ ['*', '/'] <:+: previous :: (body ++ ['*']))
    (rest : List Char) :
    scanBlock false previous (body ++ '*' :: '/' :: rest) = scan false false rest := by
  induction body generalizing previous with
  | nil => simp [scanBlock]
  | cons c body ih =>
      have hgo : ¬ (previous = '*' ∧ c = '/') := by
        rintro ⟨rfl, rfl⟩
        exact hbody (List.IsPrefix.isInfix ⟨body ++ ['*'], rfl⟩)
      rw [List.cons_append, scanBlock, if_neg hgo]
      exact ih fun h => hbody (List.infix_cons h)

theorem scanBlock_open {previous : Char} (hbody : ¬ ['*', '/'] <:+: previous :: body) :
    scanBlock false previous body = [] := by
  induction body generalizing previous with
  | nil => rfl
  | cons c body ih =>
      have hgo : ¬ (previous = '*' ∧ c = '/') := by
        rintro ⟨rfl, rfl⟩
        exact hbody (List.IsPrefix.isInfix ⟨body, rfl⟩)
      rw [scanBlock, if_neg hgo]
      exact ih fun h => hbody (List.infix_cons h)

/-- The loop starts with a character that is no star. -/
theorem not_infix_start (hbody : ¬ ['*', '/'] <:+: body) : ¬ ['*', '/'] <:+: '\x00' :: body := by
  rw [List.infix_cons_iff, not_or]
  refine ⟨?_, hbody⟩
  rintro ⟨after, hafter⟩
  exact absurd (List.cons.inj hafter).1 (by decide)

theorem scan_plain (hc : c ≠ '"')
    (hfits : c = '/' → rest.head? ≠ some '/' ∧ rest.head? ≠ some '*') :
    scan false false (c :: rest) = c :: scan false false rest := by
  cases rest with
  | nil => simp [scan, hc]
  | cons next after =>
      have hline : ¬ (c = '/' ∧ next = '/') := fun h => (hfits h.1).1 (congrArg some h.2)
      have hblock : ¬ (c = '/' ∧ next = '*') := fun h => (hfits h.1).2 (congrArg some h.2)
      rw [scan, if_neg (by decide), if_neg hc, if_neg hline, if_neg hblock]

theorem scan_piece {piece : Piece} (hfits : piece.Fits rest) :
    scan false false (piece.text ++ rest) = piece.kept ++ scan false false rest := by
  cases piece with
  | string parts => exact scan_string parts rest
  | line body hbody ending =>
      have hopen : ∀ text, scan false false ('/' :: '/' :: text) = scanLine false text := by
        intro text
        simp [scan]
      rw [Piece.text, List.cons_append, List.cons_append, hopen, List.append_assoc,
        scanLine_body hbody]
      cases ending with
      | none =>
          obtain rfl : rest = [] := hfits
          simp [endingText, Piece.kept, scanLine, scan]
      | some ending => exact scanLine_ending ending rest
  | block body hbody =>
      have hopen : ∀ text, scan false false ('/' :: '*' :: text) = scanBlock false '\x00' text := by
        intro text
        simp [scan]
      have hshape : (Piece.block body hbody).text ++ rest =
          '/' :: '*' :: (body ++ '*' :: '/' :: rest) := by simp [Piece.text]
      rw [hshape, hopen, scanBlock_body (not_infix_start hbody)]
      rfl
  | plain c hc => exact scan_plain hc hfits

theorem scan_pieces {pieces : List Piece} (h : Readable pieces rest) :
    scan false false (pieces.flatMap Piece.text ++ rest) =
      pieces.flatMap Piece.kept ++ scan false false rest := by
  induction pieces with
  | nil => rfl
  | cons piece pieces ih =>
      rw [List.flatMap_cons, List.flatMap_cons, List.append_assoc, List.append_assoc,
        scan_piece h.1, ih h.2]

theorem scan_tail (tail : Tail) : scan false false tail.text = tail.kept := by
  cases tail with
  | nothing => rfl
  | openString parts dangling =>
      show scan false false ('"' :: _) = '"' :: _
      rw [scan_quote, scan_parts]
      cases dangling <;> simp [danglingText, scan]
  | openBlock body hbody =>
      have hopen : scan false false ('/' :: '*' :: body) = scanBlock false '\x00' body := by
        simp [scan]
      rw [Tail.text, hopen, scanBlock_open (not_infix_start hbody)]
      rfl

end Scanning

section Reading

/-- Every text after a quote is a literal and what follows it, or a literal left open. -/
theorem exists_string : ∀ text : List Char,
    (∃ (parts : List StringPart) (rest : List Char),
      text = parts.flatMap StringPart.text ++ '"' :: rest) ∨
    ∃ (parts : List StringPart) (dangling : Bool),
      text = parts.flatMap StringPart.text ++ danglingText dangling
  | [] => .inr ⟨[], false, rfl⟩
  | [c] => by
      by_cases hquote : c = '"'
      · subst hquote
        exact .inl ⟨[], [], rfl⟩
      by_cases hescape : c = '\\'
      · subst hescape
        exact .inr ⟨[], true, rfl⟩
      exact .inr ⟨[.char c hquote hescape], false, rfl⟩
  | c :: next :: rest => by
      by_cases hquote : c = '"'
      · subst hquote
        exact .inl ⟨[], next :: rest, rfl⟩
      by_cases hescape : c = '\\'
      · subst hescape
        rcases exists_string rest with ⟨parts, after, rfl⟩ | ⟨parts, dangling, rfl⟩
        · exact .inl ⟨.escape next :: parts, after, rfl⟩
        · exact .inr ⟨.escape next :: parts, dangling, rfl⟩
      · rcases exists_string (next :: rest) with ⟨parts, after, hrest⟩ | ⟨parts, dangling, hrest⟩
        · exact .inl ⟨.char c hquote hescape :: parts, after, by rw [hrest]; rfl⟩
        · exact .inr ⟨.char c hquote hescape :: parts, dangling, by rw [hrest]; rfl⟩

theorem exists_line (text : List Char) :
    ∃ (body rest : List Char) (ending : Option LineEnd), (∀ c ∈ body, c ≠ '\r' ∧ c ≠ '\n') ∧
      (ending = none → rest = []) ∧ text = body ++ (endingText ending ++ rest) := by
  induction text with
  | nil => exact ⟨[], [], none, by simp, fun _ => rfl, rfl⟩
  | cons c text ih =>
      by_cases hcr : c = '\r'
      · subst hcr
        exact ⟨[], text, some .cr, by simp, nofun, rfl⟩
      by_cases hlf : c = '\n'
      · subst hlf
        exact ⟨[], text, some .lf, by simp, nofun, rfl⟩
      obtain ⟨body, rest, ending, hbody, hlast, rfl⟩ := ih
      exact ⟨c :: body, rest, ending, List.forall_mem_cons.mpr ⟨⟨hcr, hlf⟩, hbody⟩, hlast, rfl⟩

theorem exists_block (text : List Char) :
    (∃ body rest : List Char, ¬ ['*', '/'] <:+: body ++ ['*'] ∧ text = body ++ '*' :: '/' :: rest) ∨
      ¬ ['*', '/'] <:+: text := by
  induction text with
  | nil => exact .inr (by decide)
  | cons c text ih =>
      by_cases hstart : ['*', '/'] <+: c :: text
      · obtain ⟨rest, hrest⟩ := hstart
        exact .inl ⟨[], rest, by decide, hrest.symm⟩
      rcases ih with ⟨body, rest, hbody, rfl⟩ | hopen
      · refine .inl ⟨c :: body, rest, ?_, rfl⟩
        rw [List.cons_append, List.infix_cons_iff, not_or]
        refine ⟨fun hfirst => hstart (hfirst.trans ⟨'/' :: rest, ?_⟩), hbody⟩
        simp
      · exact .inr (by rw [List.infix_cons_iff, not_or]; exact ⟨hstart, hopen⟩)

theorem exists_reading (text : List Char) :
    ∃ (pieces : List Piece) (tail : Tail), Readable pieces tail.text ∧
      text = pieces.flatMap Piece.text ++ tail.text := by
  induction hlength : text.length using Nat.strongRecOn generalizing text with
  | ind n ih =>
      -- A piece in front of a shorter text, which is read by induction.
      have hfront : ∀ (piece : Piece) (rest : List Char), rest.length < n → piece.Fits rest →
          ∃ (pieces : List Piece) (tail : Tail), Readable pieces tail.text ∧
            piece.text ++ rest = pieces.flatMap Piece.text ++ tail.text := by
        intro piece rest hrest hfits
        obtain ⟨pieces, tail, hread, rfl⟩ := ih rest.length hrest rest rfl
        exact ⟨piece :: pieces, tail, ⟨hfits, hread⟩, by
          rw [List.flatMap_cons, List.append_assoc]⟩
      match text with
      | [] => exact ⟨[], .nothing, trivial, rfl⟩
      | c :: rest =>
          rw [List.length_cons] at hlength
          by_cases hquote : c = '"'
          · subst hquote
            rcases exists_string rest with ⟨parts, after, rfl⟩ | ⟨parts, dangling, rfl⟩
            · have hless : after.length < n := by
                rw [List.length_append, List.length_cons] at hlength
                omega
              obtain ⟨pieces, tail, hread, heq⟩ := hfront (.string parts) after hless trivial
              refine ⟨pieces, tail, hread, ?_⟩
              rw [← heq]
              simp [Piece.text]
            · exact ⟨[], .openString parts dangling, trivial, rfl⟩
          by_cases hline : c = '/' ∧ rest.head? = some '/'
          · obtain ⟨rfl, hhead⟩ := hline
            obtain ⟨after, rfl⟩ := List.head?_eq_some_iff.mp hhead
            obtain ⟨body, rest, ending, hbody, hlast, rfl⟩ := exists_line after
            have hless : rest.length < n := by
              rw [List.length_cons, List.length_append, List.length_append] at hlength
              omega
            have hfits : (Piece.line body hbody ending).Fits rest := by
              cases ending with
              | none => exact hlast rfl
              | some ending => trivial
            obtain ⟨pieces, tail, hread, heq⟩ := hfront (.line body hbody ending) rest hless hfits
            refine ⟨pieces, tail, hread, ?_⟩
            rw [← heq]
            simp [Piece.text]
          by_cases hblock : c = '/' ∧ rest.head? = some '*'
          · obtain ⟨rfl, hhead⟩ := hblock
            obtain ⟨after, rfl⟩ := List.head?_eq_some_iff.mp hhead
            rcases exists_block after with ⟨body, rest, hbody, rfl⟩ | hopen
            · have hless : rest.length < n := by
                simp only [List.length_cons, List.length_append] at hlength
                omega
              obtain ⟨pieces, tail, hread, heq⟩ := hfront (.block body hbody) rest hless trivial
              refine ⟨pieces, tail, hread, ?_⟩
              rw [← heq]
              simp [Piece.text]
            · exact ⟨[], .openBlock after hopen, trivial, rfl⟩
          have hfits : (Piece.plain c hquote).Fits rest := fun hc =>
            ⟨fun hhead => hline ⟨hc, hhead⟩, fun hhead => hblock ⟨hc, hhead⟩⟩
          exact hfront (.plain c hquote) rest (by omega) hfits

end Reading

section Stripping

variable {pieces : List Piece} {tail : Tail} {value : String}

/-- What stays of a piece, again as pieces. -/
def Piece.residue : Piece → List Piece
  | .line _ _ none | .block _ _ => []
  | .line _ _ (some .lf) => [.plain '\n' (by decide)]
  | .line _ _ (some .cr) => [.plain '\r' (by decide)]
  | .line _ _ (some .crlf) => [.plain '\r' (by decide), .plain '\n' (by decide)]
  | piece => [piece]

def Tail.residue : Tail → Tail
  | .openBlock _ _ => .nothing
  | tail => tail

theorem text_residue (piece : Piece) : piece.residue.flatMap Piece.text = piece.kept := by
  cases piece with
  | string parts => simp [Piece.residue, Piece.kept]
  | line body hbody ending => rcases ending with _ | _ | _ | _ <;> rfl
  | block body hbody => rfl
  | plain c hc => rfl

theorem text_residues (pieces : List Piece) :
    (pieces.flatMap Piece.residue).flatMap Piece.text = pieces.flatMap Piece.kept := by
  rw [List.flatMap_assoc]
  exact List.flatMap_congr fun piece _ => text_residue piece

theorem Tail.text_residue (tail : Tail) : tail.residue.text = tail.kept := by
  cases tail <;> rfl

theorem isComment_residue (piece : Piece) : ∀ left ∈ piece.residue, left.isComment = false := by
  cases piece with
  | string parts => simp [Piece.residue, Piece.isComment]
  | line body hbody ending =>
      rcases ending with _ | _ | _ | _ <;> simp [Piece.residue, Piece.isComment]
  | block body hbody => simp [Piece.residue]
  | plain c hc => simp [Piece.residue, Piece.isComment]

/-- A text that does not start with a slash starts as before once it is stripped. -/
theorem head_kept {c : Char} (hfirst : (pieces.flatMap Piece.text ++ tail.text).head? ≠ some '/')
    (hhead : (pieces.flatMap Piece.text ++ tail.text).head? ≠ some c) :
    (pieces.flatMap Piece.kept ++ tail.kept).head? ≠ some c := by
  cases pieces with
  | nil =>
      cases tail with
      | nothing => exact hhead
      | openString parts dangling => exact hhead
      | openBlock body hbody => exact absurd rfl hfirst
  | cons piece rest =>
      cases piece with
      | string parts => exact hhead
      | line body hbody ending => exact absurd rfl hfirst
      | block body hbody => exact absurd rfl hfirst
      | plain c hc => exact hhead

theorem readable_append {before after : List Piece} {text : List Char}
    (hbefore : Readable before (after.flatMap Piece.text ++ text)) (hafter : Readable after text) :
    Readable (before ++ after) text := by
  induction before with
  | nil => exact hafter
  | cons piece before ih =>
      obtain ⟨hfits, hrest⟩ := hbefore
      have hmore : piece.Fits ((before ++ after).flatMap Piece.text ++ text) := by
        rwa [List.flatMap_append, List.append_assoc]
      exact ⟨hmore, ih hrest⟩

/-- Stripping leaves a text that reads as what was kept. -/
theorem readable_residue (h : Readable pieces tail.text) :
    Readable (pieces.flatMap Piece.residue) tail.residue.text := by
  induction pieces with
  | nil => trivial
  | cons piece pieces ih =>
      obtain ⟨hfits, hrest⟩ := h
      rw [List.flatMap_cons]
      refine readable_append ?_ (ih hrest)
      rw [text_residues, Tail.text_residue]
      cases piece with
      | string parts => exact ⟨trivial, trivial⟩
      | line body hbody ending =>
          rcases ending with _ | _ | _ | _ <;> simp [Piece.residue, Readable, Piece.Fits]
      | block body hbody => trivial
      | plain c hc =>
          refine ⟨fun hslash => ?_, trivial⟩
          obtain ⟨hline, hblock⟩ := hfits hslash
          exact ⟨head_kept hline hline, head_kept hline hblock⟩

theorem stripJsoncComments_read (h : Readable pieces tail.text) :
    stripJsoncComments (String.ofList (pieces.flatMap Piece.text ++ tail.text)) =
      String.ofList (pieces.flatMap Piece.kept ++ tail.kept) := by
  rw [stripJsoncComments, String.toList_ofList, scan_pieces h, scan_tail]

theorem kept_eq_text {piece : Piece} (h : piece.isComment = false) : piece.kept = piece.text := by
  cases piece with
  | string parts => rfl
  | line body hbody ending => cases h
  | block body hbody => cases h
  | plain c hc => rfl

theorem stripJsoncComments_of_commentFree (h : CommentFree value) :
    stripJsoncComments value = value := by
  obtain ⟨pieces, tail, hread, rfl, hpieces, htail⟩ := h
  rw [stripJsoncComments_read hread]
  have hkept : tail.kept = tail.text := by
    cases tail with
    | nothing => rfl
    | openString parts dangling => rfl
    | openBlock body hbody => cases htail
  rw [hkept, List.flatMap_congr fun piece hpiece => kept_eq_text (hpieces piece hpiece)]

theorem commentFree_stripJsoncComments (value : String) :
    CommentFree (stripJsoncComments value) := by
  obtain ⟨pieces, tail, hread, hvalue⟩ := exists_reading value.toList
  refine ⟨pieces.flatMap Piece.residue, tail.residue, readable_residue hread, ?_, ?_, ?_⟩
  · rw [text_residues, Tail.text_residue, ← stripJsoncComments_read hread, ← hvalue,
      String.ofList_toList]
  · intro left hleft
    obtain ⟨piece, -, hleft⟩ := List.mem_flatMap.mp hleft
    exact isComment_residue piece left hleft
  · cases tail <;> rfl

/-- Comments go and nothing else does: piece by piece, and so once for all. -/
theorem stripJsoncComments_exact :
    (∀ pieces : List Piece, Readable pieces [] →
      stripJsoncComments (String.ofList (pieces.flatMap Piece.text)) =
        String.ofList (pieces.flatMap Piece.kept)) ∧
    (∀ value, stripJsoncComments (stripJsoncComments value) = stripJsoncComments value) ∧
    ∀ value, CommentFree value → stripJsoncComments value = value := by
  refine ⟨?_, ?_, fun value => stripJsoncComments_of_commentFree⟩
  · intro pieces h
    have hread :
        stripJsoncComments (String.ofList (pieces.flatMap Piece.text ++ Tail.nothing.text)) =
        String.ofList (pieces.flatMap Piece.kept ++ Tail.nothing.kept) := stripJsoncComments_read h
    simpa [Tail.text, Tail.kept] using hread
  · intro value
    exact stripJsoncComments_of_commentFree (commentFree_stripJsoncComments value)

example : stripJsoncComments "[\"a // \\\" /* b\", 1 /* c */, 2] // d\r\n" =
    "[\"a // \\\" /* b\", 1 , 2] \r\n" := by decide +kernel

end Stripping

end SceneWorks.Jsonc
