import Mathlib.Data.List.Basic
import Mathlib.Data.Nat.Digits.Defs
import Mathlib.Tactic.SplitIfs

/-!
Texts as JSON string literals. Writing escapes the quote, the backslash and the control
characters; reading takes every escape of the grammar. What is written reads back, and a
literal is longer than what it stands for.
-/

namespace JsonString

/-- The escape of a character, when it needs one. -/
def escape (c : Char) : List Char :=
  if c = '"' then ['\\', '"']
  else if c = '\\' then ['\\', '\\']
  else if c = Char.ofNat 8 then ['\\', 'b']
  else if c = '\t' then ['\\', 't']
  else if c = '\n' then ['\\', 'n']
  else if c = Char.ofNat 12 then ['\\', 'f']
  else if c = '\r' then ['\\', 'r']
  else if c.toNat < 32 then
    ['\\', 'u', '0', '0', (c.toNat / 16).digitChar, (c.toNat % 16).digitChar]
  else [c]

def encode (text : List Char) : List Char := '"' :: (text.flatMap escape ++ ['"'])

def hexDigit? (c : Char) : Option Nat :=
  if '0' ≤ c ∧ c ≤ '9' then some (c.toNat - 48)
  else if 'a' ≤ c ∧ c ≤ 'f' then some (c.toNat - 87)
  else if 'A' ≤ c ∧ c ≤ 'F' then some (c.toNat - 55)
  else none

/-- Four hexadecimal digits. -/
def hex4 : List Char → Option (Nat × List Char)
  | a :: b :: c :: d :: rest => do
      let a ← hexDigit? a
      let b ← hexDigit? b
      let c ← hexDigit? c
      let d ← hexDigit? d
      some (4096 * a + 256 * b + 16 * c + d, rest)
  | _ => none

/-- The code point of a unit, with the second half of a surrogate pair. -/
def codePoint (unit : Nat) (rest : List Char) : Option (Char × List Char) :=
  if 0xD800 ≤ unit ∧ unit < 0xDC00 then
    match rest with
    | '\\' :: 'u' :: rest => do
        let (low, rest) ← hex4 rest
        if 0xDC00 ≤ low ∧ low < 0xE000 then
          some (Char.ofNat (0x10000 + (unit - 0xD800) * 0x400 + (low - 0xDC00)), rest)
        else none
    | _ => none
  else if 0xDC00 ≤ unit ∧ unit < 0xE000 then none
  else some (Char.ofNat unit, rest)

/-- What follows a backslash. -/
def readEscape : List Char → Option (Char × List Char)
  | [] => none
  | c :: rest =>
      if c = '"' ∨ c = '\\' ∨ c = '/' then some (c, rest)
      else if c = 'b' then some (Char.ofNat 8, rest)
      else if c = 'f' then some (Char.ofNat 12, rest)
      else if c = 'n' then some ('\n', rest)
      else if c = 'r' then some ('\r', rest)
      else if c = 't' then some ('\t', rest)
      else if c = 'u' then (hex4 rest).bind fun unit => codePoint unit.1 unit.2
      else none

/-- The characters up to the closing quote, and what follows it. -/
def readBody : Nat → List Char → Option (List Char × List Char)
  | 0, _ => none
  | _, [] => none
  | fuel + 1, c :: rest =>
      if c = '"' then some ([], rest)
      else if c = '\\' then do
        let (x, rest) ← readEscape rest
        let (xs, rest) ← readBody fuel rest
        some (x :: xs, rest)
      else if c.toNat < 32 then none
      else do
        let (xs, rest) ← readBody fuel rest
        some (c :: xs, rest)

def isSpace (c : Char) : Bool := c = ' ' || c = '\t' || c = '\n' || c = '\r'

/-- A text that is one literal, with blanks around it. -/
def decode (text : List Char) : Option (List Char) :=
  match text.dropWhile isSpace with
  | '"' :: body => do
      let (content, rest) ← readBody (body.length + 1) body
      if rest.all isSpace then some content else none
  | _ => none

section Reading

variable {c : Char} {text rest content : List Char} {fuel : Nat}

theorem hex4_control (h : c.toNat < 32) (rest : List Char) :
    hex4 ('0' :: '0' :: (c.toNat / 16).digitChar :: (c.toNat % 16).digitChar :: rest) =
      some (c.toNat, rest) := by
  have hhigh : ∀ n < 2, hexDigit? n.digitChar = some n := by decide
  have hlow : ∀ n < 16, hexDigit? n.digitChar = some n := by decide
  have hzero : hexDigit? '0' = some 0 := by decide
  simp only [hex4, hzero, hhigh _ (by omega : c.toNat / 16 < 2),
    hlow _ (Nat.mod_lt c.toNat (by decide)), Option.bind_eq_bind, Option.bind_some,
    Option.some.injEq, Prod.mk.injEq, and_true]
  omega

theorem readBody_backslash {escaped : List Char} (h : readEscape escaped = some (c, rest))
    (fuel : Nat) : readBody (fuel + 1) ('\\' :: escaped) =
      (readBody fuel rest).map fun read => (c :: read.1, read.2) := by
  rw [readBody, if_neg (by decide), if_pos rfl, h]
  simp only [Option.bind_eq_bind, Option.bind_some]
  cases readBody fuel rest <;> rfl

/-- How a character is written: by a letter that is read as it, by its number, or as it is. -/
inductive Escaped (c : Char) : List Char → Prop
  | letter {letter : Char} (hmem : letter ∈ ['"', '\\', 'b', 't', 'n', 'f', 'r'])
      (hread : ∀ rest, readEscape (letter :: rest) = some (c, rest)) : Escaped c ['\\', letter]
  | number (hcontrol : c.toNat < 32) : Escaped c
      ['\\', 'u', '0', '0', (c.toNat / 16).digitChar, (c.toNat % 16).digitChar]
  | plain (hquote : c ≠ '"') (hback : c ≠ '\\') (hshown : 32 ≤ c.toNat) : Escaped c [c]

theorem escaped_escape (c : Char) : Escaped c (escape c) := by
  unfold escape
  refine iteInduction (fun h => ?_) fun hquote => ?_
  · exact .letter (by decide) fun _ => by rw [h]; rfl
  refine iteInduction (fun h => ?_) fun hback => ?_
  · exact .letter (by decide) fun _ => by rw [h]; rfl
  refine iteInduction (fun h => ?_) fun _ => ?_
  · exact .letter (by decide) fun _ => by rw [h]; rfl
  refine iteInduction (fun h => ?_) fun _ => ?_
  · exact .letter (by decide) fun _ => by rw [h]; rfl
  refine iteInduction (fun h => ?_) fun _ => ?_
  · exact .letter (by decide) fun _ => by rw [h]; rfl
  refine iteInduction (fun h => ?_) fun _ => ?_
  · exact .letter (by decide) fun _ => by rw [h]; rfl
  refine iteInduction (fun h => ?_) fun _ => ?_
  · exact .letter (by decide) fun _ => by rw [h]; rfl
  refine iteInduction (fun hcontrol => ?_) fun hcontrol => ?_
  · exact .number hcontrol
  · exact .plain hquote hback (Nat.le_of_not_lt hcontrol)

/-- An escaped character is read as itself. -/
theorem readBody_escape (c : Char) (fuel : Nat) (rest : List Char) :
    readBody (fuel + 1) (escape c ++ rest) =
      (readBody fuel rest).map fun read => (c :: read.1, read.2) := by
  have hescaped := escaped_escape c
  generalize escape c = written at hescaped ⊢
  cases hescaped with
  | letter hmem hread => exact readBody_backslash (hread rest) fuel
  | number hcontrol =>
      refine readBody_backslash ?_ fuel
      have hunit : codePoint c.toNat rest = some (c, rest) := by
        unfold codePoint
        rw [if_neg (by omega), if_neg (by omega), Char.ofNat_toNat]
      exact (congrArg (fun read => read.bind fun unit => codePoint unit.1 unit.2)
        (hex4_control hcontrol rest)).trans hunit
  | plain hquote hback hshown =>
      rw [List.singleton_append, readBody, if_neg hquote, if_neg hback,
        if_neg (Nat.not_lt.mpr hshown)]
      cases readBody fuel rest <;> rfl

theorem readBody_encode (text : List Char) (rest : List Char) (h : text.length < fuel) :
    readBody fuel (text.flatMap escape ++ '"' :: rest) = some (text, rest) := by
  induction text generalizing fuel with
  | nil =>
      obtain ⟨fuel, rfl⟩ := Nat.exists_eq_succ_of_ne_zero (Nat.ne_of_gt h)
      rfl
  | cons c text ih =>
      obtain ⟨fuel, rfl⟩ := Nat.exists_eq_succ_of_ne_zero (Nat.ne_of_gt (Nat.zero_lt_of_lt h))
      rw [List.flatMap_cons, List.append_assoc, readBody_escape, ih (Nat.lt_of_succ_lt_succ h)]
      rfl

theorem length_escape_pos (c : Char) : 0 < (escape c).length := by
  have hescaped := escaped_escape c
  generalize escape c = written at hescaped ⊢
  cases hescaped with
  | letter | number | plain => exact Nat.succ_pos _

theorem length_le_flatMap (text : List Char) : text.length ≤ (text.flatMap escape).length := by
  induction text with
  | nil => exact Nat.le_refl _
  | cons c text ih =>
      have hpos := length_escape_pos c
      rw [List.flatMap_cons, List.length_append, List.length_cons]
      omega

/-- What is written reads back. -/
theorem decode_encode (text : List Char) : decode (encode text) = some text := by
  have hlength := length_le_flatMap text
  have hread : readBody ((text.flatMap escape ++ ['"']).length + 1) (text.flatMap escape ++ ['"']) =
      some (text, []) := by
    refine readBody_encode text [] ?_
    rw [List.length_append]
    omega
  have hstart : (encode text).dropWhile isSpace = '"' :: (text.flatMap escape ++ ['"']) := rfl
  simp only [decode, hstart, hread]
  rfl

/-- The reader went past some characters, none of them a comma. -/
def Past (text rest : List Char) : Prop := ∃ front, text = front ++ rest ∧ front ≠ [] ∧ ',' ∉ front

theorem Past.cons {c : Char} (hc : c ≠ ',') (rest : List Char) : Past (c :: rest) rest :=
  ⟨[c], rfl, List.cons_ne_nil c [], fun h => hc (List.mem_singleton.mp h).symm⟩

theorem Past.trans {one two three : List Char} (h : Past one two) (h' : Past two three) :
    Past one three := by
  obtain ⟨front, rfl, hne, hcomma⟩ := h
  obtain ⟨front', rfl, -, hcomma'⟩ := h'
  refine ⟨front ++ front', (List.append_assoc ..).symm, List.append_ne_nil_of_left_ne_nil hne _, ?_⟩
  exact fun hmem => (List.mem_append.mp hmem).elim hcomma hcomma'

theorem Past.length (h : Past text rest) : rest.length < text.length := by
  obtain ⟨front, rfl, hne, -⟩ := h
  have hpos := List.length_pos_iff.mpr hne
  rw [List.length_append]
  omega

theorem Past.comma (h : Past text rest) (hcomma : ',' ∈ text) : ',' ∈ rest := by
  obtain ⟨front, rfl, -, hfront⟩ := h
  exact (List.mem_append.mp hcomma).resolve_left hfront

theorem ne_comma_of_hexDigit {c : Char} {n : Nat} (h : hexDigit? c = some n) : c ≠ ',' := by
  rintro rfl
  cases h

theorem hex4_past {unit : Nat} (h : hex4 text = some (unit, rest)) : Past text rest := by
  match text, h with
  | a :: b :: c :: d :: tail, h =>
      simp only [hex4, Option.bind_eq_bind, Option.bind_eq_some_iff, Option.some.injEq,
        Prod.mk.injEq] at h
      obtain ⟨_, ha, _, hb, _, hc, _, hd, -, rfl⟩ := h
      exact (Past.cons (ne_comma_of_hexDigit ha) _).trans
        ((Past.cons (ne_comma_of_hexDigit hb) _).trans
        ((Past.cons (ne_comma_of_hexDigit hc) _).trans (Past.cons (ne_comma_of_hexDigit hd) _)))

theorem codePoint_past {unit : Nat} {tail : List Char} (h : codePoint unit tail = some (c, rest)) :
    rest = tail ∨ Past tail rest := by
  unfold codePoint at h
  split at h
  · split at h
    · simp only [Option.bind_eq_bind, Option.bind_eq_some_iff] at h
      obtain ⟨⟨low, after⟩, hlow, h⟩ := h
      split at h
      · obtain ⟨-, rfl⟩ := Prod.mk.inj (Option.some.inj h)
        exact Or.inr
          ((Past.cons (by decide) _).trans ((Past.cons (by decide) _).trans (hex4_past hlow)))
      · cases h
    · cases h
  · split at h
    · cases h
    · exact Or.inl (Prod.mk.inj (Option.some.inj h)).2.symm

theorem readEscape_past (h : readEscape text = some (c, rest)) : Past text rest := by
  cases text with
  | nil => cases h
  | cons x tail =>
      have hx : x ≠ ',' := by
        rintro rfl
        cases h
      have hone : ∀ y : Char, some (y, tail) = some (c, rest) → Past (x :: tail) rest := by
        intro y hy
        obtain ⟨-, rfl⟩ := Prod.mk.inj (Option.some.inj hy)
        exact Past.cons hx tail
      unfold readEscape at h
      dsimp only at h
      split_ifs at h
      · exact hone _ h
      · exact hone _ h
      · exact hone _ h
      · exact hone _ h
      · exact hone _ h
      · exact hone _ h
      · obtain ⟨⟨unit, after⟩, hunit, hpoint⟩ := Option.bind_eq_some_iff.mp h
        have hpast := (Past.cons hx tail).trans (hex4_past hunit)
        cases codePoint_past hpoint with
        | inl heq => exact heq ▸ hpast
        | inr hmore => exact hpast.trans hmore

/-- Reading takes more characters than it gives, and gives every comma. -/
theorem readBody_length (h : readBody fuel text = some (content, rest)) :
    content.length + rest.length < text.length ∧ (',' ∈ text → ',' ∈ content ∨ ',' ∈ rest) := by
  induction fuel generalizing text content rest with
  | zero => cases h
  | succ fuel ih =>
      cases text with
      | nil => cases h
      | cons x tail =>
          unfold readBody at h
          split_ifs at h with hquote hback
          · obtain ⟨rfl, rfl⟩ := Prod.mk.inj (Option.some.inj h)
            refine ⟨by simp, fun hcomma => Or.inr ?_⟩
            have hx : x ≠ ',' := fun heq => absurd (heq.symm.trans hquote) (by decide)
            exact (Past.cons hx tail).comma hcomma
          · simp only [Option.bind_eq_bind, Option.bind_eq_some_iff] at h
            obtain ⟨⟨y, after⟩, hescape, ⟨ys, end_⟩, hbody, hresult⟩ := h
            obtain ⟨rfl, rfl⟩ := Prod.mk.inj (Option.some.inj hresult)
            have hx : x ≠ ',' := fun heq => absurd (heq.symm.trans hback) (by decide)
            have hpast := (Past.cons hx tail).trans (readEscape_past hescape)
            obtain ⟨hlength, hcommas⟩ := ih hbody
            have hshort := (readEscape_past hescape).length
            dsimp only at hlength
            refine ⟨by simp only [List.length_cons]; omega, fun hcomma => ?_⟩
            exact (hcommas (hpast.comma hcomma)).imp (List.mem_cons_of_mem y) id
          · simp only [Option.bind_eq_bind, Option.bind_eq_some_iff] at h
            obtain ⟨⟨ys, end_⟩, hbody, hresult⟩ := h
            obtain ⟨rfl, rfl⟩ := Prod.mk.inj (Option.some.inj hresult)
            obtain ⟨hlength, hcommas⟩ := ih hbody
            refine ⟨by simp only [List.length_cons]; omega, fun hcomma => ?_⟩
            cases List.mem_cons.mp hcomma with
            | inl heq => exact Or.inl (heq ▸ List.mem_cons_self)
            | inr hmem => exact (hcommas hmem).imp (List.mem_cons_of_mem x) id

/-- A literal is longer than what it stands for, and hides no comma. -/
theorem decode_length (h : decode ('"' :: text) = some content) :
    content.length < text.length ∧ (',' ∈ text → ',' ∈ content) := by
  have hstart : ('"' :: text).dropWhile isSpace = '"' :: text := rfl
  simp only [decode, hstart, Option.bind_eq_bind, Option.bind_eq_some_iff] at h
  obtain ⟨⟨read, rest⟩, hbody, h⟩ := h
  split at h
  · next hspace =>
      obtain rfl := Option.some.inj h
      obtain ⟨hlength, hcommas⟩ := readBody_length hbody
      refine ⟨Nat.lt_of_le_of_lt (Nat.le_add_right _ _) hlength, fun hcomma =>
        (hcommas hcomma).resolve_right fun hrest => ?_⟩
      exact absurd (List.all_eq_true.mp hspace ',' hrest) (by decide)
  · cases h

end Reading

end JsonString
