import Mathlib.Data.List.Basic
import Mathlib.Data.String.Basic

/-!
The `{:?}` of a text: quoted, with a backslash before what would end it or hide in it. Which
characters print as themselves is a table of the Unicode version in use, and is a parameter. A
quoted text shows where it ends, so options and lists of them are told apart by what is written.
-/

namespace Debug

variable (printable : Char → Bool)

def hex (n : Nat) : List Char := Nat.toDigits 16 n

/-- `char::escape_debug`, with double quotes escaped and single quotes left alone. -/
def escape (c : Char) : List Char :=
  if c = '\x00' then ['\\', '0']
  else if c = '\t' then ['\\', 't']
  else if c = '\r' then ['\\', 'r']
  else if c = '\n' then ['\\', 'n']
  else if c = '\\' then ['\\', '\\']
  else if c = '"' then ['\\', '"']
  else if printable c then [c]
  else ['\\', 'u', '\x7b'] ++ hex c.toNat ++ ['\x7d']

def string (s : String) : String :=
  String.ofList ('"' :: s.toList.flatMap (escape printable) ++ ['"'])

def option {α : Type} (text : α → String) : Option α → String
  | none => "None"
  | some a => "Some(" ++ text a ++ ")"

def list {α : Type} (text : α → String) (items : List α) : String :=
  "[" ++ String.intercalate ", " (items.map text) ++ "]"

section Distinct

def hexValue (digits : List Char) : Nat :=
  digits.foldl (fun value c => 16 * value + if c.isDigit then c.toNat - 48 else c.toNat - 87) 0

theorem hexValue_hex (n : Nat) : hexValue (hex n) = n := by
  have hdigit : ∀ d < 16, (if d.digitChar.isDigit then d.digitChar.toNat - 48
      else d.digitChar.toNat - 87) = d := by decide
  induction n using Nat.strongRecOn with
  | ind n ih =>
      rw [hex, Nat.toDigits_eq_if (by decide)]
      split
      · next hn => simp only [hexValue, List.foldl_cons, List.foldl_nil, hdigit n hn, Nat.mul_zero,
          Nat.zero_add]
      · next hn =>
          have hrest := ih (n / 16) (by omega)
          rw [hex, hexValue] at hrest
          rw [hexValue, List.foldl_append, hrest, List.foldl_cons, List.foldl_nil,
            hdigit _ (Nat.mod_lt n (by decide))]
          exact Nat.div_add_mod n 16

theorem hex_ne_brace (n : Nat) : ∀ c ∈ hex n, c ≠ '\x7d' := by
  have hdigit : ∀ d < 16, d.digitChar ≠ '\x7d' := by decide
  induction n using Nat.strongRecOn with
  | ind n ih =>
      intro c hc
      rw [hex, Nat.toDigits_eq_if (by decide)] at hc
      split at hc
      · next hn =>
          rw [List.mem_singleton.mp hc]
          exact hdigit n hn
      · rcases List.mem_append.mp hc with hc | hc
        · exact ih (n / 16) (by omega) c hc
        · rw [List.mem_singleton.mp hc]
          exact hdigit _ (Nat.mod_lt n (by decide))

/-- The character written first, and what follows it. -/
def readChar : List Char → Option (Char × List Char)
  | '\\' :: '0' :: rest => some ('\x00', rest)
  | '\\' :: 't' :: rest => some ('\t', rest)
  | '\\' :: 'r' :: rest => some ('\r', rest)
  | '\\' :: 'n' :: rest => some ('\n', rest)
  | '\\' :: 'u' :: _ :: rest =>
      some (Char.ofNat (hexValue (rest.takeWhile (· ≠ '\x7d'))), (rest.dropWhile (· ≠ '\x7d')).tail)
  | '\\' :: c :: rest => some (c, rest)
  | c :: rest => some (c, rest)
  | [] => none

theorem readChar_plain {c : Char} (h : c ≠ '\\') (rest : List Char) :
    readChar (c :: rest) = some (c, rest) := by
  unfold readChar
  split <;> simp_all

theorem readChar_unicode (c : Char) (rest : List Char) :
    readChar ('\\' :: 'u' :: '\x7b' :: (hex c.toNat ++ '\x7d' :: rest)) = some (c, rest) := by
  have hdigits : ∀ d ∈ hex c.toNat, decide (d ≠ '\x7d') = true := by
    simpa using hex_ne_brace c.toNat
  have hread : readChar ('\\' :: 'u' :: '\x7b' :: (hex c.toNat ++ '\x7d' :: rest)) =
      some (Char.ofNat (hexValue ((hex c.toNat ++ '\x7d' :: rest).takeWhile (· ≠ '\x7d'))),
        ((hex c.toNat ++ '\x7d' :: rest).dropWhile (· ≠ '\x7d')).tail) := rfl
  rw [hread, List.takeWhile_append_of_pos hdigits, List.dropWhile_append_of_pos hdigits]
  simp [hexValue_hex]

/-- What is written for a character is read as it, whatever follows. -/
theorem readChar_escape (c : Char) (rest : List Char) :
    readChar (escape printable c ++ rest) = some (c, rest) := by
  unfold escape
  split
  · next h => rw [h]; rfl
  split
  · next h => rw [h]; rfl
  split
  · next h => rw [h]; rfl
  split
  · next h => rw [h]; rfl
  split
  · next h => rw [h]; rfl
  split
  · next h => rw [h]; rfl
  split
  · next hbackslash _ _ => exact readChar_plain hbackslash rest
  · simpa using readChar_unicode c rest

theorem escape_head_ne_quote (c : Char) (rest : List Char) :
    (escape printable c ++ rest).head? ≠ some '"' := by
  unfold escape
  repeat' split
  all_goals simp_all

/-- A text that shows where it ends. -/
def Delimited {α : Type} (text : α → List Char) : Prop :=
  ∀ a b rest rest', text a ++ rest = text b ++ rest' → a = b ∧ rest = rest'

theorem delimited_escape : Delimited (escape printable) := by
  intro a b rest rest' h
  have hread := congrArg readChar h
  rw [readChar_escape, readChar_escape] at hread
  simpa using hread

theorem body_inj {chars chars' rest rest' : List Char}
    (h : chars.flatMap (escape printable) ++ '"' :: rest =
      chars'.flatMap (escape printable) ++ '"' :: rest') : chars = chars' ∧ rest = rest' := by
  induction chars generalizing chars' with
  | nil =>
      cases chars' with
      | nil => simpa using h
      | cons c chars' =>
          rw [List.flatMap_cons, List.append_assoc] at h
          exact absurd (congrArg List.head? h).symm (escape_head_ne_quote printable c _)
  | cons c chars ih =>
      cases chars' with
      | nil =>
          rw [List.flatMap_cons, List.append_assoc] at h
          exact absurd (congrArg List.head? h) (escape_head_ne_quote printable c _)
      | cons d chars' =>
          rw [List.flatMap_cons, List.flatMap_cons, List.append_assoc, List.append_assoc] at h
          obtain ⟨rfl, hrest⟩ := delimited_escape printable _ _ _ _ h
          obtain ⟨rfl, htail⟩ := ih hrest
          exact ⟨rfl, htail⟩

theorem delimited_string : Delimited fun s => (string printable s).toList := by
  intro s t rest rest' h
  have hbody : s.toList.flatMap (escape printable) ++ '"' :: rest =
      t.toList.flatMap (escape printable) ++ '"' :: rest' := by
    simpa [string] using h
  obtain ⟨hchars, hrest⟩ := body_inj printable hbody
  exact ⟨String.toList_inj.mp hchars, hrest⟩

theorem string_inj {s t : String} (h : string printable s = string printable t) : s = t := by
  have htext : (string printable s).toList ++ [] = (string printable t).toList ++ [] := by rw [h]
  exact (delimited_string printable s t [] [] htext).1

variable {α : Type} {text : α → String}

theorem option_inj (htext : Function.Injective text) {a b : Option α}
    (h : option text a = option text b) : a = b := by
  cases a with
  | none =>
      cases b with
      | none => rfl
      | some b => exact absurd (congrArg (fun s => s.toList.head?) h) (by simp [option])
  | some a =>
      cases b with
      | none => exact absurd (congrArg (fun s => s.toList.head?) h) (by simp [option])
      | some b =>
          have hsome := congrArg String.toList h
          simp only [option, String.toList_append, List.append_cancel_left_eq,
            List.append_cancel_right_eq, String.toList_inj] at hsome
          rw [htext hsome]

/-- What follows an item of a list, up to the closing bracket. -/
def moreText (text : α → String) : List α → List Char
  | [] => [']']
  | a :: rest => ',' :: ' ' :: ((text a).toList ++ moreText text rest)

theorem intercalate_cons (a : α) (items : List α) :
    (String.intercalate ", " ((a :: items).map text)).toList ++ [']'] =
      (text a).toList ++ moreText text items := by
  induction items generalizing a with
  | nil => simp [moreText]
  | cons b items ih =>
      have hrest := ih b
      simp_all [moreText]

theorem moreText_inj (hdelimited : Delimited fun a => (text a).toList) {items items' : List α}
    (h : moreText text items = moreText text items') : items = items' := by
  induction items generalizing items' with
  | nil =>
      cases items' with
      | nil => rfl
      | cons b items' => simp [moreText] at h
  | cons a items ih =>
      cases items' with
      | nil => simp [moreText] at h
      | cons b items' =>
          have hitems : (text a).toList ++ moreText text items =
              (text b).toList ++ moreText text items' := by simpa [moreText] using h
          obtain ⟨rfl, hrest⟩ := hdelimited a b _ _ hitems
          rw [ih hrest]

theorem list_inj (hdelimited : Delimited fun a => (text a).toList)
    (hhead : ∀ a rest, ((text a).toList ++ rest).head? ≠ some ']') {items items' : List α}
    (h : list text items = list text items') : items = items' := by
  have htext : (String.intercalate ", " (items.map text)).toList ++ [']'] =
      (String.intercalate ", " (items'.map text)).toList ++ [']'] := by
    have hlist := congrArg String.toList h
    simpa [list] using hlist
  cases items with
  | nil =>
      cases items' with
      | nil => rfl
      | cons b items' =>
          rw [intercalate_cons] at htext
          exact absurd (congrArg List.head? htext).symm (hhead b _)
  | cons a items =>
      cases items' with
      | nil =>
          rw [intercalate_cons] at htext
          exact absurd (congrArg List.head? htext) (hhead a _)
      | cons b items' =>
          rw [intercalate_cons, intercalate_cons] at htext
          obtain ⟨rfl, hrest⟩ := hdelimited a b _ _ htext
          rw [moreText_inj hdelimited hrest]

theorem strings_inj {items items' : List String}
    (h : list (string printable) items = list (string printable) items') : items = items' :=
  list_inj (delimited_string printable) (by simp [string]) h

end Distinct

end Debug
