import Mathlib.Algebra.GroupWithZero.Nat
import Mathlib.Algebra.Ring.Int.Defs
import Mathlib.Data.List.Basic
import Mathlib.Data.List.DropRight
import Mathlib.Data.List.TakeDrop

/-!
The handful of text operations that request decoding rests on: trimming by the
Unicode `White_Space` property, comparison up to ASCII case, and the decimal
reading of a signed 64-bit integer.
-/

namespace Text

/-- A property of every character of a list is tried on those of the list, not on every character
there is. -/
instance (priority := 5000) decidableForallMem {p : Char → Prop} [DecidablePred p] (l : List Char) :
    Decidable (∀ c ∈ l, p c) := List.decidableBAll p l

/-- The code points with the Unicode `White_Space` property. -/
def isWhiteSpace (c : Char) : Bool :=
  let n := c.toNat
  (9 ≤ n ∧ n ≤ 13) ∨ n = 0x20 ∨ n = 0x85 ∨ n = 0xA0 ∨ n = 0x1680 ∨ (0x2000 ≤ n ∧ n ≤ 0x200A) ∨
    n = 0x2028 ∨ n = 0x2029 ∨ n = 0x202F ∨ n = 0x205F ∨ n = 0x3000

/-- `char::is_control`. -/
def isControl (c : Char) : Bool := c.toNat < 32 || 127 ≤ c.toNat && c.toNat < 160

def trim (s : String) : String :=
  String.ofList (((s.toList.dropWhile isWhiteSpace).reverse.dropWhile isWhiteSpace).reverse)

theorem toList_trim (s : String) :
    (trim s).toList = (s.toList.dropWhile isWhiteSpace).rdropWhile isWhiteSpace := by
  rw [trim, String.toList_ofList]
  rfl

/-- Cutting off the end keeps an element at the front that is not cut off. -/
theorem rdropWhile_cons {α : Type} {p : α → Bool} {a : α} (h : ¬ p a = true) (l : List α) :
    (a :: l).rdropWhile p = a :: l.rdropWhile p := by
  induction l using List.reverseRecOn with
  | nil => exact List.rdropWhile_concat_neg p [] a h
  | append_singleton l b ih =>
      by_cases hb : p b = true
      · rw [← List.cons_append, List.rdropWhile_concat_pos p _ b hb, ih,
          List.rdropWhile_concat_pos p _ b hb]
      · rw [← List.cons_append, List.rdropWhile_concat_neg p _ b hb,
          List.rdropWhile_concat_neg p _ b hb, List.cons_append]

theorem dropWhile_rdropWhile_dropWhile {α : Type} (p : α → Bool) (l : List α) :
    ((l.dropWhile p).rdropWhile p).dropWhile p = (l.dropWhile p).rdropWhile p := by
  induction l with
  | nil => rfl
  | cons a l ih =>
      by_cases ha : p a = true
      · rw [List.dropWhile_cons_of_pos ha, ih]
      · rw [List.dropWhile_cons_of_neg ha, rdropWhile_cons ha, List.dropWhile_cons_of_neg ha]

theorem trim_trim (s : String) : trim (trim s) = trim s := by
  rw [← String.toList_inj, toList_trim, toList_trim, dropWhile_rdropWhile_dropWhile,
    List.rdropWhile_idempotent]

theorem trim_of_no_whiteSpace {s : String} (h : ∀ c ∈ s.toList, isWhiteSpace c = false) :
    trim s = s := by
  have hfront : s.toList.dropWhile isWhiteSpace = s.toList := by
    cases hs : s.toList with
    | nil => rfl
    | cons c rest => exact List.dropWhile_cons_of_neg (by simp [h c (by simp [hs])])
  rw [← String.toList_inj, toList_trim, hfront, List.rdropWhile_eq_self_iff]
  intro hne
  rw [h _ (List.getLast_mem hne)]
  exact Bool.false_ne_true

theorem dropWhile_of_trim_eq {s : String} (h : trim s = s) :
    s.toList.dropWhile isWhiteSpace = s.toList := by
  have hlist := toList_trim s
  rw [h] at hlist
  have hlength := (List.rdropWhile_prefix isWhiteSpace (s.toList.dropWhile isWhiteSpace)).length_le
  rw [← hlist] at hlength
  exact (List.dropWhile_suffix isWhiteSpace).eq_of_length_le hlength

/-- A trimmed text stays one when more is written after it. -/
theorem trim_append {s t : String} (h : trim s = s) (hne : s ≠ "") {front : List Char} {c : Char}
    (ht : t.toList = front ++ [c]) (hc : isWhiteSpace c = false) : trim (s ++ t) = s ++ t := by
  have hfront := dropWhile_of_trim_eq h
  cases hs : s.toList with
  | nil => exact absurd (String.toList_inj.mp hs) hne
  | cons d rest =>
      have hd : ¬ isWhiteSpace d = true := by
        intro hspace
        rw [hs, List.dropWhile_cons_of_pos hspace] at hfront
        have hlength := (List.dropWhile_suffix isWhiteSpace (l := rest)).length_le
        rw [hfront, List.length_cons] at hlength
        omega
      rw [← String.toList_inj, toList_trim, String.toList_append, ht, hs, List.cons_append,
        List.dropWhile_cons_of_neg hd, ← List.cons_append, ← List.append_assoc,
        List.rdropWhile_concat_neg _ _ _ (by simp [hc])]

/-- Trimming takes away a front and an end. -/
theorem trim_sublist (s : String) : (trim s).toList.Sublist s.toList := by
  have hend := List.rdropWhile_prefix isWhiteSpace (s.toList.dropWhile isWhiteSpace)
  rw [toList_trim]
  exact hend.sublist.trans (List.dropWhile_suffix _).sublist

theorem trim_eq_empty_iff (s : String) :
    trim s = "" ↔ ∀ c ∈ s.toList, isWhiteSpace c = true := by
  rw [← String.toList_inj, toList_trim]
  constructor
  · intro h
    have hrest := List.rdropWhile_eq_nil_iff.mp h
    intro c hc
    by_contra hspace
    have hmem : c ∈ s.toList.dropWhile isWhiteSpace := by
      rw [← List.takeWhile_append_dropWhile (p := isWhiteSpace) (l := s.toList),
        List.mem_append] at hc
      exact hc.resolve_left fun h => hspace (List.mem_takeWhile_imp h)
    exact hspace (hrest c hmem)
  · intro h
    rw [List.dropWhile_eq_nil_iff.mpr h]
    rfl

def trimEnd (s : String) : String := String.ofList (s.toList.rdropWhile isWhiteSpace)

def asciiLower (s : String) : String :=
  String.ofList (s.toList.map Char.toLower)

/-- `str::contains` of a text. -/
def containsText (needle value : String) : Bool :=
  value.toList.tails.any needle.toList.isPrefixOf

def splitOn (c : Char) (value : String) : List String :=
  (value.toList.splitOn c).map String.ofList

/-- What follows the given front, as `strip_prefix` on characters. -/
def after : List Char → List Char → Option (List Char)
  | [], value => some value
  | _ :: _, [] => none
  | c :: front, d :: value => if c = d then after front value else none

/-- What precedes the given back. -/
def before (back value : List Char) : Option (List Char) :=
  (after back.reverse value.reverse).map List.reverse

theorem after_append (front value : List Char) : after front (front ++ value) = some value := by
  induction front with
  | nil => rfl
  | cons c front ih => simpa [after] using ih

theorem before_append (value back : List Char) : before back (value ++ back) = some value := by
  simp [before, after_append]

theorem after_eq_some_iff {front value rest : List Char} :
    after front value = some rest ↔ value = front ++ rest := by
  induction front generalizing value with
  | nil => simp [after, eq_comm]
  | cons c front ih =>
      cases value with
      | nil => simp [after]
      | cons d value =>
          by_cases hcd : c = d
          · subst hcd
            simp [after, ih]
          · simp [after, hcd, Ne.symm hcd]

theorem before_eq_some_iff {back value rest : List Char} :
    before back value = some rest ↔ value = rest ++ back := by
  rw [before, Option.map_eq_some_iff]
  constructor
  · rintro ⟨reversed, hreversed, rfl⟩
    rw [after_eq_some_iff] at hreversed
    rw [← List.reverse_reverse value, hreversed, List.reverse_append, List.reverse_reverse]
  · rintro rfl
    exact ⟨rest.reverse, by rw [after_eq_some_iff, List.reverse_append], List.reverse_reverse rest⟩

def isAsciiAlphabetic (c : Char) : Bool := ('a' ≤ c && c ≤ 'z') || ('A' ≤ c && c ≤ 'Z')

def isAsciiAlphanumeric (c : Char) : Bool := isAsciiAlphabetic c || c.isDigit

def startsWith (front value : String) : Bool := (after front.toList value.toList).isSome

def endsWith (back value : String) : Bool := (before back.toList value.toList).isSome

def stripFront (front value : String) : Option String :=
  (after front.toList value.toList).map String.ofList

def stripBack (back value : String) : Option String :=
  (before back.toList value.toList).map String.ofList

/-- The two sides of the first character of a kind. -/
def cut (p : Char → Bool) (value : List Char) : Option (List Char × List Char) :=
  match value.span fun c => !p c with
  | (_, []) => none
  | (front, _ :: back) => some (front, back)

theorem cut_append {p : Char → Bool} {front back : List Char} {c : Char}
    (hfront : ∀ d ∈ front, p d = false) (hc : p c = true) :
    cut p (front ++ c :: back) = some (front, back) := by
  have hspan : (front ++ c :: back).span (fun d => !p d) = (front, c :: back) := by
    rw [List.span_eq_takeWhile_dropWhile, List.takeWhile_append_of_pos (by simpa using hfront),
      List.dropWhile_append_of_pos (by simpa using hfront),
      List.takeWhile_cons_of_neg (by simpa using hc),
      List.dropWhile_cons_of_neg (by simpa using hc), List.append_nil]
  rw [cut, hspan]

theorem cut_eq_none {p : Char → Bool} {value : List Char} (h : ∀ d ∈ value, p d = false) :
    cut p value = none := by
  have hspan : value.span (fun d => !p d) = (value, []) := by
    have hall : ∀ d ∈ value, (!p d) = true := by simpa using h
    have hnone : value.dropWhile (fun d => !p d) = [] := by
      rw [← List.append_nil value, List.dropWhile_append_of_pos hall]
      rfl
    have hsplit := List.takeWhile_append_dropWhile (p := fun d => !p d) (l := value)
    rw [hnone, List.append_nil] at hsplit
    rw [List.span_eq_takeWhile_dropWhile, hsplit, hnone]
  rw [cut, hspan]

/-- `str::split_once` at the first character of a kind. -/
def splitOnceAt (p : Char → Bool) (value : String) : Option (String × String) :=
  (cut p value.toList).map (Prod.map String.ofList String.ofList)

def splitOnce (c : Char) (value : String) : Option (String × String) := splitOnceAt (· = c) value

/-- `str::split_whitespace`. -/
def splitWhitespace (value : String) : List (List Char) :=
  (value.toList.splitOnP isWhiteSpace).filter fun word => !word.isEmpty

/-- The pieces of a split hold what does not separate them. -/
theorem mem_of_mem_splitOnP {α : Type} {p : α → Bool} {l token : List α}
    (h : token ∈ l.splitOnP p) {a : α} (ha : a ∈ token) : a ∈ l ∧ p a = false := by
  induction l generalizing token with
  | nil =>
      obtain rfl : token = [] := by simpa using h
      cases ha
  | cons b l ih =>
      have hlater : ∀ token ∈ l.splitOnP p, a ∈ token → a ∈ b :: l ∧ p a = false := by
        intro token htoken ha
        obtain ⟨hmem, hp⟩ := ih htoken ha
        exact ⟨List.mem_cons_of_mem _ hmem, hp⟩
      rw [List.splitOnP_cons_eq_if_modifyHead] at h
      split at h
      · obtain rfl | htoken := List.mem_cons.mp h
        · cases ha
        · exact hlater token htoken ha
      · next hb =>
          cases hsplit : l.splitOnP p with
          | nil => exact absurd hsplit (List.splitOnP_ne_nil p l)
          | cons first rest =>
              rw [hsplit] at hlater
              rw [hsplit, List.modifyHead_cons] at h
              obtain rfl | htoken := List.mem_cons.mp h
              · obtain rfl | ha := List.mem_cons.mp ha
                · exact ⟨List.mem_cons_self, by simpa using hb⟩
                · exact hlater first List.mem_cons_self ha
              · exact hlater token (List.mem_cons_of_mem _ htoken) ha

theorem mem_of_mem_splitWhitespace {value : String} {word : List Char}
    (h : word ∈ splitWhitespace value) {c : Char} (hc : c ∈ word) :
    c ∈ value.toList ∧ isWhiteSpace c = false :=
  mem_of_mem_splitOnP (List.mem_of_mem_filter h) hc

def eqIgnoreAsciiCase (a b : String) : Bool :=
  asciiLower a = asciiLower b

def digitValue (c : Char) : Option Nat :=
  if '0' ≤ c ∧ c ≤ '9' then some (c.toNat - '0'.toNat) else none

/-- The value of a nonempty run of decimal digits. -/
def parseDigits : List Char → Option Nat
  | [] => none
  | chars => chars.foldlM (fun acc c => (digitValue c).map fun d => acc * 10 + d) 0

/-- `str::parse::<i64>`: an optional sign, then digits, within range. -/
def parseI64 (s : String) : Option Int :=
  let value : Option Int :=
    match s.toList with
    | '-' :: digits => (parseDigits digits).map fun n => -(n : Int)
    | '+' :: digits => (parseDigits digits).map fun n => (n : Int)
    | digits => (parseDigits digits).map fun n => (n : Int)
  value.filter fun n => -(2 ^ 63) ≤ n ∧ n < 2 ^ 63

/-- `str::parse::<u32>`, which takes a plus sign and no minus sign. -/
def parseU32 (s : String) : Option UInt32 :=
  let value :=
    match s.toList with
    | '+' :: digits => parseDigits digits
    | digits => parseDigits digits
  (value.filter fun n => n < 2 ^ 32).map UInt32.ofNat

example : parseI64 "-8" = some (-8) ∧ parseI64 "" = none ∧
    parseI64 "9223372036854775808" = none := by
  decide

/-- A carriage return before the line feed belongs to the line's end; `line` is reversed. -/
def stripReturn : List Char → List Char
  | '\r' :: line => line
  | line => line

theorem stripReturn_cons (c : Char) (line : List Char) :
    stripReturn (c :: line) = if c = '\r' then line else c :: line := by
  by_cases hc : c = '\r'
  · rw [if_pos hc, hc]
    rfl
  · rw [if_neg hc]
    unfold stripReturn
    split
    · next heq =>
        obtain ⟨rfl, -⟩ := List.cons.inj heq
        exact absurd rfl hc
    · rfl

def linesFrom (line : List Char) : List Char → List (List Char)
  | [] => if line = [] then [] else [line.reverse]
  | c :: rest =>
      if c = '\n' then (stripReturn line).reverse :: linesFrom [] rest
      else linesFrom (c :: line) rest

/-- The lines of a text, each without the line feed that ends it. -/
def lines (text : List Char) : List (List Char) := linesFrom [] text

end Text
