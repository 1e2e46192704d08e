import SceneWorks.HfRepoId
import SceneWorks.Library.Text
import SceneWorks.Library.Reducer
import Mathlib.Algebra.Order.BigOperators.Group.List
import Mathlib.Algebra.Order.Ring.Nat

/-!
The guards on single texts of an envelope: labels, which are dropped when they could name
a location on the machine that wrote them; authored prose, which is stripped and bounded;
content digests; and repository ids. Each one gives back unchanged what it has given.
-/

namespace SceneWorks.WorkflowEnvelope

open Reducer

def isDriveToken : List Char → Bool
  | c :: ':' :: _ => Text.isAsciiAlphabetic c
  | _ => false

/-- The segments between slashes without white space beside them; empty ones do not count. -/
def relativeTreeSegments (value : String) : Nat :=
  go none value.toList 0
where
  go (previous : Option Char) : List Char → Nat → Nat
    | [], segmentLength => if 0 < segmentLength then 1 else 0
    | c :: rest, segmentLength =>
        if c = '/' && !(previous.any Text.isWhiteSpace) && !(rest.head?.any Text.isWhiteSpace) then
          (if 0 < segmentLength then 1 else 0) + go (some c) rest 0
        else go (some c) rest (segmentLength + 1)

def looksLikeALocation (value : String) : Bool :=
  let lower := Text.asciiLower value
  let segments := Text.splitOn '/' value
  Text.containsText "file://" lower ||
    value.toList.contains '\\' ||
    value.toList.head? = some '/' ||
    (value.toList.head? = some '~' && value.toList.contains '/') ||
    (lower.toList.splitOnP fun c => !(Text.isAsciiAlphanumeric c) && c ≠ ':').any isDriveToken ||
    segments.contains ".." ||
    (1 < segments.length && segments.head? = some ".") ||
    (!(Text.containsText "://" lower) && 3 ≤ relativeTreeSegments value)

def percentDecoded (high low : Char) : Option Char :=
  match high.toLower, low.toLower with
  | '3', 'a' => some ':'
  | '2', 'f' => some '/'
  | '5', 'c' => some '\\'
  | '7', 'e' => some '~'
  | '2', 'e' => some '.'
  | '2', '5' => some '%'
  | _, _ => none

def percentDecodeSeparators : List Char → List Char
  | '%' :: high :: low :: rest =>
      match percentDecoded high low with
      | some c => c :: percentDecodeSeparators rest
      | none => '%' :: percentDecodeSeparators (high :: low :: rest)
  | c :: rest => c :: percentDecodeSeparators rest
  | [] => []

def percentDecodeRounds : Nat := 3

/-- The rounds of decoding, cut short once a round changes nothing. -/
def decodesToALocation : Nat → String → Bool
  | 0, _ => false
  | rounds + 1, decoded =>
      let next := String.ofList (percentDecodeSeparators decoded.toList)
      if next = decoded then false
      else looksLikeALocation (Text.trim next) || decodesToALocation rounds next

def isPathShaped (value : String) : Bool :=
  let trimmed := Text.trim value
  trimmed ≠ "" && (looksLikeALocation trimmed || decodesToALocation percentDecodeRounds trimmed)

def labelMaxChars : Nat := 200

def shareableLabel (value : String) : Option String :=
  let trimmed := Text.trim value
  if trimmed = "" || labelMaxChars < trimmed.length || trimmed.toList.any Text.isControl ||
      isPathShaped trimmed then none
  else some trimmed

theorem shareableLabel_settles : Settles shareableLabel := by
  intro value label h
  simp only [shareableLabel] at h
  split at h
  · cases h
  · next hkept =>
      obtain rfl := Option.some.inj h
      simp only [shareableLabel, Text.trim_trim]
      exact if_neg hkept

def proseMaxBytes : Nat := 16 * 1024

def displayBlankCharacters : List Nat :=
  [0x115F, 0x1160, 0x2800, 0x3164, 0xFFA0, 0x13441, 0x13442]

/-- The ranges of the format class, and the line and paragraph separators. -/
def invisibleRanges : List (Nat × Nat) :=
  [(0x00AD, 0x00AD), (0x0600, 0x0605), (0x061C, 0x061C), (0x06DD, 0x06DD), (0x070F, 0x070F),
    (0x0890, 0x0891), (0x08E2, 0x08E2), (0x180E, 0x180E), (0x200B, 0x200F), (0x2028, 0x2029),
    (0x202A, 0x202E), (0x2060, 0x2064), (0x2066, 0x206F), (0xFEFF, 0xFEFF), (0xFFF9, 0xFFFB),
    (0x110BD, 0x110BD), (0x110CD, 0x110CD), (0x13430, 0x1343F), (0x1BCA0, 0x1BCA3),
    (0x1D173, 0x1D17A), (0xE0001, 0xE0001), (0xE0020, 0xE007F)]

def isInvisibleFormatting (c : Char) : Bool :=
  displayBlankCharacters.contains c.toNat ||
    invisibleRanges.any fun range => range.1 ≤ c.toNat && c.toNat ≤ range.2

/-- The characters of authored prose that stay. -/
def isProse (c : Char) : Bool :=
  c = '\n' || c = '\t' || !(Text.isControl c || isInvisibleFormatting c)

/-- The characters up to the first that does not fit whole. -/
def fitting : Nat → List Char → List Char
  | _, [] => []
  | budget, c :: rest =>
      if budget < c.utf8Size then [] else c :: fitting (budget - c.utf8Size) rest

def shareableProse (value : String) : String :=
  Text.trim (String.ofList (fitting proseMaxBytes (value.toList.filter isProse)))

theorem fitting_isPrefix (budget : Nat) (chars : List Char) : fitting budget chars <+: chars := by
  induction chars generalizing budget with
  | nil => exact List.prefix_rfl
  | cons c rest ih =>
      rw [fitting]
      split
      · exact List.nil_prefix
      · exact List.cons_prefix_cons.mpr ⟨rfl, ih _⟩

theorem sum_fitting_le (budget : Nat) (chars : List Char) :
    ((fitting budget chars).map Char.utf8Size).sum ≤ budget := by
  induction chars generalizing budget with
  | nil => exact Nat.zero_le _
  | cons c rest ih =>
      rw [fitting]
      split
      · exact Nat.zero_le _
      · have hrest := ih (budget - c.utf8Size)
        rw [List.map_cons, List.sum_cons]
        omega

theorem fitting_eq_self {budget : Nat} {chars : List Char}
    (h : (chars.map Char.utf8Size).sum ≤ budget) : fitting budget chars = chars := by
  induction chars generalizing budget with
  | nil => rfl
  | cons c rest ih =>
      rw [List.map_cons, List.sum_cons] at h
      rw [fitting, if_neg (by omega), ih (by omega)]

theorem shareableProse_sublist (value : String) :
    (shareableProse value).toList.Sublist
      (fitting proseMaxBytes (value.toList.filter isProse)) := by
  have htrim := Text.trim_sublist
    (String.ofList (fitting proseMaxBytes (value.toList.filter isProse)))
  rwa [String.toList_ofList] at htrim

theorem length_shareableProse_le (value : String) :
    (shareableProse value).length ≤ value.length := by
  have hfront := (fitting_isPrefix proseMaxBytes (value.toList.filter isProse)).sublist
  have hsub := (shareableProse_sublist value).trans (hfront.trans List.filter_sublist)
  rw [← String.length_toList, ← String.length_toList]
  exact hsub.length_le

theorem shareableProse_shareableProse (value : String) :
    shareableProse (shareableProse value) = shareableProse value := by
  -- What is left is a sublist of what fitted, so all of it stays and fits again.
  have hsub := shareableProse_sublist value
  have hkept : (shareableProse value).toList.filter isProse = (shareableProse value).toList := by
    rw [List.filter_eq_self]
    intro c hc
    exact (List.mem_filter.mp ((fitting_isPrefix _ _).subset (hsub.subset hc))).2
  have hfits :
      fitting proseMaxBytes (shareableProse value).toList = (shareableProse value).toList :=
    fitting_eq_self (((hsub.map Char.utf8Size).sum_le_sum fun _ _ => Nat.zero_le _).trans
      (sum_fitting_le _ _))
  calc
    shareableProse (shareableProse value) =
        Text.trim (String.ofList (fitting proseMaxBytes
          ((shareableProse value).toList.filter isProse))) := rfl
    _ = Text.trim (shareableProse value) := by rw [hkept, hfits, String.ofList_toList]
    _ = shareableProse value := Text.trim_trim _

theorem utf8Size_le (c : Char) : c.utf8Size ≤ 4 := by
  rw [Char.utf8Size]
  split
  · omega
  · split
    · omega
    · split <;> omega

/-- Short prose is only stripped: it comes out empty when nothing but blanks stays. -/
theorem shareableProse_eq_empty_iff {value : String} (h : value.length ≤ 4000) :
    shareableProse value = "" ↔ ∀ c ∈ value.toList, isProse c = true →
      Text.isWhiteSpace c = true := by
  have hfits :
      fitting proseMaxBytes (value.toList.filter isProse) = value.toList.filter isProse := by
    refine fitting_eq_self ?_
    have hsum : ((value.toList.filter isProse).map Char.utf8Size).sum ≤
        (value.toList.filter isProse).length * 4 := by
      rw [← List.length_map (f := Char.utf8Size)]
      refine List.sum_le_card_nsmul _ 4 fun n hn => ?_
      obtain ⟨c, -, rfl⟩ := List.mem_map.mp hn
      exact utf8Size_le c
    have hlength : (value.toList.filter isProse).length ≤ 4000 :=
      (List.length_filter_le _ _).trans h
    have hmax : proseMaxBytes = 16384 := rfl
    omega
  rw [shareableProse, Text.trim_eq_empty_iff, String.toList_ofList, hfits]
  constructor
  · intro hall c hc hprose
    exact hall c (List.mem_filter.mpr ⟨hc, hprose⟩)
  · intro hall c hc
    exact hall c (List.mem_filter.mp hc).1 (List.mem_filter.mp hc).2

def hexDigits : List Char := "0123456789abcdefABCDEF".toList

/-- A full digest in lower case; its digits are one byte each. -/
def normalizeSha256 (value : String) : Option String :=
  let value := Text.trim value
  if value.length = 64 && value.toList.all hexDigits.contains then some (Text.asciiLower value)
  else none

theorem hexDigit_toLower : ∀ c ∈ hexDigits, c.toLower ∈ hexDigits ∧
    Text.isWhiteSpace c.toLower = false ∧ c.toLower.toLower = c.toLower := by
  decide

theorem normalizeSha256_settles : Settles normalizeSha256 := by
  intro value digest h
  simp only [normalizeSha256, Bool.and_eq_true, decide_eq_true_eq, List.all_eq_true] at h
  split at h
  case isFalse => cases h
  case isTrue hvalue =>
    obtain ⟨hlength, hhex⟩ := hvalue
    obtain rfl := Option.some.inj h
    have hlower : ∀ c ∈ (Text.asciiLower (Text.trim value)).toList, c ∈ hexDigits ∧
        Text.isWhiteSpace c = false ∧ c.toLower = c := by
      intro c hc
      rw [Text.asciiLower, String.toList_ofList] at hc
      obtain ⟨d, hd, rfl⟩ := List.mem_map.mp hc
      exact hexDigit_toLower d (by simpa using hhex d hd)
    have htrim :
        Text.trim (Text.asciiLower (Text.trim value)) = Text.asciiLower (Text.trim value) :=
      Text.trim_of_no_whiteSpace fun c hc => (hlower c hc).2.1
    have hagain : Text.asciiLower (Text.asciiLower (Text.trim value)) =
        Text.asciiLower (Text.trim value) := by
      conv_rhs => rw [← String.ofList_toList (s := Text.asciiLower (Text.trim value))]
      rw [Text.asciiLower, List.map_congr_left fun c hc => (hlower c hc).2.2]
      simp
    have hsame : (Text.asciiLower (Text.trim value)).length = 64 := by
      rw [← hlength, Text.asciiLower, ← String.length_toList, String.toList_ofList, List.length_map,
        String.length_toList]
    have hall : ((Text.asciiLower (Text.trim value)).toList.all hexDigits.contains) = true :=
      List.all_eq_true.mpr fun c hc => by simpa using (hlower c hc).1
    simp only [normalizeSha256, htrim]
    rw [if_pos (by simp [hsame, hall]), hagain]

def hfRepoId (value : String) : Option String :=
  (HfRepoId.namespaced value).toOption.filter fun repo => repo.length ≤ labelMaxChars

theorem hfRepoId_settles : Settles hfRepoId := by
  intro value repo h
  obtain ⟨hrepo, hlength⟩ := Option.filter_eq_some_iff.mp h
  cases hnamespaced : HfRepoId.namespaced value with
  | error message => simp [hnamespaced, Except.toOption] at hrepo
  | ok found =>
      obtain rfl : found = repo := by simpa [hnamespaced, Except.toOption] using hrepo
      have htrim : found = Text.trim value := by
        cases hparse : HfRepoId.parse value with
        | error message => simp [HfRepoId.namespaced, hparse, bind, Except.bind] at hnamespaced
        | ok parsed =>
            simp only [HfRepoId.namespaced, hparse, bind, Except.bind] at hnamespaced
            split at hnamespaced
            · exact (Except.ok.inj hnamespaced).symm.trans (HfRepoId.parse_ok hparse)
            · cases hnamespaced
      have hagain : HfRepoId.namespaced found = HfRepoId.namespaced value := by
        rw [htrim, HfRepoId.namespaced, HfRepoId.parse_trim]
        rfl
      rw [hfRepoId, hagain, hnamespaced]
      exact Option.filter_some_pos hlength

end SceneWorks.WorkflowEnvelope
