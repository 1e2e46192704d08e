import Mathlib.Algebra.BigOperators.Group.List.Lemmas
import Mathlib.Algebra.BigOperators.Ring.List
import SceneWorks.TensorArtifact.Readers

/-!
What the encoder writes, both readers read back: the padded dictionary opens to the shape it was
made from, and the payload is the bytes of the values.
-/

namespace SceneWorks.TensorArtifact

open Fallible

def finiteBits (bits : UInt32) : Bool := isFinite (LittleEndian.bytes 4 bits.toNat)

def dimensionsText (shape : List Nat) : List Char :=
  [',', ' '].intercalate (shape.map (Nat.toDigits 10))

def dictionaryOf (shape : List Nat) : String :=
  "\x7b'descr': '<f4', 'fortran_order': False, 'shape': (" ++
    String.ofList (dimensionsText shape) ++ "), \x7d"

def paddingOf (length : Nat) : Nat := (64 - (10 + length + 1) % 64) % 64

/-- The little-endian bytes of the values. -/
def words (values : List UInt32) : List UInt8 :=
  values.flatMap fun bits => LittleEndian.bytes 4 bits.toNat

/-- A value is the bit pattern of a `f32`. -/
def encodeF32 (shape : List Nat) (values : List UInt32) : Except String (List UInt8) := do
  let elements ← okOr (shape.foldlM checkedMul 1) "tensor shape overflow"
  if ¬ (2 ≤ shape.length ∧ shape.length ≤ 4) ∨ 0 ∈ shape ∨ elements ≠ values.length ∨
      maxDataBytes / 4 < elements ∨ values.all finiteBits = false then
    .error "invalid finite FP32 tensor shape or byte budget"
  else
    let dict := Utf8.bytes (dictionaryOf shape)
    let padding := paddingOf dict.length
    .ok (magic ++ [1, 0] ++ LittleEndian.bytes 2 (dict.length + padding + 1) ++ dict ++
      List.replicate padding 0x20 ++ [0x0A] ++ words values)

section Text

variable {front body back : List Char}

/-- A text with something solid at both ends. -/
def Solid (body : List Char) : Prop :=
  (∃ c rest, body = c :: rest ∧ Text.isWhiteSpace c = false) ∧
    ∃ rest c, body = rest ++ [c] ∧ Text.isWhiteSpace c = false

theorem trim_pad (hbody : Solid body) (hfront : ∀ c ∈ front, Text.isWhiteSpace c = true)
    (hback : ∀ c ∈ back, Text.isWhiteSpace c = true) : trim (front ++ body ++ back) = body := by
  obtain ⟨⟨c, rest, hc, hcs⟩, init, d, hd, hds⟩ := hbody
  have hstart : (front ++ body ++ back).dropWhile Text.isWhiteSpace = body ++ back := by
    rw [List.append_assoc, List.dropWhile_append_of_pos hfront, hc, List.cons_append,
      List.dropWhile_cons_of_neg (by simp [hcs])]
  have hend : (body ++ back).rdropWhile Text.isWhiteSpace = body := by
    rw [List.rdropWhile, List.reverse_append, List.dropWhile_append_of_pos
      (fun c hc => hback c (List.mem_reverse.mp hc)), hd, List.reverse_concat,
      List.dropWhile_cons_of_neg (by simp [hds]), List.reverse_cons, List.reverse_reverse]
  rw [trim, hstart, hend]

theorem trim_solid (hbody : Solid body) : trim body = body := by
  have hpad : trim ([] ++ body ++ []) = body := trim_pad hbody (by simp) (by simp)
  simpa using hpad

theorem solid_quoted {c d : Char} (hc : Text.isWhiteSpace c = false)
    (hd : Text.isWhiteSpace d = false) (inner : List Char) : Solid (c :: (inner ++ [d])) :=
  ⟨⟨c, _, rfl, hc⟩, c :: inner, d, rfl, hd⟩

theorem between_append (front inner back : List Char) :
    between front back (front ++ (inner ++ back)) = some inner := by
  rw [between, Text.after_append, Option.bind_some, Text.before_append]

theorem unquote_quoted (inner : List Char) : unquote ('\'' :: (inner ++ ['\''])) = some inner := by
  have hinner := between_append ['\''] inner ['\'']
  rw [List.singleton_append] at hinner
  rw [unquote, hinner]

end Text

section Shape

variable {shape : List Nat}

theorem digits_isDigit (n : Nat) : ∀ c ∈ Nat.toDigits 10 n, c.isDigit = true := fun _ hc =>
  Nat.isDigit_of_mem_toDigits (by decide) (by decide) hc

theorem isWhiteSpace_of_isDigit {c : Char} (h : c.isDigit = true) :
    Text.isWhiteSpace c = false := by
  have hdigit : 48 ≤ c.toNat ∧ c.toNat ≤ 57 := by
    simpa [Char.isDigit, UInt32.le_iff_toNat_le] using h
  unfold Text.isWhiteSpace
  simp only [decide_eq_false_iff_not]
  omega

theorem solid_digits (n : Nat) : Solid (Nat.toDigits 10 n) := by
  have hne : Nat.toDigits 10 n ≠ [] := Nat.toDigits_ne_nil
  refine ⟨⟨_, _, (List.cons_head_tail hne).symm, ?_⟩, _, _,
    (List.dropLast_concat_getLast hne).symm, ?_⟩
  · exact isWhiteSpace_of_isDigit (digits_isDigit n _ (List.head_mem hne))
  · exact isWhiteSpace_of_isDigit (digits_isDigit n _ (List.getLast_mem hne))

theorem parseDimension_digits {n : Nat} (h : n < 2 ^ 64) :
    parseDimension (Nat.toDigits 10 n) = .ok n := by
  have hall : (Nat.toDigits 10 n).all Char.isDigit = true := List.all_eq_true.mpr (digits_isDigit n)
  rw [parseDimension, if_neg (by simp [hall, Nat.toDigits_ne_nil]), Nat.ofDigitChars_ten_toDigits,
    if_pos h]

/-- The dimensions after the first one stand after a comma and a space. -/
theorem dimensionsText_cons (d : Nat) (rest : List Nat) :
    dimensionsText (d :: rest) =
      [','].intercalate (Nat.toDigits 10 d :: rest.map fun n => ' ' :: Nat.toDigits 10 n) := by
  unfold dimensionsText
  rw [List.map_cons]
  induction rest generalizing d with
  | nil => rfl
  | cons n rest ih =>
      have hrest := ih n
      rw [List.map_cons, List.intercalate_cons_cons, List.map_cons, List.intercalate_cons_cons]
      cases rest with
      | nil => simp
      | cons m rest =>
          rw [List.map_cons, List.intercalate_cons_cons, List.map_cons,
            List.intercalate_cons_cons] at hrest ⊢
          simp only [List.append_assoc, List.cons_append, List.nil_append] at hrest ⊢
          rw [hrest]

theorem mem_dimensionsText {c : Char} (h : c ∈ dimensionsText shape) :
    c.isDigit = true ∨ c = ',' ∨ c = ' ' := by
  unfold dimensionsText at h
  induction shape with
  | nil => cases h
  | cons d rest ih =>
      cases rest with
      | nil =>
          simp only [List.map_cons, List.map_nil, List.intercalate_singleton] at h
          exact .inl (digits_isDigit d c h)
      | cons n rest =>
          rw [List.map_cons, List.map_cons, List.intercalate_cons_cons, List.mem_append,
            List.mem_append] at h
          rcases h with (hd | hsep) | hrest
          · exact .inl (digits_isDigit d c hd)
          · rcases List.mem_cons.mp hsep with rfl | hsep
            · exact .inr (.inl rfl)
            · exact .inr (.inr (List.mem_singleton.mp hsep))
          · exact ih hrest

/-- The text of the dimensions ends with a digit. -/
theorem dimensionsText_ends (d : Nat) (rest : List Nat) :
    ∃ front c, dimensionsText (d :: rest) = front ++ [c] ∧ c.isDigit = true := by
  induction rest generalizing d with
  | nil =>
      have hne : Nat.toDigits 10 d ≠ [] := Nat.toDigits_ne_nil
      refine ⟨(Nat.toDigits 10 d).dropLast, (Nat.toDigits 10 d).getLast hne, ?_,
        digits_isDigit d _ (List.getLast_mem hne)⟩
      rw [List.dropLast_concat_getLast]
      simp [dimensionsText]
  | cons n rest ih =>
      obtain ⟨front, c, hrest, hc⟩ := ih n
      refine ⟨Nat.toDigits 10 d ++ [',', ' '] ++ front, c, ?_, hc⟩
      unfold dimensionsText at hrest ⊢
      rw [List.map_cons] at hrest
      rw [List.map_cons, List.map_cons, List.intercalate_cons_cons, hrest,
        List.append_assoc _ front]

theorem solid_dimensionsText (d : Nat) (rest : List Nat) : Solid (dimensionsText (d :: rest)) := by
  obtain ⟨front, c, hends, hc⟩ := dimensionsText_ends d rest
  refine ⟨?_, front, c, hends, isWhiteSpace_of_isDigit hc⟩
  have hne : Nat.toDigits 10 d ≠ [] := Nat.toDigits_ne_nil
  obtain ⟨first, digits, hdigits⟩ := List.exists_cons_of_ne_nil hne
  have hfirst := isWhiteSpace_of_isDigit (digits_isDigit d first (by simp [hdigits]))
  cases rest with
  | nil => exact ⟨first, digits, by simp [dimensionsText, hdigits], hfirst⟩
  | cons n rest =>
      refine ⟨first, digits ++ [',', ' '] ++ dimensionsText (n :: rest), ?_, hfirst⟩
      simp [dimensionsText, List.intercalate_cons_cons, hdigits]

theorem mapM_parseDimension (h : ∀ d ∈ shape, d < 2 ^ 64) :
    (shape.map (Nat.toDigits 10)).mapM parseDimension = .ok shape := by
  induction shape with
  | nil => rfl
  | cons d rest ih =>
      obtain ⟨hd, hrest⟩ := List.forall_mem_cons.mp h
      rw [List.map_cons, List.mapM_cons, parseDimension_digits hd, ih hrest]
      rfl

theorem comma_notMem_digits (n : Nat) : ',' ∉ Nat.toDigits 10 n := fun h =>
  absurd (digits_isDigit n _ h) (by decide)

/-- The tuple of a shape is read back as the shape. -/
theorem parseShape_tuple (hne : shape ≠ []) (h : ∀ d ∈ shape, d < 2 ^ 64) :
    parseShape ('(' :: (dimensionsText shape ++ [')'])) = .ok shape := by
  obtain ⟨d, rest, rfl⟩ := List.exists_cons_of_ne_nil hne
  obtain ⟨front, c, hends, hc⟩ := dimensionsText_ends d rest
  have htuple : ¬ (('(' :: (dimensionsText (d :: rest) ++ [')'])).head? ≠ some '(' ∨
      ('(' :: (dimensionsText (d :: rest) ++ [')'])).getLast? ≠ some ')') := by
    rw [← List.cons_append, List.getLast?_concat]
    simp
  have hcomma : (dimensionsText (d :: rest)).rdropWhile (· = ',') = dimensionsText (d :: rest) := by
    have hnot : c ≠ ',' := by
      rintro rfl
      exact absurd hc (by decide)
    rw [hends, List.rdropWhile_concat_neg _ _ _ (by simpa using hnot)]
  have hsplit : (dimensionsText (d :: rest)).splitOn ',' =
      Nat.toDigits 10 d :: rest.map fun n => ' ' :: Nat.toDigits 10 n := by
    rw [dimensionsText_cons]
    refine List.splitOn_intercalate ',' ?_ (by simp)
    rw [List.forall_mem_cons, List.forall_mem_map]
    refine ⟨comma_notMem_digits d, fun n _ => ?_⟩
    rw [List.mem_cons, not_or]
    exact ⟨by decide, comma_notMem_digits n⟩
  have htrim : (Nat.toDigits 10 d :: rest.map fun n => ' ' :: Nat.toDigits 10 n).map trim =
      (d :: rest).map (Nat.toDigits 10) := by
    rw [List.map_cons, trim_solid (solid_digits d), List.map_map, List.map_cons]
    refine congrArg _ (List.map_congr_left fun n _ => ?_)
    have hpad : trim ([' '] ++ Nat.toDigits 10 n ++ []) = Nat.toDigits 10 n :=
      trim_pad (solid_digits n) (by decide) (by simp)
    simpa using hpad
  rw [parseShape, if_neg htuple]
  dsimp only
  rw [List.tail_cons, List.dropLast_concat, trim_solid (solid_dimensionsText d rest), hcomma,
    hsplit, htrim, mapM_parseDimension h]

end Shape

section Scanning

variable {fields : Fields} {key value field : List Char}

/-- A character that neither opens, closes nor ends anything. -/
def Plain (depth : Nat) (c : Char) : Prop := c ≠ '(' ∧ c ≠ ')' ∧ (c = ',' → depth ≠ 0)

instance (depth : Nat) (c : Char) : Decidable (Plain depth c) :=
  inferInstanceAs (Decidable (_ ∧ _))

theorem foldlM_plain (fields : Fields) (field : List Char) {depth : Nat} {chars : List Char}
    (h : ∀ c ∈ chars, Plain depth c) :
    chars.foldlM scanStep ⟨fields, depth, field⟩ = .ok ⟨fields, depth, field ++ chars⟩ := by
  induction chars generalizing field with
  | nil => simp [pure, Except.pure]
  | cons c chars ih =>
      obtain ⟨⟨hopen, hclose, hcomma⟩, hrest⟩ := List.forall_mem_cons.mp h
      have hstep : scanStep ⟨fields, depth, field⟩ c = .ok ⟨fields, depth, field ++ [c]⟩ := by
        rw [scanStep, if_neg hopen, if_neg hclose, if_neg fun hboth => hcomma hboth.1 hboth.2]
      rw [List.foldlM_cons, hstep]
      refine (ih (field ++ [c]) hrest).trans ?_
      rw [List.append_assoc, List.singleton_append]

theorem addField_quoted (htrim : trim field = '\'' :: (key ++ ['\'']) ++ ':' :: value)
    (hkey : key ∈ fieldNames) (hnew : fields.lookup key = none) :
    addField fields field = .ok ((key, trim value) :: fields) := by
  have hcolon : ∀ name ∈ fieldNames, ∀ c ∈ '\'' :: (name ++ ['\'']), decide (c ≠ ':') = true := by
    decide
  have hspan : (trim field).span (· ≠ ':') = ('\'' :: (key ++ ['\'']), ':' :: value) := by
    rw [htrim, List.span_eq_takeWhile_dropWhile, List.takeWhile_append_of_pos (hcolon key hkey),
      List.dropWhile_append_of_pos (hcolon key hkey)]
    simp
  have hsome : trim field ≠ [] := by
    rw [htrim]
    nofun
  have hquoted : trim ('\'' :: (key ++ ['\''])) = '\'' :: (key ++ ['\'']) :=
    trim_solid (solid_quoted (by decide) (by decide) key)
  rw [addField, if_neg hsome, hspan]
  dsimp only
  rw [hquoted, unquote_quoted]
  dsimp only
  rw [if_neg]
  rw [hnew, not_or, not_not]
  exact ⟨hkey, by decide⟩

/-- A field up to its comma. -/
theorem foldlM_field {rest : List Char} (hplain : ∀ c ∈ field, Plain 0 c)
    (htrim : trim field = '\'' :: (key ++ ['\'']) ++ ':' :: value) (hkey : key ∈ fieldNames)
    (hnew : fields.lookup key = none) :
    (field ++ ',' :: rest).foldlM scanStep ⟨fields, 0, []⟩ =
      rest.foldlM scanStep ⟨(key, trim value) :: fields, 0, []⟩ := by
  have hfield : field.foldlM scanStep ⟨fields, 0, []⟩ = .ok ⟨fields, 0, field⟩ :=
    foldlM_plain fields [] hplain
  have hcomma : scanStep ⟨fields, 0, field⟩ ',' = .ok ⟨(key, trim value) :: fields, 0, []⟩ := by
    rw [scanStep, if_neg (by decide), if_neg (by decide), if_pos ⟨rfl, rfl⟩,
      addField_quoted htrim hkey hnew]
    rfl
  rw [List.foldlM_append, hfield]
  dsimp only [bind, Except.bind]
  rw [List.foldlM_cons, hcomma]
  rfl

/-- A field's name between quotes, with the colon and the space after it. -/
def openField (name : List Char) : List Char := ' ' :: '\'' :: (name ++ ['\'', ':', ' '])

theorem trim_space {body : List Char} (h : Solid body) : trim (' ' :: body) = body := by
  have hpad : trim ([' '] ++ body ++ []) = body := trim_pad h (by decide) (by simp)
  simpa using hpad

theorem plain_dimensionsText (shape : List Nat) : ∀ c ∈ dimensionsText shape, Plain 1 c := by
  intro c hc
  rcases mem_dimensionsText hc with hdigit | rfl | rfl
  · refine ⟨?_, ?_, fun _ => by decide⟩
    · rintro rfl
      exact absurd hdigit (by decide)
    · rintro rfl
      exact absurd hdigit (by decide)
  · decide
  · decide

/-- A field whose value is a tuple, and what pads it. -/
theorem foldlM_tuple {name : List Char} (shape : List Nat) (hname : name ∈ fieldNames)
    (hplain : ∀ c ∈ openField name, Plain 0 c) (hnew : fields.lookup name = none) :
    (openField name ++ '(' :: (dimensionsText shape ++ [')', ',', ' ', ','])).foldlM scanStep
        ⟨fields, 0, []⟩ =
      .ok ⟨(name, '(' :: (dimensionsText shape ++ [')'])) :: fields, 0, []⟩ := by
  have hopen : (openField name).foldlM scanStep ⟨fields, 0, []⟩ =
      .ok ⟨fields, 0, openField name⟩ := foldlM_plain fields [] hplain
  have hparen : scanStep ⟨fields, 0, openField name⟩ '(' =
      .ok ⟨fields, 1, openField name ++ ['(']⟩ := rfl
  have hdims : (dimensionsText shape).foldlM scanStep ⟨fields, 1, openField name ++ ['(']⟩ =
      .ok ⟨fields, 1, openField name ++ ['('] ++ dimensionsText shape⟩ :=
    foldlM_plain fields (openField name ++ ['(']) (plain_dimensionsText shape)
  have hclose : scanStep ⟨fields, 1, openField name ++ ['('] ++ dimensionsText shape⟩ ')' =
      .ok ⟨fields, 0, openField name ++ ['('] ++ dimensionsText shape ++ [')']⟩ := rfl
  have hfield : openField name ++ ['('] ++ dimensionsText shape ++ [')'] =
      ' ' :: '\'' :: ((name ++ ['\'', ':', ' ', '('] ++ dimensionsText shape) ++ [')']) := by
    simp [openField]
  have htrim : trim (openField name ++ ['('] ++ dimensionsText shape ++ [')']) =
      '\'' :: (name ++ ['\'']) ++ ':' :: ' ' :: '(' :: (dimensionsText shape ++ [')']) := by
    rw [hfield, trim_space (solid_quoted (by decide) (by decide) _)]
    simp
  have hvalue : trim (' ' :: '(' :: (dimensionsText shape ++ [')'])) =
      '(' :: (dimensionsText shape ++ [')']) :=
    trim_space (solid_quoted (by decide) (by decide) _)
  have hadd := addField_quoted htrim hname hnew
  rw [hvalue] at hadd
  have hcomma : scanStep ⟨fields, 0, openField name ++ ['('] ++ dimensionsText shape ++ [')']⟩ ',' =
      .ok ⟨(name, '(' :: (dimensionsText shape ++ [')'])) :: fields, 0, []⟩ := by
    rw [scanStep, if_neg (by decide), if_neg (by decide), if_pos ⟨rfl, rfl⟩, hadd]
    rfl
  have hspace : scanStep ⟨(name, '(' :: (dimensionsText shape ++ [')'])) :: fields, 0, []⟩ ' ' =
      .ok ⟨(name, '(' :: (dimensionsText shape ++ [')'])) :: fields, 0, [' ']⟩ := rfl
  have hlast : scanStep ⟨(name, '(' :: (dimensionsText shape ++ [')'])) :: fields, 0, [' ']⟩ ',' =
      .ok ⟨(name, '(' :: (dimensionsText shape ++ [')'])) :: fields, 0, []⟩ := rfl
  have hafter : [')', ',', ' ', ','].foldlM scanStep
      ⟨fields, 1, openField name ++ ['('] ++ dimensionsText shape⟩ =
      .ok ⟨(name, '(' :: (dimensionsText shape ++ [')'])) :: fields, 0, []⟩ := by
    simp only [List.foldlM_cons, List.foldlM_nil, hclose, hcomma, hspace, hlast, bind, Except.bind,
      pure, Except.pure]
  simp only [List.foldlM_append, List.foldlM_cons, hopen, hparen, hdims, hafter, bind, Except.bind]

end Scanning

section Dictionary

variable {shape : List Nat}

def descrField : List Char := "'descr': '<f4'".toList

def orderField : List Char := " 'fortran_order': False".toList

/-- What the encoder writes between the braces. -/
def innerText (shape : List Nat) : List Char :=
  descrField ++ ',' :: (orderField ++ ',' :: (openField "shape".toList ++
    '(' :: (dimensionsText shape ++ [')', ',', ' '])))

theorem toList_opening : "\x7b'descr': '<f4', 'fortran_order': False, 'shape': (".toList =
    '\x7b' :: (descrField ++
      ',' :: (orderField ++ ',' :: (openField "shape".toList ++ ['(']))) := by
  decide

theorem toList_closing : "), \x7d".toList = [')', ',', ' ', '\x7d'] := rfl

theorem toList_dictionaryOf (shape : List Nat) :
    (dictionaryOf shape).toList = '\x7b' :: (innerText shape ++ ['\x7d']) := by
  have hdims : (String.ofList (dimensionsText shape)).toList = dimensionsText shape :=
    String.toList_ofList
  unfold dictionaryOf
  rw [String.toList_append, String.toList_append, toList_opening, toList_closing, hdims]
  unfold innerText
  simp only [List.cons_append, List.append_assoc, List.nil_append]

def encodedFields (shape : List Nat) : Fields :=
  [("shape".toList, '(' :: (dimensionsText shape ++ [')'])),
    ("fortran_order".toList, "False".toList), ("descr".toList, "'<f4'".toList)]

theorem scanDictionary_innerText (shape : List Nat) :
    scanDictionary (innerText shape) = .ok ⟨encodedFields shape, 0, []⟩ := by
  have hshape : innerText shape ++ [','] =
      descrField ++ ',' :: (orderField ++ ',' :: (openField "shape".toList ++
        '(' :: (dimensionsText shape ++ [')', ',', ' ', ',']))) := by
    simp [innerText]
  have hdescr : trim descrField =
      '\'' :: ("descr".toList ++ ['\'']) ++ ':' :: " '<f4'".toList := by decide
  have horder : trim orderField =
      '\'' :: ("fortran_order".toList ++ ['\'']) ++ ':' :: " False".toList := by decide
  have hdescrValue : trim " '<f4'".toList = "'<f4'".toList := by decide
  have horderValue : trim " False".toList = "False".toList := by decide
  rw [scanDictionary, hshape, foldlM_field (by decide) hdescr (by decide) rfl, hdescrValue,
    foldlM_field (by decide) horder (by decide) (by decide), horderValue]
  exact foldlM_tuple shape (by decide) (by decide) (by decide)

theorem parseDictionary_innerText (hne : shape ≠ []) (h : ∀ d ∈ shape, d < 2 ^ 64) :
    parseDictionary (innerText shape) = .ok ("float32", shape) := by
  have horder : (encodedFields shape).lookup "fortran_order".toList = some "False".toList := by
    simp [encodedFields, List.lookup_cons]
  have hdescr : (encodedFields shape).lookup "descr".toList = some "'<f4'".toList := by
    simp [encodedFields, List.lookup_cons]
  have htuple : (encodedFields shape).lookup "shape".toList =
      some ('(' :: (dimensionsText shape ++ [')'])) := by simp [encodedFields]
  have hquoted : unquote "'<f4'".toList = some "<f4".toList := by decide
  rw [parseDictionary, scanDictionary_innerText]
  dsimp only [bind, Except.bind]
  rw [if_neg (by simp [encodedFields]), horder]
  dsimp only [okOr]
  rw [if_neg (by decide), hdescr]
  dsimp only [okOr]
  rw [hquoted]
  dsimp only [okOr]
  rw [dtypeOf, if_pos rfl, htuple]
  dsimp only [okOr]
  rw [parseShape_tuple hne h]

theorem ascii_dimensionsText {c : Char} (h : c ∈ dimensionsText shape) : c.toNat < 128 := by
  rcases mem_dimensionsText h with hdigit | rfl | rfl
  · have hbounds : 48 ≤ c.toNat ∧ c.toNat ≤ 57 := by
      simpa [Char.isDigit, UInt32.le_iff_toNat_le] using hdigit
    omega
  · decide
  · decide

theorem ascii_dictionaryOf {c : Char} (h : c ∈ (dictionaryOf shape).toList) : c.toNat < 128 := by
  have hdescr : ∀ c ∈ descrField, c.toNat < 128 := by decide
  have horder : ∀ c ∈ orderField, c.toNat < 128 := by decide
  have hopen : ∀ c ∈ openField "shape".toList, c.toNat < 128 := by decide
  have hclose : ∀ c ∈ [')', ',', ' '], c.toNat < 128 := by decide
  rw [toList_dictionaryOf] at h
  simp only [innerText, List.mem_cons, List.mem_append] at h
  rcases h with rfl | (h | rfl | h | rfl | h | rfl | h | h) | rfl | h
  · decide
  · exact hdescr c h
  · decide
  · exact horder c h
  · decide
  · exact hopen c h
  · decide
  · exact ascii_dimensionsText h
  · exact hclose c (by simpa using h)
  · decide
  · cases h

/-- The padded dictionary is opened again. -/
theorem dictionaryText_padded (shape : List Nat) (padding : Nat) :
    dictionaryText (Utf8.bytes (dictionaryOf shape) ++ List.replicate padding 0x20 ++ [0x0A]) =
      .ok (innerText shape) := by
  have hbytes : Utf8.bytes (dictionaryOf shape) ++ List.replicate padding 0x20 ++ [0x0A] =
      Utf8.bytes (dictionaryOf shape ++ String.ofList (List.replicate padding ' ') ++ "\n") := by
    rw [Utf8.bytes_append, Utf8.bytes_append, Utf8.bytes_spaces]
    rfl
  have hlist : (dictionaryOf shape ++ String.ofList (List.replicate padding ' ') ++ "\n").toList =
      [] ++ '\x7b' :: (innerText shape ++ ['\x7d']) ++ (List.replicate padding ' ' ++ ['\n']) := by
    rw [String.toList_append, String.toList_append, toList_dictionaryOf, String.toList_ofList]
    simp
  have hascii : (dictionaryOf shape ++ String.ofList (List.replicate padding ' ') ++
      "\n").toList.any (fun c => 128 ≤ c.toNat) = false := by
    rw [List.any_eq_false]
    intro c hc
    rw [decide_eq_true_eq, Nat.not_le]
    rw [String.toList_append, String.toList_append, String.toList_ofList, List.mem_append,
      List.mem_append] at hc
    rcases hc with (hc | hc) | hc
    · exact ascii_dictionaryOf hc
    · rw [List.eq_of_mem_replicate hc]
      decide
    · obtain rfl : c = '\n' := by simpa using hc
      decide
  have hend : (dictionaryOf shape ++ String.ofList (List.replicate padding ' ') ++
      "\n").toList.getLast? = some '\n' := by
    rw [hlist, ← List.append_assoc, List.getLast?_concat]
  have hpad : ∀ c ∈ List.replicate padding ' ' ++ ['\n'], Text.isWhiteSpace c = true := by
    intro c hc
    rcases List.mem_append.mp hc with hc | hc
    · rw [List.eq_of_mem_replicate hc]
      decide
    · rw [List.mem_singleton.mp hc]
      decide
  have hbraces := between_append ['\x7b'] (innerText shape) ['\x7d']
  rw [List.singleton_append] at hbraces
  rw [dictionaryText, hbytes, Utf8.decode_bytes]
  dsimp only [okOr, bind, Except.bind]
  rw [hascii, hend, if_neg (by simp), hlist,
    trim_pad (solid_quoted (by decide) (by decide) (innerText shape)) (by simp) hpad, hbraces]

end Dictionary

section Encoded

variable {shape : List Nat} {values : List UInt32} {n : Nat}

theorem foldlM_checkedMul {count result : Nat} (h : shape.foldlM checkedMul count = some result) :
    result = count * shape.prod := by
  induction shape generalizing count with
  | nil => simpa using (Option.some.inj h).symm
  | cons d rest ih =>
      rw [List.foldlM_cons] at h
      obtain ⟨next, hnext, hrest⟩ := Option.bind_eq_some_iff.mp h
      unfold checkedMul at hnext
      split at hnext
      · obtain rfl := Option.some.inj hnext
        rw [ih hrest, List.prod_cons, Nat.mul_assoc]
      · cases hnext

theorem le_prod_of_mem {d : Nat} (hpositive : 0 ∉ shape) (hd : d ∈ shape) : d ≤ shape.prod := by
  have hne : shape.prod ≠ 0 := by
    rw [Ne, List.prod_eq_zero_iff]
    exact hpositive
  exact Nat.le_of_dvd (Nat.pos_of_ne_zero hne) (List.dvd_prod hd)

theorem length_dimensionsText {k : Nat} (h : ∀ d ∈ shape, d < 10 ^ (k + 1)) :
    (dimensionsText shape).length ≤ (k + 3) * shape.length := by
  unfold dimensionsText
  induction shape with
  | nil => simp
  | cons d rest ih =>
      obtain ⟨hd, hrest⟩ := List.forall_mem_cons.mp h
      have hdigits : (Nat.toDigits 10 d).length ≤ k + 1 :=
        (Nat.length_toDigits_le_iff (by decide) (Nat.succ_pos k)).mpr hd
      have hlater := ih hrest
      cases rest with
      | nil =>
          simp only [List.map_cons, List.map_nil, List.intercalate_singleton, List.length_singleton]
          omega
      | cons m rest =>
          rw [List.map_cons, List.map_cons, List.intercalate_cons_cons, List.length_append,
            List.length_append, List.length_cons]
          rw [List.map_cons] at hlater
          simp only [List.length_cons, List.length_nil] at hlater ⊢
          rw [Nat.mul_succ]
          omega

/-- A dictionary of at most four dimensions is far below its limit. -/
theorem length_dictionaryOf (hrank : shape.length ≤ 4) (h : ∀ d ∈ shape, d < 10 ^ 9) :
    (Utf8.bytes (dictionaryOf shape)).length ≤ 4 * 104 := by
  have hdims : (dimensionsText shape).length ≤ 11 * shape.length := length_dimensionsText (k := 8) h
  have hbytes := Utf8.length_bytes_le (dictionaryOf shape)
  have hdescr : descrField.length = 14 := by decide
  have horder : orderField.length = 23 := by decide
  have hopen : (openField "shape".toList).length = 10 := by decide
  rw [toList_dictionaryOf] at hbytes
  simp only [innerText, List.length_cons, List.length_append, List.length_nil, hdescr, horder,
    hopen] at hbytes
  omega

theorem readFile_append {front rest : List UInt8} (h : front.length = n) :
    readFile n (front ++ rest) = .ok (front, rest) := by
  subst h
  refine okOr_eq_ok.mpr (readExact_eq_some.mpr ⟨?_, ?_, ?_⟩)
  · rw [List.length_append]
    exact Nat.le_add_right _ _
  · rw [List.take_left]
  · rw [List.drop_left]

/-- The fixed bytes of an encoded artifact. -/
def encodedFront (n : Nat) : List UInt8 := magic ++ [1, 0] ++ LittleEndian.bytes 2 n

theorem preamble_encodedFront {rest : List UInt8} (hn : n < 256 ^ 2)
    (hlength : rest.length + 10 ≤ maxDataBytes + maxHeaderBytes + 12) :
    preamble (encodedFront n ++ rest) = .ok ⟨n, 10, encodedFront n, rest⟩ := by
  have hfront : (encodedFront n).length = 10 := by simp [encodedFront, magic]
  have hvalue := LittleEndian.value_bytes hn
  have hread : readFile 10 (encodedFront n ++ rest) = .ok (encodedFront n, rest) :=
    readFile_append hfront
  have hdrop : (encodedFront n).drop 8 = LittleEndian.bytes 2 n := rfl
  rw [preamble, hread]
  dsimp only [bind, Except.bind]
  rw [if_neg (by rw [List.length_append]; omega), if_neg (by rw [List.length_append]; omega),
    hdrop, hvalue]
  rfl

theorem chunks4_words (values : List UInt32) :
    chunks4 (words values) = values.map fun bits => LittleEndian.bytes 4 bits.toNat := by
  unfold words
  induction values with
  | nil => rfl
  | cons bits rest ih =>
      rw [List.flatMap_cons, List.map_cons, ← ih]
      rfl

theorem validValues_words (h : values.all finiteBits = true) :
    validValues "float32" (words values) = true := by
  rw [validValues, if_pos rfl, chunks4_words, List.all_map]
  exact h

theorem length_words (values : List UInt32) : (words values).length = 4 * values.length := by
  unfold words
  induction values with
  | nil => rfl
  | cons bits rest ih =>
      rw [List.flatMap_cons, List.length_append, ih, LittleEndian.length_bytes, List.length_cons]
      omega

/-- The dictionary with what pads it. -/
def paddedDictionary (shape : List Nat) : List UInt8 :=
  Utf8.bytes (dictionaryOf shape) ++
    List.replicate (paddingOf (Utf8.bytes (dictionaryOf shape)).length) 0x20 ++ [0x0A]

theorem length_paddedDictionary (shape : List Nat) :
    (paddedDictionary shape).length = (Utf8.bytes (dictionaryOf shape)).length +
      paddingOf (Utf8.bytes (dictionaryOf shape)).length + 1 := by
  simp only [paddedDictionary, List.length_append, List.length_replicate, List.length_singleton]

theorem length_paddedDictionary_le (hrank : shape.length ≤ 4) (h : ∀ d ∈ shape, d < 10 ^ 9) :
    (paddedDictionary shape).length ≤ 480 := by
  have hdict := length_dictionaryOf hrank h
  have hpadding : paddingOf (Utf8.bytes (dictionaryOf shape)).length < 64 := by
    unfold paddingOf
    omega
  rw [length_paddedDictionary]
  omega

/-- A header that says of a payload what it is. -/
theorem header_encoded {elements : Nat} (hrank : 2 ≤ shape.length ∧ shape.length ≤ 4)
    (hpositive : 0 ∉ shape) (hsmall : ∀ d ∈ shape, d < 10 ^ 9)
    (helements : shape.foldlM checkedMul 1 = some elements) (hcount : elements = values.length)
    (hbudget : elements ≤ maxDataBytes / 4) :
    header (encodedFront (paddedDictionary shape).length ++
      (paddedDictionary shape ++ words values)) =
      .ok ⟨⟨"float32", shape, 4 * values.length, ""⟩, 10 + (paddedDictionary shape).length,
        encodedFront (paddedDictionary shape).length ++ paddedDictionary shape, words values⟩ := by
  have hmax : maxDataBytes = 536870912 := rfl
  have hheader : maxHeaderBytes = 4096 := rfl
  have hlarge : ∀ d ∈ shape, d < 2 ^ 64 := fun d hd => lt_trans (hsmall d hd) (by decide)
  have hne : shape ≠ [] := by
    rintro rfl
    exact absurd hrank.1 (by decide)
  have hlength := length_paddedDictionary_le hrank.2 hsmall
  have hpositive' := length_paddedDictionary shape
  have hwords := length_words values
  have hpayload : payloadLength "float32" shape = .ok (4 * values.length) := by
    have hbytes : checkedMul elements (width "float32") = some (4 * values.length) := by
      have hwidth : width "float32" = 4 := rfl
      rw [checkedMul, hwidth, if_pos (by omega), hcount, Nat.mul_comm]
    rw [payloadLength, if_neg (by simp [hrank, hpositive]), helements]
    dsimp only [okOr, bind, Except.bind]
    rw [hbytes, Option.filter_some, if_pos (by simp; omega)]
  have hpreamble : preamble (encodedFront (paddedDictionary shape).length ++
      (paddedDictionary shape ++ words values)) = .ok ⟨(paddedDictionary shape).length, 10,
        encodedFront (paddedDictionary shape).length, paddedDictionary shape ++ words values⟩ :=
    preamble_encodedFront (by omega) (by rw [List.length_append]; omega)
  have hcut : readFile (paddedDictionary shape).length (paddedDictionary shape ++ words values) =
      .ok (paddedDictionary shape, words values) := readFile_append rfl
  have htext : dictionaryText (paddedDictionary shape) = .ok (innerText shape) :=
    dictionaryText_padded shape _
  rw [header, hpreamble]
  dsimp only [bind, Except.bind]
  rw [if_neg (by omega), hcut]
  dsimp only
  rw [htext]
  dsimp only
  rw [parseDictionary_innerText hne hlarge]
  dsimp only
  rw [hpayload]
  dsimp only
  rw [if_neg]
  simp only [List.length_append, encodedFront, magic, LittleEndian.length_bytes, List.length_cons,
    List.length_nil]
  omega

/-- An encoded artifact opens to its shape, with the bytes of the values left. -/
theorem header_encodeF32 {b : List UInt8} (h : encodeF32 shape values = .ok b) :
    values.all finiteBits = true ∧ ∃ opened, header b = .ok opened ∧
      opened.metadata = ⟨"float32", shape, 4 * values.length, ""⟩ ∧ opened.rest = words values := by
  unfold encodeF32 at h
  obtain ⟨elements, helements, hbody⟩ := bind_eq_ok.mp h
  rw [okOr_eq_ok] at helements
  split at hbody
  · cases hbody
  next hgood =>
  simp only [not_or, not_not, Nat.not_lt, Bool.not_eq_false] at hgood
  obtain ⟨hrank, hpositive, hcount, hbudget, hfinite⟩ := hgood
  have hproduct := foldlM_checkedMul helements
  rw [Nat.one_mul] at hproduct
  have hsmall : ∀ d ∈ shape, d < 10 ^ 9 := by
    intro d hd
    have hle := le_prod_of_mem hpositive hd
    have hmax : maxDataBytes = 536870912 := rfl
    omega
  have hb : b = encodedFront (paddedDictionary shape).length ++
      (paddedDictionary shape ++ words values) := by
    rw [← Except.ok.inj hbody, encodedFront, length_paddedDictionary, paddedDictionary]
    simp only [List.append_assoc]
  rw [hb]
  exact ⟨hfinite, _, header_encoded hrank hpositive hsmall helements hcount hbudget, rfl, rfl⟩

end Encoded

section Exact

/-- An encoded tensor is read back by both readers, and on every file the two readers agree. -/
theorem tensorArtifact_exact (sha256 : List UInt8 → String) :
    (∀ (shape : List Nat) (values : List UInt32) (b : List UInt8),
      encodeF32 shape values = .ok b →
      inspect sha256 b = .ok ⟨"float32", shape, 4 * values.length, sha256 b⟩ ∧
      ∀ limit, 4 * values.length ≤ limit → readChecked sha256 b limit =
        .ok (⟨"float32", shape, 4 * values.length, sha256 b⟩, words values)) ∧
    ∀ (file : List UInt8) (limit : Nat),
      (∀ opened, header file = .ok opened → opened.metadata.byteLength ≤ limit) →
      ∀ metadata, inspect sha256 file = .ok metadata ↔
        ∃ data, readChecked sha256 file limit = .ok (metadata, data) := by
  refine ⟨fun shape values b h => ?_, fun file limit hlimit metadata => ?_⟩
  · obtain ⟨hfinite, opened, hopened, hmetadata, hrest⟩ := header_encodeF32 h
    have hvalid : validValues opened.metadata.dtype opened.rest = true := by
      rw [hmetadata, hrest]
      exact validValues_words hfinite
    refine ⟨?_, fun limit hlimit => ?_⟩
    · rw [inspect_of_header hopened, hvalid, if_neg (by decide), hmetadata]
    · have hbudget : opened.metadata.byteLength ≤ limit := by rwa [hmetadata]
      rw [readChecked_of_header hopened hbudget, hvalid, if_neg (by decide), hmetadata, hrest]
  · rw [inspect_eq_readChecked hlimit]
    cases readChecked sha256 file limit with
    | error e => exact ⟨nofun, fun ⟨_, h⟩ => nomatch h⟩
    | ok result =>
        obtain ⟨found, data⟩ := result
        constructor
        · intro h
          exact ⟨data, by rw [← Except.ok.inj h]⟩
        · rintro ⟨data', h⟩
          rw [(Prod.mk.inj (Except.ok.inj h)).1.symm]
          rfl

/-- Two values, the first a negative zero, are encoded and read back by both readers. -/
theorem tensorArtifact_two_values : ∃ b, encodeF32 [1, 2] [0x80000000, 0x3F800000] = .ok b ∧
    inspect (fun file => toString file.length) b =
      .ok ⟨"float32", [1, 2], 8, toString b.length⟩ ∧
    readChecked (fun file => toString file.length) b 8 =
      .ok (⟨"float32", [1, 2], 8, toString b.length⟩, words [0x80000000, 0x3F800000]) := by
  have haccepted : (encodeF32 [1, 2] [0x80000000, 0x3F800000]).toBool = true := by decide +kernel
  cases hencoded : encodeF32 [1, 2] [0x80000000, 0x3F800000] with
  | error message =>
      rw [hencoded] at haccepted
      cases haccepted
  | ok b =>
      obtain ⟨hinspect, hread⟩ :=
        (tensorArtifact_exact fun file => toString file.length).1 [1, 2] _ b hencoded
      exact ⟨b, rfl, hinspect, hread 8 (Nat.le_refl 8)⟩

end Exact

end SceneWorks.TensorArtifact
