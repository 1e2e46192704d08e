import Mathlib.Algebra.BigOperators.Group.List.Basic
import SceneWorks.Library.Fallible
import SceneWorks.Library.Json
import SceneWorks.Library.LittleEndian
import SceneWorks.Library.RangeSweep
import SceneWorks.Library.Text

/-!
Whether an installed weights file is usable, from its descriptor and its length alone. The tensors
must describe ranges of the data that tile it. The products are taken dimension by dimension with a
check at each step, so a shape may be refused on the way to a product that would have fit.
-/

namespace SceneWorks.Safetensors

open Fallible

def maxHeaderBytes : Nat := 100000000

inductive HeaderJsonPolicy where
  | standard
  | rejectDuplicateKeys

inductive HeaderError where
  | truncated
  | invalidLength (length : Nat)
  | malformed (error : String)
  | duplicateKey (error : String)
  deriving DecidableEq

structure Header where
  value : Json
  dataStart : Nat
  fileLen : Nat

/-- What is asked of the JSON reader. -/
structure Serde where
  fromSlice : List UInt8 → Except String Json
  fromUtf8 : List UInt8 → Except String String
  rejectDuplicateKeys : String → Except String Unit

section Reading

variable (serde : Serde)

def checkDuplicates (raw : List UInt8) : HeaderJsonPolicy → Except HeaderError Unit
  | .standard => .ok ()
  | .rejectDuplicateKeys =>
      match serde.fromUtf8 raw with
      | .error error => .error (.malformed error)
      | .ok text =>
          match serde.rejectDuplicateKeys text with
          | .ok () => .ok ()
          | .error error =>
              if Text.containsText "duplicate object key" error then .error (.duplicateKey error)
              else .error (.malformed error)

def readHeader (reader : List UInt8) (fileLen maxHeaderBytes : Nat) (policy : HeaderJsonPolicy) :
    Except HeaderError Header :=
  match readExact 8 reader with
  | none => .error .truncated
  | some (length, rest) =>
      let headerLen := LittleEndian.value length
      if headerLen = 0 ∨ maxHeaderBytes < headerLen then .error (.invalidLength headerLen)
      else if ¬ (headerLen + 8 < 2 ^ 64 ∧ headerLen + 8 ≤ fileLen) then .error .truncated
      else
        match readExact headerLen rest with
        | none => .error .truncated
        | some (raw, _) =>
            match checkDuplicates serde raw policy with
            | .error error => .error error
            | .ok () =>
                match serde.fromSlice raw with
                | .error error => .error (.malformed error)
                | .ok value =>
                    if value.asObject.isSome then .ok ⟨value, headerLen + 8, fileLen⟩
                    else .error (.malformed "header must be a JSON object")

end Reading

def dtypeBits (dtype : String) : Option Nat :=
  if dtype = "F4" then some 4
  else if dtype ∈ ["F6_E2M3", "F6_E3M2"] then some 6
  else if dtype ∈ ["BOOL", "U8", "I8", "F8_E4M3", "F8_E5M2", "F8_E8M0", "F8_E4M3FNUZ",
      "F8_E5M2FNUZ"] then some 8
  else if dtype ∈ ["U16", "I16", "F16", "BF16"] then some 16
  else if dtype ∈ ["U32", "I32", "F32"] then some 32
  else if dtype ∈ ["U64", "I64", "F64", "C64"] then some 64
  else none

/-- The element count of a shape, checked at each dimension. -/
def elementCount (shape : List Json) : Option Nat :=
  shape.foldlM (fun count dimension => dimension.asU64.bind (checkedMul count)) 1

/-- The range of the data that an entry of the descriptor claims. -/
def entryRange (dataLen : Nat) (entry : Json) : Option (Nat × Nat) :=
  entry.asObject.bind fun entry =>
  (((JsonObject.get entry "dtype").bind Json.asStr).bind dtypeBits).bind fun bitsPerElement =>
  ((JsonObject.get entry "shape").bind Json.asArray).bind fun shape =>
  (elementCount shape).bind fun elementCount =>
  ((JsonObject.get entry "data_offsets").bind Json.asArray).bind fun offsets =>
  match offsets with
  | [start, finish] =>
      start.asU64.bind fun start =>
      finish.asU64.bind fun finish =>
      (checkedMul elementCount bitsPerElement).bind fun expectedBits =>
      if expectedBits % 8 ≠ 0 ∨ finish < start ∨ dataLen < finish ∨
          finish - start ≠ expectedBits / 8 then none
      else some (start, finish)
  | _ => none

def entryRanges (dataLen : Nat) : JsonObject → Option (List (Nat × Nat))
  | [] => some []
  | (name, entry) :: rest =>
      if name = "__metadata__" then
        if entry.asObject.isSome then entryRanges dataLen rest else none
      else if name = "" then none
      else
        (entryRange dataLen entry).bind fun range =>
        (entryRanges dataLen rest).map fun ranges => range :: ranges

/-- Ranges that compare equal are the same, so the unstable sort has one result. -/
def fileIsStructurallyValid (serde : Serde) (file : List UInt8) : Bool :=
  match readHeader serde file file.length maxHeaderBytes .standard with
  | .error _ => false
  | .ok header =>
      let entries := header.value.asObject.getD []
      let dataLen := header.fileLen - header.dataStart
      match entryRanges dataLen entries with
      | none => false
      | some ranges =>
          !ranges.isEmpty &&
            RangeSweep.sweep 0 (ranges.insertionSort RangeSweep.Before) == some dataLen

section Statement

/-- An entry claims a range that holds exactly its elements. -/
structure Describes (dataLen : Nat) (entry : Json) (dims : List Nat) (range : Nat × Nat) :
    Prop where
  descriptor : ∃ (fields : JsonObject) (dtype : String) (shape : List Json) (start finish : Json)
    (bits : Nat), entry = .obj fields ∧ JsonObject.get fields "dtype" = some (.str dtype) ∧
      dtypeBits dtype = some bits ∧ JsonObject.get fields "shape" = some (.arr shape) ∧
      shape.mapM Json.asU64 = some dims ∧
      JsonObject.get fields "data_offsets" = some (.arr [start, finish]) ∧
      start.asU64 = some range.1 ∧ finish.asU64 = some range.2 ∧
      (range.2 - range.1) * 8 = dims.prod * bits ∧ dims.prod * bits < 2 ^ 64
  ordered : range.1 ≤ range.2
  inside : range.2 ≤ dataLen

/-- No product of the first dimensions leaves the range of the arithmetic. -/
def Stepwise (dims : List Nat) : Prop := ∀ k, (dims.take k).prod < 2 ^ 64

def tensors (entries : JsonObject) : JsonObject :=
  entries.filter fun entry => entry.1 ≠ "__metadata__"

/-- A file whose tensors, of shapes that `p` admits, tile its data. -/
def TiledBy (p : List Nat → Prop) (serde : Serde) (file : List UInt8) : Prop :=
  ∃ (length : Nat) (entries : JsonObject) (ranges : List (Nat × Nat)),
    8 ≤ file.length ∧ length = LittleEndian.value (file.take 8) ∧
    (1 ≤ length ∧ length ≤ maxHeaderBytes ∧ 8 + length ≤ file.length) ∧
    serde.fromSlice ((file.drop 8).take length) = .ok (.obj entries) ∧
    (∀ entry ∈ entries, entry.1 = "__metadata__" → entry.2.asObject.isSome) ∧
    (∀ entry ∈ tensors entries, entry.1 ≠ "") ∧
    List.Forall₂ (fun entry range => ∃ dims, p dims ∧
      Describes (file.length - (8 + length)) entry.2 dims range) (tensors entries) ranges ∧
    ranges ≠ [] ∧ RangeSweep.Tiled 0 ranges (file.length - (8 + length))

end Statement

section Products

variable {shape : List Json} {dims : List Nat} {count result : Nat}

theorem foldlM_dimensions (hcount : count < 2 ^ 64) :
    shape.foldlM (fun count dimension => dimension.asU64.bind (checkedMul count)) count =
        some result ↔
      ∃ dims, shape.mapM Json.asU64 = some dims ∧ (∀ k, count * (dims.take k).prod < 2 ^ 64) ∧
        result = count * dims.prod := by
  induction shape generalizing count with
  | nil =>
      rw [List.foldlM_nil, List.mapM_nil]
      constructor
      · intro h
        obtain rfl := Option.some.inj h
        exact ⟨[], rfl, by simpa using hcount, by simp⟩
      · rintro ⟨dims, hdims, -, rfl⟩
        obtain rfl := Option.some.inj hdims
        simp
  | cons dimension shape ih =>
      rw [List.foldlM_cons, List.mapM_cons]
      cases hdim : dimension.asU64 with
      | none => simp
      | some dim =>
          simp only [Option.bind_some, Option.bind_eq_bind, Option.bind_eq_some_iff,
            checkedMul_eq_some, Option.pure_def, Option.some.injEq]
          constructor
          · rintro ⟨_, ⟨hstep, rfl⟩, hrest⟩
            obtain ⟨dims, hdims, hall, rfl⟩ := (ih hstep).mp hrest
            refine ⟨dim :: dims, ⟨dims, hdims, rfl⟩, fun k => ?_, ?_⟩
            · cases k with
              | zero => simpa using hcount
              | succ k =>
                  rw [List.take_succ_cons, List.prod_cons, ← Nat.mul_assoc]
                  exact hall k
            · rw [List.prod_cons, Nat.mul_assoc]
          · rintro ⟨_, ⟨dims, hdims, rfl⟩, hall, rfl⟩
            have hstep : count * dim < 2 ^ 64 := by simpa using hall 1
            refine ⟨count * dim, ⟨hstep, rfl⟩, (ih hstep).mpr ⟨dims, hdims, fun k => ?_, ?_⟩⟩
            · have hk := hall (k + 1)
              rwa [List.take_succ_cons, List.prod_cons, ← Nat.mul_assoc] at hk
            · rw [List.prod_cons, Nat.mul_assoc]

theorem elementCount_eq_some_iff :
    elementCount shape = some result ↔
      ∃ dims, shape.mapM Json.asU64 = some dims ∧ Stepwise dims ∧ result = dims.prod := by
  rw [elementCount, foldlM_dimensions (by decide)]
  simp [Stepwise]

end Products

section Entries

variable {dataLen : Nat} {entry : Json} {range : Nat × Nat} {entries : JsonObject}
  {ranges : List (Nat × Nat)}

theorem entryRange_eq_some_iff :
    entryRange dataLen entry = some range ↔
      ∃ dims, Stepwise dims ∧ Describes dataLen entry dims range := by
  unfold entryRange
  simp only [Option.bind_eq_some_iff, Json.asStr_eq_some, Json.asArray_eq_some,
    Json.asObject_eq_some]
  constructor
  · rintro ⟨fields, rfl, bits, ⟨dtype, ⟨_, hdtype, rfl⟩, hbits⟩, shape, ⟨_, hshape, rfl⟩, count,
      hcount, offsets, ⟨_, hoffsets, rfl⟩, h⟩
    obtain ⟨dims, hdims, hsteps, rfl⟩ := elementCount_eq_some_iff.mp hcount
    split at h
    · next start finish =>
        simp only [Option.bind_eq_some_iff, checkedMul_eq_some] at h
        obtain ⟨s, hs, e, he, _, ⟨hsmall, rfl⟩, h⟩ := h
        split at h
        · cases h
        · next hgood =>
            obtain rfl := Option.some.inj h
            simp only [not_or, not_not, Nat.not_lt] at hgood
            obtain ⟨hwhole, hordered, hinside, hlength⟩ := hgood
            refine ⟨dims, hsteps, ⟨fields, dtype, shape, start, finish, bits, rfl, hdtype, hbits,
              hshape, hdims, hoffsets, hs, he, ?_, hsmall⟩, hordered, hinside⟩
            dsimp only
            omega
    · cases h
  · rintro ⟨dims, hsteps, ⟨fields, dtype, shape, start, finish, bits, rfl, hdtype, hbits, hshape,
      hdims, hoffsets, hs, he, hlength, hsmall⟩, hordered, hinside⟩
    refine ⟨fields, rfl, bits, ⟨dtype, ⟨_, hdtype, rfl⟩, hbits⟩, shape, ⟨_, hshape, rfl⟩,
      dims.prod, elementCount_eq_some_iff.mpr ⟨dims, hdims, hsteps, rfl⟩, [start, finish],
      ⟨_, hoffsets, rfl⟩, ?_⟩
    simp only [Option.bind_eq_some_iff, checkedMul_eq_some]
    refine ⟨range.1, hs, range.2, he, _, ⟨hsmall, rfl⟩, if_neg ?_⟩
    omega

theorem entryRanges_eq_some_iff :
    entryRanges dataLen entries = some ranges ↔
      (∀ entry ∈ entries, entry.1 = "__metadata__" → entry.2.asObject.isSome) ∧
      (∀ entry ∈ tensors entries, entry.1 ≠ "") ∧
      List.Forall₂ (fun entry range => entryRange dataLen entry.2 = some range)
        (tensors entries) ranges := by
  induction entries generalizing ranges with
  | nil =>
      have hnone : tensors [] = [] := rfl
      rw [hnone, List.forall₂_nil_left_iff, entryRanges, Option.some.injEq, eq_comm]
      simp
  | cons head rest ih =>
      obtain ⟨name, entry⟩ := head
      rw [entryRanges, List.forall_mem_cons]
      by_cases hmeta : name = "__metadata__"
      · have htensors : tensors ((name, entry) :: rest) = tensors rest := by
          simp [tensors, hmeta]
        rw [if_pos hmeta, htensors]
        split
        · next hobject => rw [ih]; simp [hobject]
        · next hobject => exact iff_of_false (by simp) fun h => hobject (h.1.1 hmeta)
      · have htensors : tensors ((name, entry) :: rest) = (name, entry) :: tensors rest := by
          simp [tensors, hmeta]
        rw [if_neg hmeta, htensors, List.forall_mem_cons]
        split
        · next hempty => exact iff_of_false (by simp) fun h => h.2.1.1 hempty
        · next hnamed =>
            rw [List.forall₂_cons_left_iff]
            simp only [Option.bind_eq_some_iff, Option.map_eq_some_iff, ih]
            constructor
            · rintro ⟨range, hrange, later, ⟨hmetadata, hnames, hlater⟩, rfl⟩
              exact ⟨⟨fun h => absurd h hmeta, hmetadata⟩, ⟨hnamed, hnames⟩, range, later, hrange,
                hlater, rfl⟩
            · rintro ⟨⟨-, hmetadata⟩, ⟨-, hnames⟩, range, later, hrange, hlater, rfl⟩
              exact ⟨range, hrange, later, ⟨hmetadata, hnames, hlater⟩, rfl⟩

end Entries

section File

variable {serde : Serde} {file : List UInt8} {header : Header}

/-- The length that a file declares for its descriptor. -/
def declaredLength (file : List UInt8) : Nat := LittleEndian.value (file.take 8)

theorem readHeader_eq_ok_iff :
    readHeader serde file file.length maxHeaderBytes .standard = .ok header ↔
      8 ≤ file.length ∧ (1 ≤ declaredLength file ∧ declaredLength file ≤ maxHeaderBytes ∧
        8 + declaredLength file ≤ file.length) ∧
      ∃ entries, serde.fromSlice ((file.drop 8).take (declaredLength file)) = .ok (.obj entries) ∧
        header = ⟨.obj entries, declaredLength file + 8, file.length⟩ := by
  have hmax : maxHeaderBytes + 8 < 2 ^ 64 := by decide
  rw [readHeader]
  by_cases height : 8 ≤ file.length
  · have hlength : readExact 8 file = some (file.take 8, file.drop 8) :=
      readExact_eq_some.mpr ⟨height, rfl, rfl⟩
    rw [hlength, and_iff_right height]
    dsimp only
    rw [← declaredLength]
    split
    · next hlong => exact iff_of_false nofun fun h => by omega
    · split
      · next hshort => exact iff_of_false nofun fun h => by omega
      · next hlong hfits =>
          have hraw : readExact (declaredLength file) (file.drop 8) =
              some ((file.drop 8).take (declaredLength file),
                (file.drop 8).drop (declaredLength file)) :=
            readExact_eq_some.mpr ⟨by rw [List.length_drop]; omega, rfl, rfl⟩
          have hbounds : 1 ≤ declaredLength file ∧ declaredLength file ≤ maxHeaderBytes ∧
              8 + declaredLength file ≤ file.length := by omega
          rw [hraw, and_iff_right hbounds]
          dsimp only [checkDuplicates]
          cases hparse : serde.fromSlice ((file.drop 8).take (declaredLength file)) with
          | error error => exact iff_of_false nofun fun ⟨_, h, _⟩ => nomatch h
          | ok value =>
              dsimp only
              cases hvalue : value.asObject with
              | none =>
                  refine iff_of_false nofun fun ⟨entries, h, _⟩ => ?_
                  rw [Except.ok.inj h] at hvalue
                  cases hvalue
              | some entries =>
                  obtain rfl := Json.asObject_eq_some.mp hvalue
                  have hobject : (some entries).isSome = true := rfl
                  rw [if_pos hobject]
                  constructor
                  · intro h
                    exact ⟨entries, rfl, (Except.ok.inj h).symm⟩
                  · rintro ⟨_, h, rfl⟩
                    rw [← Except.ok.inj h]
  · have hnone : readExact 8 file = none := if_neg height
    rw [hnone]
    exact iff_of_false nofun fun h => height h.1

theorem ordered_of_forall₂ {p : List Nat → Prop} {dataLen : Nat} {entries : JsonObject}
    {ranges : List (Nat × Nat)}
    (h : List.Forall₂ (fun entry range => ∃ dims, p dims ∧
      Describes dataLen entry.2 dims range) entries ranges) :
    ∀ range ∈ ranges, range.1 ≤ range.2 := by
  induction h with
  | nil => simp
  | cons hfirst _ ih =>
      obtain ⟨dims, -, hdescribes⟩ := hfirst
      exact List.forall_mem_cons.mpr ⟨hdescribes.ordered, ih⟩

theorem fileIsStructurallyValid_iff :
    fileIsStructurallyValid serde file = true ↔ TiledBy Stepwise serde file := by
  unfold fileIsStructurallyValid TiledBy
  cases hread : readHeader serde file file.length maxHeaderBytes .standard with
  | error error =>
      refine iff_of_false (by simp) ?_
      rintro ⟨_, entries, ranges, height, rfl, hbounds, hparse, -⟩
      have hok := readHeader_eq_ok_iff.mpr ⟨height, hbounds, entries, hparse, rfl⟩
      rw [hread] at hok
      cases hok
  | ok header =>
      obtain ⟨height, hbounds, entries, hparse, rfl⟩ := readHeader_eq_ok_iff.mp hread
      have hdata : file.length - (declaredLength file + 8) =
          file.length - (8 + declaredLength file) := by rw [Nat.add_comm]
      have hentries : ∀ ranges, entryRanges (file.length - (8 + declaredLength file)) entries =
          some ranges ↔ (∀ entry ∈ entries, entry.1 = "__metadata__" → entry.2.asObject.isSome) ∧
            (∀ entry ∈ tensors entries, entry.1 ≠ "") ∧
            List.Forall₂ (fun entry range => ∃ dims, Stepwise dims ∧
              Describes (file.length - (8 + declaredLength file)) entry.2 dims range)
              (tensors entries) ranges := by
        intro ranges
        simp only [entryRanges_eq_some_iff, entryRange_eq_some_iff]
      dsimp only [Json.asObject, Option.getD_some]
      rw [hdata]
      constructor
      · intro h
        split at h
        · cases h
        · next ranges hranges =>
            obtain ⟨hmetadata, hnames, hdescribed⟩ := (hentries ranges).mp hranges
            rw [Bool.and_eq_true, beq_iff_eq, RangeSweep.sweep_eq_some_iff,
              ← RangeSweep.tiled_iff (ordered_of_forall₂ hdescribed)] at h
            exact ⟨_, entries, ranges, height, rfl, hbounds, hparse, hmetadata, hnames, hdescribed,
              by simpa using h.1, h.2⟩
      · rintro ⟨_, entries', ranges, -, rfl, -, hparse', hmetadata, hnames, hdescribed, hsome,
          htiled⟩
        rw [← declaredLength] at hparse' hdescribed htiled
        rw [hparse] at hparse'
        obtain rfl := Json.obj.inj (Except.ok.inj hparse')
        rw [(hentries ranges).mpr ⟨hmetadata, hnames, hdescribed⟩]
        dsimp only
        rw [Bool.and_eq_true, beq_iff_eq, RangeSweep.sweep_eq_some_iff,
          ← RangeSweep.tiled_iff (ordered_of_forall₂ hdescribed)]
        exact ⟨by simpa using hsome, htiled⟩

/-- A file is called valid exactly when its tensors tile its data, and then no byte of the data is
in two of them and none is in no one. -/
theorem fileIsStructurallyValid_exact (serde : Serde) (file : List UInt8) :
    (fileIsStructurallyValid serde file = true ↔ TiledBy Stepwise serde file) ∧
    (fileIsStructurallyValid serde file = true → ∃ (header : Header) (ranges : List (Nat × Nat)),
      readHeader serde file file.length maxHeaderBytes .standard = .ok header ∧
      entryRanges (file.length - header.dataStart) (header.value.asObject.getD []) = some ranges ∧
      (ranges.Pairwise fun a b =>
        ∀ place, ¬ (RangeSweep.Contains a place ∧ RangeSweep.Contains b place)) ∧
      ∀ place < file.length - header.dataStart, ∃ range ∈ ranges,
        RangeSweep.Contains range place) := by
  refine ⟨fileIsStructurallyValid_iff, fun h => ?_⟩
  obtain ⟨_, entries, ranges, height, rfl, hbounds, hparse, hmetadata, hnames, hdescribed, -,
    htiled⟩ := fileIsStructurallyValid_iff.mp h
  rw [← declaredLength] at hbounds hparse hdescribed htiled
  have hdata : file.length - (declaredLength file + 8) =
      file.length - (8 + declaredLength file) := by rw [Nat.add_comm]
  refine ⟨⟨.obj entries, declaredLength file + 8, file.length⟩, ranges,
    readHeader_eq_ok_iff.mpr ⟨height, hbounds, entries, hparse, rfl⟩, ?_,
    htiled.apart (ordered_of_forall₂ hdescribed), fun place hplace => ?_⟩
  · dsimp only [Json.asObject, Option.getD_some]
    rw [hdata, entryRanges_eq_some_iff]
    simp only [entryRange_eq_some_iff]
    exact ⟨hmetadata, hnames, hdescribed⟩
  · dsimp only at hplace
    rw [hdata] at hplace
    exact htiled.covered (Nat.zero_le place) hplace

def asciiBytes (text : String) : List UInt8 := text.toList.map fun c => UInt8.ofNat c.toNat

def emptyTensorText : String :=
  "\x7b\"a\":\x7b\"dtype\":\"U8\"," ++
    "\"shape\":[9223372036854775808,4,0],\"data_offsets\":[0,0]\x7d\x7d"

def emptyTensorEntry : JsonObject :=
  [("dtype", .str "U8"), ("shape", .arr [.int 9223372036854775808, .int 4, .int 0]),
    ("data_offsets", .arr [.int 0, .int 0])]

/-- A reader of the one descriptor. -/
def serdeOf (text : String) (entries : JsonObject) : Serde where
  fromSlice raw :=
    if raw = asciiBytes text then .ok (.obj entries)
    else .error "expected value at line 1 column 1"
  fromUtf8 _ := .error "invalid utf-8 sequence"
  rejectDuplicateKeys _ := .ok ()

def fileOf (text : String) (data : List UInt8) : List UInt8 :=
  LittleEndian.bytes 8 (asciiBytes text).length ++ asciiBytes text ++ data

def emptyTensorSerde : Serde := serdeOf emptyTensorText [("a", .obj emptyTensorEntry)]

def emptyTensorFile : List UInt8 := fileOf emptyTensorText []

/-- An empty tensor whose first dimensions alone are too large is refused, although the product of
all of them is zero. -/
theorem empty_tensor_refused :
    ¬ ∀ (serde : Serde) (file : List UInt8),
      fileIsStructurallyValid serde file = true ↔ TiledBy (fun _ => True) serde file := by
  intro h
  have hrefused : fileIsStructurallyValid emptyTensorSerde emptyTensorFile = false := by
    decide +kernel
  have hvalid := (h emptyTensorSerde emptyTensorFile).mpr
    ⟨(asciiBytes emptyTensorText).length, [("a", .obj emptyTensorEntry)], [(0, 0)],
      by decide +kernel, by decide +kernel, by decide +kernel, by decide +kernel,
      by decide +kernel, by decide +kernel,
      .cons ⟨[9223372036854775808, 4, 0], trivial, ⟨emptyTensorEntry, "U8", _, _, _, 8, rfl,
        by decide +kernel, by decide +kernel, rfl, by decide +kernel, rfl, by decide +kernel,
        by decide +kernel, by decide, by decide⟩, Nat.le_refl _, Nat.zero_le _⟩ .nil,
      by decide, [(0, 0)], .refl _, rfl,
      (show 0 = emptyTensorFile.length - (8 + (asciiBytes emptyTensorText).length) by
        decide +kernel)⟩
  rw [hrefused] at hvalid
  cases hvalid

end File

end SceneWorks.Safetensors
