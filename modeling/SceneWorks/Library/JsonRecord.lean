import SceneWorks.Library.JsonIndex
import Mathlib.Data.List.Nodup

/-!
Objects with named slots. Writing a record skips the slots that hold nothing; reading a
record back by the names of its slots gives the slots. A record is also read from an array
that lists the slots in order. The size of a value is that of its compact text.
-/

namespace JsonObject

/-- The object with the slots that hold a value, in their order. -/
def record (slots : List (String × Option Json)) : JsonObject :=
  slots.filterMap fun slot => slot.2.map fun value => (slot.1, value)

/-- The slot of a name. -/
def slot : List (String × Option Json) → String → Option Json
  | [], _ => none
  | (name, value) :: rest, key => if name = key then value else slot rest key

theorem slot_eq_none {slots : List (String × Option Json)} {key : String}
    (h : key ∉ slots.map Prod.fst) : slot slots key = none := by
  induction slots with
  | nil => rfl
  | cons head rest ih =>
      obtain ⟨name, value⟩ := head
      rw [List.map_cons, List.mem_cons, not_or] at h
      rw [slot, if_neg (Ne.symm h.1), ih h.2]

theorem get_record {slots : List (String × Option Json)} (h : (slots.map Prod.fst).Nodup)
    (key : String) : get (record slots) key = slot slots key := by
  induction slots with
  | nil => rfl
  | cons head rest ih =>
      obtain ⟨name, value⟩ := head
      rw [List.map_cons, List.nodup_cons] at h
      cases value with
      | none =>
          have hrecord : record ((name, none) :: rest) = record rest := rfl
          rw [hrecord, ih h.2, slot]
          by_cases hname : name = key
          · rw [if_pos hname, slot_eq_none (hname ▸ h.1)]
          · rw [if_neg hname]
      | some value =>
          have hrecord : record ((name, some value) :: rest) = (name, value) :: record rest := rfl
          rw [hrecord, get, ih h.2, slot]

/-- Some of the fields of an object, in the order of their names. -/
def select (names : List String) (field : String → Option Json) : JsonObject :=
  record (names.map fun name => (name, field name))

theorem slot_select {names : List String} {key : String} (field : String → Option Json)
    (h : key ∈ names) : slot (names.map fun name => (name, field name)) key = field key := by
  induction names with
  | nil => cases h
  | cons name names ih =>
      rw [List.map_cons, slot]
      by_cases hname : name = key
      · rw [if_pos hname, hname]
      · rw [if_neg hname, ih ((List.mem_cons.mp h).resolve_left fun e => hname e.symm)]

theorem get_select {names : List String} (hnames : names.Nodup) (field : String → Option Json)
    {key : String} (h : key ∈ names) : get (select names field) key = field key := by
  have hmap : ((names.map fun name => (name, field name)).map Prod.fst) = names := by
    rw [List.map_map]
    exact List.map_id names
  rw [select, get_record (by rwa [hmap]), slot_select field h]

theorem select_congr {names : List String} {f g : String → Option Json}
    (h : ∀ name ∈ names, f name = g name) : select names f = select names g := by
  have hmap : (names.map fun name => (name, f name)) = names.map fun name => (name, g name) :=
    List.map_congr_left fun name hname => by rw [h name hname]
  rw [select, select, hmap]

/-- The names of a selection are among those asked for. -/
theorem get_select_of_not_mem (names : List String) (field : String → Option Json) {key : String}
    (h : key ∉ names) : get (select names field) key = none := by
  induction names with
  | nil => rfl
  | cons name names ih =>
      rw [List.mem_cons, not_or] at h
      cases hfield : field name with
      | none =>
          have hselect : select (name :: names) field = select names field := by
            simp [select, record, hfield]
          rw [hselect, ih h.2]
      | some value =>
          have hselect : select (name :: names) field = (name, value) :: select names field := by
            simp [select, record, hfield]
          rw [hselect, get, if_neg (Ne.symm h.1), ih h.2]

end JsonObject

namespace Json

/-- The entries of a struct with these field names: an object, or the fields in order. -/
def asStruct (names : List String) : Json → Option JsonObject
  | obj fields => some fields
  | arr items => if items.length ≤ names.length then some (names.zip items) else none
  | _ => none

/-- The same for a struct that refuses unknown fields. -/
def asClosedStruct (names : List String) (value : Json) : Option JsonObject :=
  (value.asStruct names).filter fun fields => fields.all fun field => names.contains field.1

/-- A field of type `Option`: absent or null is none; none outside when it does not decode. -/
def optional {α : Type} (decode : Json → Option α) : Option Json → Option (Option α)
  | none | some null => some none
  | some value => (decode value).map some

/-- A field with a default. -/
def orDefault {α : Type} (decode : Json → Option α) (dflt : α) : Option Json → Option α
  | none => some dflt
  | some value => decode value

def items {α : Type} (decode : Json → Option α) (value : Json) : Option (List α) :=
  value.asArray.bind fun values => values.mapM decode

theorem asClosedStruct_record {names : List String} {slots : List (String × Option Json)}
    (h : slots.map Prod.fst ⊆ names) :
    asClosedStruct names (obj (JsonObject.record slots)) = some (JsonObject.record slots) := by
  refine Option.filter_some_pos ?_
  rw [List.all_eq_true]
  intro field hfield
  obtain ⟨slot, hslot, hvalue⟩ := List.mem_filterMap.mp hfield
  obtain ⟨value, -, rfl⟩ := Option.map_eq_some_iff.mp hvalue
  rw [List.contains_iff_mem]
  exact h (List.mem_map_of_mem hslot)

theorem optional_map {α : Type} {decode : Json → Option α} {encode : α → Json} {value : Option α}
    (h : ∀ a, value = some a → encode a ≠ null ∧ decode (encode a) = some a) :
    optional decode (value.map encode) = some value := by
  cases value with
  | none => rfl
  | some a =>
      obtain ⟨hnull, hdecode⟩ := h a rfl
      rw [Option.map_some]
      cases hencode : encode a with
      | null => exact absurd hencode hnull
      | _ => simp only [optional, ← hencode, hdecode, Option.map_some]

theorem items_map {α : Type} {decode : Json → Option α} {encode : α → Json} {values : List α}
    (h : ∀ a ∈ values, decode (encode a) = some a) :
    items decode (arr (values.map encode)) = some values := by
  rw [items, asArray, Option.bind_some]
  induction values with
  | nil => rfl
  | cons a values ih =>
      rw [List.map_cons, List.mapM_cons, h a List.mem_cons_self,
        ih fun b hb => h b (List.mem_cons_of_mem _ hb)]
      rfl

def isNumber : Json → Bool
  | int _ | float _ => true
  | _ => false

def isArray : Json → Bool
  | arr _ => true
  | _ => false

def asU32 (value : Json) : Option UInt32 :=
  (value.asU64.filter (· < 2 ^ 32)).map UInt32.ofNat

def ofU32 (n : UInt32) : Json := int n.toNat

def asUInt64 (value : Json) : Option UInt64 := value.asU64.map UInt64.ofNat

def ofU64 (n : UInt64) : Json := int n.toNat

def ofI64 (n : Int64) : Json := int n.toInt

def asInt64 (value : Json) : Option Int64 := value.asI64.map Int64.ofInt

theorem asU32_ofU32 (n : UInt32) : (ofU32 n).asU32 = some n := by
  have hlt : n.toNat < 2 ^ 32 := n.toNat_lt
  have hu64 : (ofU32 n).asU64 = some n.toNat := by
    rw [ofU32, asU64, if_pos (by omega), Int.toNat_natCast]
  rw [asU32, hu64, Option.filter_some_pos (by simpa using hlt), Option.map_some, UInt32.ofNat_toNat]

theorem asUInt64_ofU64 (n : UInt64) : (ofU64 n).asUInt64 = some n := by
  have hlt : n.toNat < 2 ^ 64 := n.toNat_lt
  rw [asUInt64, ofU64, asU64, if_pos (by omega), Int.toNat_natCast, Option.map_some,
    UInt64.ofNat_toNat]

theorem asInt64_ofI64 (n : Int64) : (ofI64 n).asInt64 = some n := by
  have hlow := n.le_toInt
  have hhigh := n.toInt_lt
  rw [asInt64, ofI64, asI64, if_pos ⟨by omega, by omega⟩, Option.map_some, Int64.ofInt_toInt]

theorem asF64_ofF64 {x : F64} (h : x.isFinite = true) : (ofF64 x).asF64 = some x := by
  rw [ofF64, if_pos h]
  rfl

/-- Bytes of a character in a quoted text. -/
def charBytes (c : Char) : Nat :=
  if c ∈ ['"', '\\', '\n', '\r', '\t', '\x08', '\x0c'] then 2
  else if c.toNat < 32 then 6
  else c.utf8Size

def textBytes (text : String) : Nat := 2 + (text.toList.map charBytes).sum

mutual

/-- Bytes of the compact text; how a float is spelled is a parameter. -/
def bytes (floatBytes : UInt64 → Nat) : Json → Nat
  | null => 4
  | bool value => if value then 4 else 5
  | int value => (toString value).utf8ByteSize
  | float bits => floatBytes bits
  | str value => textBytes value
  | arr items => 2 + itemsBytes floatBytes items
  | obj fields => 2 + fieldsBytes floatBytes fields

/-- The members and the commas between them. -/
def itemsBytes (floatBytes : UInt64 → Nat) : List Json → Nat
  | [] => 0
  | [item] => bytes floatBytes item
  | item :: rest => bytes floatBytes item + 1 + itemsBytes floatBytes rest

def fieldsBytes (floatBytes : UInt64 → Nat) : List (String × Json) → Nat
  | [] => 0
  | [(name, value)] => textBytes name + 1 + bytes floatBytes value
  | (name, value) :: rest =>
      textBytes name + 1 + bytes floatBytes value + 1 + fieldsBytes floatBytes rest

end

end Json
