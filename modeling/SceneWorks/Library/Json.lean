import Mathlib.Algebra.GroupWithZero.Nat
import Mathlib.Algebra.Ring.Int.Defs
import Mathlib.Data.List.Basic

/-!
JSON documents as a reader of the decoded value sees them. An object is its list
of entries in storage order; reads go through the first entry of a key, so every
lemma here holds whether or not a key repeats. Numbers keep the integer and the
floating form apart, and a float is its bit pattern: nothing below computes with
one.
-/

inductive Json where
  | null
  | bool (value : Bool)
  | int (value : Int)
  | float (bits : UInt64)
  | str (value : String)
  | arr (items : List Json)
  | obj (fields : List (String × Json))
  deriving Inhabited

abbrev JsonObject := List (String × Json)

namespace Json

mutual

def same : Json → Json → Bool
  | null, null => true
  | bool a, bool b => a == b
  | int a, int b => a == b
  | float a, float b => a == b
  | str a, str b => a == b
  | arr xs, arr ys => sameItems xs ys
  | obj xs, obj ys => sameFields xs ys
  | _, _ => false

def sameItems : List Json → List Json → Bool
  | [], [] => true
  | x :: xs, y :: ys => same x y && sameItems xs ys
  | _, _ => false

def sameFields : List (String × Json) → List (String × Json) → Bool
  | [], [] => true
  | (k, x) :: xs, (l, y) :: ys => k == l && same x y && sameFields xs ys
  | _, _ => false

end

mutual

theorem same_iff (a b : Json) : same a b = true ↔ a = b := by
  cases a with
  | arr xs =>
      cases b with
      | arr ys => simpa only [same, arr.injEq] using sameItems_iff xs ys
      | _ => simp [same]
  | obj xs =>
      cases b with
      | obj ys => simpa only [same, obj.injEq] using sameFields_iff xs ys
      | _ => simp [same]
  | _ => cases b <;> simp [same]

theorem sameItems_iff (xs ys : List Json) : sameItems xs ys = true ↔ xs = ys := by
  cases xs with
  | nil => cases ys <;> simp [sameItems]
  | cons x xs =>
      cases ys with
      | nil => simp [sameItems]
      | cons y ys =>
          simp only [sameItems, Bool.and_eq_true, same_iff x y, sameItems_iff xs ys,
            List.cons.injEq]

theorem sameFields_iff (xs ys : List (String × Json)) : sameFields xs ys = true ↔ xs = ys := by
  cases xs with
  | nil => cases ys <;> simp [sameFields]
  | cons x xs =>
      cases ys with
      | nil => simp [sameFields]
      | cons y ys =>
          obtain ⟨k, v⟩ := x
          obtain ⟨l, w⟩ := y
          simp only [sameFields, Bool.and_eq_true, beq_iff_eq, same_iff v w, sameFields_iff xs ys,
            List.cons.injEq, Prod.mk.injEq]

end

instance : DecidableEq Json :=
  fun a b => decidable_of_iff (same a b = true) (same_iff a b)

def asBool : Json → Option Bool
  | bool value => some value
  | _ => none

def asStr : Json → Option String
  | str value => some value
  | _ => none

def asArray : Json → Option (List Json)
  | arr items => some items
  | _ => none

def asObject : Json → Option JsonObject
  | obj fields => some fields
  | _ => none

theorem asStr_eq_some {value : Json} {text : String} :
    value.asStr = some text ↔ value = .str text := by
  cases value <;> simp [asStr]

theorem asArray_eq_some {value : Json} {items : List Json} :
    value.asArray = some items ↔ value = .arr items := by
  cases value <;> simp [asArray]

theorem asObject_eq_some {value : Json} {fields : JsonObject} :
    value.asObject = some fields ↔ value = .obj fields := by
  cases value <;> simp [asObject]

def asI64 : Json → Option Int
  | int value => if -(2 ^ 63) ≤ value ∧ value < 2 ^ 63 then some value else none
  | _ => none

def asU64 : Json → Option Nat
  | int value => if 0 ≤ value ∧ value < 2 ^ 64 then some value.toNat else none
  | _ => none

end Json

namespace JsonObject

def get : JsonObject → String → Option Json
  | [], _ => none
  | (k, v) :: rest, key => if k = key then some v else get rest key

def containsKey (fields : JsonObject) (key : String) : Bool :=
  (get fields key).isSome

/-- Insertion keeps a sorted object sorted and overwrites the entry of a present key. -/
def insert : JsonObject → String → Json → JsonObject
  | [], key, value => [(key, value)]
  | (k, v) :: rest, key, value =>
      if k = key then (key, value) :: rest
      else if key < k then (key, value) :: (k, v) :: rest
      else (k, v) :: insert rest key value

def remove (fields : JsonObject) (key : String) : JsonObject :=
  fields.filter fun field => field.1 ≠ key

/-- `Extend::extend`: the entries of `other` are inserted one after the other. -/
def extend (fields other : JsonObject) : JsonObject :=
  other.foldl (fun acc field => insert acc field.1 field.2) fields

@[simp] theorem get_nil (key : String) : get [] key = none := rfl

theorem get_insert (fields : JsonObject) (key : String) (value : Json) (other : String) :
    get (insert fields key value) other = if key = other then some value else get fields other := by
  induction fields with
  | nil => simp [insert, get]
  | cons field rest ih =>
      obtain ⟨k, v⟩ := field
      simp only [insert]
      split
      · next h =>
          subst h
          by_cases hk : k = other <;> simp [get, hk]
      · next h =>
          split
          · simp [get]
          · simp only [get, ih]
            by_cases hk : k = other
            · have hkey : key ≠ other := fun e => h (hk.trans e.symm)
              simp [hk, hkey]
            · simp [hk]

@[simp] theorem get_insert_self (fields : JsonObject) (key : String) (value : Json) :
    get (insert fields key value) key = some value := by
  simp [get_insert]

theorem get_insert_of_ne (fields : JsonObject) {key other : String} (value : Json)
    (h : key ≠ other) : get (insert fields key value) other = get fields other := by
  simp [get_insert, h]

end JsonObject

/-- `Value::get` with a string index: only an object has entries. -/
def Json.get (value : Json) (key : String) : Option Json :=
  value.asObject.bind fun fields => JsonObject.get fields key
