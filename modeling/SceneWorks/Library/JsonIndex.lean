import SceneWorks.Library.Json
import SceneWorks.Library.Float64

/-!
Reading and writing through an index. A read of a missing entry gives null. A write goes
through `IndexMut`: null turns into an empty object, a missing key is inserted with null,
and indexing anything else by a key panics, which is `none` here. A present entry is
written in place, so writing back what is there changes nothing.
-/

namespace JsonObject

def replace : JsonObject → String → Json → JsonObject
  | [], _, _ => []
  | (k, v) :: rest, key, value =>
      if k = key then (k, value) :: rest else (k, v) :: replace rest key value

def write (fields : JsonObject) (key : String) (value : Json) : JsonObject :=
  if containsKey fields key then replace fields key value else insert fields key value

/-- `entry(key).or_insert(value)`. -/
def orInsert (fields : JsonObject) (key : String) (value : Json) : JsonObject :=
  if containsKey fields key then fields else insert fields key value

/-- Iteration visits the entry of each key once. -/
def entries : JsonObject → List (String × Json)
  | [] => []
  | (k, v) :: rest => (k, v) :: (entries rest).filter fun entry => entry.1 ≠ k

theorem mem_entries {fields : JsonObject} {key : String} {value : Json} :
    (key, value) ∈ entries fields ↔ get fields key = some value := by
  induction fields with
  | nil => simp [entries]
  | cons head rest ih =>
      obtain ⟨k, v⟩ := head
      simp only [entries, List.mem_cons, List.mem_filter, Prod.mk.injEq, ih, get, decide_eq_true_eq]
      by_cases hk : k = key
      · simp [hk, eq_comm]
      · simp [hk, Ne.symm hk]

theorem get_replace (fields : JsonObject) (key : String) (value : Json) (other : String) :
    get (replace fields key value) other =
      if key = other ∧ containsKey fields key then some value else get fields other := by
  induction fields with
  | nil => simp [replace, containsKey, get]
  | cons field rest ih =>
      obtain ⟨k, v⟩ := field
      by_cases hk : k = key
      · subst hk
        by_cases ho : k = other <;> simp [replace, get, containsKey, ho]
      · have hkeys : containsKey ((k, v) :: rest) key = containsKey rest key := by
          simp [containsKey, get, hk]
        simp only [replace, if_neg hk, get, hkeys, ih]
        by_cases ho : k = other
        · have hkey : key ≠ other := fun e => hk (ho.trans e.symm)
          simp [ho, hkey]
        · simp [ho]

theorem get_write (fields : JsonObject) (key : String) (value : Json) (other : String) :
    get (write fields key value) other = if key = other then some value else get fields other := by
  unfold write
  split
  · next h => simp [get_replace, h]
  · exact get_insert fields key value other

theorem get_orInsert (fields : JsonObject) (key : String) (value : Json) (other : String) :
    get (orInsert fields key value) other =
      if key = other then some ((get fields key).getD value) else get fields other := by
  unfold orInsert containsKey
  cases h : get fields key with
  | none => simp [get_insert]
  | some old =>
      by_cases hk : key = other
      · subst hk
        simp [h]
      · simp [hk]

theorem replace_self {fields : JsonObject} {key : String} {value : Json}
    (h : get fields key = some value) : replace fields key value = fields := by
  induction fields with
  | nil => rfl
  | cons field rest ih =>
      obtain ⟨k, v⟩ := field
      by_cases hk : k = key
      · simp only [get, if_pos hk, Option.some.injEq] at h
        simp [replace, hk, h]
      · simp only [get, if_neg hk] at h
        simp [replace, hk, ih h]

/-- Writing back what an entry holds changes nothing. -/
theorem write_self {fields : JsonObject} {key : String} {value : Json}
    (h : get fields key = some value) : write fields key value = fields := by
  have hmem : containsKey fields key = true := by simp [containsKey, h]
  rw [write, if_pos hmem, replace_self h]

theorem get_remove (fields : JsonObject) {key other : String} (h : key ≠ other) :
    get (remove fields key) other = get fields other := by
  induction fields with
  | nil => rfl
  | cons head rest ih =>
      obtain ⟨k, v⟩ := head
      by_cases hk : k = key
      · have hremove : remove ((k, v) :: rest) key = remove rest key := by simp [remove, hk]
        rw [hremove, ih, get, if_neg (hk ▸ h)]
      · have hremove : remove ((k, v) :: rest) key = (k, v) :: remove rest key := by
          simp [remove, hk]
        rw [hremove, get, get, ih]

theorem get_remove_self (fields : JsonObject) (key : String) :
    get (remove fields key) key = none := by
  induction fields with
  | nil => rfl
  | cons head rest ih =>
      obtain ⟨k, v⟩ := head
      by_cases hk : k = key
      · have hremove : remove ((k, v) :: rest) key = remove rest key := by simp [remove, hk]
        rw [hremove, ih]
      · have hremove : remove ((k, v) :: rest) key = (k, v) :: remove rest key := by
          simp [remove, hk]
        rw [hremove, get, if_neg hk, ih]

theorem mem_insert {fields : JsonObject} {key : String} {value : Json} {field : String × Json}
    (h : field ∈ insert fields key value) : field = (key, value) ∨ field ∈ fields := by
  induction fields with
  | nil => exact .inl (by simpa [insert] using h)
  | cons head rest ih =>
      obtain ⟨k, v⟩ := head
      simp only [insert] at h
      split at h
      · obtain rfl | h := List.mem_cons.mp h
        · exact .inl rfl
        · exact .inr (List.mem_cons_of_mem _ h)
      · split at h
        · obtain rfl | h := List.mem_cons.mp h
          · exact .inl rfl
          · exact .inr h
        · obtain rfl | h := List.mem_cons.mp h
          · exact .inr List.mem_cons_self
          · obtain h | h := ih h
            · exact .inl h
            · exact .inr (List.mem_cons_of_mem _ h)

theorem mem_replace {fields : JsonObject} {key : String} {value : Json} {field : String × Json}
    (h : field ∈ replace fields key value) : field = (key, value) ∨ field ∈ fields := by
  induction fields with
  | nil => simp [replace] at h
  | cons head rest ih =>
      obtain ⟨k, v⟩ := head
      simp only [replace] at h
      split at h
      · next hk =>
          obtain rfl | h := List.mem_cons.mp h
          · exact .inl (by rw [hk])
          · exact .inr (List.mem_cons_of_mem _ h)
      · obtain rfl | h := List.mem_cons.mp h
        · exact .inr List.mem_cons_self
        · obtain h | h := ih h
          · exact .inl h
          · exact .inr (List.mem_cons_of_mem _ h)

theorem mem_write {fields : JsonObject} {key : String} {value : Json} {field : String × Json}
    (h : field ∈ write fields key value) : field = (key, value) ∨ field ∈ fields := by
  unfold write at h
  split at h
  · exact mem_replace h
  · exact mem_insert h

theorem insert_perm {fields : JsonObject} {key : String} (value : Json)
    (h : containsKey fields key = false) :
    (insert fields key value).Perm ((key, value) :: fields) := by
  induction fields with
  | nil => exact .refl _
  | cons head rest ih =>
      obtain ⟨k, v⟩ := head
      have hk : k ≠ key := by
        intro e
        simp [containsKey, get, e] at h
      simp only [insert, if_neg hk]
      split
      · exact .refl _
      · have hrest : containsKey rest key = false := by
          simpa [containsKey, get, hk] using h
        exact ((ih hrest).cons _).trans (.swap _ _ _)

theorem forall_mem_replace {fields : JsonObject} {key : String} {value : Json} {P : Json → Prop}
    (h : ∀ old, get fields key = some old → (P value ↔ P old)) :
    (∀ entry ∈ replace fields key value, P entry.2) ↔ ∀ entry ∈ fields, P entry.2 := by
  induction fields with
  | nil => simp [replace]
  | cons head rest ih =>
      obtain ⟨k, v⟩ := head
      by_cases hk : k = key
      · have hv : P value ↔ P v := h v (by simp [get, hk])
        simp [replace, hk, hv]
      · have ih := ih fun old hold => h old (by simpa [get, hk] using hold)
        simp only [replace, if_neg hk, List.forall_mem_cons, ih]

/-- What all entries satisfy after a write that does not change it for a present entry. -/
theorem forall_mem_write {fields : JsonObject} {key : String} {value : Json} {P : Json → Prop}
    (h : ∀ old, get fields key = some old → (P value ↔ P old)) :
    (∀ entry ∈ write fields key value, P entry.2) ↔
      (∀ entry ∈ fields, P entry.2) ∧ (containsKey fields key = true ∨ P value) := by
  cases hkey : containsKey fields key with
  | true =>
      rw [write, if_pos hkey, forall_mem_replace h]
      simp
  | false =>
      rw [write, if_neg (by simp [hkey])]
      have hmem := fun entry => (insert_perm value hkey).mem_iff (a := entry)
      simp only [hmem, List.forall_mem_cons]
      simp [and_comm]

theorem containsKey_iff_mem {fields : JsonObject} {key : String} :
    containsKey fields key = true ↔ key ∈ fields.map Prod.fst := by
  induction fields with
  | nil => simp [containsKey]
  | cons field rest ih =>
      obtain ⟨k, v⟩ := field
      simp only [containsKey, get, List.map_cons, List.mem_cons] at ih ⊢
      by_cases hk : k = key
      · simp [hk]
      · simp only [if_neg hk, ih]
        exact ⟨.inr, fun h => h.resolve_left fun e => hk e.symm⟩

/-- A write changes nothing but the first entry of its key. -/
theorem eraseP_write (fields : JsonObject) (key : String) (value : Json) :
    (write fields key value).eraseP (fun entry => entry.1 == key) =
      fields.eraseP fun entry => entry.1 == key := by
  induction fields with
  | nil => simp [write, containsKey, insert]
  | cons head rest ih =>
      obtain ⟨k, v⟩ := head
      by_cases hk : k = key
      · simp [write, containsKey, get, replace, hk]
      · have hkeys : containsKey ((k, v) :: rest) key = containsKey rest key := by
          simp [containsKey, get, hk]
        simp only [write, hkeys] at ih ⊢
        split
        · next h =>
            rw [if_pos h] at ih
            simp [replace, hk, ih]
        · next h =>
            rw [if_neg h] at ih
            simp only [insert, if_neg hk]
            split
            · have habsent : ∀ entry ∈ (k, v) :: rest, ¬ (entry.1 == key) = true := by
                intro entry hentry hkey
                refine h (hkeys ▸ containsKey_iff_mem.mpr ?_)
                exact beq_iff_eq.mp hkey ▸ List.mem_map_of_mem hentry
              simp [List.eraseP_of_forall_not habsent]
            · simp [hk, ih]

theorem mem_of_get {fields : JsonObject} {key : String} {value : Json}
    (h : get fields key = some value) : (key, value) ∈ fields := by
  induction fields with
  | nil => simp at h
  | cons field rest ih =>
      obtain ⟨k, v⟩ := field
      simp only [get] at h
      split at h
      · next hk =>
          cases h
          exact hk ▸ List.mem_cons_self
      · exact List.mem_cons_of_mem _ (ih h)

/-- Lookup in an object whose entries were mapped one by one, keys kept. -/
theorem get_mapM {fields result : JsonObject} {f : String → Json → Option Json}
    (h : fields.mapM (fun entry => (f entry.1 entry.2).map fun value => (entry.1, value)) =
      some result) (key : String) :
    (get fields key).bind (f key) = get result key ∧
      (get fields key).isSome = (get result key).isSome := by
  induction fields generalizing result with
  | nil =>
      cases h
      exact ⟨rfl, rfl⟩
  | cons head rest ih =>
      obtain ⟨k, v⟩ := head
      simp only [List.mapM_cons, Option.bind_eq_bind, Option.bind_eq_some_iff,
        Option.map_eq_some_iff] at h
      obtain ⟨_, ⟨value, hvalue, rfl⟩, rest', hrest, hresult⟩ := h
      cases hresult
      by_cases hk : k = key
      · subst hk
        simp [get, hvalue]
      · simpa [get, hk] using ih hrest

end JsonObject

namespace Json

/-- `value[key]` read: null where there is no such entry. -/
def idx (value : Json) (key : String) : Json :=
  (value.get key).getD .null

def isObject : Json → Bool
  | obj _ => true
  | _ => false

def isNull : Json → Bool
  | null => true
  | _ => false

/-- The elements of an array; any other value iterates as none. -/
def elements (value : Json) : List Json :=
  value.asArray.getD []

/-- The entries `IndexMut` works on. -/
def entriesMut : Json → Option JsonObject
  | null => some []
  | obj fields => some fields
  | _ => none

/-- Write through `value[k₁]…[kₙ]`: the entry reached is replaced by its image. -/
def edit : Json → List String → (Json → Json) → Option Json
  | value, [], f => some (f value)
  | value, key :: path, f => do
      let fields ← value.entriesMut
      let child ← edit ((JsonObject.get fields key).getD .null) path f
      some (obj (JsonObject.write fields key child))

/-- `value[k₁]…[kₙ] = new`. -/
def put (value : Json) (path : List String) (new : Json) : Option Json :=
  value.edit path fun _ => new

/-- `Value::as_f64`. -/
def asF64 : Json → Option F64
  | int value => some (F64.ofInt value)
  | float bits => some ⟨bits⟩
  | _ => none

/-- `json!` of a float: JSON has no NaN and no infinity. -/
def ofF64 (x : F64) : Json :=
  if x.isFinite then float x.bits else null

mutual

/-- The `==` of two values, which compares floats as numbers. -/
def valueEq : Json → Json → Bool
  | null, null => true
  | bool a, bool b => a == b
  | int a, int b => a == b
  | float a, float b => F64.eq ⟨a⟩ ⟨b⟩
  | str a, str b => a == b
  | arr xs, arr ys => itemsEq xs ys
  | obj xs, obj ys => fieldsEq xs ys
  | _, _ => false

def itemsEq : List Json → List Json → Bool
  | [], [] => true
  | x :: xs, y :: ys => valueEq x y && itemsEq xs ys
  | _, _ => false

def fieldsEq : List (String × Json) → List (String × Json) → Bool
  | [], [] => true
  | (k, x) :: xs, (l, y) :: ys => k == l && valueEq x y && fieldsEq xs ys
  | _, _ => false

end

@[simp] theorem get_obj (fields : JsonObject) (key : String) :
    (obj fields).get key = JsonObject.get fields key := rfl

theorem idx_eq_of_get {value other : Json} {key : String} (h : value.get key = other.get key) :
    value.idx key = other.idx key := by
  rw [idx, idx, h]

theorem isObject_iff {value : Json} : value.isObject = true ↔ ∃ fields, value = obj fields := by
  cases value <;> simp [isObject]

theorem isNull_iff {value : Json} : value.isNull = true ↔ value = null := by
  cases value <;> simp [isNull]

theorem entriesMut_get {value : Json} {fields : JsonObject} (h : value.entriesMut = some fields)
    (key : String) : value.get key = JsonObject.get fields key := by
  cases value with
  | null =>
      cases h
      rfl
  | obj fields' =>
      cases h
      rfl
  | _ => simp [entriesMut] at h

theorem entriesMut_isSome {value : Json} (h : value = null ∨ value.isObject = true) :
    ∃ fields, value.entriesMut = some fields := by
  obtain rfl | h := h
  · exact ⟨[], rfl⟩
  · obtain ⟨fields, rfl⟩ := isObject_iff.mp h
    exact ⟨fields, rfl⟩

@[simp] theorem edit_nil (value : Json) (f : Json → Json) : value.edit [] f = some (f value) := rfl

theorem edit_cons {value : Json} {key : String} {path : List String} {f : Json → Json}
    {result : Json} (h : value.edit (key :: path) f = some result) :
    ∃ fields child, value.entriesMut = some fields ∧ (value.idx key).edit path f = some child ∧
      result = obj (JsonObject.write fields key child) := by
  simp only [edit, Option.bind_eq_bind, Option.bind_eq_some_iff, Option.some.injEq] at h
  obtain ⟨fields, hfields, child, hchild, rfl⟩ := h
  refine ⟨fields, child, hfields, ?_, rfl⟩
  rw [idx, entriesMut_get hfields]
  exact hchild

theorem edit_cons_of {value : Json} {key : String} {path : List String} {f : Json → Json}
    {fields : JsonObject} {child : Json} (hfields : value.entriesMut = some fields)
    (hchild : (value.idx key).edit path f = some child) :
    value.edit (key :: path) f = some (obj (JsonObject.write fields key child)) := by
  rw [idx, entriesMut_get hfields] at hchild
  simp [edit, hfields, hchild]

theorem edit_cons_isSome {value : Json} {key : String} {path : List String} {f : Json → Json}
    {child : Json} (hvalue : value = null ∨ value.isObject = true)
    (hchild : (value.idx key).edit path f = some child) :
    ∃ result, value.edit (key :: path) f = some result := by
  obtain ⟨fields, hfields⟩ := entriesMut_isSome hvalue
  exact ⟨_, edit_cons_of hfields hchild⟩

theorem isObject_of_idx {value : Json} {key : String} (h : (value.idx key).isObject = true) :
    value.isObject = true := by
  cases value with
  | obj fields => rfl
  | _ => simp [idx, get, asObject, isObject] at h

/-- A write leaves every other key of the same level alone. -/
theorem get_edit_of_ne {value : Json} {key : String} {path : List String} {f : Json → Json}
    {result : Json} (h : value.edit (key :: path) f = some result) {other : String}
    (hne : key ≠ other) : result.get other = value.get other := by
  obtain ⟨fields, child, hfields, -, rfl⟩ := edit_cons h
  rw [get_obj, JsonObject.get_write, if_neg hne, entriesMut_get hfields]

theorem idx_edit_of_ne {value : Json} {key : String} {path : List String} {f : Json → Json}
    {result : Json} (h : value.edit (key :: path) f = some result) {other : String}
    (hne : key ≠ other) : result.idx other = value.idx other :=
  idx_eq_of_get (get_edit_of_ne h hne)

theorem get_edit_self {value : Json} {key : String} {path : List String} {f : Json → Json}
    {result : Json} (h : value.edit (key :: path) f = some result) :
    ∃ child, (value.idx key).edit path f = some child ∧ result.get key = some child := by
  obtain ⟨fields, child, -, hchild, rfl⟩ := edit_cons h
  refine ⟨child, hchild, ?_⟩
  rw [get_obj, JsonObject.get_write, if_pos rfl]

theorem idx_edit_self {value : Json} {key : String} {path : List String} {f : Json → Json}
    {result : Json} (h : value.edit (key :: path) f = some result) :
    (value.idx key).edit path f = some (result.idx key) := by
  obtain ⟨child, hchild, hget⟩ := get_edit_self h
  rw [hchild, idx, hget]
  rfl

theorem isObject_edit {value : Json} {key : String} {path : List String} {f : Json → Json}
    {result : Json} (h : value.edit (key :: path) f = some result) : result.isObject = true := by
  obtain ⟨fields, child, -, -, rfl⟩ := edit_cons h
  rfl

end Json
