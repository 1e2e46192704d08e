import Mathlib.Data.List.Nodup

/-!
Lists that keep the first item of each key. An item may have no key, and then nothing
stands for it: it is kept every time it comes. What is kept never loses an item, has no
key twice, and takes nothing of a list whose keys it already holds.
-/

namespace FirstSeen

variable {α κ : Type*} [DecidableEq κ] (key : α → Option κ)

def keys (kept : List α) : List κ := kept.filterMap key

/-- One item after what is kept: dropped when its key is already there. -/
def keep (kept : List α) (item : α) : List α :=
  match key item with
  | none => kept ++ [item]
  | some k => if k ∈ keys key kept then kept else kept ++ [item]

def keepNew (kept items : List α) : List α := items.foldl (keep key) kept

def Distinct (kept : List α) : Prop := (keys key kept).Nodup

instance (kept : List α) : Decidable (Distinct key kept) :=
  inferInstanceAs (Decidable (List.Nodup _))

variable {key} {kept items : List α} {item : α} {k : κ}

theorem keep_of_none (h : key item = none) : keep key kept item = kept ++ [item] := by
  simp only [keep, h]

theorem keep_of_mem (h : key item = some k) (hk : k ∈ keys key kept) :
    keep key kept item = kept := by
  simp only [keep, h, if_pos hk]

theorem keep_of_not_mem (h : key item = some k) (hk : k ∉ keys key kept) :
    keep key kept item = kept ++ [item] := by
  simp only [keep, h, if_neg hk]

variable (key kept) in
theorem prefix_keep (item : α) : kept <+: keep key kept item := by
  cases h : key item with
  | none => rw [keep_of_none h]; exact List.prefix_append kept [item]
  | some k =>
      by_cases hk : k ∈ keys key kept
      · exact ⟨[], by rw [List.append_nil, keep_of_mem h hk]⟩
      · rw [keep_of_not_mem h hk]
        exact List.prefix_append kept [item]

@[simp] theorem keepNew_nil : keepNew key kept [] = kept := rfl

@[simp] theorem keepNew_cons : keepNew key kept (item :: items) =
    keepNew key (keep key kept item) items := rfl

theorem keepNew_append (more : List α) :
    keepNew key kept (items ++ more) = keepNew key (keepNew key kept items) more :=
  List.foldl_append

variable (key kept) in
theorem prefix_keepNew (items : List α) : kept <+: keepNew key kept items := by
  induction items generalizing kept with
  | nil => exact List.prefix_rfl
  | cons item rest ih => exact (prefix_keep key kept item).trans (ih (keep key kept item))

omit [DecidableEq κ] in
theorem keys_subset {other : List α} (h : kept <+: other) :
    keys key kept ⊆ keys key other :=
  (h.sublist.filterMap key).subset

theorem key_mem_keep (h : key item = some k) : k ∈ keys key (keep key kept item) := by
  by_cases hk : k ∈ keys key kept
  · rwa [keep_of_mem h hk]
  · rw [keep_of_not_mem h hk]
    exact List.mem_filterMap.mpr ⟨item, by simp, h⟩

theorem key_mem_keepNew (hitem : item ∈ items) (h : key item = some k) :
    k ∈ keys key (keepNew key kept items) := by
  induction items generalizing kept with
  | nil => cases hitem
  | cons first rest ih =>
      rcases List.mem_cons.mp hitem with rfl | hrest
      · exact keys_subset (prefix_keepNew key _ rest) (key_mem_keep h)
      · exact ih hrest

theorem mem_keep {other : α} (h : other ∈ keep key kept item) : other ∈ kept ∨ other = item := by
  cases hkey : key item with
  | none => simpa [keep_of_none hkey] using h
  | some k =>
      by_cases hk : k ∈ keys key kept
      · exact .inl (by rwa [keep_of_mem hkey hk] at h)
      · simpa [keep_of_not_mem hkey hk] using h

theorem mem_keepNew {other : α} (h : other ∈ keepNew key kept items) :
    other ∈ kept ∨ other ∈ items := by
  induction items generalizing kept with
  | nil => exact .inl h
  | cons item rest ih =>
      rcases ih h with hkeep | hrest
      · rcases mem_keep hkeep with hkept | rfl
        · exact .inl hkept
        · exact .inr List.mem_cons_self
      · exact .inr (List.mem_cons_of_mem item hrest)

theorem mem_keepNew_of_none (hitem : item ∈ items) (h : key item = none) :
    item ∈ keepNew key kept items := by
  induction items generalizing kept with
  | nil => cases hitem
  | cons first rest ih =>
      rcases List.mem_cons.mp hitem with rfl | hrest
      · refine (prefix_keepNew key _ rest).subset ?_
        rw [keep_of_none h]
        simp
      · exact ih hrest

/-- Nothing of `items` is taken exactly when every one of them has a key that is held. -/
theorem keepNew_eq_self_iff :
    keepNew key kept items = kept ↔ ∀ item ∈ items, ∃ k ∈ keys key kept, key item = some k := by
  induction items with
  | nil => simp
  | cons item rest ih =>
      rw [keepNew_cons, List.forall_mem_cons, ← ih]
      by_cases hheld : ∃ k ∈ keys key kept, key item = some k
      · obtain ⟨k, hk, h⟩ := hheld
        rw [keep_of_mem h hk]
        exact ⟨fun hrest => ⟨⟨k, hk, h⟩, hrest⟩, fun hrest => hrest.2⟩
      · refine ⟨fun hrest => False.elim ?_, fun hrest => (hheld hrest.1).elim⟩
        -- The item was appended, and what is kept never shrinks again.
        have hkeep : keep key kept item = kept ++ [item] := by
          cases h : key item with
          | none => exact keep_of_none h
          | some k => exact keep_of_not_mem h fun hk => hheld ⟨k, hk, h⟩
        have hlong := (prefix_keepNew key (keep key kept item) rest).length_le
        rw [hrest, hkeep, List.length_append, List.length_singleton] at hlong
        omega

theorem keepNew_eq_nil_iff : keepNew key kept items = [] ↔ kept = [] ∧ items = [] := by
  constructor
  · intro h
    have hkept : kept = [] := List.prefix_nil.mp (h ▸ prefix_keepNew key kept items)
    subst hkept
    refine ⟨rfl, List.eq_nil_iff_forall_not_mem.mpr fun item hitem => ?_⟩
    obtain ⟨k, hk, -⟩ := keepNew_eq_self_iff.mp h item hitem
    cases hk
  · rintro ⟨rfl, rfl⟩
    rfl

theorem distinct_keep (h : Distinct key kept) (item : α) : Distinct key (keep key kept item) := by
  cases hkey : key item with
  | none => simpa [Distinct, keys, keep_of_none hkey, hkey] using h
  | some k =>
      by_cases hk : k ∈ keys key kept
      · rwa [keep_of_mem hkey hk]
      · rw [keep_of_not_mem hkey hk, Distinct, keys, List.filterMap_append]
        simpa [hkey, keys] using h.concat hk

theorem distinct_keepNew (h : Distinct key kept) (items : List α) :
    Distinct key (keepNew key kept items) := by
  induction items generalizing kept with
  | nil => exact h
  | cons item rest ih => exact ih (distinct_keep h item)

theorem keepNew_of_distinct (h : Distinct key (kept ++ items)) :
    keepNew key kept items = kept ++ items := by
  induction items generalizing kept with
  | nil => simp
  | cons item rest ih =>
      have hkeep : keep key kept item = kept ++ [item] := by
        cases hkey : key item with
        | none => exact keep_of_none hkey
        | some k =>
            refine keep_of_not_mem hkey fun hk => ?_
            rw [Distinct, keys, List.filterMap_append, List.nodup_append] at h
            exact h.2.2 k hk k (by simp [hkey]) rfl
      rw [keepNew_cons, hkeep, ih (by rwa [List.append_assoc, List.singleton_append]),
        List.append_assoc, List.singleton_append]

/-- A list survives as the front of what is kept exactly when it has no key twice. -/
theorem prefix_keepNew_nil_iff (more : List α) :
    items <+: keepNew key (keepNew key [] items) more ↔ Distinct key items := by
  constructor
  · intro h
    have hempty : Distinct key [] := List.nodup_nil
    have hkept := distinct_keepNew (distinct_keepNew hempty items) more
    exact List.Nodup.sublist (h.sublist.filterMap key) hkept
  · intro h
    have hself : keepNew key [] items = items := keepNew_of_distinct h
    rw [hself]
    exact prefix_keepNew key items more

end FirstSeen
