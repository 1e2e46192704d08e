import Mathlib.Data.List.Nodup
import Mathlib.Data.List.Basic

/-!
Tables with a primary key. Rows are kept in insertion order and no key occurs twice,
which is a field of the structure: a table that breaks it cannot be built. Every
operation is described by what it does to the lookup of one key, so that facts about
a table reduce to facts about single rows.
-/

structure Table (α κ : Type) (key : α → κ) where
  rows : List α
  unique : (rows.map key).Nodup

namespace Table

variable {α κ : Type} {key : α → κ}

theorem eq_of_rows {t t' : Table α κ key} (h : t.rows = t'.rows) : t = t' := by
  cases t
  cases t'
  cases h
  rfl

/-- One `delete … where p` statement. -/
def delete (t : Table α κ key) (p : α → Bool) : Table α κ key where
  rows := t.rows.filter fun r => !p r
  unique := t.unique.sublist ((List.filter_sublist).map key)

theorem delete_eq_self {t : Table α κ key} {p : α → Bool} (h : ∀ r ∈ t.rows, p r = false) :
    t.delete p = t := by
  refine eq_of_rows (List.filter_eq_self.mpr fun r hr => ?_)
  rw [h r hr]
  rfl

variable [DecidableEq κ]

def empty : Table α κ key := ⟨[], List.nodup_nil⟩

def find (t : Table α κ key) (k : κ) : Option α :=
  t.rows.find? fun r => key r = k

/-- One `update` statement without a `where` clause: every row is mapped. -/
def modify (t : Table α κ key) (f : α → α) (hf : ∀ r, key (f r) = key r) : Table α κ key where
  rows := t.rows.map f
  unique := by
    have hmap : (t.rows.map f).map key = t.rows.map key := by
      rw [List.map_map]
      exact List.map_congr_left fun r _ => hf r
    rw [hmap]
    exact t.unique

/-- One `update … where p` statement. -/
def update (t : Table α κ key) (p : α → Bool) (f : α → α) (hf : ∀ r, key (f r) = key r) :
    Table α κ key :=
  t.modify (fun r => if p r then f r else r) fun r => by
    split
    · exact hf r
    · rfl

/-- An `insert` statement, which a present key rejects. -/
def insert (t : Table α κ key) (r : α) : Option (Table α κ key) :=
  if h : key r ∈ t.rows.map key then none
  else some ⟨t.rows ++ [r], by
    rw [List.map_append]
    refine List.nodup_append.mpr ⟨t.unique, by simp, ?_⟩
    intro a ha b hb hab
    subst hab
    have hkey : a = key r := by simpa using hb
    exact h (hkey ▸ ha)⟩

theorem find_eq_some_iff {t : Table α κ key} {k : κ} {r : α} :
    t.find k = some r ↔ r ∈ t.rows ∧ key r = k := by
  constructor
  · intro h
    have hkey : key r = k := by simpa using List.find?_some h
    exact ⟨List.mem_of_find?_eq_some h, hkey⟩
  · rintro ⟨hmem, hkey⟩
    cases hfind : t.find k with
    | none =>
        have hnone := List.find?_eq_none.mp hfind r hmem
        simp [hkey] at hnone
    | some r' =>
        have hkey' : key r' = k := by simpa using List.find?_some hfind
        have hmem' := List.mem_of_find?_eq_some hfind
        have hrows := List.inj_on_of_nodup_map t.unique hmem' hmem (hkey'.trans hkey.symm)
        rw [hrows]

theorem mem_rows_iff {t : Table α κ key} {r : α} : r ∈ t.rows ↔ t.find (key r) = some r := by
  simp [find_eq_some_iff]

theorem find_key {t : Table α κ key} {k : κ} {r : α} (h : t.find k = some r) : key r = k :=
  (find_eq_some_iff.mp h).2

theorem find_mem {t : Table α κ key} {k : κ} {r : α} (h : t.find k = some r) : r ∈ t.rows :=
  (find_eq_some_iff.mp h).1

@[simp] theorem find_empty (k : κ) : (empty : Table α κ key).find k = none := rfl

@[simp] theorem find_modify (t : Table α κ key) (f : α → α) (hf : ∀ r, key (f r) = key r) (k : κ) :
    (t.modify f hf).find k = (t.find k).map f := by
  unfold find modify
  rw [List.find?_map]
  have hpred : (fun r => decide (key r = k)) ∘ f = fun r => decide (key r = k) := by
    funext r
    simp [hf r]
  rw [hpred]

@[simp] theorem find_update (t : Table α κ key) (p : α → Bool) (f : α → α)
    (hf : ∀ r, key (f r) = key r) (k : κ) :
    (t.update p f hf).find k = (t.find k).map fun r => if p r then f r else r := by
  simp only [update, find_modify]

@[simp] theorem find_delete (t : Table α κ key) (p : α → Bool) (k : κ) :
    (t.delete p).find k = (t.find k).filter fun r => !p r := by
  apply Option.ext
  intro r
  simp only [find_eq_some_iff, delete, List.mem_filter, Option.filter_eq_some_iff]
  constructor
  · rintro ⟨⟨hmem, hp⟩, hkey⟩
    exact ⟨⟨hmem, hkey⟩, hp⟩
  · rintro ⟨⟨hmem, hkey⟩, hp⟩
    exact ⟨⟨hmem, hp⟩, hkey⟩

theorem insert_eq_some_iff {t t' : Table α κ key} {r : α} (h : t.insert r = some t') :
    t.find (key r) = none ∧ t'.rows = t.rows ++ [r] := by
  unfold insert at h
  split at h
  · simp at h
  · next hkey =>
      simp only [Option.some.injEq] at h
      subst h
      refine ⟨List.find?_eq_none.mpr ?_, rfl⟩
      intro r' hmem hr'
      have : key r' = key r := by simpa using hr'
      exact hkey (this ▸ List.mem_map_of_mem hmem)

theorem find_insert {t t' : Table α κ key} {r : α} (h : t.insert r = some t') (k : κ) :
    t'.find k = if key r = k then some r else t.find k := by
  obtain ⟨hfresh, hrows⟩ := insert_eq_some_iff h
  unfold find at hfresh ⊢
  rw [hrows, List.find?_append]
  by_cases hk : key r = k
  · subst hk
    simp [hfresh]
  · simp [hk]

/-- A map's insertion: a row with the key already there is replaced. -/
def put (t : Table α κ key) (r : α) : Table α κ key where
  rows := (t.delete fun r' => key r' = key r).rows ++ [r]
  unique := by
    rw [List.map_append]
    refine List.nodup_append.mpr ⟨(t.delete _).unique, by simp, ?_⟩
    intro k hk k' hk' heq
    obtain ⟨r', hr', rfl⟩ := List.mem_map.mp hk
    have hother : key r' ≠ key r := by simpa using (List.mem_filter.mp hr').2
    exact hother (heq.trans (by simpa using hk'))

@[simp] theorem find_put (t : Table α κ key) (r : α) (k : κ) :
    (t.put r).find k = if key r = k then some r else t.find k := by
  apply Option.ext
  intro r'
  simp only [find_eq_some_iff, put, delete, List.mem_append, List.mem_filter, List.mem_singleton]
  by_cases hk : key r = k
  · rw [if_pos hk, Option.some.injEq]
    grind
  · rw [if_neg hk, find_eq_some_iff]
    grind

theorem rows_put_of_absent {t : Table α κ key} {r : α} (h : t.find (key r) = none) :
    (t.put r).rows = t.rows ++ [r] := by
  have hself : t.delete (fun r' => key r' = key r) = t := by
    refine delete_eq_self fun r' hr' => decide_eq_false fun hkey => ?_
    have hfound := mem_rows_iff.mp hr'
    rw [hkey, h] at hfound
    cases hfound
  exact congrArg (fun rest : Table α κ key => rest.rows ++ [r]) hself

/-- Putting new rows one after the other appends them. -/
theorem rows_foldl_put {rows : List α} {t : Table α κ key}
    (habsent : ∀ r ∈ rows, t.find (key r) = none) (hnodup : (rows.map key).Nodup) :
    (rows.foldl put t).rows = t.rows ++ rows := by
  induction rows generalizing t with
  | nil => simp
  | cons r rest ih =>
      obtain ⟨hfresh, hrest⟩ := List.nodup_cons.mp hnodup
      have hlater : ∀ r' ∈ rest, (t.put r).find (key r') = none := by
        intro r' hr'
        have hne : key r ≠ key r' := fun h => hfresh (h ▸ List.mem_map_of_mem hr')
        rw [find_put, if_neg hne]
        exact habsent r' (List.mem_cons_of_mem r hr')
      rw [List.foldl_cons, ih hlater hrest, rows_put_of_absent (habsent r List.mem_cons_self),
        List.append_assoc, List.singleton_append]

end Table
