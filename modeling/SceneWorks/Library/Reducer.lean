import Mathlib.Data.List.Basic

/-!
Partial reducers. A reducer drops a value or gives it back in the form it keeps; it settles
when a form it has given is given back unchanged. Reducing a field, or the members of a
collection one by one, with a reducer that settles changes nothing the second time.
-/

namespace Reducer

variable {α β : Type}

def Settles (f : α → Option α) : Prop :=
  ∀ v w, f v = some w → f w = some w

/-- A value that is kept as it is or dropped. -/
theorem settles_filter (p : α → Bool) : Settles fun v => if p v then some v else none := by
  intro v w h
  by_cases hv : p v = true
  · obtain rfl := Option.some.inj ((if_pos hv).symm.trans h)
    exact if_pos hv
  · cases (if_neg hv).symm.trans h

theorem Settles.bind_bind {f : α → Option α} (h : Settles f) (v : Option α) :
    (v.bind f).bind f = v.bind f := by
  cases v with
  | none => rfl
  | some v =>
      rw [Option.bind_some]
      cases hv : f v with
      | none => rfl
      | some w => exact h v w hv

theorem filter_filter (p : α → Bool) (v : Option α) : (v.filter p).filter p = v.filter p := by
  cases v with
  | none => rfl
  | some v =>
      by_cases hv : p v = true
      · simp [Option.filter, hv]
      · simp [Option.filter, hv]

theorem Settles.filterMap_eq {f : α → Option α} (h : Settles f) {l : List α}
    (hl : ∀ w ∈ l, ∃ v, f v = some w) : l.filterMap f = l := by
  induction l with
  | nil => rfl
  | cons w l ih =>
      obtain ⟨v, hv⟩ := hl w List.mem_cons_self
      rw [List.filterMap_cons_some (h v w hv), ih fun u hu => hl u (List.mem_cons_of_mem _ hu)]

theorem Settles.filterMap_filterMap {f : α → Option α} (h : Settles f) (l : List α) :
    (l.filterMap f).filterMap f = l.filterMap f := by
  refine h.filterMap_eq fun w hw => ?_
  obtain ⟨v, -, hv⟩ := List.mem_filterMap.mp hw
  exact ⟨v, hv⟩

/-- Reducing changes nothing exactly when every member gives itself back. -/
theorem filterMap_eq_self_iff {f : α → Option α} {l : List α}
    (h : ∀ w ∈ l, ∀ u, f w = some u → u = w) :
    l.filterMap f = l ↔ ∀ w ∈ l, f w = some w := by
  constructor
  · intro heq
    induction l with
    | nil => exact nofun
    | cons w l ih =>
        have hrest : ∀ u ∈ l, ∀ v, f u = some v → v = u :=
          fun u hu => h u (List.mem_cons_of_mem _ hu)
        cases hw : f w with
        | none =>
            rw [List.filterMap_cons_none hw] at heq
            have hlength := congrArg List.length heq
            have hle := List.length_filterMap_le f l
            rw [List.length_cons] at hlength
            omega
        | some u =>
            obtain rfl := h w List.mem_cons_self u hw
            rw [List.filterMap_cons_some hw] at heq
            exact List.forall_mem_cons.mpr ⟨hw, ih hrest (List.cons.inj heq).2⟩
  · intro hall
    induction l with
    | nil => rfl
    | cons w l ih =>
        obtain ⟨hw, hrest⟩ := List.forall_mem_cons.mp hall
        rw [List.filterMap_cons_some hw, ih (fun u hu => h u (List.mem_cons_of_mem _ hu)) hrest]

end Reducer
