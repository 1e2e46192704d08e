import Mathlib.Data.List.Pairwise
import Mathlib.Data.List.Sort

/-!
Insertion sort as the stable sort of an `order by` clause: filtering commutes with it,
and it depends on the order only through the elements it compares.
-/

namespace StableSort

variable {α : Type} (r : α → α → Prop) [DecidableRel r]

theorem filter_orderedInsert [IsTrans α r] (p : α → Bool) (a : α) {l : List α}
    (h : l.Pairwise r) :
    (l.orderedInsert r a).filter p =
      if p a then (l.filter p).orderedInsert r a else l.filter p := by
  induction l with
  | nil => cases hp : p a <;> simp [hp]
  | cons b l ih =>
      have hl := h.of_cons
      by_cases hab : r a b
      · rw [List.orderedInsert_cons_of_le _ _ hab, List.filter_cons]
        cases hp : p a with
        | false => simp
        | true =>
            rw [if_pos rfl, if_pos rfl]
            -- Everything after `b` is above `a`, so the insertion stops at the head.
            have hhead : ∀ c ∈ (b :: l).filter p, r a c := by
              intro c hc
              obtain rfl | hc := List.mem_cons.mp (List.mem_of_mem_filter hc)
              · exact hab
              · exact Trans.trans hab (List.rel_of_pairwise_cons h hc)
            cases hrest : (b :: l).filter p with
            | nil => rfl
            | cons c rest =>
                have hac := hhead c (hrest ▸ List.mem_cons_self)
                rw [List.orderedInsert_cons_of_le _ _ hac]
      · rw [List.orderedInsert_of_not_le _ _ hab, List.filter_cons, List.filter_cons, ih hl]
        cases hb : p b with
        | false => rfl
        | true =>
            cases hp : p a with
            | false => rfl
            | true =>
                simp only [if_true]
                rw [List.orderedInsert_of_not_le _ _ hab]

theorem filter_insertionSort [Std.Total r] [IsTrans α r] (p : α → Bool) (l : List α) :
    (l.insertionSort r).filter p = (l.filter p).insertionSort r := by
  induction l with
  | nil => rfl
  | cons a l ih =>
      rw [List.insertionSort_cons, filter_orderedInsert r p a (List.pairwise_insertionSort r l), ih,
        List.filter_cons]
      cases p a <;> rfl

theorem insertionSort_congr {r' : α → α → Prop} [DecidableRel r'] {l : List α}
    (h : ∀ a ∈ l, ∀ b ∈ l, r a b ↔ r' a b) : l.insertionSort r = l.insertionSort r' := by
  have hmap := List.map_insertionSort r r' id l h
  simpa using hmap

/-- Elements the order does not separate stay as they stood: `q` holds of the sorted list
wherever it held of the list and the order is silent. -/
theorem pairwise_insertionSort_stable [Std.Total r] [IsTrans α r] {q : α → α → Prop} {l : List α}
    (h : l.Pairwise q) : (l.insertionSort r).Pairwise fun a b => r a b ∧ (r b a → q a b) := by
  induction l with
  | nil => exact List.Pairwise.nil
  | cons a l ih =>
      obtain ⟨hfirst, hrest⟩ := List.pairwise_cons.mp h
      have hsorted := ih hrest
      have hbefore : ∀ b ∈ l.insertionSort r, q a b := fun b hb =>
        hfirst b ((List.perm_insertionSort r l).mem_iff.mp hb)
      rw [List.insertionSort_cons]
      generalize l.insertionSort r = sorted at hsorted hbefore
      clear ih hrest h hfirst
      induction sorted with
      | nil => exact List.pairwise_singleton _ a
      | cons b rest ih =>
          obtain ⟨hb, hsorted'⟩ := List.pairwise_cons.mp hsorted
          by_cases hab : r a b
          · rw [List.orderedInsert_cons_of_le _ _ hab]
            refine List.pairwise_cons.mpr ⟨fun c hc => ⟨?_, fun _ => hbefore c hc⟩, hsorted⟩
            obtain rfl | hc := List.mem_cons.mp hc
            · exact hab
            · exact Trans.trans hab (hb c hc).1
          · rw [List.orderedInsert_of_not_le _ _ hab]
            refine List.pairwise_cons.mpr ⟨fun c hc => ?_, ih hsorted' fun c hc =>
              hbefore c (List.mem_cons_of_mem b hc)⟩
            obtain rfl | hc := List.mem_cons.mp ((List.perm_orderedInsert r a rest).mem_iff.mp hc)
            · exact ⟨(Std.Total.total c b).resolve_left hab, fun h => (hab h).elim⟩
            · exact hb c hc

omit [DecidableRel r] in
theorem either_of_pairwise {r} {l : List α} {a b : α} (h : l.Pairwise r) (ha : a ∈ l) (hb : b ∈ l)
    (hne : a ≠ b) : r a b ∨ r b a := by
  have : Std.Symm fun a b => r a b ∨ r b a := ⟨fun _ _ => Or.symm⟩
  exact (h.imp fun hab => Or.inl hab : l.Pairwise fun a b => r a b ∨ r b a).forall ha hb hne

/-- A list whose keys all differ has one sorted arrangement. -/
theorem insertionSort_of_strict {κ : Type} [LinearOrder κ] {key : α → κ}
    [DecidableRel fun a b : α => key a ≤ key b] {l sorted : List α} (hperm : l.Perm sorted)
    (h : sorted.Pairwise fun a b => key a < key b) :
    l.insertionSort (fun a b => key a ≤ key b) = sorted := by
  have : Std.Total fun a b : α => key a ≤ key b := ⟨fun a b => le_total (key a) (key b)⟩
  have : IsTrans α fun a b => key a ≤ key b := ⟨fun _ _ _ => le_trans⟩
  refine List.Perm.eq_of_pairwise ?_
    (List.pairwise_insertionSort (fun a b => key a ≤ key b) l) (h.imp le_of_lt)
    ((List.perm_insertionSort _ l).trans hperm)
  intro a b ha hb hab hba
  by_contra hne
  have ha' := hperm.mem_iff.mp ((List.perm_insertionSort _ l).mem_iff.mp ha)
  cases either_of_pairwise h ha' hb hne with
  | inl hlt => exact absurd hba hlt.not_ge
  | inr hlt => exact absurd hab hlt.not_ge

section Classes

variable {κ : Type} [LinearOrder κ] (key : α → κ)

/-- A sorted list is what it holds of each key, in the order of the keys. -/
theorem eq_of_sorted_of_filter {l l' : List α} (h : l.Pairwise fun a b => key a ≤ key b)
    (h' : l'.Pairwise fun a b => key a ≤ key b)
    (hclass : ∀ k, l.filter (key · = k) = l'.filter (key · = k)) : l = l' := by
  induction l generalizing l' with
  | nil =>
      cases l' with
      | nil => rfl
      | cons b l' => simpa using hclass (key b)
  | cons a l ih =>
      cases l' with
      | nil => simpa using hclass (key a)
      | cons b l' =>
          have hle : ∀ {x y : α} {xs ys : List α}, (x :: xs).Pairwise (fun a b => key a ≤ key b) →
              (x :: xs).filter (key · = key y) = (y :: ys).filter (key · = key y) →
              key x ≤ key y := by
            intro x y xs ys hsorted heq
            have hmem : y ∈ (x :: xs).filter (key · = key y) := by rw [heq]; simp
            rcases List.mem_cons.mp (List.mem_of_mem_filter hmem) with rfl | hrest
            · exact le_rfl
            · exact List.rel_of_pairwise_cons hsorted hrest
          have hkey : key a = key b :=
            le_antisymm (hle h (hclass (key b))) (hle h' (hclass (key a)).symm)
          have hhead : a = b := by
            have heq := hclass (key a)
            rw [List.filter_cons_of_pos (by simp), List.filter_cons_of_pos (by simp [hkey])] at heq
            exact (List.cons.inj heq).1
          subst hhead
          congr 1
          refine ih h.of_cons h'.of_cons fun k => ?_
          have heq := hclass k
          by_cases hk : key a = k
          · rw [List.filter_cons_of_pos (by simp [hk])] at heq
            rw [List.filter_cons_of_pos (by simp [hk])] at heq
            exact (List.cons.inj heq).2
          · rw [List.filter_cons_of_neg (by simp [hk])] at heq
            rwa [List.filter_cons_of_neg (by simp [hk])] at heq

theorem filter_key_insertionSort (k : κ) (l : List α) :
    (l.insertionSort fun a b => key a ≤ key b).filter (key · = k) = l.filter (key · = k) := by
  have : Std.Total fun a b : α => key a ≤ key b := ⟨fun a b => le_total (key a) (key b)⟩
  have : IsTrans α fun a b => key a ≤ key b := ⟨fun _ _ _ => le_trans⟩
  rw [filter_insertionSort]
  refine List.Pairwise.insertionSort_eq (List.pairwise_of_forall_mem_list fun a ha b hb => ?_)
  have hleft : key a = k := by simpa using List.of_mem_filter ha
  have hright : key b = k := by simpa using List.of_mem_filter hb
  exact (hleft.trans hright.symm).le

/-- The order of a list matters to a sort only within a key. -/
theorem insertionSort_eq_of_filter {l l' : List α}
    (hclass : ∀ k, l.filter (key · = k) = l'.filter (key · = k)) :
    (l.insertionSort fun a b => key a ≤ key b) = l'.insertionSort fun a b => key a ≤ key b := by
  have : Std.Total fun a b : α => key a ≤ key b := ⟨fun a b => le_total (key a) (key b)⟩
  have : IsTrans α fun a b => key a ≤ key b := ⟨fun _ _ _ => le_trans⟩
  refine eq_of_sorted_of_filter key (List.pairwise_insertionSort _ l)
    (List.pairwise_insertionSort _ l') fun k => ?_
  rw [filter_key_insertionSort, filter_key_insertionSort, hclass]

theorem insertionSort_eq_of_perm {l l' : List α} (hperm : l.Perm l')
    (hkeys : l.Pairwise fun a b => key a ≠ key b) :
    (l.insertionSort fun a b => key a ≤ key b) = l'.insertionSort fun a b => key a ≤ key b := by
  refine insertionSort_eq_of_filter key fun k => ?_
  have hshort : (l.filter (key · = k)).Pairwise fun _ _ => False := by
    refine (hkeys.filter fun a => key a = k).imp_of_mem fun {a b} ha hb hne => hne ?_
    have hleft : key a = k := by simpa using List.of_mem_filter ha
    have hright : key b = k := by simpa using List.of_mem_filter hb
    exact hleft.trans hright.symm
  have hfilter : (l.filter (key · = k)).Perm (l'.filter (key · = k)) := hperm.filter _
  refine hfilter.eq_of_pairwise ?_ hshort (hfilter.pairwise hshort fun h => h)
  exact fun a b _ _ h => h.elim

end Classes

end StableSort
