import Mathlib.Data.List.Pairwise
import Mathlib.Data.List.Perm.Basic

/-!
Charges against a budget, and a loop that charges for its elements. A charge that does not fit stops
the loop. Where any two charges may change places, a list of them may be read in any order.
-/

namespace Ledger

variable {B ι : Type} {spend : B → ι → Option B}

/-- Two charges come to the same in either order, and are refused in either order. -/
def Commutes (spend : B → ι → Option B) : Prop :=
  ∀ b x y, (spend b x).bind (spend · y) = (spend b y).bind (spend · x)

theorem foldlM_perm (h : Commutes spend) {items others : List ι} (hperm : items.Perm others)
    (b : B) : items.foldlM spend b = others.foldlM spend b := by
  induction hperm generalizing b with
  | nil => rfl
  | cons x _ ih =>
      rw [List.foldlM_cons, List.foldlM_cons]
      congr 1
      funext b'
      exact ih b'
  | swap x y items =>
      simp only [List.foldlM_cons, Option.bind_eq_bind]
      rw [← Option.bind_assoc, ← Option.bind_assoc, h b y x]
  | trans _ _ ih ih' => rw [ih, ih']

section Readings

variable {α β : Type}

/-- What an element comes to by itself: what it adds, and what it is charged for. A lenient one does
not ask what is there before. -/
structure Reading (β ι : Type) where
  adds : List β
  work : List ι
  lenient : Bool

variable (read : α → Option (Reading β ι)) (clash : β → β → Prop)

def adds (a : α) : List β := ((read a).map Reading.adds).getD []

def work (a : α) : List ι := ((read a).map Reading.work).getD []

def lenient (a : α) : Bool := ((read a).map Reading.lenient).getD false

/-- Nothing of one clashes with something of the other. -/
def Apart (a b : α) : Prop := ∀ x ∈ adds read a, ∀ y ∈ adds read b, ¬ clash x y

/-- What a loop goes through: elements that are read, that fit the budget, and of which none that
asks clashes with one before. -/
structure Accepted (spend : B → ι → Option B) (read : α → Option (Reading β ι))
    (clash : β → β → Prop) (b b' : B) (items : List α) : Prop where
  reads : ∀ a ∈ items, (read a).isSome = true
  spent : (items.flatMap (work read)).foldlM spend b = some b'
  apart : items.Pairwise fun a c => lenient read c = true ∨ Apart read clash a c

variable {read clash} {step : List β × B → α → Option (List β × B)} {items others : List α}
  {b b' : B}

/-- A loop whose steps read, charge and compare accepts what each of its parts accepts. -/
theorem foldlM_eq_some
    (hstep : ∀ state a next, step state a = some next ↔ ∃ r, read a = some r ∧
      (r.lenient = true ∨ ∀ x ∈ state.1, ∀ y ∈ r.adds, ¬ clash x y) ∧
      next.1 = state.1 ++ r.adds ∧ r.work.foldlM spend state.2 = some next.2)
    (state next : List β × B) :
    items.foldlM step state = some next ↔ Accepted spend read clash state.2 next.2 items ∧
      (∀ a ∈ items, lenient read a = true ∨ ∀ x ∈ state.1, ∀ y ∈ adds read a, ¬ clash x y) ∧
      next.1 = state.1 ++ items.flatMap (adds read) := by
  induction items generalizing state with
  | nil =>
      simp only [List.foldlM_nil, pure, Option.some.injEq, List.flatMap_nil, List.append_nil]
      constructor
      · rintro rfl
        exact ⟨⟨nofun, rfl, .nil⟩, nofun, rfl⟩
      · rintro ⟨haccepted, -, hnext⟩
        exact Prod.ext hnext.symm (Option.some.inj haccepted.spent)
  | cons a items ih =>
      rw [List.foldlM_cons, Option.bind_eq_bind, Option.bind_eq_some_iff]
      constructor
      · rintro ⟨middle, hmiddle, hrest⟩
        obtain ⟨r, hr, hclear, hadds, hwork⟩ := (hstep state a middle).mp hmiddle
        obtain ⟨⟨hreads, hspent, hapart⟩, hclears, hnext⟩ := (ih middle).mp hrest
        have ha : adds read a = r.adds := by rw [adds, hr]; rfl
        have hlenient : lenient read a = r.lenient := by rw [lenient, hr]; rfl
        have hw : work read a = r.work := by rw [work, hr]; rfl
        rw [hadds] at hclears hnext
        refine ⟨⟨?_, ?_, ?_⟩, ?_, ?_⟩
        · intro c hc
          rcases List.mem_cons.mp hc with rfl | hc
          · rw [hr]
            rfl
          · exact hreads c hc
        · rw [List.flatMap_cons, List.foldlM_append, hw, hwork]
          exact hspent
        · refine List.pairwise_cons.mpr ⟨?_, hapart⟩
          intro c hc
          refine (hclears c hc).imp_right fun hfree x hx y hy => ?_
          rw [ha] at hx
          exact hfree x (List.mem_append_right _ hx) y hy
        · intro c hc
          rcases List.mem_cons.mp hc with rfl | hc
          · rw [hlenient, ha]
            exact hclear
          · refine (hclears c hc).imp_right fun hfree x hx y hy => ?_
            exact hfree x (List.mem_append_left _ hx) y hy
        · rw [hnext, List.flatMap_cons, ha, List.append_assoc]
      · rintro ⟨⟨hreads, hspent, hapart⟩, hclears, hnext⟩
        obtain ⟨r, hr⟩ := Option.isSome_iff_exists.mp (hreads a List.mem_cons_self)
        have ha : adds read a = r.adds := by rw [adds, hr]; rfl
        have hlenient : lenient read a = r.lenient := by rw [lenient, hr]; rfl
        have hw : work read a = r.work := by rw [work, hr]; rfl
        rw [List.flatMap_cons, List.foldlM_append, hw, Option.bind_eq_bind,
          Option.bind_eq_some_iff] at hspent
        obtain ⟨between, hwork, hlater⟩ := hspent
        refine ⟨(state.1 ++ r.adds, between), (hstep state a _).mpr ⟨r, hr, ?_, rfl, hwork⟩, ?_⟩
        · have hclear := hclears a List.mem_cons_self
          rwa [hlenient, ha] at hclear
        · refine (ih _).mpr ⟨⟨fun c hc => hreads c (List.mem_cons_of_mem _ hc), hlater,
            hapart.of_cons⟩, ?_, ?_⟩
          · intro c hc
            refine (hclears c (List.mem_cons_of_mem _ hc)).elim .inl fun hfree => ?_
            refine (List.rel_of_pairwise_cons hapart hc).imp_right fun happart x hx y hy => ?_
            rcases List.mem_append.mp hx with hx | hx
            · exact hfree x hx y hy
            · exact happart x (by rwa [ha]) y hy
          · rw [hnext, List.flatMap_cons, ha, List.append_assoc]

/-- What of being accepted does not depend on the order: no two that ask clash. -/
structure Acceptable (spend : B → ι → Option B) (read : α → Option (Reading β ι))
    (clash : β → β → Prop) (b b' : B) (items : List α) : Prop where
  reads : ∀ a ∈ items, (read a).isSome = true
  spent : (items.flatMap (work read)).foldlM spend b = some b'
  apart : items.Pairwise fun a c =>
    lenient read a = true ∨ lenient read c = true ∨ Apart read clash a c

theorem Acceptable.perm (hspend : Commutes spend) (hclash : ∀ x y, clash x y → clash y x)
    (hperm : items.Perm others) (h : Acceptable spend read clash b b' items) :
    Acceptable spend read clash b b' others where
  reads := fun a ha => h.reads a (hperm.mem_iff.mpr ha)
  spent := by
    rw [← foldlM_perm hspend (hperm.flatMap_right (work read))]
    exact h.spent
  apart := by
    refine hperm.pairwise h.apart ?_
    rintro a c (ha | hc | hapart)
    · exact .inr (.inl ha)
    · exact .inl hc
    · exact .inr (.inr fun x hx y hy hxy => hapart y hy x hx (hclash x y hxy))

/-- What depends on it is that one that asks comes after a lenient one it clashes with. -/
theorem accepted_iff :
    Accepted spend read clash b b' items ↔ Acceptable spend read clash b b' items ∧
      items.Pairwise fun a c =>
        ¬ (lenient read a = true ∧ lenient read c = false ∧ ¬ Apart read clash a c) := by
  have hsplit : ∀ a c : α, (lenient read c = true ∨ Apart read clash a c) ↔
      (lenient read a = true ∨ lenient read c = true ∨ Apart read clash a c) ∧
        ¬ (lenient read a = true ∧ lenient read c = false ∧ ¬ Apart read clash a c) := by
    intro a c
    cases lenient read a <;> cases lenient read c <;> simp
  constructor
  · rintro ⟨hreads, hspent, hapart⟩
    exact ⟨⟨hreads, hspent, hapart.imp fun h => ((hsplit _ _).mp h).1⟩,
      hapart.imp fun h => ((hsplit _ _).mp h).2⟩
  · rintro ⟨⟨hreads, hspent, hapart⟩, hafter⟩
    exact ⟨hreads, hspent, (hapart.and hafter).imp fun h => (hsplit _ _).mpr h⟩

end Readings

section Before

variable {α : Type} {x y : α} {l : List α}

theorem not_both_orders (hnodup : l.Nodup) (hxy : [x, y].Sublist l) : ¬ [y, x].Sublist l := by
  induction l with
  | nil => cases hxy
  | cons z l ih =>
      obtain ⟨hz, hnodup⟩ := List.nodup_cons.mp hnodup
      intro hyx
      rcases List.sublist_cons_iff.mp hxy with hlater | ⟨r, hr, hr'⟩
      · rcases List.sublist_cons_iff.mp hyx with hlater' | ⟨r, hr, hr'⟩
        · exact ih hnodup hlater hlater'
        · obtain ⟨rfl, rfl⟩ := List.cons.inj hr
          exact hz (hlater.subset (List.mem_cons_of_mem _ List.mem_cons_self))
      · obtain ⟨rfl, rfl⟩ := List.cons.inj hr
        rcases List.sublist_cons_iff.mp hyx with hlater' | ⟨r, hr, -⟩
        · exact hz (hlater'.subset (List.mem_cons_of_mem _ List.mem_cons_self))
        · obtain ⟨rfl, -⟩ := List.cons.inj hr
          exact hz (hr'.subset List.mem_cons_self)

theorem one_order (hx : x ∈ l) (hy : y ∈ l) (hne : x ≠ y) :
    [x, y].Sublist l ∨ [y, x].Sublist l := by
  induction l with
  | nil => cases hx
  | cons z l ih =>
      rcases List.mem_cons.mp hx with rfl | hlater
      · have hlater := (List.mem_cons.mp hy).resolve_left hne.symm
        exact .inl ((List.singleton_sublist.mpr hlater).cons_cons x)
      · rcases List.mem_cons.mp hy with rfl | hlater'
        · exact .inr ((List.singleton_sublist.mpr hlater).cons_cons y)
        · exact (ih hlater hlater').imp (List.Sublist.cons z) (List.Sublist.cons z)

end Before

end Ledger
