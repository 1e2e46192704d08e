import Mathlib.Data.List.Basic
import Mathlib.Order.Basic

/-!
Stretches that cover a range from its first place to its last, each one starting where the
one before it ends.
-/

namespace Covering

variable {α M : Type} (start finish : α → M)

def Covers [LT M] : M → List α → M → Prop
  | a, [], c => a = c
  | a, x :: xs, c => start x = a ∧ start x < finish x ∧ Covers (finish x) xs c

variable {start finish} {a c : M} {xs ys : List α}

theorem covers_append [LT M] :
    Covers start finish a (xs ++ ys) c ↔
      ∃ b, Covers start finish a xs b ∧ Covers start finish b ys c := by
  induction xs generalizing a with
  | nil =>
      constructor
      · intro h
        exact ⟨a, rfl, h⟩
      · rintro ⟨b, rfl, h⟩
        exact h
  | cons x xs ih =>
      constructor
      · rintro ⟨hstart, hlt, hrest⟩
        obtain ⟨b, hxs, hys⟩ := ih.mp hrest
        exact ⟨b, ⟨hstart, hlt, hxs⟩, hys⟩
      · rintro ⟨b, ⟨hstart, hlt, hxs⟩, hys⟩
        exact ⟨hstart, hlt, ih.mpr ⟨b, hxs, hys⟩⟩

theorem covers_concat [LT M] {x : α} :
    Covers start finish a (xs ++ [x]) c ↔
      Covers start finish a xs (start x) ∧ start x < finish x ∧ finish x = c := by
  rw [covers_append]
  constructor
  · rintro ⟨b, hxs, rfl, hlt, hfinish⟩
    exact ⟨hxs, hlt, hfinish⟩
  · rintro ⟨hxs, hlt, hfinish⟩
    exact ⟨start x, hxs, rfl, hlt, hfinish⟩

theorem Covers.le [Preorder M] (h : Covers start finish a xs c) : a ≤ c := by
  induction xs generalizing a with
  | nil => exact le_of_eq h
  | cons x xs ih =>
      obtain ⟨rfl, hlt, hrest⟩ := h
      exact hlt.le.trans (ih hrest)

theorem Covers.lt [Preorder M] (h : Covers start finish a xs c) (hne : xs ≠ []) : a < c := by
  cases xs with
  | nil => exact absurd rfl hne
  | cons x xs =>
      obtain ⟨rfl, hlt, hrest⟩ := h
      exact hlt.trans_le hrest.le

/-- A stretch lies within the range. -/
theorem Covers.bounds [Preorder M] (h : Covers start finish a xs c) {x : α} (hx : x ∈ xs) :
    a ≤ start x ∧ finish x ≤ c := by
  induction xs generalizing a with
  | nil => cases hx
  | cons y ys ih =>
      obtain ⟨rfl, hlt, hrest⟩ := h
      cases List.mem_cons.mp hx with
      | inl heq =>
          subst heq
          exact ⟨le_rfl, hrest.le⟩
      | inr hmem =>
          obtain ⟨hlow, hhigh⟩ := ih hrest hmem
          exact ⟨hlt.le.trans hlow, hhigh⟩

/-- The stretches start one after the other. -/
theorem Covers.pairwise_start [Preorder M] (h : Covers start finish a xs c) :
    xs.Pairwise fun x y => start x < start y := by
  induction xs generalizing a with
  | nil => exact List.Pairwise.nil
  | cons x xs ih =>
      obtain ⟨rfl, hlt, hrest⟩ := h
      exact List.pairwise_cons.mpr ⟨fun y hy => hlt.trans_le (hrest.bounds hy).1, ih hrest⟩

theorem Covers.finish_getLast [LT M] (h : Covers start finish a xs c) :
    (xs.getLast?.map finish).getD a = c := by
  cases hlast : xs.getLast? with
  | none =>
      obtain rfl := List.getLast?_eq_none_iff.mp hlast
      exact h
  | some x =>
      obtain ⟨front, rfl⟩ := List.getLast?_eq_some_iff.mp hlast
      exact (covers_concat.mp h).2.2

end Covering
