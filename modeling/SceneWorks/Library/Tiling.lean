import Mathlib.Algebra.Order.Field.Rat
import Mathlib.Algebra.BigOperators.Group.List.Basic
import Mathlib.Algebra.Order.BigOperators.Group.List
import Mathlib.Data.List.TakeWhile
import Mathlib.Tactic.Linarith
import Mathlib.Tactic.Ring

/-!
Pieces laid end to end: every piece starts where the one before it ends. Inserting a piece
moves what follows it by its length and nothing else.
-/

namespace Tiling

variable {α : Type} (length : α → ℚ)

def total (pieces : List α) : ℚ := (pieces.map length).sum

/-- Each piece with the place it starts at. -/
def starts : ℚ → List α → List (α × ℚ)
  | _, [] => []
  | start, piece :: pieces => (piece, start) :: starts (start + length piece) pieces

/-- Where a piece of a list without repetitions starts. -/
def place [DecidableEq α] (pieces : List α) (piece : α) : ℚ :=
  total length (pieces.takeWhile (· ≠ piece))

variable {length} {pieces : List α} {start : ℚ}

theorem total_append (xs ys : List α) :
    total length (xs ++ ys) = total length xs + total length ys := by
  rw [total, List.map_append, List.sum_append]
  rfl

theorem total_cons (x : α) (xs : List α) : total length (x :: xs) = length x + total length xs :=
  List.sum_cons ..

theorem total_nonneg (h : ∀ x ∈ pieces, 0 < length x) : 0 ≤ total length pieces := by
  refine List.sum_nonneg fun y hy => ?_
  obtain ⟨x, hx, rfl⟩ := List.mem_map.mp hy
  exact (h x hx).le

theorem starts_append (start : ℚ) (xs ys : List α) :
    starts length start (xs ++ ys) =
      starts length start xs ++ starts length (start + total length xs) ys := by
  induction xs generalizing start with
  | nil => simp [starts, total]
  | cons x xs ih =>
      rw [List.cons_append, starts, ih, starts, total_cons, List.cons_append, add_assoc]

theorem starts_shift (start d : ℚ) (xs : List α) :
    starts length (start + d) xs = (starts length start xs).map fun p => (p.1, p.2 + d) := by
  induction xs generalizing start with
  | nil => rfl
  | cons x xs ih =>
      rw [starts, starts, List.map_cons, ← ih]
      congr 2
      ring

theorem map_fst_starts (start : ℚ) (xs : List α) : (starts length start xs).map Prod.fst = xs := by
  induction xs generalizing start with
  | nil => rfl
  | cons x xs ih => rw [starts, List.map_cons, ih]

theorem mem_of_mem_starts {x : α} {t : ℚ} (h : (x, t) ∈ starts length start pieces) :
    x ∈ pieces := by
  have hmem := List.mem_map_of_mem (f := Prod.fst) h
  rwa [map_fst_starts] at hmem

/-- A piece lies between the two ends of the whole. -/
theorem bounds_of_mem_starts (hpos : ∀ x ∈ pieces, 0 < length x) {x : α} {t : ℚ}
    (h : (x, t) ∈ starts length start pieces) :
    start ≤ t ∧ t + length x ≤ start + total length pieces := by
  induction pieces generalizing start with
  | nil => cases h
  | cons y ys ih =>
      have hrest := fun z hz => hpos z (List.mem_cons_of_mem y hz)
      have hy := hpos y List.mem_cons_self
      have htail := total_nonneg hrest
      rw [total_cons]
      cases List.mem_cons.mp h with
      | inl heq =>
          obtain ⟨rfl, rfl⟩ := Prod.mk.inj heq
          constructor <;> linarith
      | inr hmem =>
          obtain ⟨hlow, hhigh⟩ := ih hrest hmem
          constructor <;> linarith

theorem starts_increasing (hpos : ∀ x ∈ pieces, 0 < length x) :
    (starts length start pieces).Pairwise fun a b => a.2 < b.2 := by
  induction pieces generalizing start with
  | nil => exact List.Pairwise.nil
  | cons y ys ih =>
      have hrest := fun z hz => hpos z (List.mem_cons_of_mem y hz)
      refine List.pairwise_cons.mpr ⟨?_, ih hrest⟩
      rintro ⟨x, t⟩ hmem
      have hlow := (bounds_of_mem_starts hrest hmem).1
      have hy := hpos y List.mem_cons_self
      change start < t
      linarith

theorem foldl_max_ends (start : ℚ) (hpos : ∀ x ∈ pieces, 0 < length x) :
    ((starts length start pieces).map fun p => p.2 + length p.1).foldl max start =
      start + total length pieces := by
  induction pieces generalizing start with
  | nil => simp [starts, total]
  | cons y ys ih =>
      have hy := hpos y List.mem_cons_self
      rw [starts, List.map_cons, List.foldl_cons, max_eq_right (by linarith),
        ih _ fun z hz => hpos z (List.mem_cons_of_mem y hz), total_cons, add_assoc]

theorem foldl_min_eq {x : ℚ} {xs : List ℚ} (h : ∀ y ∈ xs, x ≤ y) : xs.foldl min x = x := by
  induction xs with
  | nil => rfl
  | cons y ys ih =>
      rw [List.foldl_cons, min_eq_left (h y List.mem_cons_self)]
      exact ih fun z hz => h z (List.mem_cons_of_mem y hz)

/-- Inserting a piece shifts what follows it. -/
theorem starts_insert (start : ℚ) (xs : List α) (x : α) (ys : List α) :
    starts length start (xs ++ x :: ys) = starts length start xs ++ (x, start + total length xs) ::
      (starts length (start + total length xs) ys).map fun p => (p.1, p.2 + length x) := by
  rw [starts_append, starts, starts_shift]

section Place

variable [DecidableEq α]

theorem place_append_of_mem {x : α} {xs : List α} (h : x ∈ xs) (ys : List α) :
    place length (xs ++ ys) x = place length xs x := by
  have hstop : xs.takeWhile (· ≠ x) ≠ xs := fun heq => by
    have hall := List.takeWhile_eq_self_iff.mp heq x h
    simp at hall
  rw [place, List.takeWhile_append, if_neg, place]
  intro hlength
  exact hstop ((List.takeWhile_prefix _).eq_of_length hlength)

theorem place_append_of_not_mem {x : α} {xs : List α} (h : x ∉ xs) (ys : List α) :
    place length (xs ++ ys) x = total length xs + place length ys x := by
  have hall : xs.takeWhile (· ≠ x) = xs := by
    rw [List.takeWhile_eq_self_iff]
    intro y hy
    exact decide_eq_true fun heq => h (heq ▸ hy)
  rw [place, List.takeWhile_append, if_pos (by rw [hall]), total_append, place]

theorem place_cons_self (x : α) (xs : List α) : place length (x :: xs) x = 0 := by
  rw [place, List.takeWhile_cons_of_neg (by simp)]
  rfl

theorem place_cons_of_ne {x y : α} (h : y ≠ x) (ys : List α) :
    place length (y :: ys) x = length y + place length ys x := by
  rw [place, List.takeWhile_cons_of_pos (by simpa using h), total_cons, place]

/-- The piece at a start is where its place is. -/
theorem eq_place_of_mem_starts (hnodup : pieces.Nodup) {x : α} {t : ℚ}
    (h : (x, t) ∈ starts length start pieces) : t = start + place length pieces x := by
  induction pieces generalizing start with
  | nil => cases h
  | cons y ys ih =>
      obtain ⟨hy, hrest⟩ := List.nodup_cons.mp hnodup
      cases List.mem_cons.mp h with
      | inl heq =>
          obtain ⟨rfl, rfl⟩ := Prod.mk.inj heq
          rw [place_cons_self, add_zero]
      | inr hmem =>
          have hne : y ≠ x := fun heq => hy (heq ▸ mem_of_mem_starts hmem)
          rw [ih hrest hmem, place_cons_of_ne hne, add_assoc]

theorem mem_starts_of_mem (hnodup : pieces.Nodup) {x : α} (h : x ∈ pieces) :
    (x, start + place length pieces x) ∈ starts length start pieces := by
  have hfst : x ∈ (starts length start pieces).map Prod.fst := by rwa [map_fst_starts]
  obtain ⟨⟨y, t⟩, hmem, rfl⟩ := List.mem_map.mp hfst
  have ht := eq_place_of_mem_starts hnodup hmem
  rwa [ht] at hmem

end Place

end Tiling
