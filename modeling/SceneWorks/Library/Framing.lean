import Mathlib.Data.List.Basic

/-!
Self-delimiting frames. A framer reads from the front of a string how long the frame
there is, and looks no further than that frame; so a string splits in one way into
frames and a remainder with no frame at its front, and any selection of the frames
followed by the same remainder splits into exactly that selection.
-/

structure Framer (α : Type) where
  /-- The length of the frame at the front, when a whole one is there. -/
  size : List α → Option Nat
  pos : ∀ {xs : List α} {n : Nat}, size xs = some n → 0 < n
  le : ∀ {xs : List α} {n : Nat}, size xs = some n → n ≤ xs.length
  front : ∀ {xs : List α} {n : Nat} (ys : List α), size xs = some n →
    size (xs.take n ++ ys) = some n

namespace Framer

variable {α : Type} (F : Framer α)

def IsFrame (f : List α) : Prop := F.size f = some f.length

/-- The frames at the front of a string, and what is left after the last of them. -/
def frames (xs : List α) : List (List α) × List α :=
  match _h : F.size xs with
  | none => ([], xs)
  | some n =>
      let (fs, rest) := frames (xs.drop n)
      (xs.take n :: fs, rest)
termination_by xs.length
decreasing_by
  have hpos := F.pos _h
  have hle := F.le _h
  rw [List.length_drop]
  omega

variable {F} {xs : List α} {n : Nat}

theorem frames_of_none (h : F.size xs = none) : F.frames xs = ([], xs) := by
  rw [frames]
  split
  · rfl
  · next n hn => rw [h] at hn; cases hn

theorem frames_of_some (h : F.size xs = some n) :
    F.frames xs = (xs.take n :: (F.frames (xs.drop n)).1, (F.frames (xs.drop n)).2) := by
  rw [frames]
  split
  · next hn => rw [h] at hn; cases hn
  · next m hm =>
      rw [h] at hm
      cases hm
      rfl

theorem isFrame_take (h : F.size xs = some n) : F.IsFrame (xs.take n) := by
  have hfront := F.front [] h
  rw [List.append_nil] at hfront
  rw [IsFrame, hfront, List.length_take, Nat.min_eq_left (F.le h)]

theorem IsFrame.size_append {f : List α} (hf : F.IsFrame f) (ys : List α) :
    F.size (f ++ ys) = some f.length := by
  have hfront := F.front ys hf
  rwa [List.take_length] at hfront

variable (F)

/-- A string read as whole frames followed by a remainder that starts with none. -/
structure Splits (xs : List α) (fs : List (List α)) (rest : List α) : Prop where
  join : fs.flatten ++ rest = xs
  whole : ∀ f ∈ fs, F.IsFrame f
  stuck : F.size rest = none

variable {F} {fs : List (List α)} {rest : List α}

/-- Along the frames of a string: nothing at its front, or one whole frame and then
the frames of what follows. -/
theorem frames_induction {motive : List α → Prop} (none : ∀ xs, F.size xs = none → motive xs)
    (some : ∀ xs n, F.size xs = some n → motive (xs.drop n) → motive xs) (xs : List α) :
    motive xs := by
  induction hlen : xs.length using Nat.strongRecOn generalizing xs with
  | ind len ih =>
      cases hsize : F.size xs with
      | none => exact none xs hsize
      | some n =>
          have hpos := F.pos hsize
          have hle := F.le hsize
          refine some xs n hsize (ih (xs.drop n).length ?_ (xs.drop n) rfl)
          rw [List.length_drop]
          omega

theorem splits_frames (xs : List α) : F.Splits xs (F.frames xs).1 (F.frames xs).2 := by
  induction xs using F.frames_induction with
  | none xs h =>
      rw [frames_of_none h]
      exact ⟨rfl, fun f hf => absurd hf List.not_mem_nil, h⟩
  | some xs n h ih =>
      rw [frames_of_some h]
      refine ⟨?_, ?_, ih.stuck⟩
      · rw [List.flatten_cons, List.append_assoc, ih.join, List.take_append_drop]
      · intro f hf
        cases hf with
        | head => exact isFrame_take h
        | tail _ hf => exact ih.whole f hf

/-- The reading is unique. -/
theorem Splits.frames_eq (h : F.Splits xs fs rest) : F.frames xs = (fs, rest) := by
  induction fs generalizing xs with
  | nil =>
      have hrest : rest = xs := h.join
      subst hrest
      exact frames_of_none h.stuck
  | cons f fs ih =>
      have hxs : xs = f ++ (fs.flatten ++ rest) := by
        rw [← h.join, List.flatten_cons, List.append_assoc]
      have hf := h.whole f List.mem_cons_self
      have htail : F.Splits (fs.flatten ++ rest) fs rest :=
        ⟨rfl, fun g hg => h.whole g (List.mem_cons_of_mem f hg), h.stuck⟩
      have hsize : F.size xs = some f.length := by rw [hxs, hf.size_append]
      rw [frames_of_some hsize, hxs, List.take_left, List.drop_left, ih htail]

/-- A selection of the frames is read back as that selection. -/
theorem Splits.filter (h : F.Splits xs fs rest) (keep : List α → Bool) :
    F.Splits ((fs.filter keep).flatten ++ rest) (fs.filter keep) rest :=
  ⟨rfl, fun f hf => h.whole f (List.mem_of_mem_filter hf), h.stuck⟩

theorem Splits.cons {f : List α} (hf : F.IsFrame f) (h : F.Splits xs fs rest) :
    F.Splits (f ++ xs) (f :: fs) rest := by
  refine ⟨?_, ?_, h.stuck⟩
  · rw [List.flatten_cons, List.append_assoc, h.join]
  · intro g hg
    cases hg with
    | head => exact hf
    | tail _ hg => exact h.whole g hg

end Framer
