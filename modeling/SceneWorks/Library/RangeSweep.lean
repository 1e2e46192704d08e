import Mathlib.Data.List.Sort
import Mathlib.Order.Basic

/-!
Half-open ranges that tile a stretch, some of them perhaps empty. Ranges tile it in some order
exactly when they do so sorted by their ends, so one sweep over the sorted ranges decides.
-/

namespace RangeSweep

variable {M : Type*} [LinearOrder M]

def Before (a b : M × M) : Prop := a.1 < b.1 ∨ a.1 = b.1 ∧ a.2 ≤ b.2

instance (a b : M × M) : Decidable (Before a b) :=
  inferInstanceAs (Decidable (_ ∨ _))

/-- Each range starts where the one before it ends. -/
def Tiles : M → List (M × M) → M → Prop
  | start, [], finish => start = finish
  | start, range :: rest, finish => range.1 = start ∧ Tiles range.2 rest finish

/-- The sweep: where the last range ends, if every range starts where the sweep stands. -/
def sweep : M → List (M × M) → Option M
  | next, [] => some next
  | next, range :: rest => if range.1 = next then sweep range.2 rest else none

def Tiled (start : M) (ranges : List (M × M)) (finish : M) : Prop :=
  ∃ order, order.Perm ranges ∧ Tiles start order finish

def Contains (range : M × M) (place : M) : Prop := range.1 ≤ place ∧ place < range.2

variable {ranges order : List (M × M)} {start finish : M}

instance : Std.Total (Before (M := M)) where
  total a b := by
    unfold Before
    rcases lt_trichotomy a.1 b.1 with h | h | h
    · exact .inl (.inl h)
    · exact (le_total a.2 b.2).imp (fun hle => .inr ⟨h, hle⟩) fun hle => .inr ⟨h.symm, hle⟩
    · exact .inr (.inl h)

instance : IsTrans (M × M) Before where
  trans a b c := by
    rintro (hab | ⟨hab, hab'⟩) (hbc | ⟨hbc, hbc'⟩)
    · exact .inl (hab.trans hbc)
    · exact .inl (hbc ▸ hab)
    · exact .inl (hab ▸ hbc)
    · exact .inr ⟨hab.trans hbc, hab'.trans hbc'⟩

instance : Std.Antisymm (Before (M := M)) where
  antisymm a b := by
    rintro (hab | ⟨hab, hab'⟩) (hba | ⟨hba, hba'⟩)
    · exact absurd hab hba.asymm
    · exact absurd hba hab.ne'
    · exact absurd hab hba.ne'
    · exact Prod.ext hab (le_antisymm hab' hba')

theorem sweep_eq_some_iff : sweep start ranges = some finish ↔ Tiles start ranges finish := by
  induction ranges generalizing start with
  | nil => simp [sweep, Tiles]
  | cons range rest ih =>
      rw [sweep, Tiles]
      split
      · next h => rw [ih, iff_true_intro h, true_and]
      · next h => exact iff_of_false (by simp) fun htiles => h htiles.1

theorem Tiles.le (h : Tiles start order finish) (hvalid : ∀ range ∈ order, range.1 ≤ range.2) :
    start ≤ finish := by
  induction order generalizing start with
  | nil => exact le_of_eq h
  | cons range rest ih =>
      obtain ⟨rfl, hrest⟩ := h
      obtain ⟨hrange, hlater⟩ := List.forall_mem_cons.mp hvalid
      exact hrange.trans (ih hrest hlater)

theorem Tiles.bounds (h : Tiles start order finish) (hvalid : ∀ range ∈ order, range.1 ≤ range.2)
    {range : M × M} (hrange : range ∈ order) : start ≤ range.1 ∧ range.2 ≤ finish := by
  induction order generalizing start with
  | nil => cases hrange
  | cons first rest ih =>
      obtain ⟨rfl, hrest⟩ := h
      obtain ⟨hfirst, hlater⟩ := List.forall_mem_cons.mp hvalid
      rcases List.mem_cons.mp hrange with rfl | hrange
      · exact ⟨le_rfl, hrest.le hlater⟩
      · obtain ⟨hstart, hfinish⟩ := ih hrest hlater hrange
        exact ⟨hfirst.trans hstart, hfinish⟩

/-- Ranges that tile a stretch are in order: an empty one stands before what starts there. -/
theorem Tiles.sorted (h : Tiles start order finish) (hvalid : ∀ range ∈ order, range.1 ≤ range.2) :
    order.Pairwise Before := by
  induction order generalizing start with
  | nil => exact .nil
  | cons first rest ih =>
      obtain ⟨rfl, hrest⟩ := h
      obtain ⟨hfirst, hlater⟩ := List.forall_mem_cons.mp hvalid
      refine List.pairwise_cons.mpr ⟨fun range hrange => ?_, ih hrest hlater⟩
      have hstart := (hrest.bounds hlater hrange).1
      rcases (hfirst.trans hstart).lt_or_eq with hlt | heq
      · exact .inl hlt
      · exact .inr ⟨heq, hstart.trans (hlater range hrange)⟩

theorem tiled_iff (hvalid : ∀ range ∈ ranges, range.1 ≤ range.2) :
    Tiled start ranges finish ↔ Tiles start (ranges.insertionSort Before) finish := by
  constructor
  · rintro ⟨order, hperm, htiles⟩
    have hsorted := htiles.sorted fun range hrange => hvalid range (hperm.mem_iff.mp hrange)
    have hsame : order = ranges.insertionSort Before :=
      (hperm.trans (List.perm_insertionSort Before ranges).symm).eq_of_pairwise' hsorted
        (List.pairwise_insertionSort Before ranges)
    rwa [← hsame]
  · intro h
    exact ⟨_, List.perm_insertionSort Before ranges, h⟩

/-- Two ranges of a tiled stretch share no place. -/
theorem Tiles.apart (h : Tiles start order finish) (hvalid : ∀ range ∈ order, range.1 ≤ range.2) :
    order.Pairwise fun a b => ∀ place, ¬ (Contains a place ∧ Contains b place) := by
  induction order generalizing start with
  | nil => exact .nil
  | cons first rest ih =>
      obtain ⟨rfl, hrest⟩ := h
      obtain ⟨-, hlater⟩ := List.forall_mem_cons.mp hvalid
      refine List.pairwise_cons.mpr ⟨fun range hrange place => ?_, ih hrest hlater⟩
      rintro ⟨⟨-, hbelow⟩, hfrom, -⟩
      have hstart := (hrest.bounds hlater hrange).1
      exact absurd (hbelow.trans_le hstart) hfrom.not_gt

/-- Every place of a tiled stretch is in one of the ranges. -/
theorem Tiles.covered (h : Tiles start order finish) {place : M} (hfrom : start ≤ place)
    (hbelow : place < finish) : ∃ range ∈ order, Contains range place := by
  induction order generalizing start with
  | nil =>
      obtain rfl : start = finish := h
      exact absurd hbelow hfrom.not_gt
  | cons first rest ih =>
      obtain ⟨rfl, hrest⟩ := h
      rcases lt_or_ge place first.2 with hin | hafter
      · exact ⟨first, List.mem_cons_self, hfrom, hin⟩
      · obtain ⟨range, hrange, hcontains⟩ := ih hrest hafter
        exact ⟨range, List.mem_cons_of_mem _ hrange, hcontains⟩

theorem Tiled.apart (h : Tiled start ranges finish) (hvalid : ∀ range ∈ ranges, range.1 ≤ range.2) :
    ranges.Pairwise fun a b => ∀ place, ¬ (Contains a place ∧ Contains b place) := by
  obtain ⟨order, hperm, htiles⟩ := h
  have hapart := htiles.apart fun range hrange => hvalid range (hperm.mem_iff.mp hrange)
  exact (hperm.pairwise_iff fun {a b} hab place hboth => hab place hboth.symm).mp hapart

theorem Tiled.covered (h : Tiled start ranges finish) {place : M} (hfrom : start ≤ place)
    (hbelow : place < finish) : ∃ range ∈ ranges, Contains range place := by
  obtain ⟨order, hperm, htiles⟩ := h
  obtain ⟨range, hrange, hcontains⟩ := htiles.covered hfrom hbelow
  exact ⟨range, hperm.mem_iff.mp hrange, hcontains⟩

end RangeSweep
