import Mathlib.Data.List.DropRight
import Mathlib.Data.List.Nodup
import Mathlib.Data.List.Lemmas

/-!
The last `n` elements of a list, and the lists that keep the last `n` of every lane.
A cut of each lane followed by a cut of the whole is the cut of the whole, for whatever
way the lanes interleave.
-/

namespace Window

variable {α ι : Type}

section Last

/-- A ring that is one too full loses its front until it fits. -/
def evict (capacity : Nat) : List α → List α
  | [] => []
  | x :: xs => if capacity < (x :: xs).length then evict capacity xs else x :: xs

theorem evict_eq_rtake (capacity : Nat) (l : List α) : evict capacity l = l.rtake capacity := by
  induction l with
  | nil => exact (List.rtake_nil capacity).symm
  | cons x l ih =>
      by_cases hfull : capacity < (x :: l).length
      · have hskip : (x :: l).length - capacity = l.length - capacity + 1 := by
          rw [List.length_cons] at hfull ⊢
          omega
        rw [evict, if_pos hfull, ih, List.rtake, List.rtake, hskip, List.drop_succ_cons]
      · have hnone : (x :: l).length - capacity = 0 := by omega
        rw [evict, if_neg hfull, List.rtake, hnone, List.drop_zero]

theorem rtake_rtake_append (n : Nat) (xs ys : List α) :
    (xs.rtake n ++ ys).rtake n = (xs ++ ys).rtake n := by
  rw [List.rtake_eq_reverse_take_reverse, List.rtake_eq_reverse_take_reverse (l := xs ++ ys),
    List.reverse_append, List.reverse_append, List.rtake_eq_reverse_take_reverse,
    List.reverse_reverse, List.take_append, List.take_append, List.take_take,
    Nat.min_eq_left (Nat.sub_le _ _)]

theorem rtake_sublist (n : Nat) (l : List α) : (l.rtake n).Sublist l := List.drop_sublist _ l

theorem rtake_of_length_le {n : Nat} {l : List α} (h : l.length ≤ n) : l.rtake n = l := by
  rw [List.rtake, Nat.sub_eq_zero_of_le h, List.drop_zero]

/-- Of a list cut at an element, those after it are among the last when they are few. -/
theorem mem_rtake_or (n : Nat) (front : List α) (x : α) (back : List α) :
    x ∈ (front ++ x :: back).rtake n ∨ (front ++ x :: back).rtake n = back.rtake n := by
  by_cases hfew : back.length < n
  · left
    rw [List.rtake, List.length_append, List.length_cons]
    refine List.mem_of_mem_drop (i := front.length - (front.length + (back.length + 1) - n)) ?_
    rw [List.drop_drop]
    have hwhere : front.length + (back.length + 1) - n +
        (front.length - (front.length + (back.length + 1) - n)) = front.length := by omega
    rw [hwhere, List.drop_left]
    exact List.mem_cons_self
  · right
    have hskip : (front ++ x :: back).length - n = (front ++ [x]).length + (back.length - n) := by
      simp only [List.length_append, List.length_cons, List.length_nil]
      omega
    rw [List.rtake, List.rtake, hskip, ← List.drop_drop, List.append_cons front x back,
      List.drop_left' rfl]

end Last

section Cut

/-- Taking the first `n` is blind to elements that at least `n` kept ones stand before. -/
theorem take_filter {n : Nat} {keep : α → Bool} {l : List α}
    (h : ∀ front x back, l = front ++ x :: back → keep x = false → n ≤ (front.filter keep).length) :
    (l.filter keep).take n = l.take n := by
  induction l generalizing n with
  | nil => rfl
  | cons x l ih =>
      cases n with
      | zero => rfl
      | succ n =>
          cases hx : keep x with
          | false => exact absurd (h [] x l rfl hx) (by simp)
          | true =>
              rw [List.filter_cons_of_pos hx, List.take_succ_cons, List.take_succ_cons, ih]
              intro front y back heq hy
              have hfront := h (x :: front) y back (by rw [heq, List.cons_append]) hy
              rw [List.filter_cons_of_pos hx, List.length_cons] at hfront
              exact Nat.le_of_succ_le_succ hfront

theorem rtake_filter {n : Nat} {keep : α → Bool} {l : List α}
    (h : ∀ front x back, l = front ++ x :: back → keep x = false → n ≤ (back.filter keep).length) :
    (l.filter keep).rtake n = l.rtake n := by
  rw [List.rtake_eq_reverse_take_reverse, List.rtake_eq_reverse_take_reverse, ← List.filter_reverse,
    take_filter]
  intro front x back heq hx
  have hl : l = back.reverse ++ x :: front.reverse := by
    rw [← List.reverse_reverse l, heq]
    simp
  have hback := h _ x _ hl hx
  rwa [List.filter_reverse, List.length_reverse] at hback

end Cut

section Lanes

variable [DecidableEq α] [DecidableEq ι] (lane : α → ι)

def laneOf (i : ι) (l : List α) : List α := l.filter fun x => decide (lane x = i)

/-- The elements among the last `n` of their own lane. -/
def recent (n : Nat) (l : List α) : List α :=
  l.filter fun x => decide (x ∈ (laneOf lane (lane x) l).rtake n)

variable {lane} {n : Nat} {l : List α}

omit [DecidableEq α] in
theorem mem_laneOf {i : ι} {x : α} : x ∈ laneOf lane i l ↔ x ∈ l ∧ lane x = i := by
  rw [laneOf, List.mem_filter, decide_eq_true_eq]

omit [DecidableEq α] in
theorem laneOf_append (i : ι) (xs ys : List α) :
    laneOf lane i (xs ++ ys) = laneOf lane i xs ++ laneOf lane i ys := List.filter_append ..

theorem recent_sublist (n : Nat) (l : List α) : (recent lane n l).Sublist l := List.filter_sublist

theorem mem_recent {x : α} : x ∈ recent lane n l ↔ x ∈ (laneOf lane (lane x) l).rtake n := by
  rw [recent, List.mem_filter, decide_eq_true_eq]
  constructor
  · exact fun h => h.2
  · intro h
    exact ⟨(mem_laneOf.mp ((rtake_sublist n _).subset h)).1, h⟩

theorem filter_mem_rtake (n : Nat) (h : l.Nodup) :
    l.filter (fun x => decide (x ∈ l.rtake n)) = l.rtake n := by
  have hsplit : l.take (l.length - n) ++ l.rtake n = l := List.take_append_drop _ l
  have hapart := List.disjoint_of_nodup_append (hsplit ▸ h)
  have hfront : (l.take (l.length - n)).filter (fun x => decide (x ∈ l.rtake n)) = [] := by
    rw [List.filter_eq_nil_iff]
    intro x hx
    rw [decide_eq_true_eq]
    exact hapart hx
  have hback : (l.rtake n).filter (fun x => decide (x ∈ l.rtake n)) = l.rtake n := by
    rw [List.filter_eq_self]
    exact fun x hx => decide_eq_true hx
  calc l.filter (fun x => decide (x ∈ l.rtake n))
      = (l.take (l.length - n) ++ l.rtake n).filter (fun x => decide (x ∈ l.rtake n)) := by
        rw [hsplit]
    _ = l.rtake n := by rw [List.filter_append, hfront, hback, List.nil_append]

/-- Each lane of the recent elements is the end of that lane. -/
theorem laneOf_recent (i : ι) (n : Nat) (h : l.Nodup) :
    laneOf lane i (recent lane n l) = (laneOf lane i l).rtake n := by
  have hcomm : laneOf lane i (recent lane n l) =
      (laneOf lane i l).filter fun x => decide (x ∈ (laneOf lane i l).rtake n) := by
    rw [laneOf, recent, laneOf, List.filter_filter, List.filter_filter]
    refine List.filter_congr fun x _ => ?_
    by_cases hx : lane x = i
    · rw [hx, decide_eq_true rfl, Bool.true_and, Bool.and_true]
      rfl
    · rw [decide_eq_false hx, Bool.false_and, Bool.and_false]
  rw [hcomm]
  exact filter_mem_rtake n (h.filter _)

variable (lane) in
/-- Cutting every lane first changes nothing about the cut of the whole. -/
theorem rtake_recent (n : Nat) (l : List α) : (recent lane n l).rtake n = l.rtake n := by
  refine rtake_filter ?_
  intro front x back heq hx
  have hlane : laneOf lane (lane x) l =
      laneOf lane (lane x) front ++ x :: laneOf lane (lane x) back := by
    rw [heq, laneOf_append, laneOf, laneOf, List.filter_cons_of_pos (by simp)]
    rfl
  have hend : (laneOf lane (lane x) l).rtake n = (laneOf lane (lane x) back).rtake n := by
    have hor := mem_rtake_or n (laneOf lane (lane x) front) x (laneOf lane (lane x) back)
    rw [← hlane] at hor
    exact hor.resolve_left (of_decide_eq_false hx)
  have hmany : n ≤ (laneOf lane (lane x) back).length := by
    by_contra hfew
    have hlength := congrArg List.length hlane
    have hshort := congrArg List.length hend
    rw [List.length_append, List.length_cons] at hlength
    rw [List.rtake, List.rtake, List.length_drop, List.length_drop] at hshort
    omega
  -- The last `n` of the lane stand after `x` and are all kept.
  have hkept : ((laneOf lane (lane x) back).rtake n).Sublist
      (back.filter fun y => decide (y ∈ (laneOf lane (lane y) l).rtake n)) := by
    have hself : ((laneOf lane (lane x) back).rtake n).filter
        (fun y => decide (y ∈ (laneOf lane (lane y) l).rtake n)) =
          (laneOf lane (lane x) back).rtake n := by
      rw [List.filter_eq_self]
      intro y hy
      have hy' := (mem_laneOf.mp ((rtake_sublist n _).subset hy)).2
      rw [decide_eq_true_eq, hy', hend]
      exact hy
    rw [← hself]
    exact ((rtake_sublist n _).trans List.filter_sublist).filter _
  calc n = ((laneOf lane (lane x) back).rtake n).length := by
        rw [List.rtake, List.length_drop]
        omega
    _ ≤ _ := hkept.length_le

/-- What is recent in a longer history was recent before, once it was there. -/
theorem recent_of_append {later : List α} {x : α} (h : (l ++ later).Nodup)
    (hx : x ∈ recent lane n (l ++ later)) (hmem : x ∈ l) : x ∈ recent lane n l := by
  rw [mem_recent, laneOf_append] at hx
  rw [mem_recent]
  have hapart : x ∉ laneOf lane (lane x) later := fun hlater =>
    List.disjoint_of_nodup_append h hmem (mem_laneOf.mp hlater).1
  rw [List.rtake, List.drop_append, List.mem_append] at hx
  have hfront := hx.resolve_right fun hlater => hapart (List.mem_of_mem_drop hlater)
  have hskip : (laneOf lane (lane x) l).length - n ≤
      (laneOf lane (lane x) l ++ laneOf lane (lane x) later).length - n := by
    rw [List.length_append]
    omega
  rw [← Nat.sub_add_cancel hskip, Nat.add_comm, ← List.drop_drop] at hfront
  exact List.mem_of_mem_drop hfront

variable (lane) in
omit [DecidableEq α] in
/-- The lanes one after the other hold what the list holds. -/
theorem flatMap_laneOf_perm {lanes : List ι} (hlanes : lanes.Nodup)
    (hall : ∀ x ∈ l, lane x ∈ lanes) : (lanes.flatMap fun i => laneOf lane i l).Perm l := by
  induction lanes generalizing l with
  | nil =>
      cases l with
      | nil => exact List.Perm.nil
      | cons x l => exact absurd (hall x List.mem_cons_self) List.not_mem_nil
  | cons i lanes ih =>
      obtain ⟨hi, hrest⟩ := List.nodup_cons.mp hlanes
      rw [List.flatMap_cons]
      have hlater : (lanes.flatMap fun j => laneOf lane j l) =
          lanes.flatMap fun j => laneOf lane j (l.filter fun x => !decide (lane x = i)) := by
        refine List.flatMap_congr fun j hj => ?_
        rw [laneOf, laneOf, List.filter_filter]
        refine List.filter_congr fun x _ => ?_
        by_cases hx : lane x = j
        · have hne : lane x ≠ i := fun h => hi (h ▸ hx ▸ hj)
          simp [hx, hx ▸ hne]
        · simp [hx]
      have hperm := ih hrest (l := l.filter fun x => !decide (lane x = i)) fun x hx => by
        have hmem := List.mem_filter.mp hx
        have hne : lane x ≠ i := by simpa using hmem.2
        exact (List.mem_cons.mp (hall x hmem.1)).resolve_left hne
      rw [hlater]
      exact (hperm.append_left _).trans (List.filter_append_perm (fun x => decide (lane x = i)) l)

end Lanes

end Window
