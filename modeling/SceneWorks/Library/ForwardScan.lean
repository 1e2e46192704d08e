import Mathlib.Data.List.Basic
import Mathlib.Order.Basic
import Mathlib.Order.Lattice

/-!
Two ways to pick one item of an increasing source for each of a rising list of bounds: every bound
sought on its own from the start of the source, or all of them in one forward scan that never looks
at an item twice. What a bound does not find is filled with what was found before it. The two fill
the same list unless two bounds meet in one item that has another behind it.
-/

namespace ForwardScan

variable {α : Type}

/-- What stands at each of the first `count` places. -/
def places (count : Nat) (found : List α) : List (Option α) :=
  (List.range count).map fun index => found[index]?

/-- Every place holds what it found, or what was held before it; nothing is held at first. -/
def fill : Option α → List (Option α) → Option (List α)
  | _, [] => some []
  | _, some item :: rest => (fill (some item) rest).map (item :: ·)
  | some held, none :: rest => (fill (some held) rest).map (held :: ·)
  | none, none :: _ => none

section Places

@[simp] theorem places_zero (found : List α) : places 0 found = [] := rfl

theorem places_cons (count : Nat) (item : α) (found : List α) :
    places (count + 1) (item :: found) = some item :: places count found := by
  simp [places, List.range_succ_eq_map, Function.comp_def]

theorem places_nil (count : Nat) : places count ([] : List α) = List.replicate count none := by
  simp [places]

end Places

section Fill

variable {held item : α} {rest : List (Option α)}

theorem fill_replicate (held : α) (count : Nat) :
    fill (some held) (List.replicate count none) = some (List.replicate count held) := by
  induction count with
  | zero => rfl
  | succ count ih => simp [List.replicate_succ, fill, ih]

/-- Where nothing but the held item is found, every place holds it. -/
theorem fill_of_forall (h : ∀ place ∈ rest, place = none ∨ place = some held) :
    fill (some held) rest = some (List.replicate rest.length held) := by
  induction rest with
  | nil => rfl
  | cons place rest ih =>
      have hrest := ih fun place hplace => h place (List.mem_cons_of_mem _ hplace)
      rcases h place (List.mem_cons_self ..) with rfl | rfl <;>
        simp [fill, hrest, List.replicate_succ]

theorem fill_isSome (held : α) (rest : List (Option α)) : (fill (some held) rest).isSome := by
  induction rest generalizing held with
  | nil => rfl
  | cons place rest ih => cases place <;> simp [fill, ih]

theorem fill_some_cons (last : Option α) :
    fill last (some item :: rest) = (fill (some item) rest).map (item :: ·) := by
  cases last <;> rfl

/-- The first place decides: two lists that find different items there are filled differently. -/
theorem fill_ne_of_head_ne {other : α} {left right : List (Option α)} (last : Option α)
    (h : item ≠ other) :
    fill last (some item :: left) ≠ fill last (some other :: right) := by
  rw [fill_some_cons, fill_some_cons]
  obtain ⟨first, hfirst⟩ := Option.isSome_iff_exists.mp (fill_isSome item left)
  obtain ⟨second, hsecond⟩ := Option.isSome_iff_exists.mp (fill_isSome other right)
  rw [hfirst, hsecond]
  intro heq
  exact h (List.cons.inj (Option.some.inj heq)).1

theorem fill_some_cons_inj {last : Option α} {left right : List (Option α)} :
    fill last (some item :: left) = fill last (some item :: right) ↔
      fill (some item) left = fill (some item) right := by
  rw [fill_some_cons, fill_some_cons]
  constructor
  · intro heq
    exact Option.map_injective (List.cons_injective) heq
  · intro heq
    rw [heq]

end Fill

variable [LinearOrder α]

/-- The first item at or after the bound. -/
def seek (source : List α) (bound : α) : Option α := source.find? fun item => bound ≤ item

/-- One scan: the first bound takes the first item that reaches it, the rest the items behind. -/
def scan : List α → List α → List α
  | _, [] => []
  | [], _ :: _ => []
  | bound :: bounds, item :: rest =>
      if bound ≤ item then item :: scan bounds rest else scan (bound :: bounds) rest

/-- Both bounds meet in one item, and it is not the last of the source. -/
def Crowded (source : List α) (bound next : α) : Prop :=
  ∃ item, seek source bound = some item ∧ seek source next = some item ∧
    source.getLast? ≠ some item

section Seek

variable {source front rest : List α} {bound next item : α}

theorem seek_cons (item : α) (rest : List α) (bound : α) :
    seek (item :: rest) bound = if bound ≤ item then some item else seek rest bound := by
  unfold seek
  rw [List.find?_cons]
  by_cases h : bound ≤ item <;> simp [h]

theorem seek_append (h : ∀ other ∈ front, other < bound) :
    seek (front ++ rest) bound = seek rest bound := by
  induction front with
  | nil => rfl
  | cons other front ih =>
      have hother : other < bound := h other (List.mem_cons_self ..)
      have hfront := ih fun other hmem => h other (List.mem_cons_of_mem _ hmem)
      rw [List.cons_append, seek_cons, if_neg (not_le.mpr hother), hfront]

theorem seek_eq_none_iff : seek source bound = none ↔ ∀ item ∈ source, item < bound := by
  simp [seek]

theorem seek_eq_none_of_le (h : bound ≤ next) (hnone : seek source bound = none) :
    seek source next = none :=
  seek_eq_none_iff.mpr fun item hitem => (seek_eq_none_iff.mp hnone item hitem).trans_le h

theorem exists_of_seek_eq_some (h : seek source bound = some item) :
    ∃ front rest, source = front ++ item :: rest ∧ (∀ other ∈ front, other < bound) ∧
      bound ≤ item := by
  obtain ⟨hitem, front, rest, hsource, hfront⟩ := List.find?_eq_some_iff_append.mp h
  exact ⟨front, rest, hsource, fun other hmem => by simpa using hfront other hmem,
    by simpa using hitem⟩

theorem le_of_seek_eq_some (h : seek source bound = some item) : bound ≤ item := by
  simpa using List.find?_some h

theorem scan_append {bounds : List α} (h : ∀ other ∈ front, other < bound) :
    scan (bound :: bounds) (front ++ rest) = scan (bound :: bounds) rest := by
  induction front with
  | nil => rfl
  | cons other front ih =>
      have hother : other < bound := h other (List.mem_cons_self ..)
      have hfront := ih fun other hmem => h other (List.mem_cons_of_mem _ hmem)
      rw [List.cons_append, scan, if_neg (not_le.mpr hother), hfront]

theorem scan_of_le {bounds : List α} (h : bound ≤ item) :
    scan (bound :: bounds) (item :: rest) = item :: scan bounds rest := by
  rw [scan, if_pos h]

theorem scan_of_seek_eq_none {bounds : List α} (h : seek source bound = none) :
    scan (bound :: bounds) source = [] := by
  have hbelow := seek_eq_none_iff.mp h
  have happend : scan (bound :: bounds) (source ++ []) = scan (bound :: bounds) [] :=
    scan_append hbelow
  rw [List.append_nil] at happend
  rw [happend, scan]

end Seek

section Crowded

variable {source front rest : List α} {bound next item other : α}

theorem crowded_append (hbound : ∀ other ∈ front, other < bound) (hle : bound ≤ next) :
    Crowded (front ++ item :: rest) bound next ↔ Crowded (item :: rest) bound next := by
  have hnext : ∀ other ∈ front, other < next := fun other hmem => (hbound other hmem).trans_le hle
  have hlast : (front ++ item :: rest).getLast? = (item :: rest).getLast? := by
    rw [List.getLast?_append]
    simp [List.getLast?_cons]
  unfold Crowded
  rw [seek_append hbound, seek_append hnext, hlast]

theorem not_crowded_singleton (item bound next : α) : ¬ Crowded [item] bound next := by
  rintro ⟨other, hother, -, hlast⟩
  obtain rfl : other = item := by
    have hmem := List.mem_of_find?_eq_some hother
    exact List.mem_singleton.mp hmem
  exact hlast rfl

theorem crowded_of_meets (hsource : (item :: other :: rest).Pairwise (· < ·))
    (hbound : bound ≤ item) (hnext : next ≤ item) : Crowded (item :: other :: rest) bound next := by
  refine ⟨item, by rw [seek_cons, if_pos hbound], by rw [seek_cons, if_pos hnext], ?_⟩
  intro hlast
  rw [List.getLast?_cons_cons] at hlast
  have hmem : item ∈ other :: rest := List.mem_of_getLast? hlast
  exact lt_irrefl item (List.rel_of_pairwise_cons hsource hmem)

/-- In the order of the source: an item lies between the bounds, or at most one is left to find. -/
theorem not_crowded_iff (hsource : source.Pairwise (· < ·)) (hle : bound ≤ next) :
    ¬ Crowded source bound next ↔
      (∃ item ∈ source, bound ≤ item ∧ item < next) ∨
        (source.filter fun item => bound ≤ item).length ≤ 1 := by
  cases hfound : seek source bound with
  | none =>
      have hbelow := seek_eq_none_iff.mp hfound
      have hfilter : source.filter (fun item => bound ≤ item) = [] := by
        simpa [List.filter_eq_nil_iff] using hbelow
      refine iff_of_true ?_ (.inr ?_)
      · rintro ⟨item, hitem, -⟩
        exact Option.some_ne_none item (hitem.symm.trans hfound)
      · rw [hfilter]
        exact Nat.zero_le 1
  | some item =>
      obtain ⟨front, rest, rfl, hfront, hitem⟩ := exists_of_seek_eq_some hfound
      have hbehind := List.pairwise_cons.mp (List.pairwise_append.mp hsource).2.1
      have hfilter : (front ++ item :: rest).filter (fun item => bound ≤ item) = item :: rest := by
        have hnone : front.filter (fun item => bound ≤ item) = [] := by
          simpa [List.filter_eq_nil_iff] using hfront
        have hall : (item :: rest).filter (fun item => bound ≤ item) = item :: rest := by
          refine List.filter_eq_self.mpr fun other hother => decide_eq_true ?_
          rcases List.mem_cons.mp hother with rfl | hrest
          · exact hitem
          · exact hitem.trans (hbehind.1 other hrest).le
        rw [List.filter_append, hnone, hall, List.nil_append]
      rw [crowded_append hfront hle, hfilter]
      constructor
      · intro hfree
        by_cases hnext : item < next
        · exact .inl ⟨item, List.mem_append_right _ (List.mem_cons_self ..), hitem, hnext⟩
        · cases rest with
          | nil => exact .inr (Nat.le_refl 1)
          | cons other rest =>
              have hsorted := (List.pairwise_append.mp hsource).2.1
              exact absurd (crowded_of_meets hsorted hitem (not_lt.mp hnext)) hfree
      · rintro (⟨other, hother, hreach, hless⟩ | hlength) hcrowded
        · obtain ⟨found, hleft, hright, -⟩ := hcrowded
          rw [seek_cons, if_pos hitem] at hleft
          obtain rfl : item = found := Option.some.inj hleft
          have hnext : next ≤ item := le_of_seek_eq_some hright
          rcases List.mem_append.mp hother with hmem | hmem
          · exact absurd (hfront other hmem) (not_lt.mpr hreach)
          · rcases List.mem_cons.mp hmem with rfl | hrest
            · exact absurd hless (not_lt.mpr hnext)
            · exact absurd (hless.trans_le hnext) (hbehind.1 other hrest).not_gt
        · obtain rfl : rest = [] := by simpa using hlength
          exact not_crowded_singleton item bound next hcrowded

theorem not_crowded_of_seek_eq_none (h : seek source bound = none) :
    ¬ Crowded source bound next := by
  rintro ⟨item, hitem, -, -⟩
  exact Option.some_ne_none item (hitem.symm.trans h)

theorem not_crowded_of_next_eq_none (h : seek source next = none) :
    ¬ Crowded source bound next := by
  rintro ⟨item, -, hitem, -⟩
  exact Option.some_ne_none item (hitem.symm.trans h)

theorem le_of_mem_rising {bounds : List α} (hbounds : (bound :: bounds).Pairwise (· ≤ ·))
    (hnext : next ∈ bound :: bounds) : bound ≤ next := by
  rcases List.mem_cons.mp hnext with rfl | htail
  · exact le_rfl
  · exact List.rel_of_pairwise_cons hbounds htail

theorem pairwise_crowded_append {bounds : List α} (hbounds : (bound :: bounds).Pairwise (· ≤ ·))
    (hfront : ∀ other ∈ front, other < bound) :
    (bound :: bounds).Pairwise (fun bound next => ¬ Crowded (front ++ item :: rest) bound next) ↔
      (bound :: bounds).Pairwise (fun bound next => ¬ Crowded (item :: rest) bound next) := by
  have hpairs : ∀ left ∈ bound :: bounds, ∀ right, left ≤ right →
      (Crowded (front ++ item :: rest) left right ↔ Crowded (item :: rest) left right) := by
    intro left hleft right hle
    refine crowded_append (fun other hother => ?_) hle
    exact (hfront other hother).trans_le (le_of_mem_rising hbounds hleft)
  constructor
  · intro hfree
    refine (hbounds.and hfree).imp_of_mem fun hleft _ hpair => ?_
    exact fun hcrowded => hpair.2 ((hpairs _ hleft _ hpair.1).mpr hcrowded)
  · intro hfree
    refine (hbounds.and hfree).imp_of_mem fun hleft _ hpair => ?_
    exact fun hcrowded => hpair.2 ((hpairs _ hleft _ hpair.1).mp hcrowded)

end Crowded

section Agreement

variable {bounds rest source : List α} {bound first item : α}

/-- Behind the last item of a source nothing crowds: every bound is held or finds that item. -/
theorem fill_scan_singleton (item : α) (bounds : List α) :
    fill (some item) (places bounds.length (scan bounds [])) =
      fill (some item) (bounds.map (seek [item])) := by
  have hscan : scan bounds ([] : List α) = [] := by cases bounds <;> rfl
  have hseek : ∀ place ∈ bounds.map (seek [item]), place = none ∨ place = some item := by
    intro place hplace
    obtain ⟨bound, -, rfl⟩ := List.mem_map.mp hplace
    rw [seek_cons]
    split
    · exact .inr rfl
    · exact .inl rfl
  rw [hscan, places_nil, fill_replicate, fill_of_forall hseek, List.length_map]

/-- Two bounds that meet in an item with another behind it are filled differently: the scan has
passed the item when it comes to the second. -/
theorem fill_scan_ne_of_meets (hsource : (item :: first :: rest).Pairwise (· < ·))
    (hmeets : bound ≤ item) :
    fill (some item) (places (bound :: bounds).length (scan (bound :: bounds) (first :: rest))) ≠
      fill (some item) ((bound :: bounds).map (seek (item :: first :: rest))) := by
  have hless : item < first := List.rel_of_pairwise_cons hsource (List.mem_cons_self ..)
  have hfound : seek (item :: first :: rest) bound = some item := by rw [seek_cons, if_pos hmeets]
  rw [scan_of_le (hmeets.trans hless.le), List.length_cons, places_cons, List.map_cons, hfound]
  exact fill_ne_of_head_ne _ hless.ne'

/-- A bound that finds nothing, nor what is not below it, is held on both sides. -/
theorem fill_scan_of_seek_eq_none (hbounds : (bound :: bounds).Pairwise (· ≤ ·))
    (hnone : seek (item :: rest) bound = none) :
    fill (some item) (places (bound :: bounds).length (scan (bound :: bounds) rest)) =
      fill (some item) ((bound :: bounds).map (seek (item :: rest))) := by
  have hrest : seek rest bound = none := by
    refine seek_eq_none_iff.mpr fun other hother => ?_
    exact seek_eq_none_iff.mp hnone other (List.mem_cons_of_mem _ hother)
  have hseek : ∀ place ∈ (bound :: bounds).map (seek (item :: rest)),
      place = none ∨ place = some item := by
    intro place hplace
    obtain ⟨next, hnext, rfl⟩ := List.mem_map.mp hplace
    exact .inl (seek_eq_none_of_le (le_of_mem_rising hbounds hnext) hnone)
  rw [scan_of_seek_eq_none hrest, places_nil, fill_replicate, fill_of_forall hseek,
    List.length_map]

theorem pairwise_of_seek_eq_none (hbounds : (bound :: bounds).Pairwise (· ≤ ·))
    (hnone : seek source bound = none) :
    (bound :: bounds).Pairwise fun bound next => ¬ Crowded source bound next :=
  List.pairwise_of_forall_mem_list fun _ hmem _ _ =>
    not_crowded_of_seek_eq_none (seek_eq_none_of_le (le_of_mem_rising hbounds hmem) hnone)

theorem map_seek_append {front : List α} (hbounds : (bound :: bounds).Pairwise (· ≤ ·))
    (hfront : ∀ other ∈ front, other < bound) :
    (bound :: bounds).map (seek (front ++ rest)) = (bound :: bounds).map (seek rest) := by
  refine List.map_congr_left fun next hnext => seek_append fun other hother => ?_
  exact (hfront other hother).trans_le (le_of_mem_rising hbounds hnext)

/-- Where the first bound finds an item, the two go on from that item alone. -/
theorem fill_scan_step {front : List α} (last : Option α)
    (hbounds : (bound :: bounds).Pairwise (· ≤ ·)) (hfront : ∀ other ∈ front, other < bound)
    (hitem : bound ≤ item) :
    fill last (places (bound :: bounds).length
          (scan (bound :: bounds) (front ++ item :: rest))) =
        fill last ((bound :: bounds).map (seek (front ++ item :: rest))) ↔
      fill (some item) (places bounds.length (scan bounds rest)) =
        fill (some item) (bounds.map (seek (item :: rest))) := by
  have hfound : seek (item :: rest) bound = some item := by rw [seek_cons, if_pos hitem]
  rw [scan_append hfront, scan_of_le hitem, List.length_cons, places_cons,
    map_seek_append hbounds hfront, List.map_cons, hfound]
  exact fill_some_cons_inj

/-- The scan after `item`, which `first` found, against a seek of every later bound. -/
theorem fill_scan_eq_iff_of_held (hsource : (item :: rest).Pairwise (· < ·))
    (hbounds : (first :: bounds).Pairwise (· ≤ ·)) (hfirst : first ≤ item) :
    fill (some item) (places bounds.length (scan bounds rest)) =
        fill (some item) (bounds.map (seek (item :: rest))) ↔
      (first :: bounds).Pairwise fun bound next => ¬ Crowded (item :: rest) bound next := by
  induction bounds generalizing first item rest with
  | nil => simp [fill]
  | cons bound bounds ih =>
      have hrising := hbounds.of_cons
      by_cases hmeets : bound ≤ item
      · -- The next bound meets the held item: the scan has already passed it.
        cases rest with
        | nil =>
            refine iff_of_true (fill_scan_singleton item _) ?_
            exact List.pairwise_of_forall fun bound next => not_crowded_singleton item bound next
        | cons other rest =>
            refine iff_of_false (fill_scan_ne_of_meets hsource hmeets) fun hpairs => ?_
            have hcrowded := crowded_of_meets hsource hfirst hmeets
            exact List.rel_of_pairwise_cons hpairs (List.mem_cons_self ..) hcrowded
      · have hbelow : item < bound := not_le.mp hmeets
        cases hfound : seek (item :: rest) bound with
        | none =>
            refine iff_of_true (fill_scan_of_seek_eq_none hrising hfound) ?_
            refine List.pairwise_cons.mpr ⟨fun next hnext => ?_, ?_⟩
            · have hle := le_of_mem_rising hrising hnext
              exact not_crowded_of_next_eq_none (seek_eq_none_of_le hle hfound)
            · exact pairwise_of_seek_eq_none hrising hfound
        | some found =>
            -- The bound finds a later item; everything before that item is passed for good.
            obtain ⟨front, behind, heq, hfront, hle⟩ := exists_of_seek_eq_some hfound
            have hskip : scan (bound :: bounds) rest = scan (bound :: bounds) (item :: rest) := by
              rw [scan, if_neg hmeets]
            have hheld : seek (item :: rest) first = some item := by rw [seek_cons, if_pos hfirst]
            have hfirstFree : ∀ next ∈ bound :: bounds, ¬ Crowded (item :: rest) first next := by
              rintro next hnext ⟨other, hother, hnextOther, -⟩
              obtain rfl : item = other := Option.some.inj (hheld.symm.trans hother)
              have hreach : next ≤ item := le_of_seek_eq_some hnextOther
              exact hmeets ((le_of_mem_rising hrising hnext).trans hreach)
            have hbehind : (found :: behind).Pairwise (· < ·) := by
              rw [heq] at hsource
              exact (List.pairwise_append.mp hsource).2.1
            rw [List.pairwise_cons, hskip]
            rw [heq] at hfirstFree ⊢
            rw [fill_scan_step _ hrising hfront hle, ih hbehind hrising hle,
              pairwise_crowded_append hrising hfront]
            exact (and_iff_right hfirstFree).symm

/-- The scan fills nothing only where the seeks fill nothing. -/
theorem fill_seek_eq_none (h : fill none (places bounds.length (scan bounds source)) = none) :
    fill none (bounds.map (seek source)) = none := by
  cases bounds with
  | nil => exact absurd h (Option.some_ne_none _)
  | cons bound bounds =>
      cases hfound : seek source bound with
      | none =>
          rw [List.map_cons, hfound]
          rfl
      | some item =>
          obtain ⟨front, rest, rfl, hfront, hle⟩ := exists_of_seek_eq_some hfound
          rw [scan_append hfront, scan_of_le hle, List.length_cons, places_cons, fill_some_cons,
            Option.map_eq_none_iff] at h
          exact absurd h (Option.isSome_iff_ne_none.mp (fill_isSome item _))

/-- One scan fills what a seek for every bound fills exactly when no two bounds meet in an item with
another behind it. -/
theorem fill_scan_eq_iff (hsource : source.Pairwise (· < ·)) (hbounds : bounds.Pairwise (· ≤ ·)) :
    fill none (places bounds.length (scan bounds source)) = fill none (bounds.map (seek source)) ↔
      bounds.Pairwise fun bound next => ¬ Crowded source bound next := by
  cases bounds with
  | nil => simp [fill]
  | cons bound bounds =>
      cases hfound : seek source bound with
      | none =>
          refine iff_of_true ?_ ?_
          · rw [scan_of_seek_eq_none hfound, places_nil, List.map_cons, hfound]
            rfl
          · exact pairwise_of_seek_eq_none hbounds hfound
      | some item =>
          obtain ⟨front, rest, rfl, hfront, hle⟩ := exists_of_seek_eq_some hfound
          have hbehind := (List.pairwise_append.mp hsource).2.1
          rw [fill_scan_step _ hbounds hfront hle, fill_scan_eq_iff_of_held hbehind hbounds hle,
            pairwise_crowded_append hbounds hfront]

end Agreement

end ForwardScan
