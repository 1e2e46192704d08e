import SceneWorks.FilmAssembly.Delivery
import SceneWorks.Library.StableSort
import SceneWorks.Library.Tiling

/-!
The picture track of a film that is delivered shot by shot. Whatever has arrived is laid end
to end in shot order, and the insertion of one more take keeps it so.
-/

namespace SceneWorks.FilmAssembly

/-- A film as its run delivers it: one payload for each shot, with the one take of the shot
and sound that is no picture. -/
structure Film (env : DeliveryEnv) where
  run : String
  order : List String
  take : String → Item
  length : String → ℚ
  payload : String → Payload
  run_named : run ≠ ""
  distinct : order.Nodup
  shots_named : "" ∉ order
  positive : ∀ shot ∈ order, 0 < length shot
  payload_run : ∀ shot ∈ order, (payload shot).runId = run
  payload_order : ∀ shot ∈ order, (payload shot).shotOrder = order
  one_take : ∀ shot ∈ order, incomingTakes (payload shot) = [take shot]
  take_shot : ∀ shot ∈ order, (take shot).harness.shotId = shot
  measured : ∀ shot ∈ order, ∃ asset, (take shot).assetId = some asset ∧
    env.duration asset = .ok (length shot)
  sound : ∀ shot ∈ order, ∀ lane ∈ incomingLanes (payload shot), ∀ item ∈ lane.items,
    item.harness.role ≠ "picture"
  /-- An id names one line: its lane, its shot and its offset. -/
  line_ids : ∀ shot ∈ order, ∀ entry ∈ incomingAudio (payload shot), ∀ shot' ∈ order,
    ∀ entry' ∈ incomingAudio (payload shot'), entry.2.id = entry'.2.id →
      entry.1.id = entry'.1.id ∧ entry.2.harness.shotId = entry'.2.harness.shotId ∧
        entry.2.harness.offsetSeconds = entry'.2.harness.offsetSeconds

variable {env : DeliveryEnv}

namespace Film

variable (film : Film env)

/-- The take of a shot at its place on the picture track. -/
def placed (trackId shot : String) (start : ℚ) : Item :=
  placeTake env film.run shot trackId (stampTake film.run (film.take shot) (film.length shot)) start
    (film.length shot)

/-- The takes of the shots laid end to end. -/
def pictures (trackId : String) (shots : List String) : List Item :=
  (Tiling.starts film.length 0 shots).map fun p => film.placed trackId p.1 p.2

/-- The shots that have arrived, in shot order. -/
def arrived (shots : List String) : List String := film.order.filter (· ∈ shots)

end Film

variable {film : Film env} {trackId shot : String} {xs ys : List String}

theorem Film.take_run (hshot : shot ∈ film.order) :
    (film.take shot).harness.runId = film.run ∧ (film.take shot).harness.role = "picture" := by
  have hmem : film.take shot ∈ incomingTakes (film.payload shot) := by
    rw [film.one_take shot hshot]
    exact List.mem_singleton_self _
  have hfilter := (List.mem_filter.mp hmem).2
  rw [Bool.and_eq_true, decide_eq_true_eq, decide_eq_true_eq,
    film.payload_run shot hshot] at hfilter
  exact hfilter

theorem placed_shot (hshot : shot ∈ film.order) (start : ℚ) :
    (film.placed trackId shot start).harness.shotId = shot := film.take_shot shot hshot

theorem placed_run (hshot : shot ∈ film.order) (start : ℚ) :
    (film.placed trackId shot start).harness.runId = film.run := (film.take_run hshot).1

theorem shiftItem_placed (length start : ℚ) :
    shiftItem length (film.placed trackId shot start) =
      film.placed trackId shot (start + length) := by
  have hend : start + film.length shot + length = start + length + film.length shot := by ring
  simp only [shiftItem, Film.placed, placeTake, hend]

theorem pictures_append (xs ys : List String) : film.pictures trackId (xs ++ ys) =
    film.pictures trackId xs ++ (Tiling.starts film.length (Tiling.total film.length xs) ys).map
      fun p => film.placed trackId p.1 p.2 := by
  rw [Film.pictures, Tiling.starts_append, List.map_append, zero_add]
  rfl

theorem mem_pictures {item : Item} (h : item ∈ film.pictures trackId xs) :
    ∃ shot ∈ xs, ∃ start, (shot, start) ∈ Tiling.starts film.length 0 xs ∧
      item = film.placed trackId shot start := by
  obtain ⟨⟨shot, start⟩, hmem, rfl⟩ := List.mem_map.mp h
  exact ⟨shot, Tiling.mem_of_mem_starts hmem, start, hmem, rfl⟩

/-- Two lists of shots of the film between which a new shot goes. -/
structure Slot (film : Film env) (shot : String) (xs ys : List String) : Prop where
  listed : shot ∈ film.order
  front_listed : ∀ x ∈ xs, x ∈ film.order
  back_listed : ∀ y ∈ ys, y ∈ film.order
  front : ∀ x ∈ xs, ¬ shotRank film.order shot < shotRank film.order x
  back : ∀ y ∈ ys, shotRank film.order shot < shotRank film.order y

theorem Slot.positive_front (h : Slot film shot xs ys) : ∀ x ∈ xs, 0 < film.length x :=
  fun x hx => film.positive x (h.front_listed x hx)

theorem Slot.positive_back (h : Slot film shot xs ys) : ∀ y ∈ ys, 0 < film.length y :=
  fun y hy => film.positive y (h.back_listed y hy)

theorem maxEnd_pictures (hpos : ∀ x ∈ xs, 0 < film.length x) :
    maxEnd ((film.pictures trackId xs).map Item.timelineEnd) = Tiling.total film.length xs := by
  have hends := Tiling.foldl_max_ends 0 hpos
  rw [zero_add] at hends
  rw [maxEnd, Film.pictures, List.map_map]
  exact hends

/-- The place of the new take: right after what comes before it. -/
theorem insertionPlace_pictures (h : Slot film shot xs ys) :
    insertionPlace film.order film.run shot (film.pictures trackId (xs ++ ys)) =
      Tiling.total film.length xs := by
  have hfront : (film.pictures trackId xs).filter (fun item => item.harness.runId = film.run &&
      shotRank film.order shot < shotRank film.order item.harness.shotId) = [] := by
    rw [List.filter_eq_nil_iff]
    intro item hitem
    obtain ⟨x, hx, start, -, rfl⟩ := mem_pictures hitem
    rw [placed_shot (h.front_listed x hx), Bool.and_eq_true, decide_eq_true_eq, decide_eq_true_eq]
    exact fun hand => h.front x hx hand.2
  have hback : ∀ item ∈ (Tiling.starts film.length (Tiling.total film.length xs) ys).map
      (fun p => film.placed trackId p.1 p.2), (decide (item.harness.runId = film.run) &&
        decide (shotRank film.order shot < shotRank film.order item.harness.shotId)) = true := by
    intro item hitem
    obtain ⟨⟨y, start⟩, hmem, rfl⟩ := List.mem_map.mp hitem
    have hy := Tiling.mem_of_mem_starts hmem
    rw [placed_shot (h.back_listed y hy), placed_run (h.back_listed y hy)]
    simp [h.back y hy]
  rw [insertionPlace, pictures_append, List.filter_append, hfront, List.nil_append,
    List.filter_eq_self.mpr hback]
  cases ys with
  | nil =>
      rw [Tiling.starts, List.map_nil, List.append_nil]
      exact maxEnd_pictures h.positive_front
  | cons y rest =>
      have hlow : ∀ t ∈ ((Tiling.starts film.length (Tiling.total film.length xs + film.length y)
          rest).map fun p => film.placed trackId p.1 p.2).map Item.timelineStart,
          Tiling.total film.length xs ≤ t := by
        intro t ht
        obtain ⟨item, hitem, rfl⟩ := List.mem_map.mp ht
        obtain ⟨⟨z, start⟩, hmem, rfl⟩ := List.mem_map.mp hitem
        have hz := (Tiling.bounds_of_mem_starts
          (fun z hz => h.positive_back z (List.mem_cons_of_mem y hz)) hmem).1
        have hy := h.positive_back y List.mem_cons_self
        change _ ≤ start
        linarith
      rw [Tiling.starts, List.map_cons, List.map_cons, minPlace, Option.getD_some]
      exact Tiling.foldl_min_eq hlow

/-- Which pictures the new take moves. -/
theorem moves_front (h : Slot film shot xs ys) {item : Item}
    (hitem : item ∈ film.pictures trackId xs) :
    ¬ Tiling.total film.length xs ≤ item.timelineStart := by
  obtain ⟨x, hx, start, hmem, rfl⟩ := mem_pictures hitem
  have hbound := (Tiling.bounds_of_mem_starts h.positive_front hmem).2
  have hpos := h.positive_front x hx
  change ¬ _ ≤ start
  linarith

theorem moves_back (trackId : String) (h : Slot film shot xs ys) {p : String × ℚ}
    (hp : p ∈ Tiling.starts film.length (Tiling.total film.length xs) ys) :
    Tiling.total film.length xs ≤ (film.placed trackId p.1 p.2).timelineStart :=
  (Tiling.bounds_of_mem_starts h.positive_back hp).1

theorem shiftedShots_pictures (h : Slot film shot xs ys) :
    shiftedShots film.order film.run shot (film.pictures trackId (xs ++ ys)) = ys := by
  have hfront : (film.pictures trackId xs).filter (fun item =>
      Tiling.total film.length xs ≤ item.timelineStart && item.harness.runId = film.run) = [] := by
    rw [List.filter_eq_nil_iff]
    intro item hitem
    simp [moves_front h hitem]
  have hback : ∀ item ∈ (Tiling.starts film.length (Tiling.total film.length xs) ys).map
      (fun p => film.placed trackId p.1 p.2), (decide (Tiling.total film.length xs ≤
        item.timelineStart) && decide (item.harness.runId = film.run)) = true := by
    intro item hitem
    obtain ⟨⟨y, start⟩, hmem, rfl⟩ := List.mem_map.mp hitem
    have hy := h.back_listed y (Tiling.mem_of_mem_starts hmem)
    simp [moves_back trackId h hmem, placed_run hy]
  have hshots : ∀ p ∈ Tiling.starts film.length (Tiling.total film.length xs) ys,
      (film.placed trackId p.1 p.2).harness.shotId = p.1 := fun p hp =>
    placed_shot (h.back_listed p.1 (Tiling.mem_of_mem_starts hp)) p.2
  rw [shiftedShots, insertionPlace_pictures h, pictures_append, List.filter_append, hfront,
    List.nil_append, List.filter_eq_self.mpr hback, List.map_map]
  exact (List.map_congr_left hshots).trans (Tiling.map_fst_starts ..)

theorem pictures_increasing (hpos : ∀ x ∈ xs, 0 < film.length x) :
    (film.pictures trackId xs).Pairwise fun a b => a.timelineStart < b.timelineStart :=
  List.pairwise_map.mpr (Tiling.starts_increasing hpos)

/-- A take put between them lies between them. -/
theorem insertItem_pictures (h : Slot film shot xs ys) :
    insertItem env film.order film.run shot trackId
        (stampTake film.run (film.take shot) (film.length shot)) (film.length shot)
        (film.pictures trackId (xs ++ ys)) =
      film.pictures trackId (xs ++ shot :: ys) := by
  have hfront : (film.pictures trackId xs).map (fun item =>
      if Tiling.total film.length xs ≤ item.timelineStart then shiftItem (film.length shot) item
      else item) = film.pictures trackId xs := by
    refine (List.map_congr_left fun item hitem => ?_).trans (List.map_id _)
    exact if_neg (moves_front h hitem)
  have hback : ((Tiling.starts film.length (Tiling.total film.length xs) ys).map
        fun p => film.placed trackId p.1 p.2).map (fun item =>
      if Tiling.total film.length xs ≤ item.timelineStart then shiftItem (film.length shot) item
      else item) =
      ((Tiling.starts film.length (Tiling.total film.length xs) ys).map
        fun p => (p.1, p.2 + film.length shot)).map fun p => film.placed trackId p.1 p.2 := by
    rw [List.map_map, List.map_map]
    refine List.map_congr_left fun p hp => ?_
    have hmoves := moves_back trackId h hp
    change (if Tiling.total film.length xs ≤ (film.placed trackId p.1 p.2).timelineStart then _
      else _) = _
    rw [if_pos hmoves, shiftItem_placed]
    rfl
  have hsorted : film.pictures trackId (xs ++ shot :: ys) = film.pictures trackId xs ++
      film.placed trackId shot (Tiling.total film.length xs) ::
        ((Tiling.starts film.length (Tiling.total film.length xs) ys).map
          fun p => (p.1, p.2 + film.length shot)).map fun p => film.placed trackId p.1 p.2 := by
    rw [Film.pictures, Tiling.starts_insert, List.map_append, List.map_cons, zero_add]
    rfl
  have hpos : ∀ x ∈ xs ++ shot :: ys, 0 < film.length x := by
    intro x hx
    rw [List.mem_append, List.mem_cons] at hx
    obtain hx | rfl | hx := hx
    · exact h.positive_front x hx
    · exact film.positive x h.listed
    · exact h.positive_back x hx
  rw [insertItem, insertionPlace_pictures h, pictures_append, List.map_append, hfront, hback]
  refine StableSort.insertionSort_of_strict ?_ (pictures_increasing hpos)
  rw [hsorted, List.append_assoc]
  exact (List.perm_append_singleton _ _).append_left _

theorem shotRank_eq_idxOf {order : List String} {x : String} (h : x ∈ order) :
    shotRank order x = order.idxOf x := by
  have hsome : order.findIdx? (fun slot => slot = x) = some (order.findIdx fun slot => slot = x) :=
    List.findIdx?_eq_some_of_exists ⟨x, h, decide_eq_true rfl⟩
  rw [shotRank, hsome, Option.getD_some, List.idxOf]
  rfl

/-- Where a shot that arrives goes among those that have. -/
theorem slot_of_new {shots : List String} (hshot : shot ∈ film.order) (hnew : shot ∉ shots) :
    ∃ xs ys, film.arrived shots = xs ++ ys ∧ film.arrived (shot :: shots) = xs ++ shot :: ys ∧
      Slot film shot xs ys := by
  obtain ⟨before, after, horder⟩ := List.append_of_mem hshot
  have hnodup := film.distinct
  rw [horder] at hnodup
  obtain ⟨-, hafter, hapart⟩ := List.nodup_append.mp hnodup
  have hbefore : shot ∉ before := fun h => hapart shot h shot List.mem_cons_self rfl
  have hshotAfter : shot ∉ after := (List.nodup_cons.mp hafter).1
  have hsame : ∀ (l : List String), shot ∉ l →
      l.filter (· ∈ shot :: shots) = l.filter (· ∈ shots) := by
    intro l hl
    refine List.filter_congr fun x hx => ?_
    have hne : x ≠ shot := fun heq => hl (heq ▸ hx)
    simp [hne]
  have hrank : shotRank film.order shot = before.length := by
    rw [shotRank_eq_idxOf hshot, horder, List.idxOf_append_of_notMem hbefore, List.idxOf_cons_self,
      Nat.add_zero]
  refine ⟨before.filter (· ∈ shots), after.filter (· ∈ shots), ?_, ?_, ?_⟩
  · rw [Film.arrived, horder, List.filter_append, List.filter_cons_of_neg (by simpa using hnew)]
  · rw [Film.arrived, horder, List.filter_append, List.filter_cons_of_pos (by simp),
      hsame before hbefore, hsame after hshotAfter]
  · have hfront : ∀ x ∈ before.filter (· ∈ shots), x ∈ before := fun x hx =>
      List.mem_of_mem_filter hx
    have hback : ∀ y ∈ after.filter (· ∈ shots), y ∈ after := fun y hy => List.mem_of_mem_filter hy
    refine ⟨hshot, ?_, ?_, ?_, ?_⟩
    · intro x hx
      rw [horder]
      exact List.mem_append_left _ (hfront x hx)
    · intro y hy
      rw [horder]
      exact List.mem_append_right _ (List.mem_cons_of_mem _ (hback y hy))
    · intro x hx
      have hmem := hfront x hx
      have hlt := List.idxOf_lt_length_iff.mpr hmem
      rw [hrank, shotRank_eq_idxOf (horder ▸ List.mem_append_left _ hmem), horder,
        List.idxOf_append_of_mem hmem]
      omega
    · intro y hy
      have hmem := hback y hy
      have hnot : y ∉ before := fun h => hapart y h y (List.mem_cons_of_mem _ hmem) rfl
      have hne : shot ≠ y := fun heq => hshotAfter (heq ▸ hmem)
      rw [hrank, shotRank_eq_idxOf (horder ▸ List.mem_append_right _ (List.mem_cons_of_mem _ hmem)),
        horder, List.idxOf_append_of_notMem hnot, List.idxOf_cons_ne _ hne]
      omega

end SceneWorks.FilmAssembly
