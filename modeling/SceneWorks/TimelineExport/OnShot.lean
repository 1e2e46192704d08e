import SceneWorks.ProjectStore.Settle
import SceneWorks.TimelineExport.Standing

/-!
Exported sound against the exported picture, for the timelines the project store accepts.
-/

namespace SceneWorks.TimelineExport

open ProjectStore FilmTimeline

/-- An item with the window every accepted item has. -/
structure Timed (item : Json) : Prop where
  window : ∃ start stop : F64, item.get "timelineStart" = some (.float start.bits) ∧
    item.get "timelineEnd" = some (.float stop.bits) ∧ start.isFinite = true ∧
    stop.isFinite = true ∧ 0 ≤ start.toRat ∧ start.toRat < stop.toRat

theorem draws_mapM_mem {α β : Type} {f : α → Draws β} {xs : List α} {ys : List β}
    {s s' : List String} (hmap : (xs.mapM f) s = .ok (ys, s')) :
    ∀ y ∈ ys, ∃ x s₁ s₂, f x s₁ = .ok (y, s₂) := by
  induction xs generalizing ys s with
  | nil =>
      rw [List.mapM_nil, draws_pure_eq_ok] at hmap
      cases hmap
      simp
  | cons x xs ih =>
      simp only [List.mapM_cons, draws_bind_eq_ok, draws_pure_eq_ok] at hmap
      obtain ⟨y, s₁, hy, ys', s₂, hys, hresult⟩ := hmap
      cases hresult
      intro z hz
      obtain rfl | hz := List.mem_cons.mp hz
      · exact ⟨x, _, _, hy⟩
      · exact ih hys z hz

theorem validateF64Range_spec {payload : Json} {key : String} {min max : Bound} {value : F64}
    (h : validateF64Range payload key min max = .ok value) :
    value.isFinite = true ∧ F64.lt value min.value = false := by
  simp only [validateF64Range, Fallible.bind_eq_ok] at h
  obtain ⟨number, -, h⟩ := h
  split at h
  · cases h
  · next hrange =>
      cases h
      simp only [Bool.or_eq_true, Bool.not_eq_true', not_or, Bool.not_eq_true,
        Bool.not_eq_false] at hrange
      exact ⟨hrange.1.1, hrange.1.2⟩

theorem toRat_nonneg {value : F64} (h : value.isFinite = true)
    (hlow : F64.lt value (Bound.whole 0).value = false) : 0 ≤ value.toRat := by
  have hzero : (Bound.whole 0).value.isFinite = true := by decide +kernel
  have hvalue : (Bound.whole 0).value.toRat = 0 := by decide +kernel
  rw [Bool.eq_false_iff, ne_eq, F64.lt_iff_toRat h hzero, hvalue] at hlow
  exact not_lt.mp hlow

theorem ofF64_eq {x : F64} (h : x.isFinite = true) : Json.ofF64 x = .float x.bits := by
  rw [Json.ofF64, if_pos h]

/-- The window an accepted item is given back with. -/
theorem checkItem_timed {fields after : JsonObject} (h : checkItem fields = .ok after) :
    Timed (.obj after) := by
  simp only [checkItem, Fallible.bind_eq_ok] at h
  obtain ⟨_, -, _, -, numbers, hnumbers, _, -, _, -, _, hwindow, hversions⟩ := h
  simp only [itemNumbers, Fallible.bind_eq_ok] at hnumbers
  obtain ⟨sourceIn, -, sourceOut, -, start, hstart, stop, hstop, speed, -, _, -, volume, -,
    fadeIn, -, fadeOut, -, hresult⟩ := hnumbers
  cases hresult
  obtain ⟨hstart, hlow⟩ := validateF64Range_spec hstart
  obtain ⟨hstop, -⟩ := validateF64Range_spec hstop
  simp only [checkVersions, Fallible.bind_eq_ok] at hversions
  obtain ⟨_, -, _, -, versions, -, hresult⟩ := hversions
  cases hresult
  -- The window is read off the numbers written back, which nothing after them touches.
  have hgetStart : ∀ written : List (String × Json), JsonObject.get
      (JsonObject.write (withDefaults [("transitionIn", .null), ("transitionOut", .null)]
        (insertAll written fields)) "versionHistory" (.arr versions)) "timelineStart" =
      JsonObject.get (insertAll written fields) "timelineStart" := fun written => by
    rw [get_write_of_ne _ _ (by decide), get_withDefaults (by decide)]
  have hgetStop : ∀ written : List (String × Json), JsonObject.get
      (JsonObject.write (withDefaults [("transitionIn", .null), ("transitionOut", .null)]
        (insertAll written fields)) "versionHistory" (.arr versions)) "timelineEnd" =
      JsonObject.get (insertAll written fields) "timelineEnd" := fun written => by
    rw [get_write_of_ne _ _ (by decide), get_withDefaults (by decide)]
  have hwritten : ∀ key, key ∉ ["transitionIn", "transitionOut"] → ∀ written,
      number (.obj (withDefaults [("transitionIn", .null), ("transitionOut", .null)]
        (insertAll written fields))) key = number (.obj (insertAll written fields)) key := by
    intro key hkey written
    rw [number, number, Json.idx, Json.idx, Json.get_obj, Json.get_obj, get_withDefaults hkey]
  rw [validateWindow, hwritten _ (by decide), hwritten _ (by decide)] at hwindow
  have hstartValue := ofF64_eq hstart
  have hstopValue := ofF64_eq hstop
  refine ⟨start, stop, ?_, ?_, hstart, hstop, toRat_nonneg hstart hlow, ?_⟩
  · rw [Json.get_obj, hgetStart, ← hstartValue]
    simp [insertAll, JsonObject.get_insert]
  · rw [Json.get_obj, hgetStop, ← hstopValue]
    simp [insertAll, JsonObject.get_insert]
  · split at hwindow
    · cases hwindow
    · next hle =>
        have hnumbers : F64.le stop start = false := by
          simpa [number, Json.idx, insertAll, JsonObject.get_insert, hstartValue, hstopValue,
            Json.asF64] using hle
        rw [Bool.eq_false_iff, ne_eq, F64.le_iff_toRat hstop hstart] at hnumbers
        exact not_le.mp hnumbers

theorem validateTimelineItem_timed {item after : Json} {s s' : List String}
    (h : validateTimelineItem item s = .ok (after, s')) : Timed after := by
  rw [validateTimelineItem, draws_bind_eq_ok] at h
  obtain ⟨fields, s₁, -, h⟩ := h
  rw [draws_lift_bind_eq_ok] at h
  obtain ⟨checked, hcheck, h⟩ := h
  simp only [draws_bind_eq_ok, draws_pure_eq_ok] at h
  obtain ⟨withIn, s₂, hin, withOut, s₃, hout, hresult⟩ := h
  cases hresult
  have hget : ∀ key, "transitionIn" ≠ key → "transitionOut" ≠ key →
      (Json.obj withOut).get key = (Json.obj checked).get key := fun key hne hne' => by
    rw [Json.get_obj, validateItemTransition_get hne' hout, validateItemTransition_get hne hin,
      Json.get_obj]
  have hwindow := (checkItem_timed hcheck).window
  rw [← hget _ (by decide) (by decide), ← hget _ (by decide) (by decide)] at hwindow
  exact ⟨hwindow⟩

theorem validateTimelineTrack_timed {track after : Json} {s s' : List String}
    (h : validateTimelineTrack track s = .ok (after, s')) :
    ∀ items, itemsOf after = some items → ∀ item ∈ items, Timed item := by
  simp only [validateTimelineTrack, draws_lift_bind_eq_ok] at h
  obtain ⟨fields, -, checked, -, h⟩ := h
  simp only [draws_bind_eq_ok, draws_pure_eq_ok] at h
  obtain ⟨validated, s₁, heach, hresult⟩ := h
  obtain ⟨rfl, -⟩ := Prod.mk.inj hresult
  obtain ⟨xs, ys, s₂, s₃, -, hys, hafter, -⟩ := validateEach_spec heach
  intro items hitems item hitem
  rw [itemsOf, Json.get_obj, hafter, Option.bind_some, Json.asArray, Option.some.injEq] at hitems
  subst hitems
  obtain ⟨x, s₄, s₅, hx⟩ := draws_mapM_mem hys item hitem
  exact validateTimelineItem_timed hx

/-- Every picture item of an accepted timeline has a window. -/
theorem accepted_timed {raw timeline : Json} {s s' : List String}
    (h : validateAndDefaultTimeline raw s = .ok (timeline, s')) :
    ∀ item ∈ pictureItems timeline, Timed item := by
  simp only [validateAndDefaultTimeline, draws_lift_bind_eq_ok] at h
  obtain ⟨fields, -, _, -, h⟩ := h
  simp only [draws_bind_eq_ok, draws_pure_eq_ok] at h
  obtain ⟨tracked, s₁, htracks, final, s₂, htransitions, hresult⟩ := h
  obtain ⟨rfl, -⟩ := Prod.mk.inj hresult
  obtain ⟨xs, ys, s₃, s₄, -, hys, hafter, -⟩ := validateEach_spec htracks
  obtain ⟨-, -, -, -, -, -, -, hframe⟩ := validateEach_spec htransitions
  have helements : ((Json.obj final).idx "tracks").elements = ys := by
    rw [Json.idx, Json.get_obj, hframe _ (by decide), hafter]
    rfl
  intro item hitem
  rw [pictureItems, (List.perm_insertionSort startsBefore _).mem_iff, mainTrackItems, helements]
    at hitem
  cases hindex : pictureTrackIndex (.obj final) with
  | none => simp [hindex] at hitem
  | some index =>
      rw [hindex, Option.bind_some] at hitem
      cases htrack : ys[index]? with
      | none => simp [htrack] at hitem
      | some track =>
          rw [htrack, Option.bind_some] at hitem
          cases hitems : itemsOf track with
          | none => simp [hitems] at hitem
          | some items =>
              rw [hitems, Option.getD_some] at hitem
              obtain ⟨x, s₅, s₆, hx⟩ := draws_mapM_mem hys track (List.mem_of_getElem? htrack)
              exact validateTimelineTrack_timed hx items hitems item hitem

theorem itemF64_of_float {item : Json} {field : String} {x : F64}
    (h : item.get field = some (.float x.bits)) (hx : x.isFinite = true) (default : ℚ) :
    itemF64 item field default = x.toRat := by
  have hkept : Option.filter F64.isFinite (some x) = some x := by rw [Option.filter, if_pos hx]
  simp only [itemF64, h, valueF64, Json.asF64, Option.some_or, hkept]

def timelineStop (item : Json) : ℚ := itemF64 item "timelineEnd" (timelineStart item)

theorem Timed.bounds {item : Json} (h : Timed item) :
    0 ≤ timelineStart item ∧ timelineStart item < timelineStop item ∧
      ∀ default, itemF64 item "timelineEnd" default = timelineStop item := by
  obtain ⟨start, stop, hgetStart, hgetStop, hstart, hstop, hlow, hlt⟩ := h.window
  have hstopValue := itemF64_of_float hgetStop hstop
  rw [timelineStop, timelineStart, itemF64_of_float hgetStart hstart, hstopValue]
  exact ⟨hlow, hlt, hstopValue⟩

/-- The length an item is rendered with is its window, or the floor. -/
theorem Timed.rendered {item : Json} (h : Timed item) :
    renderItemSegment item = max (timelineStop item - timelineStart item) (1 / 10) := by
  obtain ⟨-, hlt, hstop⟩ := h.bounds
  simp only [renderItemSegment, hstop]
  exact if_pos (sub_pos.mpr hlt)

/-- The crossfade an item asks for. -/
def itemFade (item : Json) : Option ℚ :=
  if textOf (item.idx "transitionIn") "type" == some "crossfade" then
    some (crossfadeDuration
      (valueF64 ((item.idx "transitionIn").idx "duration") defaultTransitionDurationSeconds))
  else none

def Shot.ofItem (item : Json) : Shot :=
  ⟨item, timelineStart item, timelineStop item, itemFade item⟩

/-- The planned items; the first has a picture to fade from only when a gap comes before it. -/
def shotsOf : List Json → List Shot
  | [] => []
  | first :: rest =>
      { Shot.ofItem first with fade := if 0 < timelineStart first then itemFade first else none } ::
        rest.map Shot.ofItem

def pictureShots (timeline : Json) : List Shot := shotsOf (pictureItems timeline)

theorem planSegments_spec (cursor : ℚ) {items : List Json} (h : ∀ item ∈ items, Timed item) :
    ∃ plan total, planSegments cursor items = .ok (plan, total) ∧
      (render plan).map TimelineSegment.strip = stripsFrom cursor (items.map Shot.ofItem) := by
  induction items generalizing cursor with
  | nil => exact ⟨[], cursor, rfl, rfl⟩
  | cons item rest ih =>
      have hitem := h item List.mem_cons_self
      obtain ⟨-, hlt, -⟩ := hitem.bounds
      have hcursor : max (if cursor < timelineStart item then timelineStart item else cursor)
          (timelineStop item) = max cursor (timelineStop item) := by
        split
        · next hgap => rw [max_eq_right hlt.le, max_eq_right (hgap.trans hlt).le]
        · rfl
      obtain ⟨plan, total, hplan, hstrips⟩ := ih (max cursor (timelineStop item))
        fun other hother => h other (List.mem_cons_of_mem item hother)
      rw [planSegments]
      dsimp only
      rw [show itemF64 item "timelineEnd" (timelineStart item) = timelineStop item from rfl,
        if_neg (not_le.mpr hlt), hcursor, hplan]
      refine ⟨_, _, rfl, ?_⟩
      rw [List.map_cons, stripsFrom, render, List.flatMap_cons, List.map_append, ← render]
      refine congrArg₂ (· ++ ·) ?_ hstrips
      rw [pieces, List.map_append]
      refine congrArg₂ (· ++ ·) ?_ ?_
      · rw [show (Shot.ofItem item).start = timelineStart item from rfl]
        split
        · rfl
        · rfl
      · simp only [List.map_cons, List.map_nil, TimelineSegment.strip, hitem.rendered]
        rfl

/-- The first strip is cut to, whatever it asks for. -/
def cutFirst : List Strip → List Strip
  | [] => []
  | first :: rest => { first with fade := none } :: rest

theorem strips_eq (segments : List TimelineSegment) :
    strips segments = cutFirst (segments.map TimelineSegment.strip) := by
  cases segments <;> rfl

theorem cutFirst_stripsFrom (items : List Json) :
    cutFirst (stripsFrom 0 (items.map Shot.ofItem)) = stripsFrom 0 (shotsOf items) := by
  cases items with
  | nil => rfl
  | cons first rest =>
      rw [List.map_cons, stripsFrom, shotsOf, stripsFrom, pieces, pieces]
      by_cases hgap : 0 < timelineStart first
      · have hgap' : 0 < (Shot.ofItem first).start := hgap
        rw [if_pos hgap', if_pos hgap]
        rfl
      · have hgap' : ¬ 0 < (Shot.ofItem first).start := hgap
        rw [if_neg hgap', if_neg hgap]
        rfl

theorem windowed_shotsOf {items : List Json} (h : ∀ item ∈ items, Timed item) :
    Windowed (shotsOf items) := by
  cases items with
  | nil => exact fun shot hshot => absurd hshot List.not_mem_nil
  | cons first rest =>
      intro shot hshot
      obtain rfl | hshot := List.mem_cons.mp hshot
      · obtain ⟨hlow, hlt, -⟩ := (h first List.mem_cons_self).bounds
        exact ⟨hlow, hlt⟩
      · obtain ⟨item, hitem, rfl⟩ := List.mem_map.mp hshot
        obtain ⟨hlow, hlt, -⟩ := (h item (List.mem_cons_of_mem first hitem)).bounds
        exact ⟨hlow, hlt⟩

/-- What an accepted timeline with a picture item is exported as. -/
theorem exportSegments_spec {timeline : Json} (hne : mainTrackItems timeline ≠ [])
    (h : ∀ item ∈ pictureItems timeline, Timed item) :
    ∃ segments, exportSegments timeline = .ok segments ∧
      strips segments = stripsFrom 0 (pictureShots timeline) := by
  have hsome : pictureItems timeline ≠ [] := by
    intro hnil
    have hperm := List.perm_insertionSort startsBefore (mainTrackItems timeline)
    rw [← pictureItems, hnil] at hperm
    exact hne hperm.nil_eq.symm
  obtain ⟨plan, total, hplan, hstrips⟩ := planSegments_spec 0 h
  refine ⟨render plan, ?_, ?_⟩
  · rw [exportSegments, if_neg (by simpa using hsome), hplan]
    rfl
  · rw [strips_eq, hstrips, cutFirst_stripsFrom, pictureShots]

/-- The exported starts of the picture items, in the order they are planned. -/
def pictureStarts (segments : List TimelineSegment) : List (Json × ℚ) :=
  (segments.zip (muxSegments segments).starts).filterMap fun entry =>
    entry.1.shows.map fun item => (item, entry.2)

/-- Exported sound sits on its shot. -/
structure OnShot (timeline : Json) (segments : List TimelineSegment) : Prop where
  starts : ∀ shown ∈ pictureStarts segments,
    shown.2 = (PictureTiming.fromSegments segments).pictureTime (timelineStart shown.1)
  length : (muxSegments segments).length = (PictureTiming.fromSegments segments).duration
  sound : ∀ placed ∈ placements timeline (PictureTiming.fromSegments segments),
    ∀ shown ∈ pictureStarts segments, max (timelineStart placed.1) 0 = timelineStart shown.1 →
      placed.2.pictureStart = shown.2

/-- Each item is as late as the crossfades pending at its start, and what the last crossfade did
not find is owed to no item and not to the end. -/
def InStep (rows : List Standing) : Prop :=
  (∀ row ∈ rows, row.lateness + row.unpaid = max (pending rows row) (row.faded - row.start)) ∧
    ∀ row ∈ rows.getLast?, row.unpaid = 0

theorem zip_reel (head : Head) (rest : List TimelineSegment) :
    (rest.zip ((reel head (rest.map TimelineSegment.strip)).map Frame.start)).filterMap
        (fun entry => entry.1.shows.map fun item => (item, entry.2)) =
      shownStarts (reel head (rest.map TimelineSegment.strip)) := by
  induction rest generalizing head with
  | nil => rfl
  | cons segment rest ih =>
      rw [List.map_cons, reel, List.map_cons, List.zip_cons_cons, shownStarts,
        List.filterMap_cons, List.filterMap_cons, ih, shownStarts]
      rfl

theorem pictureStarts_eq (segments : List TimelineSegment) :
    pictureStarts segments = shownStarts (reel Head.still (strips segments)) := by
  rw [pictureStarts, muxSegments_eq]
  cases segments with
  | nil => rfl
  | cons first rest =>
      rw [strips, reel, List.map_cons, List.zip_cons_cons, shownStarts, List.filterMap_cons,
        List.filterMap_cons, zip_reel, shownStarts]
      rfl

theorem placeItem_start {timing : PictureTiming} {bus : Bus} {item : Json}
    {placement : AudioPlacement} (h : placeItem timing bus item = some placement) :
    placement.pictureStart = timing.pictureTime (max (timelineStart item) 0) := by
  simp only [placeItem] at h
  split at h
  · cases h
  · obtain ⟨assetId, -, h⟩ := Option.bind_eq_some_iff.mp h
    split at h
    · cases h
    · cases h
      rfl

/-- Every placement starts where the clock puts its item. -/
theorem placements_start {timeline : Json} {timing : PictureTiming} :
    ∀ placed ∈ placements timeline timing,
      placed.2.pictureStart = timing.pictureTime (max (timelineStart placed.1) 0) := by
  intro placed hplaced
  obtain ⟨entry, -, hentry⟩ := List.mem_flatMap.mp hplaced
  simp only [placeTrack] at hentry
  split at hentry
  · exact absurd hentry List.not_mem_nil
  · split at hentry
    · exact absurd hentry List.not_mem_nil
    · obtain ⟨item, -, hitem⟩ := List.mem_filterMap.mp hentry
      obtain ⟨placement, hplacement, rfl⟩ := Option.map_eq_some_iff.mp hitem
      exact placeItem_start hplacement

theorem standings_item (count : Count) {shots : List Shot}
    (h : ∀ shot ∈ shots, shot.start = timelineStart shot.item) :
    ∀ row ∈ standings count shots, row.start = timelineStart row.item := by
  induction shots generalizing count with
  | nil => simp [standings]
  | cons shot rest ih =>
      intro row hrow
      obtain rfl | hrow := List.mem_cons.mp hrow
      · exact h shot List.mem_cons_self
      · exact ih (count.next shot) (fun other hother => h other (List.mem_cons_of_mem _ hother)) row
          hrow

theorem standings_items (count : Count) (shots : List Shot) :
    (standings count shots).map Standing.item = shots.map Shot.item := by
  induction shots generalizing count with
  | nil => rfl
  | cons shot rest ih =>
      rw [standings, List.map_cons, List.map_cons, ih]
      rfl

theorem shotsOf_items (items : List Json) : (shotsOf items).map Shot.item = items := by
  cases items with
  | nil => rfl
  | cons first rest =>
      rw [shotsOf, List.map_cons, List.map_map]
      exact congrArg (first :: ·) (List.map_id rest)

theorem shotsOf_start (items : List Json) :
    ∀ shot ∈ shotsOf items, shot.start = timelineStart shot.item := by
  cases items with
  | nil => exact fun shot hshot => absurd hshot List.not_mem_nil
  | cons first rest =>
      intro shot hshot
      obtain rfl | hshot := List.mem_cons.mp hshot
      · rfl
      · obtain ⟨item, -, rfl⟩ := List.mem_map.mp hshot
        rfl

section Exported

variable {timeline : Json} {segments : List TimelineSegment}

theorem pictureStarts_standings (htimed : ∀ item ∈ pictureItems timeline, Timed item)
    (hstrips : strips segments = stripsFrom 0 (pictureShots timeline)) :
    pictureStarts segments = (standings Count.zero (pictureShots timeline)).map
      fun row => (row.item, row.exported) := by
  have hreel := shownStarts_reel Count.zero (windowed_shotsOf htimed)
  have hhead : Count.zero.head = Head.still := by simp [Count.head, Count.zero, Head.still]
  rw [hhead] at hreel
  rw [pictureStarts_eq, hstrips]
  exact hreel

/-- The clock's answer for a picture item, in its standing's numbers. -/
theorem pictureTime_standing (hne : segments ≠ [])
    (htimed : ∀ item ∈ pictureItems timeline, Timed item)
    (hstrips : strips segments = stripsFrom 0 (pictureShots timeline)) {row : Standing}
    (hrow : row ∈ standings Count.zero (pictureShots timeline)) :
    (PictureTiming.fromSegments segments).pictureTime row.start = max (row.start -
      (row.faded - pending (standings Count.zero (pictureShots timeline)) row)) 0 := by
  have hwindowed := windowed_shotsOf htimed
  have hstart := (lateness_nonneg sound_zero hwindowed row hrow).2
  have htable := absorbedAt_reel Count.zero row.start hwindowed
  have hhead : Count.zero.head = Head.still := by simp [Count.head, Count.zero, Head.still]
  have hfades := fadesBy_start hwindowed hrow
  rw [hhead, show Count.zero.faded = 0 from rfl, zero_add] at htable
  rw [pictureTime_eq hne hstart, hstrips]
  refine congrArg (fun absorbed => max (row.start - absorbed) 0) ?_
  exact htable.trans hfades

theorem exported_iff (row : Standing) (due : ℚ) :
    row.exported = max (row.start - (row.faded - due)) 0 ↔
      row.lateness + row.unpaid = max due (row.faded - row.start) := by
  have hmax : max (row.start - (row.faded - due)) 0 =
      row.start - row.faded + max due (row.faded - row.start) := by
    rcases le_total due (row.faded - row.start) with hle | hle
    · rw [max_eq_right (by linarith), max_eq_right hle]
      ring
    · rw [max_eq_left (by linarith), max_eq_left hle]
      ring
  rw [hmax, Standing.exported, Standing.place]
  constructor
  · intro h
    linarith
  · intro h
    linarith

/-- The joined picture is as long as the clock says exactly when nothing is owed at the end. -/
theorem length_iff (hne : segments ≠ []) (hsome : pictureShots timeline ≠ [])
    (htimed : ∀ item ∈ pictureItems timeline, Timed item)
    (hstrips : strips segments = stripsFrom 0 (pictureShots timeline)) :
    (muxSegments segments).length = (PictureTiming.fromSegments segments).duration ↔
      (countEnd Count.zero (pictureShots timeline)).unpaid = 0 := by
  have hwindowed := windowed_shotsOf htimed
  have hend := reelEnd_shots Count.zero hwindowed
  have hhead : Count.zero.head = Head.still := by simp [Count.head, Count.zero, Head.still]
  obtain ⟨⟨-, hunpaid, -⟩, hpos⟩ := sound_end sound_zero hwindowed hsome
  rw [hhead] at hend
  have hfinal : reelEnd Head.still (strips segments) =
      (countEnd Count.zero (pictureShots timeline)).head := by
    rw [hstrips]
    exact hend
  rw [muxSegments_eq, duration_eq hne, hfinal]
  simp only [pictureShots, Count.head] at hpos hunpaid ⊢
  constructor
  · intro h
    obtain ⟨hmax, -⟩ | ⟨hmax, -⟩ := max_cases
      ((countEnd Count.zero (shotsOf (pictureItems timeline))).reach +
        (countEnd Count.zero (shotsOf (pictureItems timeline))).surplus -
          (countEnd Count.zero (shotsOf (pictureItems timeline))).faded) 0
    · linarith
    · linarith
  · intro h
    rw [max_eq_left (by linarith)]
    linarith

theorem starts_iff (hne : segments ≠ []) (htimed : ∀ item ∈ pictureItems timeline, Timed item)
    (hstrips : strips segments = stripsFrom 0 (pictureShots timeline)) :
    (∀ shown ∈ pictureStarts segments,
      shown.2 = (PictureTiming.fromSegments segments).pictureTime (timelineStart shown.1)) ↔
      ∀ row ∈ standings Count.zero (pictureShots timeline), row.lateness + row.unpaid =
        max (pending (standings Count.zero (pictureShots timeline)) row)
          (row.faded - row.start) := by
  rw [pictureStarts_standings htimed hstrips, List.forall_mem_map]
  refine forall₂_congr fun row hrow => ?_
  have hitem := standings_item Count.zero (shotsOf_start (pictureItems timeline)) row hrow
  dsimp only
  rw [← hitem, pictureTime_standing hne htimed hstrips hrow, exported_iff]

theorem unpaid_iff_last (timeline : Json) :
    (countEnd Count.zero (pictureShots timeline)).unpaid = 0 ↔
      ∀ row ∈ (standings Count.zero (pictureShots timeline)).getLast?, row.unpaid = 0 := by
  rw [countEnd_unpaid]
  cases (standings Count.zero (pictureShots timeline)).getLast? with
  | none => simp [Count.zero]
  | some row => simp

end Exported

/-- An accepted timeline is exported, every picture item has its segment, and the sound sits on
the shots exactly when the items are in step. -/
theorem sound_on_shot_iff {raw timeline : Json} {draws rest : List String}
    (haccepted : validateAndDefaultTimeline raw draws = .ok (timeline, rest))
    (hpicture : mainTrackItems timeline ≠ []) :
    ∃ segments, exportSegments timeline = .ok segments ∧
      (pictureStarts segments).map Prod.fst = pictureItems timeline ∧
      (OnShot timeline segments ↔ InStep (standings Count.zero (pictureShots timeline))) := by
  have htimed := accepted_timed haccepted
  obtain ⟨segments, hexport, hstrips⟩ := exportSegments_spec hpicture htimed
  have hitems : (pictureStarts segments).map Prod.fst = pictureItems timeline := by
    rw [pictureStarts_standings htimed hstrips, List.map_map]
    exact (standings_items Count.zero _).trans (shotsOf_items _)
  have hshots : pictureShots timeline ≠ [] := by
    intro hnil
    have hnone := shotsOf_items (pictureItems timeline)
    rw [← pictureShots, hnil] at hnone
    have hperm := List.perm_insertionSort startsBefore (mainTrackItems timeline)
    rw [← pictureItems, ← hnone] at hperm
    exact hpicture hperm.nil_eq.symm
  have hsegments : segments ≠ [] := by
    intro hnil
    rw [hnil] at hitems
    rw [pictureShots, ← hitems] at hshots
    exact hshots rfl
  have hstarts := starts_iff hsegments htimed hstrips
  have hlength := (length_iff hsegments hshots htimed hstrips).trans (unpaid_iff_last timeline)
  refine ⟨segments, hexport, hitems, ?_, ?_⟩
  · intro h
    exact ⟨hstarts.mp h.starts, hlength.mp h.length⟩
  · intro h
    refine ⟨hstarts.mpr h.1, hlength.mpr h.2, ?_⟩
    intro placed hplaced shown hshown hsame
    rw [placements_start placed hplaced, hsame, hstarts.mpr h.1 shown hshown]

/-- Rows that are in time, each crossfade paid, are in step. -/
theorem inStep_of_timely {rows : List Standing}
    (h : ∀ row ∈ rows, row.lateness = 0 ∧ row.unpaid = 0 ∧ row.faded ≤ row.start) :
    InStep rows := by
  refine ⟨?_, fun row hrow => (h row (List.mem_of_getLast? hrow)).2.1⟩
  intro row hrow
  obtain ⟨hlate, hunpaid, hfaded⟩ := h row hrow
  have hpending : pending rows row = 0 := by
    have hnone : rows.filter (fun other => row.start + slack < other.place ∧
        other.place ≤ row.place) = [] := by
      rw [List.filter_eq_nil_iff]
      intro other _
      have hplace : row.place = row.start := by rw [Standing.place, hlate, add_zero]
      have hslack := slack_nonneg
      simp only [hplace, decide_eq_true_eq, not_and, not_le]
      intro hlt
      linarith
    rw [pending, hnone]
    rfl
  rw [hlate, hunpaid, hpending, max_eq_left (by linarith), add_zero]

/-- Picture items that follow one another, each long enough to render and no crossfade longer than
the picture before it; before the first item there is the gap. -/
structure Apart (items : List Json) : Prop where
  follow : items.IsChain fun earlier later => timelineStop earlier ≤ timelineStart later ∧
    (itemFade later).getD 0 ≤ timelineStop earlier - timelineStart earlier
  long : ∀ item ∈ items, 1 / 10 ≤ timelineStop item - timelineStart item
  first : ∀ item ∈ items.head?, 0 < timelineStart item →
    (itemFade item).getD 0 ≤ timelineStart item

theorem follows_shotsOf {items : List Json} (h : Apart items) :
    (shotsOf items).IsChain Follows := by
  cases items with
  | nil => exact .nil
  | cons first rest =>
      obtain ⟨hhead, htail⟩ := List.isChain_cons.mp h.follow
      refine List.isChain_cons.mpr ⟨?_, (List.isChain_map Shot.ofItem).mpr htail⟩
      intro second hsecond
      rw [List.head?_map] at hsecond
      obtain ⟨item, hitem, rfl⟩ := Option.map_eq_some_iff.mp hsecond
      exact hhead item hitem

/-- Picture items that follow one another are in step. -/
theorem inStep_of_apart {timeline : Json} (htimed : ∀ item ∈ pictureItems timeline, Timed item)
    (h : Apart (pictureItems timeline)) :
    InStep (standings Count.zero (pictureShots timeline)) := by
  have hwindowed := windowed_shotsOf htimed
  rw [pictureShots]
  generalize pictureItems timeline = items at h hwindowed
  cases items with
  | nil => exact inStep_of_timely fun row hrow => absurd hrow List.not_mem_nil
  | cons first rest =>
      refine inStep_of_timely (standings_of_follows hwindowed ?_ (follows_shotsOf h) ?_ rfl rfl)
      · intro shot hshot
        obtain rfl | hshot := List.mem_cons.mp hshot
        · exact h.long first List.mem_cons_self
        · obtain ⟨item, hitem, rfl⟩ := List.mem_map.mp hshot
          exact h.long item (List.mem_cons_of_mem _ hitem)
      · intro shot hshot
        have hstart := (hwindowed shot (List.mem_of_mem_head? hshot)).1
        cases hshot
        refine ⟨hstart, ?_⟩
        by_cases hgap : 0 < timelineStart first
        · simpa [Count.zero, hgap, Shot.ofItem] using h.first first rfl hgap
        · simpa [Count.zero, hgap] using hstart

def cutItem (id : String) (start stop : Nat) (transition : Json) : Json :=
  .obj [("id", .str id), ("trackId", .str "track_main"), ("assetId", .str id),
    ("displayName", .str id), ("timelineStart", .ofF64 (F64.ofRatio start 4)),
    ("timelineEnd", .ofF64 (F64.ofRatio stop 4)), ("transitionIn", transition)]

def crossfadeOf (seconds : Nat) : Json :=
  .obj [("id", .str "fade"), ("type", .str "crossfade"), ("duration", .int seconds)]

def soundItem (start stop : Nat) : Json :=
  .obj [("id", .str "line"), ("trackId", .str "track_dialogue"), ("assetId", .str "line"),
    ("displayName", .str "line"), ("type", .str "audio"),
    ("timelineStart", .ofF64 (F64.ofRatio start 4)), ("timelineEnd", .ofF64 (F64.ofRatio stop 4))]

def cutOf (picture sound : List Json) : Json :=
  .obj [("tracks", .arr [
    .obj [("id", .str "track_main"), ("name", .str "Main"), ("kind", .str "video"),
      ("items", .arr picture)],
    .obj [("id", .str "track_dialogue"), ("name", .str "Dialogue"), ("kind", .str "audio"),
      ("items", .arr sound)]])]

/-- A quarter of a second is all the one-second crossfade has to take; the next shot is cut to, with
a line of dialogue on it. -/
def clippedCut : Json :=
  cutOf [cutItem "a" 0 1 .null, cutItem "b" 1 17 (crossfadeOf 1), cutItem "c" 17 25 .null]
    [soundItem 17 25]

/-- The timeline a document is accepted as. -/
def acceptedAs (raw : Json) : Json :=
  match validateAndDefaultTimeline raw [] with
  | .ok (timeline, _) => timeline
  | .error _ => .null

def segmentsOf (timeline : Json) : List TimelineSegment :=
  match exportSegments timeline with
  | .ok segments => segments
  | .error _ => []

theorem acceptedAs_eq {raw : Json} (h : acceptedAs raw ≠ .null) :
    ∃ rest, validateAndDefaultTimeline raw [] = .ok (acceptedAs raw, rest) := by
  rw [acceptedAs] at h ⊢
  cases hvalidate : validateAndDefaultTimeline raw [] with
  | error e => simp [hvalidate] at h
  | ok result => exact ⟨result.2, rfl⟩

theorem segmentsOf_eq {timeline : Json} (h : segmentsOf timeline ≠ []) :
    exportSegments timeline = .ok (segmentsOf timeline) := by
  rw [segmentsOf] at h ⊢
  cases hexport : exportSegments timeline with
  | error e => simp [hexport] at h
  | ok segments => rfl

/-- The crossfade's offset stops at zero and the clock goes on: the third shot appears at 4 s, the
clock puts its line at 3.25 s and ends the sound 0.75 s before the picture. -/
theorem clipped_crossfade_drifts : ∃ timeline rest segments,
    validateAndDefaultTimeline clippedCut [] = .ok (timeline, rest) ∧
      mainTrackItems timeline ≠ [] ∧ exportSegments timeline = .ok segments ∧
      (pictureStarts segments).map Prod.snd = [0, 0, 4] ∧
      (audioPlacements timeline (PictureTiming.fromSegments segments)).map
        AudioPlacement.pictureStart = [13 / 4] ∧ ¬ OnShot timeline segments := by
  -- One evaluation of the accepted document serves all that is asked of it.
  have hvalues : acceptedAs clippedCut ≠ .null ∧ mainTrackItems (acceptedAs clippedCut) ≠ [] ∧
      (segmentsOf (acceptedAs clippedCut)).length = 3 ∧
      (pictureStarts (segmentsOf (acceptedAs clippedCut))).map Prod.snd = [0, 0, 4] ∧
      (audioPlacements (acceptedAs clippedCut) (PictureTiming.fromSegments
        (segmentsOf (acceptedAs clippedCut)))).map AudioPlacement.pictureStart = [13 / 4] ∧
      (muxSegments (segmentsOf (acceptedAs clippedCut))).length ≠
        (PictureTiming.fromSegments (segmentsOf (acceptedAs clippedCut))).duration := by
    decide +kernel
  obtain ⟨hnull, hitems, hsegments, hstarts, hplaced, hlength⟩ := hvalues
  obtain ⟨rest, haccepted⟩ := acceptedAs_eq hnull
  have hexport := segmentsOf_eq fun hnil => by
    rw [hnil] at hsegments
    cases hsegments
  exact ⟨acceptedAs clippedCut, rest, _, haccepted, hitems, hexport, hstarts, hplaced,
    fun h => hlength h.length⟩

/-- A second of crossfade out of four. -/
def steadyCut : Json :=
  cutOf [cutItem "a" 0 16 .null, cutItem "b" 16 32 (crossfadeOf 1), cutItem "c" 32 48 .null]
    [soundItem 32 48]

theorem steady_cut_on_shot : ∃ segments, exportSegments (acceptedAs steadyCut) = .ok segments ∧
    (pictureStarts segments).map Prod.snd = [0, 3, 7] ∧ OnShot (acceptedAs steadyCut) segments := by
  have hvalues : acceptedAs steadyCut ≠ .null ∧ mainTrackItems (acceptedAs steadyCut) ≠ [] ∧
      (pictureStarts (segmentsOf (acceptedAs steadyCut))).map Prod.snd = [0, 3, 7] ∧
      (pictureItems (acceptedAs steadyCut)).map timelineStart = [0, 4, 8] ∧
      (pictureItems (acceptedAs steadyCut)).map timelineStop = [4, 8, 12] ∧
      (pictureItems (acceptedAs steadyCut)).map itemFade = [none, some 1, none] := by
    decide +kernel
  obtain ⟨hnull, hitems, hstarts, hfrom, hto, hfades⟩ := hvalues
  obtain ⟨rest, haccepted⟩ := acceptedAs_eq hnull
  obtain ⟨segments, hexport, -, hiff⟩ := sound_on_shot_iff haccepted hitems
  rw [segmentsOf, hexport] at hstarts
  refine ⟨segments, hexport, hstarts, hiff.mpr (inStep_of_apart (accepted_timed haccepted) ?_)⟩
  generalize pictureItems (acceptedAs steadyCut) = items at hfrom hto hfades
  obtain ⟨first, second, third, rfl⟩ := List.length_eq_three.mp
    (by simpa using congrArg List.length hfrom : items.length = 3)
  simp only [List.map_cons, List.map_nil, List.cons.injEq, and_true] at hfrom hto hfades
  obtain ⟨hfirst, hsecond, hthird⟩ := hfrom
  obtain ⟨hfirst', hsecond', hthird'⟩ := hto
  obtain ⟨hcut, hfade, hcut'⟩ := hfades
  refine ⟨?_, ?_, ?_⟩
  · simp [List.isChain_cons_cons, hfirst', hsecond, hsecond', hthird, hfade, hcut', hfirst]
    norm_num
  · simp [hfirst, hfirst', hsecond, hsecond', hthird, hthird']
    norm_num
  · simp [hfirst]

end SceneWorks.TimelineExport
