import SceneWorks.FilmTimeline.Deliver
import SceneWorks.FilmTimeline.Slots
import SceneWorks.Library.Fallible

/-!
What a delivery can change. The film harness records of the picture items are the marks a
later delivery goes by; all the code that moves, stretches and re-sorts items leaves them
as they are. `Frame` collects what every step of a delivery keeps: the other runs, the
slots and the tombstones of its own run, and the pictures, save one for a shot that is
not deleted.
-/

namespace SceneWorks.FilmTimeline

/-- `field` on the film harness record itself. -/
def markField (mark : Option Json) (key : String) : String :=
  ((mark.bind (·.get key)).bind Json.asStr).getD ""

theorem field_eq_markField (item : Json) (key : String) :
    field item key = markField (item.get "filmHarness") key := rfl

def isPictureMark (mark : Option Json) : Bool := markField mark "role" == "picture"

def trackMarks (track : Json) : List (Option Json) :=
  ((trackItems track).map (·.get "filmHarness")).filter isPictureMark

/-- The film harness records of the picture items, in track order. -/
def pictureMarks (timeline : Json) : List (Option Json) :=
  (tracks timeline).flatMap trackMarks

def isShotMark (run shot : String) (mark : Option Json) : Bool :=
  markField mark "runId" == run && markField mark "shotId" == shot

theorem isShotPicture_iff {run shot : String} {item : Json} :
    isShotPicture run shot item = true ↔
      isShotMark run shot (item.get "filmHarness") = true ∧
        isPictureMark (item.get "filmHarness") = true :=
  Bool.and_eq_true_iff

def HasPicture (timeline : Json) (run shot : String) : Prop :=
  ∃ mark ∈ pictureMarks timeline, isShotMark run shot mark = true

theorem mem_pictureMarks {timeline : Json} {mark : Option Json} :
    mark ∈ pictureMarks timeline ↔
      ∃ item ∈ items timeline, item.get "filmHarness" = mark ∧ isPictureMark mark = true := by
  simp only [pictureMarks, trackMarks, items, List.mem_flatMap, List.mem_filter, List.mem_map]
  constructor
  · intro h
    obtain ⟨track, htrack, ⟨item, hitem, rfl⟩, hmark⟩ := h
    exact ⟨item, ⟨track, htrack, hitem⟩, rfl, hmark⟩
  · intro h
    obtain ⟨item, ⟨track, htrack, hitem⟩, rfl, hmark⟩ := h
    exact ⟨track, htrack, ⟨item, hitem, rfl⟩, hmark⟩

/-- A picture the reconciliation sees is a mark of a named run. -/
theorem exists_picture_iff {timeline : Json} {run shot : String} :
    (∃ item ∈ pictures timeline, field item "runId" = run ∧ field item "shotId" = shot) ↔
      run ≠ "" ∧ HasPicture timeline run shot := by
  simp only [HasPicture, mem_pictureMarks, pictures, List.mem_filter, isPicture, isShotMark,
    Bool.and_eq_true, beq_iff_eq, bne_iff_ne]
  constructor
  · intro h
    obtain ⟨item, ⟨hitem, hrole, hrun⟩, rfl, rfl⟩ := h
    exact ⟨hrun, _, ⟨item, hitem, rfl, by simpa [isPictureMark, field_eq_markField] using hrole⟩,
      rfl, rfl⟩
  · intro h
    obtain ⟨hrun, _, ⟨item, hitem, rfl, hmark⟩, rfl, rfl⟩ := h
    exact ⟨item, ⟨hitem, by simpa [isPictureMark, field_eq_markField] using hmark, hrun⟩, rfl, rfl⟩

theorem pictureMarks_congr {a b : Json} (h : a.get "tracks" = b.get "tracks") :
    pictureMarks a = pictureMarks b := by
  simp only [pictureMarks, tracks, Json.idx, h]

/-- The marks of a document whose tracks were just written. -/
theorem pictureMarks_put {timeline after : Json} {ts : List Json}
    (h : timeline.put ["tracks"] (.arr ts) = some after) :
    pictureMarks after = ts.flatMap trackMarks := by
  have hidx : some (Json.arr ts) = some (after.idx "tracks") := Json.idx_edit_self h
  rw [pictureMarks, tracks, ← Option.some.inj hidx]
  rfl

theorem mapM_eq_map {α β : Type} {f : α → Option α} {g : α → β}
    (h : ∀ x y, f x = some y → g y = g x) {xs ys : List α} (hmap : xs.mapM f = some ys) :
    ys.map g = xs.map g := by
  induction xs generalizing ys with
  | nil =>
      cases hmap
      rfl
  | cons x xs ih =>
      simp only [List.mapM_cons, Option.bind_eq_bind, Option.bind_eq_some_iff] at hmap
      obtain ⟨y, hy, ys', hys, hresult⟩ := hmap
      cases hresult
      rw [List.map_cons, List.map_cons, h x y hy, ih hys]

theorem flatMap_eq_of_mapM {α β : Type} {f : α → Option α} {g : α → List β}
    (h : ∀ x y, f x = some y → g y = g x) {xs ys : List α} (hmap : xs.mapM f = some ys) :
    ys.flatMap g = xs.flatMap g := by
  rw [List.flatMap_def, List.flatMap_def, mapM_eq_map h hmap]

theorem trackItems_put {track after : Json} {xs : List Json}
    (h : track.put ["items"] (.arr xs) = some after) : trackItems after = xs := by
  have hidx : some (Json.arr xs) = some (after.idx "items") := Json.idx_edit_self h
  rw [trackItems, ← Option.some.inj hidx]
  rfl

/-- Marks of a list of items: what `trackMarks` computes from. -/
def itemMarks (xs : List Json) : List (Option Json) :=
  (xs.map (·.get "filmHarness")).filter isPictureMark

theorem itemMarks_mapM {f : Json → Option Json}
    (h : ∀ x y, f x = some y → itemMarks [y] = itemMarks [x]) {xs ys : List Json}
    (hmap : xs.mapM f = some ys) : itemMarks ys = itemMarks xs := by
  induction xs generalizing ys with
  | nil =>
      cases hmap
      rfl
  | cons x xs ih =>
      simp only [List.mapM_cons, Option.bind_eq_bind, Option.bind_eq_some_iff] at hmap
      obtain ⟨y, hy, ys', hys, hresult⟩ := hmap
      cases hresult
      have hcons : ∀ (z : Json) zs, itemMarks (z :: zs) = itemMarks [z] ++ itemMarks zs := by
        intro z zs
        simp [itemMarks, List.filter_cons]
        split <;> rfl
      rw [hcons y, hcons x, h x y hy, ih hys]

theorem itemMarks_single_congr {x y : Json} (h : y.get "filmHarness" = x.get "filmHarness") :
    itemMarks [y] = itemMarks [x] := by
  simp [itemMarks, h]

theorem trackMarks_editItems {track after : Json} {f : Json → Option Json}
    (hf : ∀ x y, f x = some y → itemMarks [y] = itemMarks [x])
    (h : editItems track f = some after) : trackMarks after = trackMarks track := by
  have hmarks : ∀ t, trackMarks t = itemMarks (trackItems t) := fun _ => rfl
  rw [hmarks, hmarks]
  cases hitems : track.idx "items" with
  | arr xs =>
      simp only [editItems, hitems, Option.bind_eq_bind, Option.bind_eq_some_iff] at h
      obtain ⟨ys, hys, hput⟩ := h
      rw [trackItems_put hput, itemMarks_mapM hf hys, trackItems, hitems]
      rfl
  | _ =>
      simp only [editItems, hitems] at h
      have hidx := Json.idx_edit_self h
      simp only [Json.edit_nil, Option.some.injEq] at hidx
      rw [trackItems, trackItems, ← hidx, hitems]

theorem get_shiftItem {length : F64} {item after : Json} (h : shiftItem length item = some after) :
    after.get "filmHarness" = item.get "filmHarness" := by
  simp only [shiftItem, Option.bind_eq_bind, Option.bind_eq_some_iff] at h
  obtain ⟨middle, hmiddle, hafter⟩ := h
  rw [Json.get_edit_of_ne hafter (by decide), Json.get_edit_of_ne hmiddle (by decide)]

/-- A write inside the film harness record that leaves the role alone. -/
theorem field_put_harness {item after value : Json} {key other : String} (hne : key ≠ other)
    (h : item.put ["filmHarness", key] value = some after) :
    field after other = field item other := by
  obtain ⟨record, hrecord, hget⟩ := Json.get_edit_self h
  have hinner : (record.get other) = ((item.idx "filmHarness").get other) :=
    Json.get_edit_of_ne hrecord hne
  rw [field, hget, Option.bind_some, hinner, field, Json.idx]
  cases item.get "filmHarness" <;> rfl

theorem field_stamp {item after : Json} (h : stampSequenceBedAlignment item = some after)
    {key : String} (hkey : key = "role" ∨ key = "runId" ∨ key = "shotId") :
    field after key = field item key := by
  by_cases hbed : isSequenceBed item = true
  · simp only [stampSequenceBedAlignment, hbed, Bool.not_true, Bool.false_eq_true, if_false,
      Option.bind_eq_bind, Option.bind_eq_some_iff] at h
    obtain ⟨a, ha, b, hb, c, hc, hd⟩ := h
    have hne : ∀ aligned ∈ ["alignedTimelineStart", "alignedTimelineEnd", "alignedSourceIn",
        "alignedSourceOut"], aligned ≠ key := by
      obtain rfl | rfl | rfl := hkey <;> decide
    rw [field_put_harness (hne _ (by simp)) hd, field_put_harness (hne _ (by simp)) hc,
      field_put_harness (hne _ (by simp)) hb, field_put_harness (hne _ (by simp)) ha]
  · simp only [stampSequenceBedAlignment, Bool.not_eq_true] at h hbed
    rw [hbed] at h
    cases h
    rfl

theorem itemMarks_of_not_picture {item : Json} (h : field item "role" ≠ "picture") :
    itemMarks [item] = [] := by
  have hmark : isPictureMark (item.get "filmHarness") = false := by
    rw [isPictureMark, ← field_eq_markField]
    simpa using h
  simp [itemMarks, hmark]

theorem isSequenceBed_not_picture {item : Json} (h : isSequenceBed item = true) :
    field item "role" ≠ "picture" := by
  intro hrole
  simp [isSequenceBed, hrole] at h

/-- A bed is no picture, before and after it was stretched. -/
theorem itemMarks_extendBed {incoming : Json} {run : String} {oldDuration newDuration : F64}
    {item after : Json} (h : extendBed incoming run oldDuration newDuration item = some after) :
    itemMarks [after] = itemMarks [item] := by
  simp only [extendBed] at h
  split at h
  · cases h
    rfl
  · next hbed =>
      have hbed' : field item "runId" = run ∧ isSequenceBed item = true := by simpa using hbed
      have hrole := isSequenceBed_not_picture hbed'.2
      split at h
      · simp only [Option.bind_eq_bind, Option.bind_eq_some_iff] at h
        obtain ⟨a, ha, b, hb, hc⟩ := h
        have hrole' : field after "role" = field item "role" := by
          rw [field_stamp hc (.inl rfl), field, Json.get_edit_of_ne hb (by decide),
            Json.get_edit_of_ne ha (by decide), ← field]
        rw [itemMarks_of_not_picture hrole, itemMarks_of_not_picture (hrole' ▸ hrole)]
      · cases h
        rfl

theorem pictureMarks_extend {timeline incoming after : Json} {run : String}
    {oldDuration newDuration : F64}
    (h : extendUneditedSequenceBeds timeline incoming run oldDuration newDuration = some after) :
    pictureMarks after = pictureMarks timeline := by
  simp only [extendUneditedSequenceBeds] at h
  split at h
  · cases h
    rfl
  · cases htracks : timeline.idx "tracks" with
    | arr ts =>
        simp only [htracks, Option.bind_eq_bind, Option.bind_eq_some_iff] at h
        obtain ⟨ts', hts, hput⟩ := h
        have hsame : ∀ x y, (if isKind "audio" x = true then
            editItems x (extendBed incoming run oldDuration newDuration) else some x) = some y →
            trackMarks y = trackMarks x := by
          intro x y hxy
          split at hxy
          · exact trackMarks_editItems (fun _ _ => itemMarks_extendBed) hxy
          · cases hxy
            rfl
        rw [pictureMarks_put hput, flatMap_eq_of_mapM hsame hts, pictureMarks, tracks, htracks]
        rfl
    | _ =>
        simp only [htracks] at h
        have hidx := Json.idx_edit_self h
        simp only [Json.edit_nil, Option.some.injEq] at hidx
        rw [pictureMarks, pictureMarks, tracks, tracks, ← hidx, htracks]

theorem trackItems_setItems {track : Json} {xs ys : List Json}
    (h : track.idx "items" = .arr ys) : trackItems (setItems xs track) = xs := by
  cases track with
  | obj fields =>
      rw [trackItems, setItems, Json.idx, Json.get_obj, JsonObject.get_write, if_pos rfl]
      rfl
  | _ => simp [Json.idx, Json.get, Json.asObject] at h

theorem idx_items_of_mem {track item : Json} (h : item ∈ trackItems track) :
    ∃ xs, track.idx "items" = .arr xs ∧ trackItems track = xs := by
  cases hitems : track.idx "items" with
  | arr xs =>
      refine ⟨xs, rfl, ?_⟩
      rw [trackItems, hitems]
      rfl
  | _ => simp [trackItems, hitems, Json.elements, Json.asArray] at h

theorem itemMarks_append (xs ys : List Json) : itemMarks (xs ++ ys) = itemMarks xs ++
    itemMarks ys := by
  simp [itemMarks]

theorem itemMarks_perm {xs ys : List Json} (h : xs.Perm ys) :
    (itemMarks xs).Perm (itemMarks ys) :=
  (h.map _).filter _

/-- Replacing the first match by an item that matches too replaces its mark. -/
theorem itemMarks_replaceFirst {run shot : String} {new : Json} {xs : List Json}
    (hnew : isShotPicture run shot new = true)
    (hany : xs.any (isShotPicture run shot) = true) :
    ∃ before old after, itemMarks xs = before ++ old :: after ∧
      (∀ mark ∈ before, isShotMark run shot mark = false) ∧ isShotMark run shot old = true ∧
      itemMarks (replaceFirst (isShotPicture run shot) new xs) =
        before ++ new.get "filmHarness" :: after := by
  induction xs with
  | nil => simp at hany
  | cons x xs ih =>
      have hcons : ∀ (z : Json) zs, itemMarks (z :: zs) = itemMarks [z] ++ itemMarks zs :=
        fun z zs => itemMarks_append [z] zs
      by_cases hx : isShotPicture run shot x = true
      · have hmark : ∀ z, isShotPicture run shot z = true →
            itemMarks [z] = [z.get "filmHarness"] := by
          intro z hz
          simp [itemMarks, (isShotPicture_iff.mp hz).2]
        refine ⟨[], x.get "filmHarness", itemMarks xs, ?_, by simp, (isShotPicture_iff.mp hx).1, ?_⟩
        · rw [hcons, hmark x hx]
          rfl
        · rw [replaceFirst, if_pos hx, hcons, hmark new hnew]
          rfl
      · have hany' : xs.any (isShotPicture run shot) = true := by
          simpa [List.any_cons, hx] using hany
        obtain ⟨before, old, after, hmarks, hbefore, hold, hresult⟩ := ih hany'
        refine ⟨itemMarks [x] ++ before, old, after, ?_, ?_, hold, ?_⟩
        · rw [hcons, hmarks, List.append_assoc]
        · intro mark hmem
          obtain hmem | hmem := List.mem_append.mp hmem
          · obtain ⟨hmem, hpicture⟩ := List.mem_filter.mp hmem
            have hmark : mark = x.get "filmHarness" := by simpa using hmem
            subst hmark
            by_contra hshot
            exact hx (isShotPicture_iff.mpr ⟨by simpa using hshot, hpicture⟩)
          · exact hbefore mark hmem
        · rw [replaceFirst, if_neg hx, hcons, hresult, List.append_assoc]

theorem flatMap_replaceFirstItem {run shot : String} {new : Json} {ts : List Json}
    (hnew : isShotPicture run shot new = true)
    (hany : (ts.flatMap trackItems).any (isShotPicture run shot) = true) :
    ∃ before old after, ts.flatMap trackMarks = before ++ old :: after ∧
      (∀ mark ∈ before, isShotMark run shot mark = false) ∧ isShotMark run shot old = true ∧
      (replaceFirstItem (isShotPicture run shot) new ts).flatMap trackMarks =
        before ++ new.get "filmHarness" :: after := by
  induction ts with
  | nil => simp at hany
  | cons track rest ih =>
      by_cases htrack : (trackItems track).any (isShotPicture run shot) = true
      · obtain ⟨before, old, after, hmarks, hbefore, hold, hresult⟩ :=
          itemMarks_replaceFirst hnew htrack
        obtain ⟨item, hitem, -⟩ := List.any_eq_true.mp htrack
        obtain ⟨xs, hxs, -⟩ := idx_items_of_mem hitem
        refine ⟨before, old, after ++ rest.flatMap trackMarks, ?_, hbefore, hold, ?_⟩
        · have hmarks' : trackMarks track = before ++ old :: after := hmarks
          rw [List.flatMap_cons, hmarks', List.append_assoc]
          rfl
        · have hresult' : trackMarks (setItems (replaceFirst (isShotPicture run shot) new
              (trackItems track)) track) = before ++ new.get "filmHarness" :: after := by
            rw [← hresult, trackMarks, trackItems_setItems hxs]
            rfl
          rw [replaceFirstItem, if_pos htrack, List.flatMap_cons, hresult', List.append_assoc]
          rfl
      · have hany' : (rest.flatMap trackItems).any (isShotPicture run shot) = true := by
          simpa [List.flatMap_cons, List.any_append, htrack] using hany
        obtain ⟨before, old, after, hmarks, hbefore, hold, hresult⟩ := ih hany'
        refine ⟨trackMarks track ++ before, old, after, ?_, ?_, hold, ?_⟩
        · rw [List.flatMap_cons, hmarks, List.append_assoc]
        · intro mark hmem
          obtain hmem | hmem := List.mem_append.mp hmem
          · obtain ⟨hmem, hpicture⟩ := List.mem_filter.mp hmem
            obtain ⟨item, hitem, rfl⟩ := List.mem_map.mp hmem
            by_contra hshot
            exact htrack (List.any_eq_true.mpr
              ⟨item, hitem, isShotPicture_iff.mpr ⟨by simpa using hshot, hpicture⟩⟩)
          · exact hbefore mark hmem
        · rw [replaceFirstItem, if_neg htrack, List.flatMap_cons, hresult, List.append_assoc]

/-- The ids of the tracks, in order. -/
def laneIds (timeline : Json) : List Json := (tracks timeline).map (·.idx "id")

theorem laneIds_put {timeline after : Json} {ts : List Json}
    (h : timeline.put ["tracks"] (.arr ts) = some after) : laneIds after = ts.map (·.idx "id") := by
  have hidx : some (Json.arr ts) = some (after.idx "tracks") := Json.idx_edit_self h
  rw [laneIds, tracks, ← Option.some.inj hidx]
  rfl

theorem laneIds_congr {a b : Json} (h : a.get "tracks" = b.get "tracks") :
    laneIds a = laneIds b := by
  simp only [laneIds, tracks, Json.idx, h]

theorem setItems_id (xs : List Json) (track : Json) :
    (setItems xs track).idx "id" = track.idx "id" := by
  cases track with
  | obj fields =>
      rw [setItems, Json.idx, Json.idx, Json.get_obj, Json.get_obj, JsonObject.get_write,
        if_neg (by decide)]
  | _ => rfl

theorem editItems_id {track after : Json} {f : Json → Option Json}
    (h : editItems track f = some after) : after.idx "id" = track.idx "id" := by
  cases hitems : track.idx "items" with
  | arr xs =>
      simp only [editItems, hitems, Option.bind_eq_bind, Option.bind_eq_some_iff] at h
      obtain ⟨ys, -, hput⟩ := h
      exact Json.idx_edit_of_ne hput (by decide)
  | _ =>
      simp only [editItems, hitems] at h
      exact Json.idx_edit_of_ne h (by decide)

theorem replaceFirstItem_id (p : Json → Bool) (new : Json) (ts : List Json) :
    (replaceFirstItem p new ts).map (·.idx "id") = ts.map (·.idx "id") := by
  induction ts with
  | nil => rfl
  | cons track rest ih =>
      simp only [replaceFirstItem]
      split
      · rw [List.map_cons, List.map_cons, setItems_id]
      · rw [List.map_cons, List.map_cons, ih]

theorem modifyFirst_id (p : Json → Bool) (xs : List Json) (ts : List Json) :
    (modifyFirst p (setItems xs) ts).map (·.idx "id") = ts.map (·.idx "id") := by
  induction ts with
  | nil => rfl
  | cons track rest ih =>
      simp only [modifyFirst]
      split
      · rw [List.map_cons, List.map_cons, setItems_id]
      · rw [List.map_cons, List.map_cons, ih]

theorem laneIds_extend {timeline incoming after : Json} {run : String}
    {oldDuration newDuration : F64}
    (h : extendUneditedSequenceBeds timeline incoming run oldDuration newDuration = some after) :
    laneIds after = laneIds timeline ∧ after.get "filmAssembly" = timeline.get "filmAssembly" := by
  simp only [extendUneditedSequenceBeds] at h
  split at h
  · cases h
    exact ⟨rfl, rfl⟩
  · cases htracks : timeline.idx "tracks" with
    | arr ts =>
        simp only [htracks, Option.bind_eq_bind, Option.bind_eq_some_iff] at h
        obtain ⟨ts', hts, hput⟩ := h
        have hsame : ∀ x y, (if isKind "audio" x = true then
            editItems x (extendBed incoming run oldDuration newDuration) else some x) = some y →
            y.idx "id" = x.idx "id" := by
          intro x y hxy
          split at hxy
          · exact editItems_id hxy
          · cases hxy
            rfl
        refine ⟨?_, Json.get_edit_of_ne hput (by decide)⟩
        rw [laneIds_put hput, mapM_eq_map hsame hts, laneIds, tracks, htracks]
        rfl
    | _ =>
        simp only [htracks] at h
        refine ⟨?_, Json.get_edit_of_ne h (by decide)⟩
        have hidx := Json.idx_edit_self h
        simp only [Json.edit_nil, Option.some.injEq] at hidx
        rw [laneIds, laneIds, tracks, tracks, ← hidx, htracks]

theorem orPanic_eq_ok {α : Type} {o : Option α} {a : α} : orPanic o = .ok a ↔ o = some a := by
  cases o <;> simp [orPanic]

theorem orBadRequest_eq_ok {α : Type} {detail : String} {o : Option α} {a : α} :
    orBadRequest detail o = .ok a ↔ o = some a := by
  cases o <;> simp [orBadRequest]

theorem modifyFirst_split {p : Json → Bool} {track : Json} {ts : List Json} (f : Json → Json)
    (h : ts.find? p = some track) :
    ∃ before after, ts = before ++ track :: after ∧ modifyFirst p f ts = before ++
        f track :: after := by
  induction ts with
  | nil => simp at h
  | cons x xs ih =>
      by_cases hx : p x = true
      · have htrack : x = track := by simpa [List.find?_cons, hx] using h
        subst htrack
        exact ⟨[], xs, rfl, by simp [modifyFirst, hx]⟩
      · have hrest : xs.find? p = some track := by simpa [List.find?_cons, hx] using h
        obtain ⟨before, after, hxs, hmodify⟩ := ih hrest
        exact ⟨x :: before, after, by simp [hxs], by simp [modifyFirst, hx, hmodify]⟩

theorem get_placeTake {env : DeliveryEnv} {run shot : String} {trackId take placed : Json}
    {start length : F64} (h : placeTake env run shot trackId take start length = some placed) :
    placed.get "filmHarness" = take.get "filmHarness" := by
  simp only [placeTake, Option.bind_eq_bind, Option.bind_eq_some_iff] at h
  obtain ⟨a, ha, b, hb, c, hc, d, hd, e, he, hf⟩ := h
  rw [Json.get_edit_of_ne hf (by decide), Json.get_edit_of_ne he (by decide),
    Json.get_edit_of_ne hd (by decide), Json.get_edit_of_ne hc (by decide),
    Json.get_edit_of_ne hb (by decide), Json.get_edit_of_ne ha (by decide)]

/-- The picture track with the gap opened and the take put into it. -/
theorem trackMarks_insert {track : Json} (take : Json) {xs moved : List Json}
    (hxs : track.idx "items" = .arr xs) (hmoved : itemMarks moved = itemMarks xs) :
    (trackMarks (setItems ((moved ++ [take]).insertionSort byTimelineStart) track)).Perm
      (trackMarks track ++ itemMarks [take]) := by
  have htrack : trackMarks track = itemMarks xs := by
    rw [trackMarks, trackItems, hxs]
    rfl
  have hsorted : trackMarks (setItems ((moved ++ [take]).insertionSort byTimelineStart) track) =
      itemMarks ((moved ++ [take]).insertionSort byTimelineStart) := by
    rw [trackMarks, trackItems_setItems hxs]
    rfl
  rw [hsorted, htrack, ← hmoved, ← itemMarks_append]
  exact itemMarks_perm (List.perm_insertionSort _ _)

theorem insertPicture_marks {env : DeliveryEnv} {d : Delivery} {shot : String}
    {timeline take after : Json} {length : F64}
    (h : insertPicture env d shot timeline take length = .ok after) :
    (pictureMarks after).Perm (pictureMarks timeline ++ itemMarks [take]) ∧
      laneIds after = laneIds timeline ∧
      after.get "filmAssembly" = timeline.get "filmAssembly" := by
  simp only [insertPicture, Fallible.bind_eq_ok, orBadRequest_eq_ok, orPanic_eq_ok] at h
  obtain ⟨ts, hts, track, htrack, xs, hxs, moved, hmoved, placed, hplaced, ts', hts', middle,
    hmiddle, hextend⟩ := h
  have htracks : timeline.idx "tracks" = .arr ts := by
    cases hidx : timeline.idx "tracks" <;> simp_all [Json.asArray]
  have hitems : track.idx "items" = .arr xs := by
    cases hidx : track.idx "items" <;> simp_all [Json.asArray]
  have hshift : itemMarks moved = itemMarks xs := by
    refine itemMarks_mapM ?_ hmoved
    intro x y hxy
    split at hxy
    · exact itemMarks_single_congr (get_shiftItem hxy)
    · cases hxy
      rfl
  have hplacedMark : itemMarks [placed] = itemMarks [take] :=
    itemMarks_single_congr (get_placeTake hplaced)
  obtain ⟨front, back, hsplit, hmodify⟩ := modifyFirst_split
    (setItems ((moved ++ [placed]).insertionSort byTimelineStart)) htrack
  have haudio : ts'.flatMap trackMarks = (modifyFirst (isKind "video")
      (setItems ((moved ++ [placed]).insertionSort byTimelineStart)) ts).flatMap trackMarks := by
    refine flatMap_eq_of_mapM ?_ hts'
    intro x y hxy
    split at hxy
    · refine trackMarks_editItems ?_ hxy
      intro a b hab
      split at hab
      · exact itemMarks_single_congr (get_shiftItem hab)
      · cases hab
        rfl
    · cases hxy
      rfl
  constructor
  · have hbefore : pictureMarks timeline = ts.flatMap trackMarks := by
      rw [pictureMarks, tracks, htracks]
      rfl
    rw [pictureMarks_extend hextend, pictureMarks_put hmiddle, haudio, hmodify, hbefore, hsplit,
      ← hplacedMark]
    simp only [List.flatMap_append, List.flatMap_cons]
    have hinsert := trackMarks_insert placed hitems hshift
    refine ((hinsert.append_right _).append_left _).trans ?_
    simp only [List.append_assoc]
    exact (List.perm_append_comm.append_left _).append_left _
  · obtain ⟨hlanes, hassembly⟩ := laneIds_extend hextend
    refine ⟨?_, hassembly.trans (Json.get_edit_of_ne hmiddle (by decide))⟩
    have hshifted : ts'.map (·.idx "id") = (modifyFirst (isKind "video")
        (setItems ((moved ++ [placed]).insertionSort byTimelineStart)) ts).map (·.idx "id") := by
      refine mapM_eq_map ?_ hts'
      intro x y hxy
      split at hxy
      · exact editItems_id hxy
      · cases hxy
        rfl
    rw [hlanes, laneIds_put hmiddle, hshifted, modifyFirst_id, laneIds, tracks, htracks]
    rfl

end SceneWorks.FilmTimeline
