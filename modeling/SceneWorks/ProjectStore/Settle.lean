import SceneWorks.ProjectStore.Timelines
import SceneWorks.FilmTimeline.Frame

/-!
What the defaults and checks of a save leave alone: the film assembly and the film harness
record of every item.
-/

namespace SceneWorks.ProjectStore

open FilmTimeline

theorem draws_bind_eq_ok {α β : Type} {x : Draws α} {f : α → Draws β} {s : List String}
    {r : β × List String} :
    (x >>= f) s = .ok r ↔ ∃ a s', x s = .ok (a, s') ∧ f a s' = .ok r := by
  change (StateT.bind x f s = _) ↔ _
  simp only [StateT.bind, Fallible.bind_eq_ok, Prod.exists]

theorem draws_lift_eq_ok {α : Type} {x : Except ProjectStoreError α} {s : List String}
    {r : α × List String} : (liftM x : Draws α) s = .ok r ↔ ∃ a, x = .ok a ∧ r = (a, s) := by
  cases x with
  | error e => simp [liftM, monadLift, MonadLift.monadLift, StateT.lift, bind, Except.bind]
  | ok a =>
      simp [liftM, monadLift, MonadLift.monadLift, StateT.lift, bind, Except.bind, pure,
        Except.pure, eq_comm]

theorem draws_lift_bind_eq_ok {α β : Type} {x : Except ProjectStoreError α} {f : α → Draws β}
    {s : List String} {r : β × List String} :
    ((liftM x : Draws α) >>= f) s = .ok r ↔ ∃ a, x = .ok a ∧ f a s = .ok r := by
  simp only [draws_bind_eq_ok, draws_lift_eq_ok, Prod.mk.injEq]
  constructor
  · intro h
    obtain ⟨a, s', ⟨a', hx, rfl, rfl⟩, hf⟩ := h
    exact ⟨a, hx, hf⟩
  · intro h
    obtain ⟨a, hx, hf⟩ := h
    exact ⟨a, s, ⟨a, hx, rfl, rfl⟩, hf⟩

theorem draws_pure_eq_ok {α : Type} {a : α} {s : List String} {r : α × List String} :
    (pure a : Draws α) s = .ok r ↔ r = (a, s) := by
  change Except.ok (a, s) = .ok r ↔ _
  simp [eq_comm]

theorem draws_mapM_eq {α β : Type} {f : α → Draws α} {g : α → β}
    (h : ∀ x s y s', f x s = .ok (y, s') → g y = g x) {xs ys : List α} {s s' : List String}
    (hmap : (xs.mapM f) s = .ok (ys, s')) : ys.map g = xs.map g := by
  induction xs generalizing ys s with
  | nil =>
      rw [List.mapM_nil, draws_pure_eq_ok] at hmap
      cases hmap
      rfl
  | cons x xs ih =>
      simp only [List.mapM_cons, draws_bind_eq_ok, draws_pure_eq_ok] at hmap
      obtain ⟨y, s₁, hy, ys', s₂, hys, hresult⟩ := hmap
      cases hresult
      rw [List.map_cons, List.map_cons, h x s y s₁ hy, ih hys]

theorem withDefaults_cons (default : String × Json) (defaults : List (String × Json))
    (fields : JsonObject) : withDefaults (default :: defaults) fields =
      withDefaults defaults (JsonObject.orInsert fields default.1 default.2) := by
  simp only [withDefaults, List.foldl_cons]

theorem get_withDefaults {defaults : List (String × Json)} {key : String}
    (h : key ∉ defaults.map Prod.fst) (fields : JsonObject) :
    JsonObject.get (withDefaults defaults fields) key = JsonObject.get fields key := by
  induction defaults generalizing fields with
  | nil => simp only [withDefaults, List.foldl_nil]
  | cons default defaults ih =>
      simp only [List.map_cons, List.mem_cons, not_or] at h
      rw [withDefaults_cons, ih h.2, JsonObject.get_orInsert, if_neg (Ne.symm h.1)]

/-- A key with a default is there afterwards. -/
theorem get_withDefaults_of_mem (front : List (String × Json)) (key : String) (value : Json)
    {back : List (String × Json)} (hfront : key ∉ front.map Prod.fst)
    (hback : key ∉ back.map Prod.fst) (fields : JsonObject) :
    JsonObject.get (withDefaults (front ++ (key, value) :: back) fields) key =
      some ((JsonObject.get fields key).getD value) := by
  induction front generalizing fields with
  | nil => rw [List.nil_append, withDefaults_cons, get_withDefaults hback, JsonObject.get_orInsert,
      if_pos rfl]
  | cons default front ih =>
      simp only [List.map_cons, List.mem_cons, not_or] at hfront
      rw [List.cons_append, withDefaults_cons, ih hfront.2, JsonObject.get_orInsert,
        if_neg (Ne.symm hfront.1)]

theorem get_insertAll {entries : List (String × Json)} {key : String}
    (h : key ∉ entries.map Prod.fst) (fields : JsonObject) :
    JsonObject.get (insertAll entries fields) key = JsonObject.get fields key := by
  induction entries generalizing fields with
  | nil => rfl
  | cons entry entries ih =>
      simp only [List.map_cons, List.mem_cons, not_or] at h
      have hrest := ih h.2 (JsonObject.insert fields entry.1 entry.2)
      rw [insertAll, List.foldl_cons, ← insertAll, hrest,
        JsonObject.get_insert_of_ne _ _ (Ne.symm h.1)]

theorem get_write_of_ne (fields : JsonObject) {key other : String} (value : Json)
    (h : key ≠ other) :
    JsonObject.get (JsonObject.write fields key value) other = JsonObject.get fields other := by
  rw [JsonObject.get_write, if_neg h]

theorem drawId_get {label key : String} {fields after : JsonObject} {s s' : List String}
    (hkey : "id" ≠ key)
    (h : (do let hex ← randomHex; return JsonObject.insert fields "id" (.str (label ++ hex)) :
      Draws JsonObject) s = .ok (after, s')) :
    JsonObject.get after key = JsonObject.get fields key := by
  rw [draws_bind_eq_ok] at h
  obtain ⟨hex, s₁, -, hresult⟩ := h
  rw [draws_pure_eq_ok] at hresult
  cases hresult
  exact JsonObject.get_insert_of_ne _ _ hkey

theorem ensureId_get {label key : String} {fields after : JsonObject} {s s' : List String}
    (hkey : "id" ≠ key) (h : ensureId label fields s = .ok (after, s')) :
    JsonObject.get after key = JsonObject.get fields key := by
  cases hget : JsonObject.get fields "id" with
  | none =>
      simp only [ensureId, hget] at h
      exact drawId_get hkey h
  | some value =>
      cases value with
      | null =>
          simp only [ensureId, hget] at h
          exact drawId_get hkey h
      | _ =>
          simp only [ensureId, hget, draws_pure_eq_ok] at h
          cases h
          rfl

theorem validateItemTransition_get {key other : String} {fields after : JsonObject}
    {s s' : List String} (hne : key ≠ other)
    (h : validateItemTransition key fields s = .ok (after, s')) :
    JsonObject.get after other = JsonObject.get fields other := by
  cases hget : JsonObject.get fields key with
  | none =>
      simp only [validateItemTransition, hget, draws_pure_eq_ok] at h
      cases h
      rfl
  | some value =>
      cases value with
      | null =>
          simp only [validateItemTransition, hget, draws_pure_eq_ok] at h
          cases h
          rfl
      | _ =>
          simp only [validateItemTransition, hget, draws_bind_eq_ok, draws_pure_eq_ok] at h
          obtain ⟨transition, s₁, -, hresult⟩ := h
          cases hresult
          exact get_write_of_ne _ _ hne

theorem defaultRole_get {kind key : String} {fields : JsonObject} (h : "role" ≠ key) :
    JsonObject.get (defaultRole kind fields) key = JsonObject.get fields key := by
  simp only [defaultRole]
  split
  · exact JsonObject.get_insert_of_ne _ _ h
  · exact JsonObject.get_insert_of_ne _ _ h
  · rfl

theorem itemNumbers_keys {item : Json} {numbers : List (String × F64)}
    (h : itemNumbers item = .ok numbers) : "filmHarness" ∉ numbers.map Prod.fst := by
  simp only [itemNumbers, Fallible.bind_eq_ok] at h
  obtain ⟨_, -, _, -, _, -, _, -, _, -, _, -, _, -, _, -, _, -, hnumbers⟩ := h
  cases hnumbers
  simp

theorem defaultItem_get {item : Json} {after : JsonObject} {s s' : List String}
    (h : defaultItem item s = .ok (after, s')) :
    JsonObject.get after "filmHarness" = item.get "filmHarness" := by
  simp only [defaultItem, draws_lift_bind_eq_ok] at h
  obtain ⟨_, -, _, -, _, -, fields, hfields, h⟩ := h
  rw [draws_bind_eq_ok] at h
  obtain ⟨withId, s₁, hid, hresult⟩ := h
  rw [draws_pure_eq_ok] at hresult
  obtain ⟨rfl, -⟩ := Prod.mk.inj hresult
  rw [asObjectMut, orBadRequest_eq_ok] at hfields
  rw [get_withDefaults (by decide), ensureId_get (by decide) hid, Json.asObject_eq_some.mp hfields,
    Json.get_obj]

theorem checkVersions_get {fields after : JsonObject} (h : checkVersions fields = .ok after) :
    JsonObject.get after "filmHarness" = JsonObject.get fields "filmHarness" := by
  simp only [checkVersions, Fallible.bind_eq_ok] at h
  obtain ⟨_, -, _, -, versions, -, hresult⟩ := h
  cases hresult
  exact get_write_of_ne _ _ (by decide)

theorem checkItem_get {fields after : JsonObject} (h : checkItem fields = .ok after) :
    JsonObject.get after "filmHarness" = JsonObject.get fields "filmHarness" := by
  simp only [checkItem, Fallible.bind_eq_ok] at h
  obtain ⟨_, -, _, -, numbers, hnumbers, _, -, _, -, _, -, hversions⟩ := h
  have hkeys : "filmHarness" ∉ (numbers.map fun entry => (entry.1, Json.ofF64 entry.2)).map
      Prod.fst := by
    rw [List.map_map]
    exact itemNumbers_keys hnumbers
  rw [checkVersions_get hversions, get_withDefaults (by decide), get_insertAll hkeys]

theorem validateTimelineItem_get {item after : Json} {s s' : List String}
    (h : validateTimelineItem item s = .ok (after, s')) :
    after.get "filmHarness" = item.get "filmHarness" := by
  rw [validateTimelineItem, draws_bind_eq_ok] at h
  obtain ⟨fields, s₁, hdefault, h⟩ := h
  rw [draws_lift_bind_eq_ok] at h
  obtain ⟨checked, hcheck, h⟩ := h
  simp only [draws_bind_eq_ok, draws_pure_eq_ok] at h
  obtain ⟨withIn, s₂, hin, withOut, s₃, hout, hresult⟩ := h
  cases hresult
  rw [Json.get_obj, validateItemTransition_get (by decide) hout,
    validateItemTransition_get (by decide) hin, checkItem_get hcheck, defaultItem_get hdefault]

/-- The elements of a checked list, and the keys beside it. -/
theorem validateEach_spec {key detail : String} {check : Json → Draws Json}
    {fields after : JsonObject} {s s' : List String}
    (h : validateEach key detail check fields s = .ok (after, s')) :
    ∃ xs ys s₁ s₂, JsonObject.get fields key = some (.arr xs) ∧
      (xs.mapM check) s₁ = .ok (ys, s₂) ∧ JsonObject.get after key = some (.arr ys) ∧
      ∀ other, key ≠ other → JsonObject.get after other = JsonObject.get fields other := by
  rw [validateEach, draws_lift_bind_eq_ok] at h
  obtain ⟨xs, hxs, h⟩ := h
  simp only [draws_bind_eq_ok, draws_pure_eq_ok] at h
  obtain ⟨ys, s₁, hys, hresult⟩ := h
  obtain ⟨rfl, -⟩ := Prod.mk.inj hresult
  rw [orBadRequest_eq_ok] at hxs
  obtain ⟨value, hvalue, harray⟩ := Option.bind_eq_some_iff.mp hxs
  refine ⟨xs, ys, _, _, ?_, hys, ?_, fun other hne => get_write_of_ne _ _ hne⟩
  · rw [hvalue, Json.asArray_eq_some.mp harray]
  · rw [JsonObject.get_write, if_pos rfl]

theorem validateTimelineTrack_marks {track after : Json} {s s' : List String}
    (h : validateTimelineTrack track s = .ok (after, s')) :
    trackMarks after = trackMarks track := by
  simp only [validateTimelineTrack, draws_lift_bind_eq_ok] at h
  obtain ⟨fields, hdefault, checked, hcheck, h⟩ := h
  simp only [draws_bind_eq_ok, draws_pure_eq_ok] at h
  obtain ⟨validated, s₁, heach, hresult⟩ := h
  obtain ⟨rfl, -⟩ := Prod.mk.inj hresult
  obtain ⟨xs, ys, s₂, s₃, hxs, hys, hafter, -⟩ := validateEach_spec heach
  have hchecked : JsonObject.get checked "items" = JsonObject.get fields "items" := by
    simp only [checkTrack, Fallible.bind_eq_ok] at hcheck
    obtain ⟨_, -, _, -, _, -, gain, -, hresult⟩ := hcheck
    obtain rfl := Except.ok.inj hresult
    exact JsonObject.get_insert_of_ne _ _ (by decide)
  have hitems : JsonObject.get fields "items" = some ((track.get "items").getD (.arr [])) := by
    simp only [defaultTrackFields, Fallible.bind_eq_ok] at hdefault
    obtain ⟨_, -, _, -, _, -, kind, -, object, hobject, hresult⟩ := hdefault
    obtain rfl := Except.ok.inj hresult
    rw [asObjectMut, orBadRequest_eq_ok] at hobject
    have hdefaulted := fun role => get_withDefaults_of_mem [] "items" (.arr []) (by simp)
      (show "items" ∉ List.map Prod.fst [] by simp) role
    rw [Json.asObject_eq_some.mp hobject, Json.get_obj]
    refine (hdefaulted _).trans ?_
    rw [defaultRole_get (by decide), get_withDefaults (by decide)]
  have hbefore : trackItems track = xs := by
    rw [hchecked, hitems] at hxs
    rw [trackItems, Json.idx]
    cases hget : track.get "items" with
    | none =>
        simp only [hget, Option.getD_none, Option.some.injEq, Json.arr.injEq] at hxs
        exact hxs
    | some value =>
        simp only [hget, Option.getD_some, Option.some.injEq] at hxs
        rw [hxs]
        rfl
  have hitemsAfter : trackItems (.obj validated) = ys := by
    rw [trackItems, Json.idx, Json.get_obj, hafter]
    rfl
  rw [trackMarks, trackMarks, hbefore, hitemsAfter,
    draws_mapM_eq (fun _ _ _ _ => validateTimelineItem_get) hys]

theorem validateAndDefaultTimeline_spec {timeline after : Json} {s s' : List String}
    (h : validateAndDefaultTimeline timeline s = .ok (after, s')) :
    after.get "filmAssembly" = timeline.get "filmAssembly" ∧
      pictureMarks after = pictureMarks timeline := by
  simp only [validateAndDefaultTimeline, draws_lift_bind_eq_ok] at h
  obtain ⟨fields, hobject, _, -, h⟩ := h
  simp only [draws_bind_eq_ok, draws_pure_eq_ok] at h
  obtain ⟨tracked, s₁, htracks, final, s₂, htransitions, hresult⟩ := h
  obtain ⟨rfl, -⟩ := Prod.mk.inj hresult
  rw [asObjectMut, orBadRequest_eq_ok] at hobject
  obtain ⟨xs, ys, s₃, s₄, hxs, hys, hafter, hframe⟩ := validateEach_spec htracks
  obtain ⟨-, -, -, -, -, -, -, hframe'⟩ := validateEach_spec htransitions
  have htimeline := Json.asObject_eq_some.mp hobject
  constructor
  · rw [Json.get_obj, hframe' _ (by decide), hframe _ (by decide), get_withDefaults (by decide),
      htimeline, Json.get_obj]
  · have hgetTracks : JsonObject.get (withDefaults timelineDefaults fields) "tracks" =
        some ((JsonObject.get fields "tracks").getD (.arr [])) :=
      get_withDefaults_of_mem (timelineDefaults.take 6) "tracks" _ (by decide) (by decide) fields
    have hbefore : tracks timeline = xs := by
      rw [hgetTracks] at hxs
      rw [tracks, Json.idx, htimeline, Json.get_obj]
      cases hget : JsonObject.get fields "tracks" with
      | none =>
          simp only [hget, Option.getD_none, Option.some.injEq, Json.arr.injEq] at hxs
          exact hxs
      | some value =>
          simp only [hget, Option.getD_some, Option.some.injEq] at hxs
          rw [hxs]
          rfl
    have htracksAfter : tracks (.obj final) = ys := by
      rw [tracks, Json.idx, Json.get_obj, hframe' _ (by decide), hafter]
      rfl
    rw [pictureMarks, pictureMarks, hbefore, htracksAfter, List.flatMap_def, List.flatMap_def,
      draws_mapM_eq (fun _ _ _ _ => validateTimelineTrack_marks) hys]

theorem created_get (now : String) {key : String} (fields : JsonObject) (h : key ≠ "createdAt") :
    JsonObject.get (match JsonObject.get fields "createdAt" with
      | none | some .null => JsonObject.insert fields "createdAt" (.str now)
      | some _ => fields) key = JsonObject.get fields key := by
  split
  · exact JsonObject.get_insert_of_ne _ _ (Ne.symm h)
  · exact JsonObject.get_insert_of_ne _ _ (Ne.symm h)
  · rfl

theorem stampTimeline_get {now key : String} {fields : JsonObject}
    (h : key ∉ ["createdAt", "updatedAt", "duration", "tracks", "transitions"]) :
    JsonObject.get (stampTimeline now fields) key = JsonObject.get fields key := by
  simp only [List.mem_cons, List.not_mem_nil, or_false, not_or] at h
  obtain ⟨hcreated, hupdated, hduration, htracks, htransitions⟩ := h
  simp only [stampTimeline]
  rw [get_withDefaults (by simpa using htransitions)]
  have hstamps : ∀ base : JsonObject, JsonObject.get base key = JsonObject.get fields key →
      JsonObject.get (insertAll [("updatedAt", .str now), ("duration",
        .ofF64 (computeTimelineDuration (.obj fields)))] base) key = JsonObject.get fields key := by
    intro base hbase
    rw [get_insertAll (by simp [hupdated, hduration]), hbase]
  have hcreate := created_get now fields hcreated
  split
  · exact hstamps _ hcreate
  · rw [JsonObject.get_insert_of_ne _ _ (Ne.symm htracks)]
    exact hstamps _ hcreate

theorem defaultTracks_marks : defaultTimelineTracks.elements.flatMap trackMarks = [] := rfl

/-- The default tracks stand in for none, which have no picture either. -/
theorem tracked_marks {base fields : JsonObject}
    (hbase : JsonObject.get base "tracks" = JsonObject.get fields "tracks") :
    pictureMarks (.obj (withDefaults [("transitions", .arr [])]
      (match JsonObject.get base "tracks" with
      | some (.arr (_ :: _)) => base
      | _ => JsonObject.insert base "tracks" defaultTimelineTracks))) =
        pictureMarks (.obj fields) := by
  split
  · next track rest htracks =>
      refine pictureMarks_congr ?_
      rw [Json.get_obj, get_withDefaults (by decide), Json.get_obj, hbase]
  · next hempty =>
      have hnone : pictureMarks (.obj fields) = [] := by
        rw [pictureMarks, tracks, Json.idx, Json.get_obj, ← hbase]
        cases hget : JsonObject.get base "tracks" with
        | none => rfl
        | some value =>
            cases value with
            | arr ts =>
                cases ts with
                | nil => rfl
                | cons track rest => exact absurd hget (hempty track rest)
            | _ => rfl
      rw [hnone, pictureMarks, tracks, Json.idx, Json.get_obj, get_withDefaults (by decide),
        JsonObject.get_insert_self]
      exact defaultTracks_marks

/-- A document without tracks gets empty ones, so its pictures stay. -/
theorem stampTimeline_marks (now : String) (fields : JsonObject) :
    pictureMarks (.obj (stampTimeline now fields)) = pictureMarks (.obj fields) := by
  refine tracked_marks ?_
  rw [get_insertAll (by simp)]
  split
  · exact JsonObject.get_insert_of_ne _ _ (by decide)
  · exact JsonObject.get_insert_of_ne _ _ (by decide)
  · rfl

/-- Naming another version of an asset leaves the marker alone. -/
theorem versioned_get (asset : String) (base : JsonObject) :
    JsonObject.get (match JsonObject.get base "versionAssetIds" with
      | some (.arr ids) =>
          if ids.any fun id => id.asStr == some asset then base
          else JsonObject.write base "versionAssetIds" (.arr (ids ++ [.str asset]))
      | _ => base) "filmHarness" = JsonObject.get base "filmHarness" := by
  split
  · split
    · rfl
    · exact get_write_of_ne _ _ (by decide)
  · rfl

theorem normalizeItem_get (item : Json) :
    (normalizeItem item).get "filmHarness" = item.get "filmHarness" := by
  cases item with
  | obj fields =>
      simp only [normalizeItem]
      split
      · rfl
      · next asset hasset =>
          have habsent : "filmHarness" ∉ List.map Prod.fst
              [("currentVersionAssetId", Json.str asset), ("versionAssetIds", Json.arr [])] := by
            simp
          have hdefaults := (versioned_get asset _).trans (get_withDefaults habsent fields)
          split
          · rw [Json.get_obj, JsonObject.get_insert_of_ne _ _ (by decide)]
            exact hdefaults
          · rw [Json.get_obj, JsonObject.get_insert_of_ne _ _ (by decide)]
            exact hdefaults
          · exact hdefaults
  | _ => rfl

theorem normalizeTrack_marks (track : Json) :
    trackMarks (normalizeTrack track) = trackMarks track := by
  simp only [normalizeTrack]
  split
  · next xs hxs =>
      have htrack : trackItems track = xs := by
        rw [trackItems, hxs]
        rfl
      rw [trackMarks, trackItems_setItems hxs, trackMarks, htrack, List.map_map]
      refine congrArg (List.filter isPictureMark) (List.map_congr_left ?_)
      exact fun item _ => normalizeItem_get item
  · rfl

theorem normalizeTimelineItems_spec (timeline : Json) :
    (normalizeTimelineItems timeline).get "filmAssembly" = timeline.get "filmAssembly" ∧
      pictureMarks (normalizeTimelineItems timeline) = pictureMarks timeline := by
  cases timeline with
  | obj fields =>
      simp only [normalizeTimelineItems]
      split
      · next ts hts =>
          refine ⟨get_write_of_ne _ _ (by decide), ?_⟩
          rw [pictureMarks, pictureMarks, tracks, tracks, Json.idx, Json.idx, Json.get_obj,
            Json.get_obj, JsonObject.get_write, if_pos rfl, hts]
          change (ts.map normalizeTrack).flatMap trackMarks = ts.flatMap trackMarks
          rw [List.flatMap_map]
          exact List.flatMap_congr fun track _ => normalizeTrack_marks track
      · exact ⟨rfl, rfl⟩
  | _ => exact ⟨rfl, rfl⟩

/-- What a settled document has been through. -/
theorem settleTimeline_inv {env : CallEnv} {timeline after : Json}
    (h : settleTimeline env timeline = .ok after) :
    (∃ name, requiredStr timeline "name" = .ok name) ∧ ∃ fields supply,
      validateAndDefaultTimeline timeline env.random = .ok (.obj fields, supply) ∧
        after = normalizeTimelineItems (.obj (stampTimeline env.now fields)) := by
  simp only [settleTimeline, Fallible.bind_eq_ok] at h
  obtain ⟨project, -, h⟩ := h
  split at h
  · cases h
  · rw [Fallible.bind_eq_ok] at h
    obtain ⟨name, hname, h⟩ := h
    split at h
    · cases h
    · rw [Fallible.bind_eq_ok] at h
      obtain ⟨⟨validated, supply⟩, hvalidated, h⟩ := h
      rw [Fallible.bind_eq_ok] at h
      obtain ⟨fields, hfields, hresult⟩ := h
      rw [asObjectMut, orBadRequest_eq_ok] at hfields
      obtain rfl : validated = .obj fields := Json.asObject_eq_some.mp hfields
      exact ⟨⟨name, hname⟩, fields, supply, hvalidated, (Except.ok.inj hresult).symm⟩

/-- Everything a save does after the reconciliation leaves the film data alone. -/
theorem settleTimeline_spec {env : CallEnv} {timeline after : Json}
    (h : settleTimeline env timeline = .ok after) :
    after.get "filmAssembly" = timeline.get "filmAssembly" ∧
      pictureMarks after = pictureMarks timeline := by
  obtain ⟨-, fields, supply, hvalidated, rfl⟩ := settleTimeline_inv h
  obtain ⟨hassembly, hmarks⟩ := validateAndDefaultTimeline_spec hvalidated
  obtain ⟨hassembly', hmarks'⟩ :=
    normalizeTimelineItems_spec (.obj (stampTimeline env.now fields))
  constructor
  · rw [hassembly', Json.get_obj, stampTimeline_get (by decide), ← hassembly, Json.get_obj]
  · rw [hmarks', stampTimeline_marks, hmarks]

end SceneWorks.ProjectStore
