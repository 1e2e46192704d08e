import Mathlib.Data.List.Induction
import SceneWorks.PersonTrack.Rounds

/-!
The identities over a whole sequence of frames: what an update does, the invariant of the tracker,
and that no identity is given twice, comes back after it was dropped, or is missed for longer than
its track is kept.
-/

namespace SceneWorks.PersonTrack

open PersonTracker

section Update

variable {tracker : PersonTracker} {detections : List Detection}

/-- The matching of one frame: pairs of a detection and a track, and the detections that start a
new track. -/
structure FrameMatching where
  high : List (Nat × Nat)
  low : List (Nat × Nat)
  started : List Nat

/-- An update, step by step: the tracks after each round of matching, and what it leaves. -/
structure Steps (tracker : PersonTracker) (detections : List Detection) (matching : FrameMatching)
    (afterHigh afterLow : List Track) (taken taken' : List Bool)
    (result : PersonTracker × List Assignment) : Prop where
  high : Round (tracker.tracks.map Track.predict) detections (tracker.highIndices detections)
    (List.replicate (tracker.tracks.map Track.predict).length false) tracker.matchThreshHigh
    matching.high taken
  recorded_high : Recorded (tracker.tracks.map Track.predict) matching.high afterHigh
  low : Round afterHigh detections (tracker.lowIndices detections) taken tracker.matchThreshLow
    matching.low taken'
  recorded_low : Recorded afterHigh matching.low afterLow
  started : matching.started = (tracker.highIndices detections).filter fun det =>
    !(matching.high.map Prod.fst).contains det
  tracker_eq : result.1 = { tracker with
    tracks := (afterLow ++ (numbered matching.started tracker.nextId).map fun entry =>
      Track.fromBox entry.1 (detectionAt detections entry.2).1).filter fun track =>
        track.timeSinceUpdate ≤ tracker.maxAge
    nextId := tracker.nextId + matching.started.length }
  assignments_eq : result.2 =
    matching.high.map (assignmentOf (tracker.tracks.map Track.predict) detections) ++
      matching.low.map (assignmentOf afterHigh detections) ++
      (numbered matching.started tracker.nextId).map fun entry =>
        (entry.1, detectionAt detections entry.2)

theorem exists_steps (tracker : PersonTracker) (detections : List Detection) :
    ∃ matching afterHigh afterLow taken taken',
      Steps tracker detections matching afterHigh afterLow taken taken'
        (tracker.update detections) := by
  generalize hupdate : tracker.update detections = result
  rw [PersonTracker.update] at hupdate
  have hhigh : Round (tracker.tracks.map Track.predict) detections (tracker.highIndices detections)
      (List.replicate (tracker.tracks.map Track.predict).length false) tracker.matchThreshHigh
      _ _ := greedyMatch_round List.length_replicate
  generalize greedyMatch (tracker.tracks.map Track.predict) detections
    (tracker.highIndices detections)
    (List.replicate (tracker.tracks.map Track.predict).length false) tracker.matchThreshHigh =
      roundHigh at hhigh hupdate
  obtain ⟨high, taken⟩ := roundHigh
  dsimp only at hhigh hupdate
  have hrecordedHigh : Recorded (tracker.tracks.map Track.predict) high
      (high.foldl (Recording.recordMatch detections)
        ⟨tracker.tracks.map Track.predict, []⟩).tracks ∧
        (high.foldl (Recording.recordMatch detections)
          ⟨tracker.tracks.map Track.predict, []⟩).assignments =
            [] ++ high.map (assignmentOf (tracker.tracks.map Track.predict) detections) :=
    recordMatches_recorded ⟨tracker.tracks.map Track.predict, []⟩
      fun pair hpair => (hhigh.matched_from pair hpair).2.1
  generalize high.foldl (Recording.recordMatch detections) ⟨tracker.tracks.map Track.predict, []⟩ =
    afterHigh at hrecordedHigh hupdate
  obtain ⟨hrecordedHigh, hassignedHigh⟩ := hrecordedHigh
  have htaken : taken.length = afterHigh.tracks.length := by
    rw [hhigh.length, List.length_replicate, hrecordedHigh.length]
  have hlow : Round afterHigh.tracks detections (tracker.lowIndices detections) taken
      tracker.matchThreshLow _ _ := greedyMatch_round htaken
  generalize greedyMatch afterHigh.tracks detections (tracker.lowIndices detections) taken
    tracker.matchThreshLow = roundLow at hlow hupdate
  obtain ⟨low, taken'⟩ := roundLow
  dsimp only at hlow hupdate
  have hrecordedLow : Recorded afterHigh.tracks low
      (low.foldl (Recording.recordMatch detections) afterHigh).tracks ∧
        (low.foldl (Recording.recordMatch detections) afterHigh).assignments =
          afterHigh.assignments ++ low.map (assignmentOf afterHigh.tracks detections) :=
    recordMatches_recorded afterHigh fun pair hpair => (hlow.matched_from pair hpair).2.1
  generalize low.foldl (Recording.recordMatch detections) afterHigh = afterLow
    at hrecordedLow hupdate
  obtain ⟨hrecordedLow, hassignedLow⟩ := hrecordedLow
  rw [startTracks] at hupdate
  refine ⟨⟨high, low, (tracker.highIndices detections).filter fun det =>
    !(high.map Prod.fst).contains det⟩, afterHigh.tracks, afterLow.tracks, taken, taken', ?_⟩
  refine ⟨hhigh, hrecordedHigh, hlow, hrecordedLow, rfl, ?_, ?_⟩
  · rw [← hupdate]
  · rw [← hupdate]
    dsimp only
    rw [hassignedLow, hassignedHigh, List.nil_append]

end Update

/-- The ids of a frame. -/
def idsOf (assignments : List Assignment) : List Int := assignments.map Prod.fst

/-- What holds of a tracker between two frames. -/
structure Valid (tracker : PersonTracker) : Prop where
  ids_nodup : tracker.ids.Nodup
  ids_lt : ∀ id ∈ tracker.ids, id < tracker.nextId
  settings : tracker = { default with tracks := tracker.tracks, nextId := tracker.nextId }

section Facts

variable {tracker : PersonTracker} {detections : List Detection} {matching : FrameMatching}
  {afterHigh afterLow : List Track} {taken taken' : List Bool}
  {result : PersonTracker × List Assignment}

/-- The id of a track by its place. -/
def idAt (tracker : PersonTracker) (track : Nat) : Int := (trackAt tracker.tracks track).id

theorem idAt_eq {track : Nat} (h : track < tracker.tracks.length) :
    tracker.ids[track]? = some (idAt tracker track) := by
  rw [ids, List.getElem?_map, List.getElem?_eq_getElem h, idAt, trackAt, List.getD_eq_getElem _ _ h]
  rfl

theorem idAt_mem {track : Nat} (h : track < tracker.tracks.length) :
    idAt tracker track ∈ tracker.ids := List.mem_of_getElem? (idAt_eq h)

theorem Valid.idAt_inj (h : Valid tracker) {a b : Nat} (ha : a < tracker.tracks.length)
    (hb : b < tracker.tracks.length) (heq : idAt tracker a = idAt tracker b) : a = b := by
  have hlength : a < tracker.ids.length := by rwa [ids, List.length_map]
  exact (List.getElem?_inj hlength h.ids_nodup).mp
    ((idAt_eq ha).trans ((congrArg some heq).trans (idAt_eq hb).symm))

theorem trackAt_predict {track : Nat} (h : track < tracker.tracks.length) :
    trackAt (tracker.tracks.map Track.predict) track = (trackAt tracker.tracks track).predict := by
  have hlength : track < (tracker.tracks.map Track.predict).length := by rwa [List.length_map]
  rw [trackAt, trackAt, List.getD_eq_getElem _ _ hlength, List.getD_eq_getElem _ _ h,
    List.getElem_map]

namespace Steps

theorem range_high
    (h : Steps tracker detections matching afterHigh afterLow taken taken' result)
    {pair : Nat × Nat} (hpair : pair ∈ matching.high) :
    pair.2 < tracker.tracks.length := by
  have hrange := (h.high.matched_from pair hpair).2.1
  rwa [List.length_map] at hrange

theorem range_low
    (h : Steps tracker detections matching afterHigh afterLow taken taken' result)
    {pair : Nat × Nat} (hpair : pair ∈ matching.low) :
    pair.2 < tracker.tracks.length := by
  have hrange := (h.low.matched_from pair hpair).2.1
  rwa [h.recorded_high.length, List.length_map] at hrange

/-- The tracks that are free in the second round. -/
theorem free_iff
    (h : Steps tracker detections matching afterHigh afterLow taken taken' result)
    {track : Nat} (htrack : track < tracker.tracks.length) :
    taken.getD track false = false ↔ track ∉ matching.high.map Prod.snd := by
  have htaken := h.high.taken track (by rwa [List.length_map])
  have hnone : (List.replicate (tracker.tracks.map Track.predict).length false).getD track false =
      false := by
    rw [List.getD_eq_getElem?_getD, List.getElem?_replicate]
    split <;> rfl
  rw [hnone] at htaken
  rw [← Bool.not_eq_true, htaken]
  simp

theorem idsOf_eq
    (h : Steps tracker detections matching afterHigh afterLow taken taken' result) :
    idsOf result.2 =
    (matching.high ++ matching.low).map (fun pair => idAt tracker pair.2) ++
      (numbered matching.started tracker.nextId).map Prod.fst := by
  rw [idsOf, h.assignments_eq, List.map_append, List.map_append, List.map_append, List.map_map,
    List.map_map, List.map_map]
  congr 2
  · apply List.map_congr_left
    intro pair hpair
    have hrange := h.range_high hpair
    change (trackAt (tracker.tracks.map Track.predict) pair.2).id = _
    rw [trackAt_predict hrange, Track.predict_id, idAt]
  · apply List.map_congr_left
    intro pair hpair
    have hrange := h.range_low hpair
    change (trackAt afterHigh pair.2).id = _
    rw [h.recorded_high.ids pair.2 (by rwa [List.length_map]), trackAt_predict hrange,
      Track.predict_id, idAt]

theorem mem_idsOf
    (h : Steps tracker detections matching afterHigh afterLow taken taken' result)
    {id : Int} (hid : id ∈ idsOf result.2) :
    (∃ pair ∈ matching.high ++ matching.low, idAt tracker pair.2 = id) ∨
      tracker.nextId ≤ id ∧ id < result.1.nextId := by
  rw [h.idsOf_eq, List.mem_append, List.mem_map] at hid
  rcases hid with hmatched | hstarted
  · exact .inl hmatched
  · obtain ⟨⟨id, det⟩, hentry, rfl⟩ := List.mem_map.mp hstarted
    have := mem_numbered hentry
    rw [h.tracker_eq]
    exact .inr this

theorem range_matched
    (h : Steps tracker detections matching afterHigh afterLow taken taken' result)
    {pair : Nat × Nat} (hpair : pair ∈ matching.high ++ matching.low) :
    pair.2 < tracker.tracks.length := by
  rcases List.mem_append.mp hpair with hhigh | hlow
  · exact h.range_high hhigh
  · exact h.range_low hlow

theorem tracks_nodup
    (h : Steps tracker detections matching afterHigh afterLow taken taken' result) :
    ((matching.high ++ matching.low).map Prod.snd).Nodup := by
  rw [List.map_append, List.nodup_append']
  refine ⟨h.high.matched_tracks, h.low.matched_tracks, ?_⟩
  intro track hhigh hlow
  obtain ⟨pair, hpair, rfl⟩ := List.mem_map.mp hlow
  have hfree := (h.low.matched_from pair hpair).2.2
  exact (h.free_iff (h.range_low hpair)).mp hfree hhigh

/-- No id is given twice in a frame. -/
theorem idsOf_nodup
    (h : Steps tracker detections matching afterHigh afterLow taken taken' result)
    (hvalid : Valid tracker) : (idsOf result.2).Nodup := by
  rw [h.idsOf_eq, List.nodup_append']
  refine ⟨?_, nodup_numbered _ _, ?_⟩
  · have hmap : (matching.high ++ matching.low).map (fun pair => idAt tracker pair.2) =
        ((matching.high ++ matching.low).map Prod.snd).map (idAt tracker) := by
      rw [List.map_map]
      rfl
    rw [hmap]
    refine List.Nodup.map_on ?_ h.tracks_nodup
    intro a ha b hb heq
    obtain ⟨pair, hpair, rfl⟩ := List.mem_map.mp ha
    obtain ⟨other, hother, rfl⟩ := List.mem_map.mp hb
    exact hvalid.idAt_inj (h.range_matched hpair) (h.range_matched hother) heq
  · intro id hmatched hstarted
    obtain ⟨pair, hpair, rfl⟩ := List.mem_map.mp hmatched
    obtain ⟨⟨id, det⟩, hentry, heq⟩ := List.mem_map.mp hstarted
    have hlt := hvalid.ids_lt _ (idAt_mem (h.range_matched hpair))
    have hge := (mem_numbered hentry).1
    dsimp only at heq
    omega

theorem mem_high_det
    (h : Steps tracker detections matching afterHigh afterLow taken taken' result) {det : Nat}
    (hdet : det ∈ matching.high.map Prod.fst ++ matching.started) :
    det < detections.length ∧ (detectionAt detections det).2 ≥ tracker.highThresh := by
  have hindex : det ∈ tracker.highIndices detections := by
    rcases List.mem_append.mp hdet with hmatched | hstarted
    · obtain ⟨pair, hpair, rfl⟩ := List.mem_map.mp hmatched
      exact (h.high.matched_from pair hpair).1
    · rw [h.started] at hstarted
      exact List.mem_of_mem_filter hstarted
  rw [highIndices, List.mem_filter, List.mem_range, decide_eq_true_eq] at hindex
  exact hindex

theorem mem_low_det
    (h : Steps tracker detections matching afterHigh afterLow taken taken' result) {det : Nat}
    (hdet : det ∈ matching.low.map Prod.fst) : det < detections.length ∧
      (detectionAt detections det).2 < tracker.highThresh ∧
        (detectionAt detections det).2 ≥ tracker.minConf := by
  obtain ⟨pair, hpair, rfl⟩ := List.mem_map.mp hdet
  have hindex := (h.low.matched_from pair hpair).1
  rw [lowIndices, List.mem_filter, List.mem_range, Bool.and_eq_true, decide_eq_true_eq,
    decide_eq_true_eq] at hindex
  exact hindex

/-- No detection is given two ids. -/
theorem dets_nodup
    (h : Steps tracker detections matching afterHigh afterLow taken taken' result) :
    (matching.high.map Prod.fst ++ matching.low.map Prod.fst ++ matching.started).Nodup := by
  have hstarted : matching.started.Nodup := by
    rw [h.started]
    exact (List.nodup_range.filter _).filter _
  have hapart : ∀ det ∈ matching.high.map Prod.fst ++ matching.started,
      det ∉ matching.low.map Prod.fst := by
    intro det hhigh hlow
    have hge := (h.mem_high_det hhigh).2
    have hlt := (h.mem_low_det hlow).2.1
    exact absurd hge (not_le.mpr hlt)
  rw [List.nodup_append', List.nodup_append']
  refine ⟨⟨h.high.matched_dets, h.low.matched_dets, ?_⟩, hstarted, ?_⟩
  · exact fun det hhigh hlow => hapart det (List.mem_append_left _ hhigh) hlow
  · intro det hmatched hstart
    rcases List.mem_append.mp hmatched with hhigh | hlow
    · rw [h.started, List.mem_filter, Bool.not_eq_true', ← Bool.not_eq_true,
        List.contains_iff_mem] at hstart
      exact hstart.2 hhigh
    · exact hapart det (List.mem_append_right _ hstart) hlow

theorem high_assigned
    (h : Steps tracker detections matching afterHigh afterLow taken taken' result) {det : Nat}
    (hdet : det < detections.length)
    (hhigh : (detectionAt detections det).2 ≥ tracker.highThresh) :
    det ∈ matching.high.map Prod.fst ++ matching.started := by
  by_cases hmatched : det ∈ matching.high.map Prod.fst
  · exact List.mem_append_left _ hmatched
  · refine List.mem_append_right _ ?_
    rw [h.started, List.mem_filter, highIndices, List.mem_filter, List.mem_range, decide_eq_true_eq,
      Bool.not_eq_true', ← Bool.not_eq_true, List.contains_iff_mem]
    exact ⟨⟨hdet, hhigh⟩, hmatched⟩

/-- In the second round the free tracks are still where the prediction put them. -/
theorem blocked_low
    (h : Steps tracker detections matching afterHigh afterLow taken taken' result) :
    Blocked (tracker.tracks.map Track.predict) detections (tracker.lowIndices detections)
      (fun track => track ∉ matching.high.map Prod.snd) tracker.matchThreshLow matching.low := by
  have hsame : ∀ det, ∀ track < tracker.tracks.length, track ∉ matching.high.map Prod.snd →
      overlap afterHigh detections det track =
        overlap (tracker.tracks.map Track.predict) detections det track := by
    intro det track htrack hfree
    rw [overlap, overlap, h.recorded_high.untouched track (by rwa [List.length_map]) hfree]
  intro det hdet track htrack hfree hoverlap
  rw [List.length_map] at htrack
  rw [← hsame det track htrack hfree] at hoverlap ⊢
  have htrack' : track < afterHigh.length := by rwa [h.recorded_high.length, List.length_map]
  rcases h.low.blocked det hdet track htrack' ((h.free_iff htrack).mpr hfree) hoverlap with
    hmatched | ⟨pair, hpair, hblocks, hge⟩
  · exact .inl hmatched
  · refine .inr ⟨pair, hpair, hblocks, ?_⟩
    have hpairFree := (h.free_iff (h.range_low hpair)).mp (h.low.matched_from pair hpair).2.2
    rw [← hsame pair.1 pair.2 (h.range_low hpair) hpairFree]
    exact hge

theorem blocked_high
    (h : Steps tracker detections matching afterHigh afterLow taken taken' result) :
    Blocked (tracker.tracks.map Track.predict) detections (tracker.highIndices detections)
      (fun _ => True) tracker.matchThreshHigh matching.high := by
  intro det hdet track htrack _ hoverlap
  refine h.high.blocked det hdet track htrack ?_ hoverlap
  dsimp only
  rw [List.getD_eq_getElem?_getD, List.getElem?_replicate]
  split <;> rfl

/-- The age of a track that is kept: it was assigned in this frame, or is a frame older. -/
theorem kept
    (h : Steps tracker detections matching afterHigh afterLow taken taken' result)
    (hvalid : Valid tracker)
    {found : Track} (hfound : found ∈ result.1.tracks) :
    found.timeSinceUpdate ≤ tracker.maxAge ∧
      (found.id ∈ idsOf result.2 ∧ found.timeSinceUpdate = 0 ∨
        found.id ∉ idsOf result.2 ∧ ∃ track ∈ tracker.tracks, track.id = found.id ∧
          found.timeSinceUpdate = track.timeSinceUpdate + 1) := by
  have hall : found ∈ afterLow ++ (numbered matching.started tracker.nextId).map (fun entry =>
      Track.fromBox entry.1 (detectionAt detections entry.2).1) ∧
        found.timeSinceUpdate ≤ tracker.maxAge := by
    rw [h.tracker_eq, List.mem_filter, decide_eq_true_eq] at hfound
    exact hfound
  refine ⟨hall.2, ?_⟩
  rcases List.mem_append.mp hall.1 with hold | hnew
  · obtain ⟨track, htrack, rfl⟩ := exists_trackAt hold
    have hrange : track < tracker.tracks.length := by
      rwa [h.recorded_low.length, h.recorded_high.length, List.length_map] at htrack
    have hrange' : track < (tracker.tracks.map Track.predict).length := by rwa [List.length_map]
    have hrangeHigh : track < afterHigh.length := by rwa [h.recorded_high.length]
    have hid : (trackAt afterLow track).id = idAt tracker track := by
      rw [h.recorded_low.ids track hrangeHigh, h.recorded_high.ids track hrange',
        trackAt_predict hrange, Track.predict_id, idAt]
    by_cases hmatched : track ∈ (matching.high ++ matching.low).map Prod.snd
    · refine .inl ⟨?_, ?_⟩
      · obtain ⟨pair, hpair, rfl⟩ := List.mem_map.mp hmatched
        rw [h.idsOf_eq, hid]
        exact List.mem_append_left _ (List.mem_map.mpr ⟨pair, hpair, rfl⟩)
      · by_cases hlow : track ∈ matching.low.map Prod.snd
        · exact h.recorded_low.touched track hrangeHigh hlow
        · rw [List.map_append, List.mem_append] at hmatched
          rw [h.recorded_low.untouched track hrangeHigh hlow]
          exact h.recorded_high.touched track hrange' (hmatched.resolve_right hlow)
    · rw [List.map_append, List.mem_append, not_or] at hmatched
      have hpredicted : trackAt afterLow track = (trackAt tracker.tracks track).predict := by
        rw [h.recorded_low.untouched track hrangeHigh hmatched.2,
          h.recorded_high.untouched track hrange' hmatched.1, trackAt_predict hrange]
      refine .inr ⟨?_, trackAt tracker.tracks track, trackAt_mem hrange, ?_, ?_⟩
      · rw [hid]
        intro hassigned
        rcases h.mem_idsOf hassigned with ⟨pair, hpair, hsame⟩ | ⟨hge, -⟩
        · have hplace := hvalid.idAt_inj (h.range_matched hpair) hrange hsame
          have hsnd : track ∈ (matching.high ++ matching.low).map Prod.snd :=
            List.mem_map.mpr ⟨pair, hpair, hplace⟩
          rw [List.map_append, List.mem_append] at hsnd
          exact hsnd.elim hmatched.1 hmatched.2
        · have := hvalid.ids_lt _ (idAt_mem hrange)
          omega
      · rw [hpredicted, Track.predict_id]
      · rw [hpredicted, Track.predict_timeSinceUpdate]
  · obtain ⟨entry, hentry, rfl⟩ := List.mem_map.mp hnew
    refine .inl ⟨?_, rfl⟩
    rw [h.idsOf_eq]
    exact List.mem_append_right _ (List.mem_map.mpr ⟨entry, hentry, rfl⟩)

theorem nextId_le
    (h : Steps tracker detections matching afterHigh afterLow taken taken' result) :
    tracker.nextId ≤ result.1.nextId := by
  rw [h.tracker_eq]
  dsimp only
  omega

/-- What is kept was there before, or has started. -/
theorem ids_sublist
    (h : Steps tracker detections matching afterHigh afterLow taken taken' result) :
    result.1.ids.Sublist
      (tracker.ids ++ (numbered matching.started tracker.nextId).map Prod.fst) := by
  have hlow : afterLow.map Track.id = tracker.ids := by
    refine List.ext_getElem? fun track => ?_
    by_cases htrack : track < tracker.tracks.length
    · have hrange' : track < (tracker.tracks.map Track.predict).length := by rwa [List.length_map]
      have hrangeHigh : track < afterHigh.length := by rwa [h.recorded_high.length]
      have hrangeLow : track < afterLow.length := by rwa [h.recorded_low.length]
      rw [idAt_eq htrack, List.getElem?_map, List.getElem?_eq_getElem hrangeLow, Option.map_some,
        ← List.getD_eq_getElem _ Inhabited.default hrangeLow]
      change some (trackAt afterLow track).id = _
      rw [h.recorded_low.ids track hrangeHigh, h.recorded_high.ids track hrange',
        trackAt_predict htrack, Track.predict_id, idAt]
    · have hlength : afterLow.length = tracker.tracks.length := by
        rw [h.recorded_low.length, h.recorded_high.length, List.length_map]
      rw [List.getElem?_eq_none (by rw [List.length_map]; omega),
        List.getElem?_eq_none (by rw [ids, List.length_map]; omega)]
  rw [h.tracker_eq, ids]
  refine (List.filter_sublist.map _).trans ?_
  rw [List.map_append, hlow, List.map_map]
  exact List.Sublist.refl _

theorem mem_ids
    (h : Steps tracker detections matching afterHigh afterLow taken taken' result) {id : Int}
    (hid : id ∈ result.1.ids) : id ∈ tracker.ids ∨ tracker.nextId ≤ id ∧ id < result.1.nextId := by
  rcases List.mem_append.mp (h.ids_sublist.mem hid) with hold | hnew
  · exact .inl hold
  · obtain ⟨⟨id, det⟩, hentry, rfl⟩ := List.mem_map.mp hnew
    rw [h.tracker_eq]
    exact .inr (mem_numbered hentry)

theorem valid
    (h : Steps tracker detections matching afterHigh afterLow taken taken' result)
    (hvalid : Valid tracker) :
    Valid result.1 := by
  refine ⟨h.ids_sublist.nodup ?_, ?_, ?_⟩
  · refine List.nodup_append'.mpr ⟨hvalid.ids_nodup, nodup_numbered _ _, ?_⟩
    intro id hold hnew
    obtain ⟨⟨id, det⟩, hentry, rfl⟩ := List.mem_map.mp hnew
    have hlt := hvalid.ids_lt _ hold
    have hge := (mem_numbered hentry).1
    dsimp only at hlt
    omega
  · intro id hid
    rcases h.mem_ids hid with hold | ⟨-, hlt⟩
    · exact (hvalid.ids_lt id hold).trans_le h.nextId_le
    · exact hlt
  · rw [h.tracker_eq, hvalid.settings]

end Steps

end Facts

section Run

theorem valid_default : Valid default where
  ids_nodup := List.nodup_nil
  ids_lt := nofun
  settings := rfl

/-- What is recorded of a frame that comes after some others. -/
def assigned (frames : List (List Detection)) (detections : List Detection) : List Assignment :=
  ((after frames).update detections).2

theorem after_append (frames more : List (List Detection)) :
    after (frames ++ more) =
      more.foldl (fun tracker detections => (tracker.update detections).1) (after frames) :=
  List.foldl_append

theorem after_concat (frames : List (List Detection)) (detections : List Detection) :
    after (frames ++ [detections]) = ((after frames).update detections).1 := after_append _ _

theorem valid_after (frames : List (List Detection)) : Valid (after frames) := by
  induction frames using List.reverseRecOn with
  | nil => exact valid_default
  | append_singleton frames detections ih =>
      obtain ⟨_, _, _, _, _, h⟩ := exists_steps (after frames) detections
      rw [after_concat]
      exact h.valid ih

theorem nextId_le_after (frames later : List (List Detection)) :
    (after frames).nextId ≤ (after (frames ++ later)).nextId := by
  induction later using List.reverseRecOn with
  | nil => rw [List.append_nil]
  | append_singleton later detections ih =>
      obtain ⟨_, _, _, _, _, h⟩ := exists_steps (after (frames ++ later)) detections
      rw [← List.append_assoc, after_concat]
      exact ih.trans h.nextId_le

/-- An id that was used and has no track any more stays without one. -/
theorem gone {frames : List (List Detection)} {id : Int} (hused : id < (after frames).nextId)
    (hgone : id ∉ (after frames).ids) (later : List (List Detection)) :
    id < (after (frames ++ later)).nextId ∧ id ∉ (after (frames ++ later)).ids := by
  induction later using List.reverseRecOn with
  | nil => rw [List.append_nil]; exact ⟨hused, hgone⟩
  | append_singleton later detections ih =>
      obtain ⟨_, _, _, _, _, h⟩ := exists_steps (after (frames ++ later)) detections
      rw [← List.append_assoc, after_concat]
      refine ⟨ih.1.trans_le h.nextId_le, fun hid => ?_⟩
      rcases h.mem_ids hid with hold | ⟨hge, -⟩
      · exact ih.2 hold
      · exact absurd ih.1 (not_lt.mpr hge)

/-- An id of a frame has a track, or is a new one. -/
theorem mem_assigned {frames : List (List Detection)} {detections : List Detection} {id : Int}
    (hid : id ∈ idsOf (assigned frames detections)) :
    (id ∈ (after frames).ids ∨ (after frames).nextId ≤ id) ∧
      id < (after (frames ++ [detections])).nextId := by
  obtain ⟨_, _, _, _, _, h⟩ := exists_steps (after frames) detections
  rw [after_concat]
  rcases h.mem_idsOf hid with ⟨pair, hpair, rfl⟩ | ⟨hge, hlt⟩
  · have hmem := idAt_mem (h.range_matched hpair)
    exact ⟨.inl hmem, ((valid_after frames).ids_lt _ hmem).trans_le h.nextId_le⟩
  · exact ⟨.inr hge, hlt⟩

/-- A track that is missed counts the frames since its id was given. -/
theorem age_of_missed {frames : List (List Detection)} {detections : List Detection} {id : Int}
    (hid : id ∈ idsOf (assigned frames detections)) {between : List (List Detection)}
    (hmissed : ∀ front missing back, between = front ++ missing :: back →
      id ∉ idsOf (assigned (frames ++ detections :: front) missing))
    {track : Track} (htrack : track ∈ (after (frames ++ detections :: between)).tracks)
    (hsame : track.id = id) : track.timeSinceUpdate = between.length ∧
      track.timeSinceUpdate ≤ default.maxAge := by
  have hmaxAge : ∀ frames, (after frames).maxAge = default.maxAge := by
    intro frames
    rw [(valid_after frames).settings]
  induction between using List.reverseRecOn generalizing track with
  | nil =>
      obtain ⟨_, _, _, _, _, h⟩ := exists_steps (after frames) detections
      rw [after_concat] at htrack
      obtain ⟨hage, hkept⟩ := h.kept (valid_after frames) htrack
      rw [hmaxAge] at hage
      rcases hkept with ⟨-, hzero⟩ | ⟨hmissing, -⟩
      · exact ⟨hzero, hage⟩
      · rw [hsame] at hmissing
        exact absurd hid hmissing
  | append_singleton between missing ih =>
      obtain ⟨_, _, _, _, _, h⟩ := exists_steps (after (frames ++ detections :: between)) missing
      rw [← List.cons_append, ← List.append_assoc, after_concat] at htrack
      obtain ⟨hage, hkept⟩ := h.kept (valid_after _) htrack
      rw [hmaxAge] at hage
      have hnot := hmissed between missing [] rfl
      rcases hkept with ⟨hassigned, -⟩ | ⟨-, old, hold, holdId, hnext⟩
      · rw [hsame] at hassigned
        exact absurd hassigned hnot
      · have holder : ∀ front missed back, between = front ++ missed :: back →
            id ∉ idsOf (assigned (frames ++ detections :: front) missed) := by
          rintro front missed back rfl
          exact hmissed front missed (back ++ [missing]) (by simp)
        have hcount := (ih holder hold (holdId.trans hsame)).1
        rw [List.length_append, List.length_singleton, hnext, hcount]
        exact ⟨rfl, by rw [← hcount, ← hnext]; exact hage⟩

/-- One frame, as its detections are given ids: each once at most, those of a high confidence
exactly once and those below the floor never, with both rounds of matching as full as they can
be. -/
structure FrameApart (tracker : PersonTracker) (detections : List Detection)
    (assignments : List Assignment) (matching : FrameMatching) : Prop where
  assignments_eq : assignments =
    (matching.high ++ matching.low).map (fun pair =>
        (idAt tracker pair.2, detectionAt detections pair.1)) ++
      (numbered matching.started tracker.nextId).map fun entry =>
        (entry.1, detectionAt detections entry.2)
  ids_nodup : (idsOf assignments).Nodup
  dets_nodup :
    (matching.high.map Prod.fst ++ matching.low.map Prod.fst ++ matching.started).Nodup
  in_range : ∀ pair ∈ matching.high ++ matching.low, pair.2 < tracker.tracks.length
  high_assigned : ∀ det < detections.length, (detectionAt detections det).2 ≥ tracker.highThresh →
    det ∈ matching.high.map Prod.fst ++ matching.started
  floor : ∀ det ∈ matching.high.map Prod.fst ++ matching.low.map Prod.fst ++ matching.started,
    det < detections.length ∧ (detectionAt detections det).2 ≥ tracker.minConf
  blocked_high : Blocked (tracker.tracks.map Track.predict) detections
    (tracker.highIndices detections) (fun _ => True) tracker.matchThreshHigh matching.high
  blocked_low : Blocked (tracker.tracks.map Track.predict) detections
    (tracker.lowIndices detections) (fun track => track ∉ matching.high.map Prod.snd)
    tracker.matchThreshLow matching.low

theorem exists_frameApart {tracker : PersonTracker} (hvalid : Valid tracker)
    (detections : List Detection) :
    ∃ matching, FrameApart tracker detections (tracker.update detections).2 matching := by
  obtain ⟨matching, afterHigh, _, _, _, h⟩ := exists_steps tracker detections
  refine ⟨matching, ?_, h.idsOf_nodup hvalid, h.dets_nodup, fun pair hpair => h.range_matched hpair,
    fun det hdet hhigh => h.high_assigned hdet hhigh, ?_, h.blocked_high, h.blocked_low⟩
  · rw [h.assignments_eq, List.map_append]
    congr 2
    · refine List.map_congr_left fun pair hpair => ?_
      rw [assignmentOf, trackAt_predict (h.range_high hpair), Track.predict_id, idAt]
    · refine List.map_congr_left fun pair hpair => ?_
      have hrange := h.range_low hpair
      rw [assignmentOf, h.recorded_high.ids pair.2 (by rwa [List.length_map]),
        trackAt_predict hrange, Track.predict_id, idAt]
  · intro det hdet
    have hfloor : tracker.minConf ≤ tracker.highThresh := by
      rw [hvalid.settings]
      change default.minConf ≤ default.highThresh
      decide +kernel
    rw [List.append_assoc, List.mem_append, List.mem_append] at hdet
    rcases hdet with hhigh | hlow | hstarted
    · obtain ⟨hrange, hge⟩ := h.mem_high_det (List.mem_append_left _ hhigh)
      exact ⟨hrange, hfloor.trans hge⟩
    · obtain ⟨hrange, -, hge⟩ := h.mem_low_det hlow
      exact ⟨hrange, hge⟩
    · obtain ⟨hrange, hge⟩ := h.mem_high_det (List.mem_append_right _ hstarted)
      exact ⟨hrange, hfloor.trans hge⟩

/-- Every sequence of frames keeps identities apart: within each frame as above; an id that starts
in a frame was in none before; an id keeps its track from each frame it is in to the next, so that
none comes back after its track was dropped; and between two frames it is in, with none between
them, lie at most as many as a track is kept for. -/
theorem tracking_keeps_identities_apart :
    (∀ frames detections, ∃ matching,
        FrameApart (after frames) detections (assigned frames detections) matching) ∧
      (∀ earlier detections later now id,
        id ∈ idsOf (assigned (earlier ++ detections :: later) now) →
        id ∉ (after (earlier ++ detections :: later)).ids →
          id ∉ idsOf (assigned earlier detections)) ∧
      (∀ earlier detections front back again id, id ∈ idsOf (assigned earlier detections) →
        id ∈ idsOf (assigned (earlier ++ detections :: (front ++ back)) again) →
          id ∈ (after (earlier ++ detections :: front)).ids) ∧
      ∀ earlier detections between again id, id ∈ idsOf (assigned earlier detections) →
        (∀ front missing back, between = front ++ missing :: back →
          id ∉ idsOf (assigned (earlier ++ detections :: front) missing)) →
        id ∈ idsOf (assigned (earlier ++ detections :: between) again) →
          between.length + 1 ≤ default.maxAge + 1 := by
  have hkept : ∀ earlier detections front back again id, id ∈ idsOf (assigned earlier detections) →
      id ∈ idsOf (assigned (earlier ++ detections :: (front ++ back)) again) →
        id ∈ (after (earlier ++ detections :: front)).ids := by
    intro earlier detections front back again id hid hagain
    by_contra hgone
    have hused : id < (after (earlier ++ detections :: front)).nextId := by
      have hgrows := nextId_le_after (earlier ++ [detections]) front
      rw [List.append_assoc, List.singleton_append] at hgrows
      exact (mem_assigned hid).2.trans_le hgrows
    have hstays := gone hused hgone back
    rw [List.append_assoc, List.cons_append] at hstays
    rcases (mem_assigned hagain).1 with hmem | hge
    · exact hstays.2 hmem
    · exact absurd hstays.1 (not_lt.mpr hge)
  refine ⟨fun frames detections => exists_frameApart (valid_after frames) detections, ?_, hkept, ?_⟩
  · intro earlier detections later now id hnow hstarts hid
    exact hstarts (hkept earlier detections later [] now id hid (by rwa [List.append_nil]))
  · intro earlier detections between again id hid hmissed hagain
    have hmem := hkept earlier detections between [] again id hid (by rwa [List.append_nil])
    obtain ⟨track, htrack, hsame⟩ := List.mem_map.mp hmem
    obtain ⟨hcount, hage⟩ := age_of_missed hid hmissed htrack hsame
    omega

/-- A person who is not seen for two frames, and then again. -/
def seenAgain : List Detection := [(⟨1/4, 1/4, 1/2, 1/2⟩, 9/10)]

theorem seenAgain_keeps_id :
    1 ∈ (after [seenAgain, [], []]).ids ∧ ([[], []] : List (List Detection)).length + 1 ≤ 2 + 1 :=
  have hfirst : 1 ∈ idsOf (assigned [] seenAgain) := by decide +kernel
  have hagain : 1 ∈ idsOf (assigned [seenAgain, [], []] seenAgain) := by decide +kernel
  have hmissed : ∀ front missing back, [[], []] = front ++ missing :: back →
      1 ∉ idsOf (assigned ([] ++ seenAgain :: front) missing) := by
    intro front missing back hsplit
    rcases front with _ | ⟨first, _ | ⟨second, front⟩⟩
    · obtain ⟨rfl, -⟩ := List.cons.inj hsplit
      decide +kernel
    · simp only [List.cons_append, List.nil_append, List.cons.injEq] at hsplit
      obtain ⟨rfl, rfl, -⟩ := hsplit
      decide +kernel
    · have hlength := congrArg List.length hsplit
      simp at hlength
  ⟨tracking_keeps_identities_apart.2.2.1 [] seenAgain [[], []] [] seenAgain 1 hfirst hagain,
    tracking_keeps_identities_apart.2.2.2 [] seenAgain [[], []] seenAgain 1 hfirst hmissed hagain⟩

end Run

end SceneWorks.PersonTrack
