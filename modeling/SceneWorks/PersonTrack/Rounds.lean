import Mathlib.Data.List.GetD
import SceneWorks.PersonTrack.Tracker

/-!
What one round of the matching does, and what recording its matches and starting new tracks leaves
of the tracks.
-/

namespace SceneWorks.PersonTrack

section Round

/-- Two pairs with the same detection or the same track. -/
def Conflicts (a b : ℚ × Nat × Nat) : Prop := a.2.1 = b.2.1 ∨ a.2.2 = b.2.2

instance : DecidableRel Conflicts := fun _ _ => inferInstanceAs (Decidable (_ ∨ _))

/-- The tables of the loop after the pairs it chose. -/
structure Follows (trackTaken : List Bool) (chosen : List (ℚ × Nat × Nat)) (state : MatchState) :
    Prop where
  matched : state.matched = chosen.map Prod.snd
  dets : ∀ det, state.detTaken.contains det = true ↔ ∃ pair ∈ chosen, pair.2.1 = det
  length : state.trackTaken.length = trackTaken.length
  tracks : ∀ track < trackTaken.length, state.trackTaken.getD track false = true ↔
    trackTaken.getD track false = true ∨ ∃ pair ∈ chosen, pair.2.2 = track

variable {trackTaken : List Bool}

theorem follows_start : Follows trackTaken [] ⟨trackTaken, [], []⟩ where
  matched := rfl
  dets := by simp
  length := rfl
  tracks := by simp

theorem Follows.take {chosen : List (ℚ × Nat × Nat)} {state : MatchState}
    (h : Follows trackTaken chosen state) {pair : ℚ × Nat × Nat}
    (hrange : pair.2.2 < trackTaken.length) (hfree : trackTaken.getD pair.2.2 false = false) :
    Follows trackTaken (GreedyChoice.step Conflicts chosen pair) (state.take pair) := by
  obtain ⟨iou, det, track⟩ := pair
  dsimp only at hrange hfree
  have hblocked : (state.trackTaken.getD track false || state.detTaken.contains det) = true ↔
      ∃ other ∈ chosen, Conflicts other (iou, det, track) := by
    rw [Bool.or_eq_true, h.tracks track hrange, h.dets, hfree]
    constructor
    · rintro ((hfalse | ⟨other, hother, htrack⟩) | ⟨other, hother, hdet⟩)
      · cases hfalse
      · exact ⟨other, hother, .inr htrack⟩
      · exact ⟨other, hother, .inl hdet⟩
    · rintro ⟨other, hother, hdet | htrack⟩
      · exact .inr ⟨other, hother, hdet⟩
      · exact .inl (.inr ⟨other, hother, htrack⟩)
  rw [MatchState.take, GreedyChoice.step]
  by_cases hconflict : ∃ other ∈ chosen, Conflicts other (iou, det, track)
  · rw [if_pos hconflict, if_pos (hblocked.mpr hconflict)]
    exact h
  · rw [if_neg hconflict, if_neg (mt hblocked.mp hconflict)]
    refine ⟨?_, ?_, ?_, ?_⟩
    · simp [h.matched]
    · intro other
      rw [List.contains_iff_mem, List.mem_append, ← List.contains_iff_mem, h.dets]
      simp [or_and_right, exists_or, eq_comm]
    · simp [h.length]
    · intro other hother
      by_cases hsame : other = track
      · subst hsame
        simp [List.getD_eq_getElem?_getD, h.length, hrange]
      · have hset : (state.trackTaken.set track true).getD other false =
            state.trackTaken.getD other false := by
          simp [List.getD_eq_getElem?_getD, List.getElem?_set_ne (Ne.symm hsame)]
        rw [hset, h.tracks other hother]
        simp [or_and_right, exists_or, Ne.symm hsame]

theorem follows_foldl {pairs chosen : List (ℚ × Nat × Nat)} {state : MatchState}
    (h : Follows trackTaken chosen state)
    (hpairs : ∀ pair ∈ pairs, pair.2.2 < trackTaken.length ∧
      trackTaken.getD pair.2.2 false = false) :
    Follows trackTaken (GreedyChoice.choose Conflicts chosen pairs)
      (pairs.foldl MatchState.take state) := by
  induction pairs generalizing chosen state with
  | nil => exact h
  | cons pair pairs ih =>
      obtain ⟨⟨hrange, hfree⟩, hrest⟩ := List.forall_mem_cons.mp hpairs
      exact ih (h.take hrange hfree) hrest

variable {tracks : List Track} {detections : List Detection} {detIndices : List Nat} {thresh : ℚ}

theorem mem_candidatePairs {iou : ℚ} {det track : Nat} :
    (iou, det, track) ∈ candidatePairs tracks detections detIndices trackTaken thresh ↔
      det ∈ detIndices ∧ track < tracks.length ∧ trackTaken.getD track false = false ∧
        overlap tracks detections det track ≥ thresh ∧
          iou = overlap tracks detections det track := by
  simp only [candidatePairs, List.mem_flatMap, List.mem_filterMap, List.mem_range]
  constructor
  · rintro ⟨other, hdet, index, hindex, heq⟩
    split at heq
    · cases heq
    · rename_i hfree
      split at heq
      · rename_i hoverlap
        cases heq
        exact ⟨hdet, hindex, Bool.eq_false_iff.mpr hfree, hoverlap, rfl⟩
      · cases heq
  · rintro ⟨hdet, htrack, hfree, hoverlap, rfl⟩
    refine ⟨det, hdet, track, htrack, ?_⟩
    rw [hfree, if_neg Bool.false_ne_true, if_pos hoverlap]

/-- What a round leaves out overlaps too little, or is blocked by a match of its detection or its
track that overlaps no less. -/
def Blocked (tracks : List Track) (detections : List Detection) (detIndices : List Nat)
    (free : Nat → Prop) (thresh : ℚ) (matched : List (Nat × Nat)) : Prop :=
  ∀ det ∈ detIndices, ∀ track < tracks.length, free track →
    overlap tracks detections det track ≥ thresh → (det, track) ∈ matched ∨
      ∃ pair ∈ matched, (pair.1 = det ∨ pair.2 = track) ∧
        overlap tracks detections pair.1 pair.2 ≥ overlap tracks detections det track

/-- A round of matching. -/
structure Round (tracks : List Track) (detections : List Detection) (detIndices : List Nat)
    (trackTaken : List Bool) (thresh : ℚ) (matched : List (Nat × Nat)) (taken : List Bool) :
    Prop where
  matched_from : ∀ pair ∈ matched, pair.1 ∈ detIndices ∧ pair.2 < tracks.length ∧
    trackTaken.getD pair.2 false = false
  matched_dets : (matched.map Prod.fst).Nodup
  matched_tracks : (matched.map Prod.snd).Nodup
  length : taken.length = trackTaken.length
  taken : ∀ track < tracks.length, taken.getD track false = true ↔
    trackTaken.getD track false = true ∨ track ∈ matched.map Prod.snd
  blocked : Blocked tracks detections detIndices (fun track => trackTaken.getD track false = false)
    thresh matched

theorem greedyMatch_round (hlength : trackTaken.length = tracks.length) :
    Round tracks detections detIndices trackTaken thresh
      (greedyMatch tracks detections detIndices trackTaken thresh).1
      (greedyMatch tracks detections detIndices trackTaken thresh).2 := by
  generalize hpairs : (candidatePairs tracks detections detIndices trackTaken thresh).insertionSort
    (fun a b => b.1 ≤ a.1) = pairs
  have hmem : ∀ iou det track, (iou, det, track) ∈ pairs ↔ det ∈ detIndices ∧
      track < tracks.length ∧ trackTaken.getD track false = false ∧
        overlap tracks detections det track ≥ thresh ∧
          iou = overlap tracks detections det track := by
    intro iou det track
    rw [← hpairs, List.mem_insertionSort, mem_candidatePairs]
  have hsorted : pairs.Pairwise fun a b => b.1 ≤ a.1 := by
    rw [← hpairs]
    exact List.pairwise_insertionSort _ _
  have hfollows : Follows trackTaken (GreedyChoice.choose Conflicts [] pairs)
      (pairs.foldl MatchState.take ⟨trackTaken, [], []⟩) := by
    refine follows_foldl follows_start ?_
    rintro ⟨iou, det, track⟩ hpair
    obtain ⟨-, hrange, hfree, -, -⟩ := (hmem iou det track).mp hpair
    exact ⟨hlength ▸ hrange, hfree⟩
  have hchosen : ∀ pair ∈ GreedyChoice.choose Conflicts [] pairs, pair ∈ pairs := by
    intro pair hpair
    rcases GreedyChoice.mem_choose hpair with hnone | hpair
    · cases hnone
    · exact hpair
  have hapart : (GreedyChoice.choose Conflicts [] pairs).Pairwise fun a b => ¬ Conflicts a b :=
    GreedyChoice.pairwise_choose List.Pairwise.nil
  have hresult : greedyMatch tracks detections detIndices trackTaken thresh =
      ((pairs.foldl MatchState.take ⟨trackTaken, [], []⟩).matched,
        (pairs.foldl MatchState.take ⟨trackTaken, [], []⟩).trackTaken) := by
    rw [greedyMatch, hpairs]
  rw [hresult]
  dsimp only
  rw [hfollows.matched]
  refine ⟨?_, ?_, ?_, hfollows.length, ?_, ?_⟩
  · intro pair hpair
    obtain ⟨⟨iou, det, track⟩, hchoice, rfl⟩ := List.mem_map.mp hpair
    obtain ⟨hdet, hrange, hfree, -, -⟩ := (hmem iou det track).mp (hchosen _ hchoice)
    exact ⟨hdet, hrange, hfree⟩
  · rw [List.map_map, List.Nodup, List.pairwise_map]
    exact hapart.imp fun hfree hsame => hfree (.inl hsame)
  · rw [List.map_map, List.Nodup, List.pairwise_map]
    exact hapart.imp fun hfree hsame => hfree (.inr hsame)
  · intro track htrack
    rw [hfollows.tracks track (hlength.symm ▸ htrack), List.map_map, List.mem_map]
    rfl
  · intro det hdet track htrack hfree hoverlap
    have hpair := (hmem (overlap tracks detections det track) det track).mpr
      ⟨hdet, htrack, hfree, hoverlap, rfl⟩
    have hnone : ∀ other ∈ ([] : List (ℚ × Nat × Nat)), ∀ item ∈ pairs, item.1 ≤ other.1 :=
      fun _ h => absurd h List.not_mem_nil
    have hcases : _ ∈ GreedyChoice.choose Conflicts [] pairs ∨
        ∃ other ∈ GreedyChoice.choose Conflicts [] pairs, Conflicts other _ ∧ _ :=
      GreedyChoice.taken_or_blocked hsorted hnone hpair
    rcases hcases with htaken | ⟨other, hother, hconflict, hge⟩
    · exact .inl (List.mem_map.mpr ⟨_, htaken, rfl⟩)
    · obtain ⟨iou, otherDet, otherTrack⟩ := other
      obtain ⟨-, -, -, -, rfl⟩ := (hmem iou otherDet otherTrack).mp (hchosen _ hother)
      exact .inr ⟨(otherDet, otherTrack), List.mem_map.mpr ⟨_, hother, rfl⟩, hconflict, hge⟩

end Round

section Recording

variable {tracks : List Track} {detections : List Detection}

theorem trackAt_mem {track : Nat} (h : track < tracks.length) : trackAt tracks track ∈ tracks := by
  rw [trackAt, List.getD_eq_getElem _ _ h]
  exact List.getElem_mem h

theorem exists_trackAt {found : Track} (h : found ∈ tracks) :
    ∃ track < tracks.length, trackAt tracks track = found := by
  obtain ⟨track, htrack, rfl⟩ := List.getElem_of_mem h
  exact ⟨track, htrack, List.getD_eq_getElem _ _ htrack⟩

theorem trackAt_modify {f : Track → Track} {track other : Nat} (hother : other < tracks.length) :
    trackAt (tracks.modify track f) other =
      if other = track then f (trackAt tracks other) else trackAt tracks other := by
  have hlength : other < (tracks.modify track f).length := by rwa [List.length_modify]
  rw [trackAt, trackAt, List.getD_eq_getElem _ _ hlength, List.getD_eq_getElem _ _ hother,
    List.getElem_modify]
  simp [eq_comm]

/-- The tracks after the matches of a round are recorded. -/
structure Recorded (tracks : List Track) (matched : List (Nat × Nat)) (result : List Track) :
    Prop where
  length : result.length = tracks.length
  ids : ∀ track < tracks.length, (trackAt result track).id = (trackAt tracks track).id
  touched : ∀ track < tracks.length, track ∈ matched.map Prod.snd →
    (trackAt result track).timeSinceUpdate = 0
  untouched : ∀ track < tracks.length, track ∉ matched.map Prod.snd →
    trackAt result track = trackAt tracks track

/-- What a match of a round is recorded as. -/
def assignmentOf (tracks : List Track) (detections : List Detection) (pair : Nat × Nat) :
    Assignment := ((trackAt tracks pair.2).id, detectionAt detections pair.1)

theorem recordMatch_recorded {recording : Recording} {pair : Nat × Nat}
    (hpair : pair.2 < recording.tracks.length) :
    Recorded recording.tracks [pair] (recording.recordMatch detections pair).tracks ∧
      (recording.recordMatch detections pair).assignments =
        recording.assignments ++ [assignmentOf recording.tracks detections pair] := by
  obtain ⟨det, track⟩ := pair
  dsimp only at hpair
  refine ⟨⟨?_, ?_, ?_, ?_⟩, ?_⟩
  · exact List.length_modify _ _ _
  · intro other hother
    rw [Recording.recordMatch, trackAt_modify hother]
    split <;> rfl
  · intro other hother hsame
    obtain rfl : other = track := by simpa using hsame
    rw [Recording.recordMatch, trackAt_modify hother, if_pos rfl]
    rfl
  · intro other hother hne
    rw [Recording.recordMatch, trackAt_modify hother, if_neg (by simpa using hne)]
  · rw [Recording.recordMatch, assignmentOf]
    dsimp only
    rw [trackAt_modify hpair, if_pos rfl, Track.update_id]

/-- Recording keeps every id, restarts the age of what was matched and leaves the rest. -/
theorem recordMatches_recorded {matched : List (Nat × Nat)} (recording : Recording)
    (hmatched : ∀ pair ∈ matched, pair.2 < recording.tracks.length) :
    Recorded recording.tracks matched
        (matched.foldl (Recording.recordMatch detections) recording).tracks ∧
      (matched.foldl (Recording.recordMatch detections) recording).assignments =
        recording.assignments ++ matched.map (assignmentOf recording.tracks detections) := by
  induction matched generalizing recording with
  | nil =>
      refine ⟨⟨rfl, fun _ _ => rfl, fun _ _ h => absurd h List.not_mem_nil, fun _ _ _ => rfl⟩, ?_⟩
      exact (List.append_nil _).symm
  | cons pair matched ih =>
      obtain ⟨hpair, hrest⟩ := List.forall_mem_cons.mp hmatched
      have hone : Recorded recording.tracks [pair] (recording.recordMatch detections pair).tracks ∧
          _ := recordMatch_recorded hpair
      obtain ⟨hfirst, hfirstAssigned⟩ := hone
      have hrange : ∀ other ∈ matched,
          other.2 < (recording.recordMatch detections pair).tracks.length := by
        intro other hother
        rw [hfirst.length]
        exact hrest other hother
      obtain ⟨hlater, hlaterAssigned⟩ := ih _ hrange
      rw [List.foldl_cons]
      refine ⟨⟨hlater.length.trans hfirst.length, ?_, ?_, ?_⟩, ?_⟩
      · intro track htrack
        rw [hlater.ids track (hfirst.length ▸ htrack), hfirst.ids track htrack]
      · intro track htrack hmem
        have htrack' := hfirst.length ▸ htrack
        by_cases hlast : track ∈ matched.map Prod.snd
        · exact hlater.touched track htrack' hlast
        · rw [hlater.untouched track htrack' hlast]
          apply hfirst.touched track htrack
          rw [List.map_cons, List.mem_cons] at hmem
          exact List.mem_singleton.mpr (hmem.resolve_right hlast)
      · intro track htrack hmem
        rw [List.map_cons, List.mem_cons, not_or] at hmem
        rw [hlater.untouched track (hfirst.length ▸ htrack) hmem.2,
          hfirst.untouched track htrack (by simpa using hmem.1)]
      · rw [hlaterAssigned, hfirstAssigned, List.map_cons, List.append_assoc,
          List.singleton_append]
        congr 2
        apply List.map_congr_left
        intro other hother
        rw [assignmentOf, assignmentOf, hfirst.ids other.2 (hrest other hother)]

/-- Detections with the ids they start, one after another. -/
def numbered : List Nat → Int → List (Int × Nat)
  | [], _ => []
  | det :: dets, nextId => (nextId, det) :: numbered dets (nextId + 1)

theorem mem_numbered {dets : List Nat} {nextId id : Int} {det : Nat}
    (h : (id, det) ∈ numbered dets nextId) : nextId ≤ id ∧ id < nextId + dets.length := by
  induction dets generalizing nextId with
  | nil => cases h
  | cons first dets ih =>
      rw [numbered, List.mem_cons] at h
      rw [List.length_cons]
      rcases h with heq | hrest
      · cases heq
        omega
      · have := ih hrest
        omega

theorem nodup_numbered (dets : List Nat) (nextId : Int) :
    ((numbered dets nextId).map Prod.fst).Nodup := by
  induction dets generalizing nextId with
  | nil => exact List.nodup_nil
  | cons det dets ih =>
      rw [numbered, List.map_cons, List.nodup_cons]
      refine ⟨fun hmem => ?_, ih (nextId + 1)⟩
      obtain ⟨⟨id, other⟩, hother, heq⟩ := List.mem_map.mp hmem
      have := mem_numbered hother
      dsimp only at heq
      omega

theorem startTracks {dets : List Nat} {recording : Recording} {nextId : Int} :
    dets.foldl (startTrack detections) (recording, nextId) =
      (⟨recording.tracks ++ (numbered dets nextId).map
          (fun entry => Track.fromBox entry.1 (detectionAt detections entry.2).1),
        recording.assignments ++ (numbered dets nextId).map
          (fun entry => (entry.1, detectionAt detections entry.2))⟩, nextId + dets.length) := by
  induction dets generalizing recording nextId with
  | nil => simp [numbered]
  | cons det dets ih =>
      rw [List.foldl_cons, startTrack, ih]
      have hcount : nextId + 1 + (dets.length : Int) =
          nextId + ((dets.length + 1 : Nat) : Int) := by
        omega
      simp only [numbered, List.map_cons, List.append_assoc, List.singleton_append,
        List.length_cons, hcount]

end Recording

end SceneWorks.PersonTrack
