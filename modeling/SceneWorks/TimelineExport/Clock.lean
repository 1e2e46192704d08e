import Mathlib.Tactic.Linarith
import SceneWorks.TimelineExport.Segments

/-!
One reel for the two accumulations of an export: the picture ffmpeg joins and the table
`PictureTiming` keeps are both read off the frames a playhead passes.
-/

namespace SceneWorks.TimelineExport

/-- A segment as both accumulations see it. -/
structure Strip where
  shows : Option Json
  duration : ℚ
  fade : Option ℚ

def TimelineSegment.fade (segment : TimelineSegment) : Option ℚ :=
  if segment.crossfades then some (crossfadeDuration segment.transitionDuration) else none

def TimelineSegment.strip (segment : TimelineSegment) : Strip :=
  ⟨segment.shows, segment.duration, segment.fade⟩

/-- The first segment has nothing to fade from. -/
def strips : List TimelineSegment → List Strip
  | [] => []
  | first :: rest => ⟨first.shows, first.duration, none⟩ :: rest.map TimelineSegment.strip

/-- Seconds rendered, seconds of crossfade taken off them, and the length of the picture as
ffmpeg has joined it. -/
structure Head where
  rendered : ℚ
  absorbed : ℚ
  length : ℚ

def Head.start (head : Head) : Option ℚ → ℚ
  | some duration => max (head.rendered - head.absorbed - duration) 0
  | none => head.length

def Head.next (head : Head) (strip : Strip) : Head :=
  { rendered := head.rendered + strip.duration
    absorbed := head.absorbed + strip.fade.getD 0
    length := head.start strip.fade + strip.duration }

/-- Where a segment starts in the joined picture, and its row of the timing table. -/
structure Frame where
  shows : Option Json
  start : ℚ
  place : ℚ
  absorbed : ℚ

def Head.frame (head : Head) (strip : Strip) : Frame :=
  ⟨strip.shows, head.start strip.fade, head.rendered, head.absorbed + strip.fade.getD 0⟩

def reel (head : Head) : List Strip → List Frame
  | [] => []
  | strip :: rest => head.frame strip :: reel (head.next strip) rest

def reelEnd (head : Head) (strips : List Strip) : Head := strips.foldl Head.next head

theorem reelEnd_cons (head : Head) (strip : Strip) (rest : List Strip) :
    reelEnd head (strip :: rest) = reelEnd (head.next strip) rest := rfl

theorem reel_append (head : Head) (front back : List Strip) :
    reel head (front ++ back) = reel head front ++ reel (reelEnd head front) back := by
  induction front generalizing head with
  | nil => rfl
  | cons strip front ih => rw [List.cons_append, reel, ih, reel, List.cons_append, reelEnd,
      reelEnd, List.foldl_cons]

theorem fade_of_crossfades {segment : TimelineSegment} (h : segment.crossfades = true) :
    segment.strip.fade = some (crossfadeDuration segment.transitionDuration) := if_pos h

theorem fade_of_not_crossfades {segment : TimelineSegment} (h : ¬ segment.crossfades = true) :
    segment.strip.fade = none := if_neg h

/-- The joint the filter graph makes for a segment when it has counted the rendered time less
the crossfades. -/
def Head.joint (head : Head) : Option ℚ → Joint
  | some duration => .xfade duration (max (head.rendered - head.absorbed - duration) 0)
  | none => .concat

theorem join_joint (head : Head) (starts : List ℚ) (segment : TimelineSegment) :
    Picture.join ⟨starts, head.length⟩ segment.duration (head.joint segment.strip.fade) =
      ⟨starts ++ [head.start segment.strip.fade], (head.next segment.strip).length⟩ := by
  cases hfade : segment.strip.fade with
  | none =>
      rw [Head.joint, Picture.join, Head.next, hfade]
      rfl
  | some d =>
      rw [Head.joint, Picture.join, Head.next, hfade]
      rfl

def jointsFrom (head : Head) : List TimelineSegment → List Joint
  | [] => []
  | segment :: rest =>
      head.joint segment.strip.fade :: jointsFrom (head.next segment.strip) rest

theorem joinAll_jointsFrom (head : Head) (starts : List ℚ) (rest : List TimelineSegment) :
    Picture.joinAll ⟨starts, head.length⟩ (rest.zip (jointsFrom head rest)) =
      ⟨starts ++ (reel head (rest.map TimelineSegment.strip)).map Frame.start,
        (reelEnd head (rest.map TimelineSegment.strip)).length⟩ := by
  induction rest generalizing head starts with
  | nil => simp [reel, reelEnd, jointsFrom, Picture.joinAll]
  | cons segment rest ih =>
      have hnext := ih (head.next segment.strip) (starts ++ [head.start segment.strip.fade])
      rw [jointsFrom, List.zip_cons_cons, Picture.joinAll, List.foldl_cons, join_joint]
      rw [Picture.joinAll] at hnext
      rw [hnext, List.append_assoc]
      rfl

/-- The filter graph's running length is the rendered time less the crossfades. -/
theorem crossfadeJoints_eq (head : Head) (rest : List TimelineSegment) :
    crossfadeJoints (head.rendered - head.absorbed) rest = jointsFrom head rest := by
  induction rest generalizing head with
  | nil => rfl
  | cons segment rest ih =>
      rw [jointsFrom, ← ih, crossfadeJoints]
      by_cases hfade : segment.crossfades = true
      · have hcount : head.rendered - head.absorbed +
            (segment.duration - crossfadeDuration segment.transitionDuration) =
            (head.next segment.strip).rendered - (head.next segment.strip).absorbed := by
          rw [Head.next, fade_of_crossfades hfade, Option.getD_some, TimelineSegment.strip]
          ring
        rw [if_pos hfade]
        dsimp only
        rw [hcount, fade_of_crossfades hfade, Head.joint]
      · have hcount : head.rendered - head.absorbed + segment.duration =
            (head.next segment.strip).rendered - (head.next segment.strip).absorbed := by
          rw [Head.next, fade_of_not_crossfades hfade, Option.getD_none, TimelineSegment.strip]
          ring
        rw [if_neg hfade, hcount, fade_of_not_crossfades hfade, Head.joint]

theorem concat_joints_eq (head : Head) {rest : List TimelineSegment}
    (h : rest.any TimelineSegment.crossfades = false) :
    rest.map (fun _ => Joint.concat) = jointsFrom head rest := by
  induction rest generalizing head with
  | nil => rfl
  | cons segment rest ih =>
      rw [List.any_cons, Bool.or_eq_false_iff] at h
      have hfade := fade_of_not_crossfades (by rw [h.1]; decide)
      rw [jointsFrom, List.map_cons, ih (head.next segment.strip) h.2, hfade, Head.joint]

def Head.still : Head := ⟨0, 0, 0⟩

theorem still_next (first : TimelineSegment) :
    Head.still.next ⟨first.shows, first.duration, none⟩ = ⟨first.duration, 0, first.duration⟩ := by
  simp [Head.still, Head.next, Head.start]

theorem muxSegments_eq (segments : List TimelineSegment) :
    muxSegments segments = ⟨(reel Head.still (strips segments)).map Frame.start,
      (reelEnd Head.still (strips segments)).length⟩ := by
  cases segments with
  | nil => rfl
  | cons first rest =>
      have hjoined := joinAll_jointsFrom ⟨first.duration, 0, first.duration⟩ [0] rest
      have hjoints : (if rest.any TimelineSegment.crossfades then
          crossfadeFilterComplex (first :: rest) else rest.map fun _ => Joint.concat) =
          jointsFrom ⟨first.duration, 0, first.duration⟩ rest := by
        split
        · have hgraph := crossfadeJoints_eq ⟨first.duration, 0, first.duration⟩ rest
          rw [sub_zero] at hgraph
          exact hgraph
        · next hnone => exact concat_joints_eq _ (Bool.eq_false_iff.mpr hnone)
      rw [muxSegments, hjoints, hjoined, strips, reel, reelEnd_cons, still_next]
      rfl

theorem walk_eq (index : Nat) (head : Head) (table : List (ℚ × ℚ))
    (rest : List TimelineSegment) :
    PictureTiming.walk (index + 1) head.rendered head.absorbed table rest =
      ⟨max ((reelEnd head (rest.map TimelineSegment.strip)).rendered -
          (reelEnd head (rest.map TimelineSegment.strip)).absorbed) 0,
        table ++ (reel head (rest.map TimelineSegment.strip)).map
          fun frame => (frame.place, frame.absorbed)⟩ := by
  induction rest generalizing index head table with
  | nil => simp [PictureTiming.walk, reel, reelEnd]
  | cons segment rest ih =>
      have hnext := ih (index + 1) (head.next segment.strip)
        (table ++ [(head.rendered, (head.next segment.strip).absorbed)])
      have htotal : (if 0 < index + 1 ∧ segment.crossfades = true then
          head.absorbed + crossfadeDuration segment.transitionDuration else head.absorbed) =
          (head.next segment.strip).absorbed := by
        by_cases hfade : segment.crossfades = true
        · rw [if_pos ⟨Nat.succ_pos _, hfade⟩, Head.next, fade_of_crossfades hfade,
            Option.getD_some]
        · rw [if_neg (fun h => hfade h.2), Head.next, fade_of_not_crossfades hfade,
            Option.getD_none, add_zero]
      simp only [PictureTiming.walk, htotal, if_pos (Nat.succ_pos index)]
      rw [List.append_assoc] at hnext
      exact hnext

theorem fromSegments_eq (first : TimelineSegment) (rest : List TimelineSegment) :
    PictureTiming.fromSegments (first :: rest) =
      ⟨max ((reelEnd Head.still (strips (first :: rest))).rendered -
          (reelEnd Head.still (strips (first :: rest))).absorbed) 0,
        (reel (Head.still.next ⟨first.shows, first.duration, none⟩)
          (rest.map TimelineSegment.strip)).map fun frame => (frame.place, frame.absorbed)⟩ := by
  have hwalk := walk_eq 0 ⟨first.duration, 0, first.duration⟩ [] rest
  rw [List.nil_append] at hwalk
  rw [strips, reelEnd_cons, still_next, ← hwalk, PictureTiming.fromSegments, PictureTiming.walk]
  simp

/-- The crossfade seconds taken off by the last frame placed by a time. -/
def absorbedAt (time none : ℚ) : List Frame → ℚ
  | [] => none
  | frame :: rest =>
      if frame.place ≤ time + slack then absorbedAt time frame.absorbed rest else none

theorem absorbedAt_eq (time none : ℚ) (frames : List Frame) :
    ((((frames.map fun frame => (frame.place, frame.absorbed)).takeWhile
      fun entry => entry.1 ≤ time + slack).map Prod.snd).getLast?).getD none =
      absorbedAt time none frames := by
  induction frames generalizing none with
  | nil => rfl
  | cons frame rest ih =>
      rw [List.map_cons, List.takeWhile_cons, absorbedAt, ← ih]
      by_cases hplace : frame.place ≤ time + slack
      · rw [if_pos (decide_eq_true hplace), if_pos hplace, List.map_cons, List.getLast?_cons,
          Option.getD_some]
      · rw [if_neg (by simpa using hplace), if_neg hplace]
        rfl

theorem slack_nonneg : 0 ≤ slack := by norm_num [slack]

theorem pictureTime_eq {segments : List TimelineSegment} (hne : segments ≠ []) {time : ℚ}
    (h : 0 ≤ time) :
    (PictureTiming.fromSegments segments).pictureTime time =
      max (time - absorbedAt time 0 (reel Head.still (strips segments))) 0 := by
  cases segments with
  | nil => exact absurd rfl hne
  | cons first rest =>
      rw [fromSegments_eq, PictureTiming.pictureTime]
      dsimp only
      rw [absorbedAt_eq, strips, reel, absorbedAt, if_pos]
      · simp [Head.frame, Head.still]
      · simp only [Head.frame, Head.still]
        exact add_nonneg h slack_nonneg

theorem duration_eq {segments : List TimelineSegment} (hne : segments ≠ []) :
    (PictureTiming.fromSegments segments).duration =
      max ((reelEnd Head.still (strips segments)).rendered -
        (reelEnd Head.still (strips segments)).absorbed) 0 := by
  cases segments with
  | nil => exact absurd rfl hne
  | cons first rest => rw [fromSegments_eq]

end SceneWorks.TimelineExport
