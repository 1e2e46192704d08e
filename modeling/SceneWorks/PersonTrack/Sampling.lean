import Mathlib.Data.List.GetD
import SceneWorks.Library.ForwardScan
import SceneWorks.Library.Rounding

/-!
The sample frames of a person track: one accurate seek for every sample, or one pass of `select`
over the whole source where the source has at least as many frames as there are samples. Times and
thresholds are exact rational numbers, and a frame is its own timestamp.
-/

namespace SceneWorks.PersonTrack

open ForwardScan

def sampleRateFps : ℚ := 2
def minSamples : ℤ := 3
def maxSamples : ℕ := 24

/-- How far before the end of a clip a frame is still sought. -/
def frameSeekGuardSeconds : ℚ := 1 / 5

structure Source where
  path : String
  frames : List ℚ
  increasing : frames.Pairwise (· < ·)

def sampleCountForDuration (duration : ℚ) : ℕ :=
  let raw := Rounding.away (max duration 0 * sampleRateFps)
  min (max raw minSamples).toNat maxSamples

def sampleTimestamps (duration : ℚ) : List ℚ :=
  let count := sampleCountForDuration duration
  let span := max duration 0
  if count ≤ 1 ∨ span ≤ 0 then [0]
  else (List.range count).map fun (index : ℕ) =>
    Rounding.toPlaces Rounding.away 4 (span * index / (count - 1))

def frameSeekTimestamp (timestamp duration : ℚ) : ℚ :=
  min timestamp (max (duration - frameSeekGuardSeconds) 0)

/-- What `{:.3}` makes of a seek, as the number `ffmpeg` reads back. -/
def seekText (seek : ℚ) : ℚ := Rounding.toPlaces Rounding.even 3 (max seek 0)

/-- What `ffmpeg` is told to reach for one sample, by either path. -/
def threshold (duration timestamp : ℚ) : ℚ := seekText (frameSeekTimestamp timestamp duration)

/-- The frame that `-ss` lands on, if any. -/
def tryRenderFramePng (source : Source) (timestamp : ℚ) : Option ℚ :=
  seek source.frames (seekText timestamp)

/-- The nested `if(eq(selected_n,n),th_n,…)` of the filter, with the last threshold as its tail. -/
def lookup (thresholds : List ℚ) (selectedN : ℕ) : ℚ :=
  (List.range (thresholds.length - 1)).foldr
    (fun n rest => if selectedN = n then thresholds.getD n 0 else rest)
    (thresholds.getD (thresholds.length - 1) 0)

/-- The `select` filter under `-frames:v count`: a frame passes when it reaches what is asked of the
next output frame, until `count` have passed. -/
def select (wanted : ℕ → ℚ) (count : ℕ) : ℕ → List ℚ → List ℚ
  | _, [] => []
  | selectedN, frame :: frames =>
      if selectedN < count ∧ wanted selectedN ≤ frame then
        frame :: select wanted count (selectedN + 1) frames
      else select wanted count selectedN frames

/-- The frame files in the order of the samples; a sample without a frame of its own gets a copy of
the one written last. -/
def storeFrames (source : Source) (produced : List (Option ℚ)) : Except String (List ℚ) :=
  match fill none produced with
  | some frames => .ok frames
  | none => .error ("FFmpeg produced no sampled frames for " ++ source.path)

def renderTrackFramesSinglePass (source : Source) (timestamps : List ℚ) (duration : ℚ) :
    Except String (List ℚ) :=
  let count := timestamps.length
  let thresholds := timestamps.map (threshold duration)
  storeFrames source (places count (select (lookup thresholds) count 0 source.frames))

def renderTrackFramesPerFrame (source : Source) (timestamps : List ℚ) (duration : ℚ) :
    Except String (List ℚ) :=
  storeFrames source (timestamps.map fun timestamp =>
    tryRenderFramePng source (frameSeekTimestamp timestamp duration))

/-- `probed` is what counting the frames of the source gave: a typed timeout is handed on, and an
unknown count is not trusted. -/
def renderTrackFrames (source : Source) (probed : Except String (Option ℕ)) (timestamps : List ℚ)
    (duration : ℚ) : Except String (List ℚ) :=
  let count := timestamps.length
  if count ≤ 1 then
    match tryRenderFramePng source (frameSeekTimestamp (timestamps.headD 0) duration) with
    | some frame => .ok [frame]
    | none => .error "FFmpeg did not produce frame output: frame_0000.png"
  else
    match probed with
    | .error error => .error error
    | .ok sourceFrameCount =>
        if sourceFrameCount.any (count ≤ ·) then
          match renderTrackFramesSinglePass source timestamps duration with
          | .ok frames => .ok frames
          | .error _ => renderTrackFramesPerFrame source timestamps duration
        else renderTrackFramesPerFrame source timestamps duration

/-- Two samples are kept apart by a frame at or behind the first threshold and before the second, or
have no more than one frame left to find. -/
def Separated (source : Source) (bound next : ℚ) : Prop :=
  (∃ frame ∈ source.frames, bound ≤ frame ∧ frame < next) ∨
    (source.frames.filter fun frame => bound ≤ frame).length ≤ 1

section Cadence

theorem threshold_mono (duration : ℚ) : Monotone (threshold duration) := by
  intro a b hab
  refine Rounding.toPlaces_mono Rounding.even_mono 3 (max_le_max_right 0 ?_)
  exact min_le_min_right _ hab

theorem sampleTimestamps_rising (duration : ℚ) :
    (sampleTimestamps duration).Pairwise (· ≤ ·) := by
  unfold sampleTimestamps
  dsimp only
  split
  · exact List.pairwise_singleton _ _
  · rename_i hmany
    obtain ⟨hcount, hspan⟩ := not_or.mp hmany
    refine List.pairwise_map.mpr (List.pairwise_lt_range.imp fun hless => ?_)
    refine Rounding.toPlaces_mono Rounding.away_mono 4 ?_
    have hcast : (1 : ℚ) < sampleCountForDuration duration := by exact_mod_cast not_le.mp hcount
    refine div_le_div_of_nonneg_right ?_ (by linarith)
    exact mul_le_mul_of_nonneg_left (by exact_mod_cast hless.le) (not_le.mp hspan).le

end Cadence

section Select

theorem foldr_if_range (wanted : ℕ) (value : ℕ → ℚ) (last : ℚ) (count : ℕ) :
    (List.range count).foldr (fun n rest => if wanted = n then value n else rest) last =
      if wanted < count then value wanted else last := by
  induction count generalizing last with
  | zero => simp
  | succ count ih =>
      rw [List.range_succ, List.foldr_append, List.foldr_cons, List.foldr_nil, ih]
      rcases Nat.lt_trichotomy wanted count with hless | rfl | hmore
      · rw [if_pos hless, if_pos (by omega)]
      · simp
      · rw [if_neg (by omega), if_neg (by omega), if_neg (by omega)]

theorem lookup_eq {thresholds : List ℚ} {n : ℕ} (h : n < thresholds.length) :
    lookup thresholds n = thresholds[n] := by
  unfold lookup
  rw [foldr_if_range]
  split
  · exact List.getD_eq_getElem _ _ h
  · obtain rfl : n = thresholds.length - 1 := by omega
    exact List.getD_eq_getElem _ _ h

theorem select_eq_scan (thresholds frames : List ℚ) (n : ℕ) :
    select (lookup thresholds) thresholds.length n frames = scan (thresholds.drop n) frames := by
  induction frames generalizing n with
  | nil => rw [select, scan]
  | cons frame frames ih =>
      by_cases hn : n < thresholds.length
      · rw [List.drop_eq_getElem_cons hn, select, scan, lookup_eq hn, ih, ih,
          ← List.drop_eq_getElem_cons hn]
        simp [hn]
      · have hdrop : thresholds.drop n = [] := List.drop_eq_nil_of_le (not_lt.mp hn)
        have hscan : scan ([] : List ℚ) frames = [] := by cases frames <;> rfl
        rw [select, if_neg (fun hboth => hn hboth.1), ih, hdrop, hscan, scan]

end Select

section Paths

variable (source : Source) {timestamps : List ℚ} (duration : ℚ)

theorem storeFrames_inj {left right : List (Option ℚ)} :
    storeFrames source left = storeFrames source right ↔ fill none left = fill none right := by
  unfold storeFrames
  cases fill none left <;> cases fill none right <;> simp

theorem storeFrames_error {left right : List (Option ℚ)} {error : String}
    (hleft : storeFrames source left = .error error)
    (h : fill none left = none → fill none right = none) :
    storeFrames source right = .error error := by
  unfold storeFrames at hleft ⊢
  cases hfill : fill none left with
  | none => rwa [h hfill, ← hfill]
  | some frames =>
      rw [hfill] at hleft
      exact absurd hleft nofun

theorem renderTrackFramesSinglePass_eq :
    renderTrackFramesSinglePass source timestamps duration =
      storeFrames source (places (timestamps.map (threshold duration)).length
        (scan (timestamps.map (threshold duration)) source.frames)) := by
  have hselect := select_eq_scan (timestamps.map (threshold duration)) source.frames 0
  rw [List.length_map, List.drop_zero] at hselect
  unfold renderTrackFramesSinglePass
  rw [List.length_map]
  exact congrArg (fun found => storeFrames source (places timestamps.length found)) hselect

theorem renderTrackFramesPerFrame_eq :
    renderTrackFramesPerFrame source timestamps duration =
      storeFrames source ((timestamps.map (threshold duration)).map (seek source.frames)) := by
  rw [List.map_map]
  rfl

theorem singlePass_eq_iff_of_rising (h : timestamps.Pairwise (· ≤ ·)) :
    renderTrackFramesSinglePass source timestamps duration =
        renderTrackFramesPerFrame source timestamps duration ↔
      (timestamps.map (threshold duration)).Pairwise (Separated source) := by
  have hrising : (timestamps.map (threshold duration)).Pairwise (· ≤ ·) :=
    List.pairwise_map.mpr (h.imp fun hle => threshold_mono duration hle)
  rw [renderTrackFramesSinglePass_eq, renderTrackFramesPerFrame_eq, storeFrames_inj,
    fill_scan_eq_iff source.increasing hrising]
  constructor
  · intro hfree
    exact (hrising.and hfree).imp fun hpair =>
      (not_crowded_iff source.increasing hpair.1).mp hpair.2
  · intro hseparated
    exact (hrising.and hseparated).imp fun hpair =>
      (not_crowded_iff source.increasing hpair.1).mpr hpair.2

/-- The one pass stores for every sample the frame of a seek exactly when every two samples are kept
apart by a frame, as far as there is more than one left to find. -/
theorem single_pass_selects_as_seeks_iff (source : Source) (duration : ℚ) :
    renderTrackFramesSinglePass source (sampleTimestamps duration) duration =
        renderTrackFramesPerFrame source (sampleTimestamps duration) duration ↔
      ((sampleTimestamps duration).map (threshold duration)).Pairwise (Separated source) :=
  singlePass_eq_iff_of_rising source duration (sampleTimestamps_rising duration)

/-- Four frames at the start of the clip and two near its end. -/
def clustered : Source where
  path := "clustered.mp4"
  frames := [0, 1 / 100, 2 / 100, 3 / 100, 3 / 2, 19 / 10]
  increasing := by decide +kernel

/-- The source has more frames than samples, and the second and third sample share a frame: the one
pass gives the third sample the frame of the fourth. -/
theorem clustered_samples_diverge :
    1 < (sampleTimestamps 2).length ∧ (sampleTimestamps 2).length ≤ clustered.frames.length ∧
      renderTrackFrames clustered (.ok (some clustered.frames.length)) (sampleTimestamps 2) 2 =
        .ok [0, 3 / 2, 19 / 10, 19 / 10] ∧
      renderTrackFramesSinglePass clustered (sampleTimestamps 2) 2 =
        .ok [0, 3 / 2, 19 / 10, 19 / 10] ∧
      renderTrackFramesPerFrame clustered (sampleTimestamps 2) 2 =
        .ok [0, 3 / 2, 3 / 2, 19 / 10] := by
  decide +kernel

/-- What the detector sees is what a seek for every sample gives, unless the probe lets the one pass
run over samples that no frame keeps apart. -/
theorem renderTrackFrames_eq_perFrame_iff (probed : Option ℕ) (h : timestamps.Pairwise (· ≤ ·))
    (hmany : 1 < timestamps.length) :
    renderTrackFrames source (.ok probed) timestamps duration =
        renderTrackFramesPerFrame source timestamps duration ↔
      probed.any (timestamps.length ≤ ·) = false ∨
        (timestamps.map (threshold duration)).Pairwise (Separated source) := by
  have hiff := singlePass_eq_iff_of_rising source duration h
  unfold renderTrackFrames
  dsimp only
  rw [if_neg (not_le.mpr hmany)]
  cases hprobe : probed.any (timestamps.length ≤ ·) with
  | false => simp
  | true =>
      rw [← hiff, if_pos rfl]
      cases hsingle : renderTrackFramesSinglePass source timestamps duration with
      | ok frames => simp
      | error error =>
          have hboth : renderTrackFramesPerFrame source timestamps duration = .error error := by
            rw [renderTrackFramesSinglePass_eq] at hsingle
            rw [renderTrackFramesPerFrame_eq]
            exact storeFrames_error source hsingle fill_seek_eq_none
          simp [hboth]

end Paths

end SceneWorks.PersonTrack
