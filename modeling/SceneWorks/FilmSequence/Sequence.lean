import SceneWorks.FilmSequence.Passes

/-!
The sequence after a re-layout: the pictures tile it, the lines stand against their shots and every
sound lies within it.
-/

namespace SceneWorks.FilmSequence

open Covering (Covers)

variable {printable : Char → Bool} {timeline after : Timeline} {order : Option (List String)}
  {duration : ℚ} {index : ℕ} {tracks : List Track} {track : Track} {items sorted : List Item}

/-- How a document stands after a pass over the one before. -/
structure LaidOut (before : Timeline) (order : Option (List String)) (after : Timeline)
    (duration : ℚ) : Prop where
  pictures : ∃ items sorted laid : List Item, before.pictures = some items ∧ sorted.Perm items ∧
    sorted.Pairwise (Comes order) ∧ after.pictures = some laid ∧
    laid.map Item.content = sorted.map Item.content ∧
    Covers Item.start Item.finish 0 laid duration ∧
    ∀ item ∈ laid, item.finish = item.start + itemSpan item
  lines : ∀ sounds ∈ after.audio, ∀ item ∈ sounds, item.harness.role = some "dialogue" →
    ∃ laid shot start, after.pictures = some laid ∧ item.harness.shotId = some shot ∧
      LastOfShot laid shot start ∧ item.start = start + harnessF64 item.harness.offsetSeconds
  within : ∀ sounds ∈ after.audio, ∀ item ∈ sounds,
    0 ≤ item.start ∧ item.start < item.finish ∧ item.finish ≤ duration
  kept : List.Forall₂ (fun old new => (new.map Item.sound).Sublist (old.map Item.sound))
    before.audio after.audio
  spanned : after.duration = some duration

section Audio

variable {shotStarts : String → Option ℚ}

theorem filter_set {α : Type} {p : α → Bool} {list : List α} {index : ℕ} {old new : α}
    (hold : list[index]? = some old) (hp : p old = false) (hp' : p new = false) :
    (list.set index new).filter p = list.filter p := by
  induction list generalizing index with
  | nil => rfl
  | cons x list ih =>
      cases index with
      | zero =>
          obtain rfl : x = old := Option.some.inj hold
          rw [List.set_cons_zero, List.filter_cons, List.filter_cons, hp, hp']
          rfl
      | succ index =>
          rw [List.set_cons_succ, List.filter_cons, List.filter_cons, ih hold]

theorem filter_placeTrack (duration : ℚ) (tracks : List Track) :
    (tracks.map (placeTrack shotStarts duration)).filter (fun track => track.kind = some "audio") =
      (tracks.filter fun track => track.kind = some "audio").map
        (placeTrack shotStarts duration) := by
  rw [List.filter_map]
  congr 1
  refine List.filter_congr fun track _ => ?_
  have hkind := congrArg Prod.snd (placeTrack_label shotStarts duration track)
  exact congrArg (fun kind => decide (kind = some "audio")) hkind

theorem items_placeTrack (h : track.kind = some "audio") :
    (placeTrack shotStarts duration track).items.getD [] =
      (track.items.getD []).filterMap (placeSound shotStarts duration) := by
  rw [placeTrack, if_pos h]
  cases track.items <;> rfl

theorem audio_after (hpass : Pass printable timeline order index tracks track items sorted)
    (hkind : track.kind ≠ some "audio")
    (hafter : after.tracks = some
      ((withPictures tracks index track sorted).map (placeTrack shotStarts duration))) :
    after.audio = timeline.audio.map (List.filterMap (placeSound shotStarts duration)) := by
  have hfilter : (withPictures tracks index track sorted).filter
      (fun track => track.kind = some "audio") =
        tracks.filter fun track => track.kind = some "audio" :=
    filter_set hpass.at_index (decide_eq_false hkind) (decide_eq_false hkind)
  rw [Timeline.audio, Timeline.audio, hafter, hpass.all, Option.getD_some, Option.getD_some,
    filter_placeTrack, hfilter, List.map_map, List.map_map]
  refine List.map_congr_left fun track htrack => ?_
  exact items_placeTrack (of_decide_eq_true (List.mem_filter.mp htrack).2)

theorem sublist_of_placed (sounds : List Item) :
    ((sounds.filterMap (placeSound shotStarts duration)).map Item.sound).Sublist
      (sounds.map Item.sound) := by
  induction sounds with
  | nil => exact List.Sublist.refl _
  | cons item sounds ih =>
      cases hplaced : placeSound shotStarts duration item with
      | none =>
          rw [List.filterMap_cons_none hplaced]
          exact ih.cons _
      | some placed =>
          rw [List.filterMap_cons_some hplaced, List.map_cons, List.map_cons,
            sound_of_placed hplaced]
          exact ih.cons_cons _

end Audio

theorem pictures_after (hpass : Pass printable timeline order index tracks track items sorted)
    (hkind : track.kind ≠ some "audio") {shotStarts : String → Option ℚ}
    (hafter : after.tracks = some
      ((withPictures tracks index track sorted).map (placeTrack shotStarts duration))) :
    after.pictures = some (lay sorted).1 := by
  have hsorted : sortPictures printable none (lay sorted).1 = .ok (lay sorted).1 :=
    sortPictures_none_of_covers (covers_lay sorted)
  have hnext := hpass.next hkind hafter hsorted
  rw [Timeline.pictures, hnext.chosen, Option.bind_some, hnext.all, Option.bind_some,
    hnext.at_index, Option.bind_some]

theorem laidOut (hapart : PictureApart timeline)
    (h : relayoutTimeline printable timeline order = (after, .ok duration)) :
    LaidOut timeline order after duration := by
  obtain ⟨index, tracks, track, items, sorted, hpass, rfl, hduration, hafter⟩ := exists_pass h
  have hkind := hapart.kind hpass
  have haudio := audio_after hpass hkind hafter
  have hpictures := pictures_after hpass hkind hafter
  have hfrom : ∀ sounds ∈ after.audio, ∀ item ∈ sounds,
      ∃ old, placeSound (lay sorted).2.1 (lay sorted).2.2 old = some item := by
    intro sounds hsounds item hitem
    rw [haudio] at hsounds
    obtain ⟨olds, -, rfl⟩ := List.mem_map.mp hsounds
    obtain ⟨old, -, hold⟩ := List.mem_filterMap.mp hitem
    exact ⟨old, hold⟩
  refine
    { pictures := ?_
      lines := ?_
      within := ?_
      kept := ?_
      spanned := hduration }
  · obtain ⟨hperm, horder⟩ := sortPictures_spec hpass.admitted
    refine ⟨items, sorted, _, ?_, hperm, horder, hpictures, content_lay sorted, covers_lay sorted,
      span_layPictures 0 _ sorted⟩
    rw [Timeline.pictures, hpass.chosen, Option.bind_some, hpass.all, Option.bind_some,
      hpass.at_index, Option.bind_some, hpass.pictures]
  · intro sounds hsounds item hitem hrole
    obtain ⟨old, hold⟩ := hfrom sounds hsounds item hitem
    have hharness := harness_of_placed hold
    cases placeSound_spec hold with
    | clip start finish hclip => exact absurd (hharness ▸ hrole) hclip
    | line shotStart start finish _ hshot hstart =>
        obtain ⟨shot, hown, hknown⟩ := Option.bind_eq_some_iff.mp hshot
        exact ⟨_, shot, shotStart, hpictures, hown, lastOfShot_lay hknown, hstart⟩
    | bed start finish hbed =>
        have hdialogue : old.harness.role = some "dialogue" := hrole
        rw [hdialogue] at hbed
        exact absurd hbed (by decide)
  · intro sounds hsounds item hitem
    obtain ⟨old, hold⟩ := hfrom sounds hsounds item hitem
    exact placeSound_within (fun shot start hstart => nonneg_of_lastOfShot (lastOfShot_lay hstart))
      hold
  · rw [haudio]
    refine List.forall₂_map_right_iff.mpr (List.forall₂_same.mpr fun sounds _ => ?_)
    exact sublist_of_placed sounds

/-- A sequence whose pictures are apart from its audio tracks: a refused order changes nothing, a
pass lays the document out and a second one finds it so, and where every shot has one picture a
lossless pass leaves nothing behind that a later order reads. -/
theorem relayout_tiles_settles_and_forgets (printable : Char → Bool) (timeline : Timeline)
    (hapart : PictureApart timeline) :
    (∀ order after error,
      relayoutTimeline printable timeline order = (after, .error error) → after = timeline) ∧
    (∀ order after duration, relayoutTimeline printable timeline order = (after, .ok duration) →
      LaidOut timeline order after duration ∧
        relayoutTimeline printable after none = (after, .ok duration)) ∧
    ((∀ pictures ∈ timeline.pictures, (shots pictures).Nodup) →
      ∀ first second after₁ after₂ duration₁ duration₂,
        relayoutTimeline printable timeline (some second) = (after₂, .ok duration₂) →
        NothingDropped timeline after₂ →
        relayoutTimeline printable timeline (some first) = (after₁, .ok duration₁) →
        relayoutTimeline printable after₂ (some first) = (after₁, .ok duration₁)) := by
  refine ⟨fun order after error h => relayout_refused h, fun order after duration h => ?_, ?_⟩
  · exact ⟨laidOut hapart h, relayout_again hapart h⟩
  · intro hshots first second after₁ after₂ duration₁ duration₂ hsecond hkept hfirst
    exact relayout_order_independent hapart hshots hsecond hkept hfirst

/-- Two shots of one and two seconds, a line of the second and a bed under both. -/
def twoShots : Timeline where
  tracks := some
    [{ id := some pictureTrackId
       kind := some "video"
       items := some
        [{ id := some "item_a", sourceOut := some 1, harness := { shotId := some "a" } },
          { id := some "item_b", timelineStart := some 5, sourceOut := some 2,
            harness := { shotId := some "b" } }] },
      { id := some "track_audio"
        kind := some "audio"
        items := some
          [{ id := some "line", sourceOut := some 1,
             harness := { role := some "dialogue", shotId := some "b",
                          offsetSeconds := some (1 / 2) } },
            { id := some "bed", harness := { role := some "music" } }] }]
  duration := none

theorem twoShots_relaid :
    PictureApart twoShots ∧
      (relayoutTimeline (fun _ => true) (relayoutTimeline (fun _ => true) twoShots
          (some ["b", "a"])).1 (some ["a", "b"])) =
        relayoutTimeline (fun _ => true) twoShots (some ["a", "b"]) := by
  have hapart : PictureApart twoShots := by
    intro index hindex tracks htracks track htrack
    obtain rfl : 0 = index := by
      have hfound : pictureTrackIndex twoShots = some 0 := by decide
      exact Option.some.inj (hfound.symm.trans hindex)
    obtain rfl := Option.some.inj htracks
    obtain rfl := Option.some.inj htrack
    decide
  have hall := relayout_tiles_settles_and_forgets (fun _ => true) twoShots hapart
  have hshots : ∀ pictures ∈ twoShots.pictures, (shots pictures).Nodup := by
    intro pictures hpictures
    obtain rfl := Option.some.inj hpictures
    decide
  have hfirst : (relayoutTimeline (fun _ => true) twoShots (some ["a", "b"])).2 = .ok 3 := by
    decide +kernel
  have hsecond : (relayoutTimeline (fun _ => true) twoShots (some ["b", "a"])).2 = .ok 3 := by
    decide +kernel
  refine ⟨hapart, ?_⟩
  have hkept : NothingDropped twoShots
      (relayoutTimeline (fun _ => true) twoShots (some ["b", "a"])).1 := by
    unfold NothingDropped
    decide +kernel
  have hpair := hall.2.2 hshots ["a", "b"] ["b", "a"] _ _ 3 3 (Prod.ext rfl hsecond) hkept
    (Prod.ext rfl hfirst)
  exact hpair.trans (Prod.ext rfl hfirst.symm)

/-- A main track that is an audio track, with a bed that starts after the sequence ends. -/
def soundAsPicture : Timeline where
  tracks := some
    [{ id := some pictureTrackId
       kind := some "audio"
       items := some
        [{ id := some "bed", sourceIn := some 0, sourceOut := some 4, timelineStart := some 0,
           timelineEnd := some 4, harness := { role := some "music", startSeconds := some 10 } }] }]
  duration := some 4

/-- Its one picture is laid out and then dropped as a sound: nothing tiles the four seconds. -/
theorem soundAsPicture_dropped :
    soundAsPicture.pictures.map List.length = some 1 ∧
      (relayoutTimeline (fun _ => true) soundAsPicture none).2 = .ok 4 ∧
      (relayoutTimeline (fun _ => true) soundAsPicture none).1.pictures = some [] ∧
      ¬ LaidOut soundAsPicture none (relayoutTimeline (fun _ => true) soundAsPicture none).1 4 := by
  have hone : soundAsPicture.pictures.map List.length = some 1 := by decide +kernel
  have hnone : (relayoutTimeline (fun _ => true) soundAsPicture none).1.pictures = some [] := by
    decide +kernel
  refine ⟨hone, by decide +kernel, hnone, fun h => ?_⟩
  obtain ⟨items, sorted, laid, hitems, hperm, -, hlaid, hcontent, -⟩ := h.pictures
  rw [hnone] at hlaid
  obtain rfl := Option.some.inj hlaid
  have hsorted : sorted.length = 0 := by
    rw [← List.length_map (f := Item.content), ← hcontent]
    rfl
  rw [hitems] at hone
  have hlength : items.length = 1 := Option.some.inj hone
  rw [hperm.length_eq, hlength] at hsorted
  cases hsorted

end SceneWorks.FilmSequence
