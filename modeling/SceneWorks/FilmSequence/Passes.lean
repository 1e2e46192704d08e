import Mathlib.Algebra.BigOperators.Group.List.Basic
import Mathlib.Data.List.Perm.Basic
import SceneWorks.FilmSequence.Layout

/-!
Whole re-layouts, one after another: a second pass finds the pictures and the sounds where the first
one put them, and a pass in another order leaves nothing behind that the next one reads.
-/

namespace SceneWorks.FilmSequence

open Covering (Covers)

variable {printable : Char → Bool}

def Timeline.pictures (timeline : Timeline) : Option (List Item) :=
  (pictureTrackIndex timeline).bind fun index =>
    timeline.tracks.bind fun tracks => tracks[index]?.bind Track.items

def Timeline.audio (timeline : Timeline) : List (List Item) :=
  ((timeline.tracks.getD []).filter fun track => track.kind = some "audio").map fun track =>
    track.items.getD []

/-- The picture track is not one of the audio tracks. -/
def PictureApart (timeline : Timeline) : Prop :=
  ∀ index ∈ pictureTrackIndex timeline, ∀ tracks ∈ timeline.tracks, ∀ track ∈ tracks[index]?,
    track.kind ≠ some "audio"

def Track.count (track : Track) : Option ℕ := track.items.map List.length

/-- Every track has as many items as before. -/
def NothingDropped (before after : Timeline) : Prop :=
  before.tracks.map (List.map Track.count) = after.tracks.map (List.map Track.count)

/-- One picture stands no later than another before the pass. -/
def Comes (order : Option (List String)) (left right : Item) : Prop :=
  match order with
  | some order => rank order left ≤ rank order right
  | none => left.start ≤ right.start

section Sorting

variable {order : Option (List String)} {items sorted : List Item}

theorem sortPictures_spec (h : sortPictures printable order items = .ok sorted) :
    sorted.Perm items ∧ sorted.Pairwise (Comes order) := by
  unfold sortPictures at h
  cases order with
  | none =>
      obtain rfl := Except.ok.inj h
      have : Std.Total fun left right : Item => left.start ≤ right.start :=
        ⟨fun left right => le_total left.start right.start⟩
      have : IsTrans Item fun left right => left.start ≤ right.start := ⟨fun _ _ _ => le_trans⟩
      refine ⟨List.perm_insertionSort _ _, ?_⟩
      exact List.pairwise_insertionSort (fun left right : Item => left.start ≤ right.start) items
  | some order =>
      dsimp only at h
      split at h
      · exact absurd h nofun
      · obtain rfl := Except.ok.inj h
        have : Std.Total fun left right : Item => rank order left ≤ rank order right :=
          ⟨fun left right => le_total (rank order left) (rank order right)⟩
        have : IsTrans Item fun left right => rank order left ≤ rank order right :=
          ⟨fun _ _ _ => le_trans⟩
        refine ⟨List.perm_insertionSort _ _, ?_⟩
        exact List.pairwise_insertionSort
          (fun left right => rank order left ≤ rank order right) items

theorem sortPictures_some {order : List String}
    (h : sortPictures printable (some order) items = .ok sorted) :
    (shots items).toFinset = order.toFinset ∧
      sorted = items.insertionSort fun left right => rank order left ≤ rank order right := by
  unfold sortPictures at h
  dsimp only at h
  split at h
  · exact absurd h nofun
  · rename_i hsame
    exact ⟨not_not.mp hsame, (Except.ok.inj h).symm⟩

theorem sortPictures_of_same {order : List String} (h : (shots items).toFinset = order.toFinset) :
    sortPictures printable (some order) items =
      .ok (items.insertionSort fun left right => rank order left ≤ rank order right) := by
  unfold sortPictures
  dsimp only
  rw [if_neg (not_not.mpr h)]

/-- Pictures that stand in a row stay as they stand. -/
theorem sortPictures_none_of_covers {first last : ℚ}
    (h : Covers Item.start Item.finish first items last) :
    sortPictures printable none items = .ok items := by
  have hsorted : items.Pairwise fun left right => left.start ≤ right.start :=
    h.pairwise_start.imp le_of_lt
  exact congrArg Except.ok hsorted.insertionSort_eq

theorem shots_of_content {others : List Item}
    (h : items.map Item.content = others.map Item.content) : shots items = shots others := by
  have hshots : ∀ list : List Item, shots list =
      (list.map Item.content).filterMap fun item => item.harness.shotId := by
    intro list
    rw [List.filterMap_map]
    rfl
  rw [hshots, hshots, h]

theorem content_insertionSort (order : List String) (items : List Item) :
    (items.insertionSort fun left right => rank order left ≤ rank order right).map Item.content =
      (items.map Item.content).insertionSort fun left right =>
        rank order left ≤ rank order right :=
  List.map_insertionSort _ _ _ _ fun _ _ _ _ => Iff.rfl

/-- An item that is ranked is of the shot that stands there in the order. -/
theorem shot_of_rank {order : List String} {item : Item} {position : ℕ}
    (h : rank order item = position) : item.harness.shotId = order[position]? := by
  unfold rank at h
  cases hfound : item.harness.shotId.bind fun shot => order.findIdx? fun id => id = shot with
  | none =>
      rw [hfound] at h
      exact absurd h (WithTop.top_ne_natCast position)
  | some found =>
      rw [hfound] at h
      obtain rfl : found = position := WithTop.coe_injective h
      obtain ⟨shot, hshot, hposition⟩ := Option.bind_eq_some_iff.mp hfound
      obtain ⟨hlength, hat, -⟩ := List.findIdx?_eq_some_iff_getElem.mp hposition
      rw [hshot, List.getElem?_eq_getElem hlength]
      exact congrArg some (of_decide_eq_true hat).symm

theorem shot_of_rank_top {order : List String} {item : Item}
    (hsame : (shots items).toFinset = order.toFinset) (hitem : item ∈ items)
    (h : rank order item = ⊤) : item.harness.shotId = none := by
  unfold rank at h
  cases hshot : item.harness.shotId with
  | none => rfl
  | some shot =>
      have hmem : shot ∈ (shots items).toFinset :=
        List.mem_toFinset.mpr (List.mem_filterMap.mpr ⟨item, hitem, hshot⟩)
      rw [hsame, List.mem_toFinset] at hmem
      cases hfound : order.findIdx? fun id => id = shot with
      | none =>
          have hnone := List.findIdx?_eq_none_iff.mp hfound shot hmem
          exact absurd hnone (by simp)
      | some position =>
          have hbind : (some shot).bind (fun shot => order.findIdx? fun id => id = shot) =
              some position := hfound
          rw [hshot, hbind] at h
          exact absurd h (WithTop.natCast_ne_top position)

theorem rank_of_shot_none {order : List String} {item : Item} (h : item.harness.shotId = none) :
    rank order item = ⊤ := by
  unfold rank
  rw [h]
  rfl

/-- Where every shot has one picture, sorting by one order leaves nothing for the next to read. -/
theorem insertionSort_rank_again {first second : List String}
    (hfirst : (shots items).toFinset = first.toFinset) (hshots : (shots items).Nodup) :
    ((items.insertionSort fun left right => rank second left ≤ rank second right).insertionSort
        fun left right => rank first left ≤ rank first right) =
      items.insertionSort fun left right => rank first left ≤ rank first right := by
  have : Std.Total fun left right : Item => rank second left ≤ rank second right :=
    ⟨fun left right => le_total (rank second left) (rank second right)⟩
  have : IsTrans Item fun left right => rank second left ≤ rank second right :=
    ⟨fun _ _ _ => le_trans⟩
  refine StableSort.insertionSort_eq_of_filter (rank first) fun k => ?_
  rw [StableSort.filter_insertionSort]
  refine List.Pairwise.insertionSort_eq ?_
  have hdistinct := (List.pairwise_filterMap.mp hshots).filter fun item => rank first item = k
  refine hdistinct.imp_of_mem fun hleft hright hne => ?_
  obtain ⟨hleftMem, hleftKey⟩ := List.mem_filter.mp hleft
  obtain ⟨hrightMem, hrightKey⟩ := List.mem_filter.mp hright
  have hleftRank : rank first _ = k := of_decide_eq_true hleftKey
  have hrightRank : rank first _ = k := of_decide_eq_true hrightKey
  cases k with
  | top =>
      rw [rank_of_shot_none (shot_of_rank_top hfirst hleftMem hleftRank),
        rank_of_shot_none (shot_of_rank_top hfirst hrightMem hrightRank)]
  | coe position =>
      have hleftShot := shot_of_rank hleftRank
      have hrightShot := shot_of_rank hrightRank
      cases hat : first[position]? with
      | none =>
          rw [hat] at hleftShot hrightShot
          rw [rank_of_shot_none hleftShot, rank_of_shot_none hrightShot]
      | some shot =>
          rw [hat] at hleftShot hrightShot
          exact absurd rfl (hne shot hleftShot shot hrightShot)

end Sorting

section Pass

variable {timeline after : Timeline} {order : Option (List String)} {duration : ℚ}
  {index : ℕ} {tracks : List Track} {track : Track} {items sorted : List Item}

/-- What a pass that goes through has found. -/
structure Pass (printable : Char → Bool) (timeline : Timeline) (order : Option (List String))
    (index : ℕ) (tracks : List Track) (track : Track) (items sorted : List Item) : Prop where
  chosen : pictureTrackIndex timeline = some index
  all : timeline.tracks = some tracks
  at_index : tracks[index]? = some track
  pictures : track.items = some items
  admitted : sortPictures printable order items = .ok sorted

/-- The pictures of a pass, where its shots start, and where it ends. -/
def lay (sorted : List Item) : List Item × (String → Option ℚ) × ℚ :=
  layPictures 0 (fun _ => none) sorted

theorem Pass.relayout (h : Pass printable timeline order index tracks track items sorted) :
    relayoutTimeline printable timeline order =
      settle (tracks.set index { track with items := some (lay sorted).1 }) (lay sorted).2.1
        (lay sorted).2.2 := by
  unfold relayoutTimeline
  rw [h.chosen]
  dsimp only
  rw [h.all]
  dsimp only
  rw [h.at_index]
  dsimp only
  rw [h.pictures]
  dsimp only
  rw [h.admitted]
  rfl

theorem findIdx?_or_lt {α : Type} {list : List α} {p q : α → Bool} {index : ℕ}
    (h : (list.findIdx? p).or (list.findIdx? q) = some index) : index < list.length := by
  cases hp : list.findIdx? p with
  | some found =>
      rw [hp] at h
      obtain rfl := Option.some.inj h
      exact (List.findIdx?_eq_some_iff_getElem.mp hp).1
  | none =>
      rw [hp, Option.none_or] at h
      exact (List.findIdx?_eq_some_iff_getElem.mp h).1

/-- A pass goes through exactly as `Pass` says, and a refused one changes nothing. -/
theorem pass_or_refused (printable : Char → Bool) (timeline : Timeline)
    (order : Option (List String)) :
    (∃ index tracks track items sorted,
        Pass printable timeline order index tracks track items sorted) ∨
      ∃ error, relayoutTimeline printable timeline order = (timeline, .error error) := by
  unfold relayoutTimeline
  cases hindex : pictureTrackIndex timeline with
  | none => exact .inr ⟨_, rfl⟩
  | some index =>
      obtain ⟨tracks, htracks, hfound⟩ := Option.bind_eq_some_iff.mp hindex
      have hlength := findIdx?_or_lt hfound
      have htrack : tracks[index]? = some tracks[index] := List.getElem?_eq_getElem hlength
      dsimp only
      rw [htracks]
      dsimp only
      rw [htrack]
      dsimp only
      cases hitems : tracks[index].items with
      | none => exact .inr ⟨_, rfl⟩
      | some items =>
          dsimp only
          cases hsorted : sortPictures printable order items with
          | error error => exact .inr ⟨_, rfl⟩
          | ok sorted => exact .inl ⟨_, _, _, _, _, hindex, htracks, htrack, hitems, hsorted⟩

theorem exists_pass (h : relayoutTimeline printable timeline order = (after, .ok duration)) :
    ∃ index tracks track items sorted,
      Pass printable timeline order index tracks track items sorted ∧
        duration = (lay sorted).2.2 ∧ after.duration = some duration ∧
        after.tracks = some
          ((tracks.set index { track with items := some (lay sorted).1 }).map
            (placeTrack (lay sorted).2.1 (lay sorted).2.2)) := by
  rcases pass_or_refused printable timeline order with
    ⟨index, tracks, track, items, sorted, hpass⟩ | ⟨error, hrefused⟩
  · rw [hpass.relayout] at h
    obtain ⟨hafter, hduration⟩ := Prod.mk.inj h
    obtain rfl := Except.ok.inj hduration
    subst hafter
    exact ⟨index, tracks, track, items, sorted, hpass, rfl, rfl, rfl⟩
  · rw [hrefused] at h
    exact absurd (Prod.mk.inj h).2 nofun

theorem relayout_refused {error : String}
    (h : relayoutTimeline printable timeline order = (after, .error error)) : after = timeline := by
  rcases pass_or_refused printable timeline order with
    ⟨index, tracks, track, items, sorted, hpass⟩ | ⟨other, hrefused⟩
  · rw [hpass.relayout] at h
    exact absurd (Prod.mk.inj h).2 nofun
  · rw [hrefused] at h
    exact (Prod.mk.inj h).1.symm

end Pass

section Tracks

variable {shotStarts other : String → Option ℚ} {duration : ℚ} {track : Track}

theorem placeTrack_of_ne (shotStarts : String → Option ℚ) (duration : ℚ)
    (h : track.kind ≠ some "audio") : placeTrack shotStarts duration track = track := if_neg h

theorem placeTrack_label (shotStarts : String → Option ℚ) (duration : ℚ) (track : Track) :
    ((placeTrack shotStarts duration track).id, (placeTrack shotStarts duration track).kind) =
      (track.id, track.kind) := by
  unfold placeTrack
  split <;> rfl

theorem pictureTrackIndex_of_labels {timeline after : Timeline} {tracks tracks' : List Track}
    (htracks : timeline.tracks = some tracks) (htracks' : after.tracks = some tracks')
    (h : tracks'.map (fun track => (track.id, track.kind)) =
      tracks.map fun track => (track.id, track.kind)) :
    pictureTrackIndex after = pictureTrackIndex timeline := by
  have hlabels : ∀ (timeline : Timeline) (tracks : List Track), timeline.tracks = some tracks →
      pictureTrackIndex timeline =
        ((tracks.map fun track => (track.id, track.kind)).findIdx? fun label =>
            label.1 = some pictureTrackId).or
          ((tracks.map fun track => (track.id, track.kind)).findIdx? fun label =>
            label.2 = some "video") := by
    intro timeline tracks htracks
    rw [List.findIdx?_map, List.findIdx?_map, pictureTrackIndex, htracks]
    rfl
  rw [hlabels after tracks' htracks', hlabels timeline tracks htracks, h]

/-- Sounds that were all kept are placed again as if they had not been. -/
theorem placeTrack_again
    (h : (placeTrack shotStarts duration track).count = track.count) :
    placeTrack other duration (placeTrack shotStarts duration track) =
      placeTrack other duration track := by
  by_cases hkind : track.kind = some "audio"
  · unfold placeTrack at h ⊢
    rw [if_pos hkind] at h ⊢
    rw [if_pos hkind, if_pos hkind]
    cases hitems : track.items with
    | none => rfl
    | some items =>
        rw [Track.count, Track.count, hitems] at h
        have hlength : (items.filterMap (placeSound shotStarts duration)).length = items.length :=
          Option.some.inj h
        have hkept := List.filterMap_length_eq_length.mp hlength
        dsimp only [Option.map_some]
        rw [List.filterMap_filterMap]
        congr 2
        refine List.filterMap_congr fun item hitem => ?_
        obtain ⟨placed, hplaced⟩ := Option.isSome_iff_exists.mp (hkept item hitem)
        rw [hplaced]
        exact placeSound_again hplaced
  · rw [placeTrack_of_ne shotStarts duration hkind]

theorem placeTrack_idem (shotStarts : String → Option ℚ) (duration : ℚ) (track : Track) :
    placeTrack shotStarts duration (placeTrack shotStarts duration track) =
      placeTrack shotStarts duration track := by
  by_cases hkind : track.kind = some "audio"
  · unfold placeTrack
    rw [if_pos hkind, if_pos hkind]
    cases track.items with
    | none => rfl
    | some items =>
        dsimp only [Option.map_some]
        rw [List.filterMap_filterMap]
        congr 2
        refine List.filterMap_congr fun item _ => ?_
        cases hplaced : placeSound shotStarts duration item with
        | none => rfl
        | some placed => exact (placeSound_again hplaced).trans hplaced
  · rw [placeTrack_of_ne _ _ hkind, placeTrack_of_ne _ _ hkind]

end Tracks

section After

variable {timeline after : Timeline} {order : Option (List String)} {duration : ℚ}
  {index : ℕ} {tracks : List Track} {track : Track} {items sorted : List Item}

def withPictures (tracks : List Track) (index : ℕ) (track : Track) (sorted : List Item) :
    List Track :=
  tracks.set index { track with items := some (lay sorted).1 }

theorem labels_withPictures (h : tracks[index]? = some track) :
    (withPictures tracks index track sorted).map (fun track => (track.id, track.kind)) =
      tracks.map fun track => (track.id, track.kind) := by
  have hlabel : (tracks.map fun track => (track.id, track.kind))[index]? =
      some (track.id, track.kind) := by
    rw [List.getElem?_map, h]
    rfl
  obtain ⟨hlength, hat⟩ := List.getElem?_eq_some_iff.mp hlabel
  rw [withPictures, List.map_set]
  dsimp only
  rw [← hat, List.set_getElem_self]

/-- The pass after one that went through, over the pictures it laid. -/
theorem Pass.next {next : Option (List String)} {sorted' : List Item}
    (h : Pass printable timeline order index tracks track items sorted)
    (hapart : track.kind ≠ some "audio") {shotStarts : String → Option ℚ}
    (hafter : after.tracks = some
      ((withPictures tracks index track sorted).map (placeTrack shotStarts duration)))
    (hsorted : sortPictures printable next (lay sorted).1 = .ok sorted') :
    Pass printable after next index
      ((withPictures tracks index track sorted).map (placeTrack shotStarts duration))
      { track with items := some (lay sorted).1 } (lay sorted).1 sorted' where
  chosen := by
    rw [pictureTrackIndex_of_labels h.all hafter, h.chosen]
    rw [← labels_withPictures h.at_index, List.map_map]
    exact List.map_congr_left fun track _ => placeTrack_label shotStarts duration track
  all := hafter
  at_index := by
    have hlength := (List.getElem?_eq_some_iff.mp h.at_index).1
    rw [List.getElem?_map, withPictures, List.getElem?_set_self hlength]
    exact congrArg some (placeTrack_of_ne _ _ hapart)
  pictures := rfl
  admitted := hsorted

theorem PictureApart.kind (h : PictureApart timeline)
    (hpass : Pass printable timeline order index tracks track items sorted) :
    track.kind ≠ some "audio" :=
  h index hpass.chosen tracks hpass.all track hpass.at_index

theorem covers_lay (sorted : List Item) :
    Covers Item.start Item.finish 0 (lay sorted).1 (lay sorted).2.2 :=
  covers_layPictures 0 _ sorted

theorem content_lay (sorted : List Item) :
    (lay sorted).1.map Item.content = sorted.map Item.content :=
  content_layPictures 0 _ sorted

theorem lay_of_content {others : List Item}
    (h : sorted.map Item.content = others.map Item.content) : lay sorted = lay others :=
  layPictures_of_content h

theorem duration_lay (sorted : List Item) : (lay sorted).2.2 = (sorted.map itemSpan).sum :=
  (duration_layPictures 0 _ sorted).trans (zero_add _)

theorem lastOfShot_lay {shot : String} {start : ℚ} (h : (lay sorted).2.1 shot = some start) :
    LastOfShot (lay sorted).1 shot start := by
  rcases shotStarts_layPictures h with hlast | ⟨hnone, -⟩
  · exact hlast
  · exact absurd hnone nofun

theorem nonneg_of_lastOfShot {shot : String} {start : ℚ}
    (h : LastOfShot (lay sorted).1 shot start) : 0 ≤ start := by
  obtain ⟨front, picture, back, hlaid, -, rfl, -⟩ := h
  have hmem : picture ∈ (lay sorted).1 := by
    rw [hlaid]
    exact List.mem_append_right _ (List.mem_cons_self ..)
  exact ((covers_lay sorted).bounds hmem).1

/-- A second pass in the order that stands changes nothing. -/
theorem relayout_again (hapart : PictureApart timeline)
    (h : relayoutTimeline printable timeline order = (after, .ok duration)) :
    relayoutTimeline printable after none = (after, .ok duration) := by
  obtain ⟨index, tracks, track, items, sorted, hpass, rfl, hduration, hafter⟩ := exists_pass h
  have hkind := hapart.kind hpass
  have hnext := hpass.next hkind hafter (sortPictures_none_of_covers (covers_lay sorted))
  have hlay : lay (lay sorted).1 = lay sorted := lay_of_content (content_lay sorted)
  rw [hnext.relayout, hlay]
  have hset := hnext.at_index
  obtain ⟨hlength, hat⟩ := List.getElem?_eq_some_iff.mp hset
  have hsame : ((withPictures tracks index track sorted).map
      (placeTrack (lay sorted).2.1 (lay sorted).2.2)).set index
        { track with items := some (lay sorted).1 } =
      (withPictures tracks index track sorted).map
        (placeTrack (lay sorted).2.1 (lay sorted).2.2) := by
    rw [← hat, List.set_getElem_self]
  have hagain : ∀ tracks : List Track,
      (tracks.map (placeTrack (lay sorted).2.1 (lay sorted).2.2)).map
          (placeTrack (lay sorted).2.1 (lay sorted).2.2) =
        tracks.map (placeTrack (lay sorted).2.1 (lay sorted).2.2) := by
    intro tracks
    rw [List.map_map]
    exact List.map_congr_left fun track _ => placeTrack_idem _ _ track
  unfold settle
  rw [hsame, hagain]
  cases after
  cases hafter
  cases hduration
  rfl

end After

section Orders

variable {timeline after : Timeline} {duration : ℚ} {index : ℕ} {tracks : List Track}
  {track : Track} {items : List Item} {first second : List String}

theorem shots_toFinset_of_perm {left right : List Item} (h : left.Perm right) :
    (shots left).toFinset = (shots right).toFinset :=
  List.toFinset_eq_of_perm _ _ (h.filterMap _)

/-- Pictures laid in one order and then in another are those laid in the other at once. -/
theorem lay_sorted_again {sorted sorted' : List Item} (hshots : (shots items).Nodup)
    (hsecond : sortPictures printable (some second) items = .ok sorted)
    (hfirst : sortPictures printable (some first) items = .ok sorted') :
    ∃ again, sortPictures printable (some first) (lay sorted).1 = .ok again ∧
      lay again = lay sorted' := by
  obtain ⟨hfirstShots, rfl⟩ := sortPictures_some hfirst
  obtain ⟨hperm, -⟩ := sortPictures_spec hsecond
  obtain ⟨-, hsorted⟩ := sortPictures_some hsecond
  have hcontent := content_lay sorted
  have hsame : (shots (lay sorted).1).toFinset = first.toFinset := by
    rw [shots_of_content hcontent, shots_toFinset_of_perm hperm, hfirstShots]
  refine ⟨_, sortPictures_of_same hsame, lay_of_content ?_⟩
  rw [content_insertionSort, hcontent, ← content_insertionSort, hsorted,
    insertionSort_rank_again hfirstShots hshots]

/-- Every track of the second pass is placed as if the first had not been. -/
theorem placed_again {tracks' : List Track} {shotStarts other : String → Option ℚ} {place : Track}
    (hlength : tracks'.length = tracks.length)
    (hkept : ∀ j, j ≠ index → ∀ track ∈ tracks[j]?, tracks'[j]? =
      some (placeTrack shotStarts duration track) ∧
        (placeTrack shotStarts duration track).count = track.count) :
    (tracks'.set index place).map (placeTrack other duration) =
      (tracks.set index place).map (placeTrack other duration) := by
  refine List.ext_getElem? fun j => ?_
  rw [List.getElem?_map, List.getElem?_map, List.getElem?_set, List.getElem?_set, hlength]
  split
  · rfl
  · rename_i hj
    cases htrack : tracks[j]? with
    | none =>
        have hout : tracks.length ≤ j := List.getElem?_eq_none_iff.mp htrack
        rw [List.getElem?_eq_none_iff.mpr (hlength ▸ hout)]
    | some track =>
        obtain ⟨hat, hcount⟩ := hkept j (fun heq => hj heq.symm) track htrack
        rw [hat]
        exact congrArg some (placeTrack_again hcount)

/-- Re-laying in one order, without loss, leaves nothing that re-laying in another reads. -/
theorem relayout_order_independent {after₁ after₂ : Timeline} {duration₁ duration₂ : ℚ}
    (hapart : PictureApart timeline)
    (hshots : ∀ pictures ∈ timeline.pictures, (shots pictures).Nodup)
    (hsecond : relayoutTimeline printable timeline (some second) = (after₂, .ok duration₂))
    (hkept : NothingDropped timeline after₂)
    (hfirst : relayoutTimeline printable timeline (some first) = (after₁, .ok duration₁)) :
    relayoutTimeline printable after₂ (some first) = (after₁, .ok duration₁) := by
  obtain ⟨index, tracks, track, items, sorted, hpass, hlast, -, hafter₂⟩ := exists_pass hsecond
  obtain ⟨index', tracks', track', items', sorted', hpass', -, -, -⟩ := exists_pass hfirst
  -- Both passes over the one document have found the same pictures.
  obtain rfl : index = index' := Option.some.inj (hpass.chosen.symm.trans hpass'.chosen)
  obtain rfl : tracks = tracks' := Option.some.inj (hpass.all.symm.trans hpass'.all)
  obtain rfl : track = track' := Option.some.inj (hpass.at_index.symm.trans hpass'.at_index)
  obtain rfl : items = items' := Option.some.inj (hpass.pictures.symm.trans hpass'.pictures)
  have hkind := hapart.kind hpass
  have hpictures : timeline.pictures = some items := by
    rw [Timeline.pictures, hpass.chosen, Option.bind_some, hpass.all, Option.bind_some,
      hpass.at_index, Option.bind_some, hpass.pictures]
  obtain ⟨again, hagain, hlay⟩ :=
    lay_sorted_again (hshots items hpictures) hpass.admitted hpass'.admitted
  have hnext := hpass.next hkind hafter₂ hagain
  rw [hnext.relayout, hlay, ← hfirst, hpass'.relayout]
  have hduration : (lay sorted).2.2 = (lay sorted').2.2 := by
    obtain ⟨hperm, -⟩ := sortPictures_spec hpass.admitted
    obtain ⟨hperm', -⟩ := sortPictures_spec hpass'.admitted
    rw [duration_lay, duration_lay]
    exact ((hperm.trans hperm'.symm).map itemSpan).sum_eq
  have htracks := @placed_again (lay sorted').2.2 index tracks
    ((withPictures tracks index track sorted).map
      (placeTrack (lay sorted).2.1 (lay sorted).2.2))
    (lay sorted).2.1 (lay sorted').2.1 { track with items := some (lay sorted').1 } ?_ ?_
  · exact congrArg (fun tracks => (Timeline.mk (some tracks) (some (lay sorted').2.2),
      (Except.ok (lay sorted').2.2 : Except String ℚ))) htracks
  · rw [List.length_map, withPictures, List.length_set]
  · intro j hj track' htrack'
    have hat : ((withPictures tracks index track sorted).map
        (placeTrack (lay sorted).2.1 (lay sorted).2.2))[j]? =
        some (placeTrack (lay sorted).2.1 (lay sorted').2.2 track') := by
      rw [List.getElem?_map, withPictures, List.getElem?_set_ne (Ne.symm hj), htrack', hduration]
      rfl
    refine ⟨hat, ?_⟩
    rw [NothingDropped, hpass.all, hafter₂] at hkept
    have hcounts := congrArg (fun counts => counts[j]?) (Option.some.inj hkept)
    rw [List.getElem?_map, List.getElem?_map, htrack'] at hcounts
    have hat' : ((tracks.set index { track with items := some (lay sorted).1 }).map
        (placeTrack (lay sorted).2.1 (lay sorted).2.2))[j]? =
        some (placeTrack (lay sorted).2.1 (lay sorted').2.2 track') := hat
    rw [hat'] at hcounts
    exact (Option.some.inj hcounts).symm

end Orders

end SceneWorks.FilmSequence
