import Mathlib.Tactic.Linarith
import SceneWorks.FilmSequence.Relayout
import SceneWorks.Library.Covering
import SceneWorks.Library.StableSort

/-!
What one re-layout writes. The pictures are laid from nothing but their content, so laying them
again changes nothing; every sound is placed from what the pass leaves alone, so that placing it
against other pictures gives what placing the sound it was before would have given.
-/

namespace SceneWorks.FilmSequence

open Covering (Covers)

section Content

/-- A picture without its place. -/
def Item.content (item : Item) : Item :=
  { item with timelineStart := none, timelineEnd := none }

/-- A sound without its place and the end of its source range. -/
def Item.sound (item : Item) : Item :=
  { item with timelineStart := none, timelineEnd := none, sourceOut := none }

theorem minItemSeconds_pos : 0 < minItemSeconds := by decide +kernel

theorem minItemSeconds_le_itemSpan (item : Item) : minItemSeconds ≤ itemSpan item :=
  le_max_right _ _

theorem itemSpan_pos (item : Item) : 0 < itemSpan item :=
  minItemSeconds_pos.trans_le (minItemSeconds_le_itemSpan item)

theorem itemSpan_of_content {left right : Item} (h : left.content = right.content) :
    itemSpan left = itemSpan right := by
  have hspan : itemSpan left.content = itemSpan right.content := congrArg itemSpan h
  exact hspan

theorem shotId_of_content {left right : Item} (h : left.content = right.content) :
    left.harness.shotId = right.harness.shotId := by
  have hshot : left.content.harness.shotId = right.content.harness.shotId :=
    congrArg (fun item : Item => item.harness.shotId) h
  exact hshot

theorem place_of_content {left right : Item} (h : left.content = right.content)
    (start finish : Option ℚ) :
    { left with timelineStart := start, timelineEnd := finish } =
      { right with timelineStart := start, timelineEnd := finish } :=
  congrArg (fun item : Item => { item with timelineStart := start, timelineEnd := finish }) h

theorem harnessF64_nonneg (value : Option ℚ) : 0 ≤ harnessF64 value := by
  unfold harnessF64
  cases h : value.filter fun value => 0 ≤ value with
  | none => exact le_rfl
  | some value =>
      have hvalue := (Option.filter_eq_some_iff.mp h).2
      simpa using hvalue

end Content

section Pictures

variable {cursor : ℚ} {shotStarts : String → Option ℚ} {items others : List Item}

/-- The pictures are laid from their content alone. -/
theorem layPictures_of_content (h : items.map Item.content = others.map Item.content) :
    layPictures cursor shotStarts items = layPictures cursor shotStarts others := by
  induction items generalizing cursor shotStarts others with
  | nil =>
      obtain rfl := List.map_eq_nil_iff.mp h.symm
      rfl
  | cons item items ih =>
      cases others with
      | nil => exact absurd h (List.cons_ne_nil _ _)
      | cons other others =>
          obtain ⟨hhead, htail⟩ := List.cons.inj h
          unfold layPictures
          dsimp only
          rw [itemSpan_of_content hhead, shotId_of_content hhead, place_of_content hhead, ih htail]

theorem content_layPictures (cursor : ℚ) (shotStarts : String → Option ℚ) (items : List Item) :
    (layPictures cursor shotStarts items).1.map Item.content = items.map Item.content := by
  induction items generalizing cursor shotStarts with
  | nil => rfl
  | cons item items ih =>
      rw [layPictures, List.map_cons, List.map_cons, ih]
      rfl

theorem covers_layPictures (cursor : ℚ) (shotStarts : String → Option ℚ) (items : List Item) :
    Covers Item.start Item.finish cursor (layPictures cursor shotStarts items).1
      (layPictures cursor shotStarts items).2.2 := by
  induction items generalizing cursor shotStarts with
  | nil => rfl
  | cons item items ih =>
      refine ⟨rfl, ?_, ih _ _⟩
      exact lt_add_of_pos_right cursor (itemSpan_pos item)

theorem span_layPictures (cursor : ℚ) (shotStarts : String → Option ℚ) (items : List Item) :
    ∀ item ∈ (layPictures cursor shotStarts items).1,
      item.finish = item.start + itemSpan item := by
  induction items generalizing cursor shotStarts with
  | nil => exact fun item hitem => absurd hitem List.not_mem_nil
  | cons first items ih =>
      intro item hitem
      rcases List.mem_cons.mp hitem with rfl | hrest
      · rfl
      · exact ih _ _ item hrest

theorem duration_layPictures (cursor : ℚ) (shotStarts : String → Option ℚ) (items : List Item) :
    (layPictures cursor shotStarts items).2.2 = cursor + (items.map itemSpan).sum := by
  induction items generalizing cursor shotStarts with
  | nil => exact (add_zero cursor).symm
  | cons item items ih => rw [layPictures, ih, List.map_cons, List.sum_cons, add_assoc]

/-- The last picture of its shot, and where it starts. -/
def LastOfShot (laid : List Item) (shot : String) (start : ℚ) : Prop :=
  ∃ front picture back, laid = front ++ picture :: back ∧ picture.harness.shotId = some shot ∧
    picture.start = start ∧ ∀ other ∈ back, other.harness.shotId ≠ some shot

theorem markStart_eq_some {start : ℚ} {own : Option String} {shot : String}
    (h : markStart shotStarts cursor own shot = some start) :
    own = some shot ∧ cursor = start ∨ own ≠ some shot ∧ shotStarts shot = some start := by
  cases own with
  | none => exact .inr ⟨nofun, h⟩
  | some own =>
      rw [markStart] at h
      by_cases hown : shot = own
      · subst hown
        rw [Function.update_self] at h
        exact .inl ⟨rfl, Option.some.inj h⟩
      · rw [Function.update_of_ne hown] at h
        exact .inr ⟨fun heq => hown (Option.some.inj heq).symm, h⟩

theorem shotStarts_layPictures {shot : String} {start : ℚ}
    (h : (layPictures cursor shotStarts items).2.1 shot = some start) :
    LastOfShot (layPictures cursor shotStarts items).1 shot start ∨
      shotStarts shot = some start ∧
        ∀ other ∈ (layPictures cursor shotStarts items).1, other.harness.shotId ≠ some shot := by
  induction items generalizing cursor shotStarts with
  | nil => exact .inr ⟨h, fun other hother => absurd hother List.not_mem_nil⟩
  | cons item items ih =>
      rw [layPictures] at h ⊢
      rcases ih h with ⟨front, picture, back, hlaid, hlast⟩ | ⟨hbefore, hnone⟩
      · exact .inl ⟨_ :: front, picture, back, congrArg _ hlaid, hlast⟩
      · rcases markStart_eq_some hbefore with ⟨hshot, hstart⟩ | ⟨hshot, hkept⟩
        · exact .inl ⟨[], _, _, rfl, hshot, hstart, hnone⟩
        · refine .inr ⟨hkept, fun other hother => ?_⟩
          rcases List.mem_cons.mp hother with rfl | hrest
          · exact hshot
          · exact hnone other hrest

end Pictures

section Sounds

variable {shotStarts : String → Option ℚ} {duration : ℚ} {item placed : Item}

/-- What placing an item of an audio track comes to. -/
inductive Placed (shotStarts : String → Option ℚ) (duration : ℚ) (item : Item) : Item → Prop
  | clip (start finish : ℚ) (hrole : item.harness.role ≠ some "dialogue")
      (hbed : isBed (item.harness.role.getD "") = false)
      (hstart : start = max item.start 0)
      (hfinish : finish = min (number item.timelineEnd (start + itemSpan item)) duration)
      (hroom : start < duration) (hlength : start < finish) :
      Placed shotStarts duration item
        { item with timelineStart := some start, timelineEnd := some finish }
  | line (shotStart start finish : ℚ) (hrole : item.harness.role = some "dialogue")
      (hshot : item.harness.shotId.bind shotStarts = some shotStart)
      (hstart : start = shotStart + harnessF64 item.harness.offsetSeconds)
      (hfinish : finish = min (start + itemSpan item) duration)
      (hroom : start < duration - minItemSeconds) (hlength : start < finish) :
      Placed shotStarts duration item
        { item with timelineStart := some start, timelineEnd := some finish }
  | bed (start finish : ℚ) (hbed : isBed (item.harness.role.getD "") = true)
      (hwindow : soundWindow shotStarts duration item = some (start, finish))
      (hroom : start < duration - minItemSeconds) (hlength : start < min finish duration) :
      Placed shotStarts duration item
        { item with
          timelineStart := some start
          timelineEnd := some (min finish duration)
          sourceOut := some (bedSourceOut duration start (min finish duration) item) }

theorem placeSound_spec (h : placeSound shotStarts duration item = some placed) :
    Placed shotStarts duration item placed := by
  unfold placeSound at h
  dsimp only at h
  split at h
  · rename_i hrole
    split at h
    · exact absurd h nofun
    · rename_i start finish hwindow
      split_ifs at h with hroom hlength hbed
      · obtain rfl := Option.some.inj h
        exact .bed start finish hbed hwindow (not_le.mp hroom) (not_le.mp hlength)
      · obtain rfl := Option.some.inj h
        have hline : item.harness.role.getD "" = "dialogue" := by simpa [hbed] using hrole
        have hdialogue : item.harness.role = some "dialogue" := by
          cases hcase : item.harness.role with
          | none => exact absurd (hcase ▸ hline) (by decide)
          | some role => exact congrArg some (by simpa [hcase] using hline)
        rw [soundWindow, if_pos hdialogue] at hwindow
        obtain ⟨shotStart, hshot, hpair⟩ := Option.map_eq_some_iff.mp hwindow
        obtain ⟨hstart, hfinish⟩ := Prod.mk.inj hpair
        refine .line shotStart start _ hdialogue hshot hstart.symm ?_ (not_le.mp hroom)
          (not_le.mp hlength)
        rw [← hfinish, ← hstart]
  · rename_i hrole
    unfold clampClip at h
    dsimp only at h
    split_ifs at h with hdrop
    obtain ⟨hroom, hlength⟩ := not_or.mp hdrop
    obtain rfl := Option.some.inj h
    refine .clip _ _ ?_ ?_ rfl rfl (not_le.mp hroom) (not_le.mp hlength)
    · exact fun hdialogue => hrole (by simp [hdialogue])
    · exact Bool.eq_false_iff.mpr fun hbed => hrole (by simp [hbed])

theorem placeSound_of_clip (hrole : item.harness.role ≠ some "dialogue")
    (hbed : isBed (item.harness.role.getD "") = false) :
    placeSound shotStarts duration item = clampClip duration item := by
  have hline : item.harness.role.getD "" ≠ "dialogue" := by
    cases h : item.harness.role with
    | none => exact nofun
    | some role => exact fun heq => hrole (h.trans (congrArg some heq))
  unfold placeSound
  rw [if_neg]
  simp [hline, hbed]

theorem clampClip_of_fits {start finish : ℚ} (hstart : item.timelineStart = some start)
    (hfinish : item.timelineEnd = some finish) (hfirst : 0 ≤ start) (hlast : finish ≤ duration)
    (hlength : start < finish) : clampClip duration item = some item := by
  unfold clampClip
  rw [hstart, hfinish]
  have hmax : max (number (some start) 0) 0 = start := max_eq_left hfirst
  dsimp only
  rw [hmax]
  have hmin : min (number (some finish) (start + itemSpan item)) duration = finish :=
    min_eq_left hlast
  rw [hmin, if_neg]
  · cases item
    cases hstart
    cases hfinish
    rfl
  · rintro (hroom | hempty)
    · exact absurd (hlength.trans_le hlast) (not_lt.mpr hroom)
    · exact absurd hlength (not_lt.mpr hempty)

/-- A sound is placed against other pictures as the sound it was before would have been. -/
theorem placeSound_again {other : String → Option ℚ}
    (h : placeSound shotStarts duration item = some placed) :
    placeSound other duration placed = placeSound other duration item := by
  cases placeSound_spec h with
  | clip start finish hrole hbed hstart hfinish hroom hlength =>
      have hitem : placeSound other duration item = clampClip duration item :=
        placeSound_of_clip hrole hbed
      rw [placeSound_of_clip hrole hbed] at h
      have hclip := @placeSound_of_clip other duration
        { item with timelineStart := some start, timelineEnd := some finish } hrole hbed
      have hfirst : 0 ≤ start := hstart ▸ le_max_right item.start 0
      have hlast : finish ≤ duration := hfinish ▸ min_le_right _ _
      rw [hitem, h, hclip]
      exact clampClip_of_fits rfl rfl hfirst hlast hlength
  | line shotStart start finish hrole hshot hstart hfinish hroom hlength =>
      have hsound : (item.harness.role.getD "" = "dialogue" || isBed (item.harness.role.getD "")) =
          true := by
        rw [hrole]
        rfl
      unfold placeSound
      dsimp only
      rw [if_pos hsound, if_pos hsound]
      rfl
  | bed start finish hbed hwindow hroom hlength =>
      have hsound : (item.harness.role.getD "" = "dialogue" || isBed (item.harness.role.getD "")) =
          true := by
        rw [hbed, Bool.or_true]
      have hrole : item.harness.role ≠ some "dialogue" := by
        intro hdialogue
        rw [hdialogue] at hbed
        exact absurd hbed (by decide)
      unfold placeSound
      dsimp only
      rw [if_pos hsound, if_pos hsound]
      unfold soundWindow
      dsimp only
      rw [if_neg hrole, if_neg hrole]
      simp only [hbed, if_true]
      rfl

/-- Only the place of a sound and the end of its source range are written. -/
theorem sound_of_placed (h : placeSound shotStarts duration item = some placed) :
    placed.sound = item.sound := by
  cases placeSound_spec h <;> rfl

theorem harness_of_placed (h : placeSound shotStarts duration item = some placed) :
    placed.harness = item.harness := by
  cases placeSound_spec h <;> rfl

/-- A placed sound lies within the sequence, as long as no shot starts before it. -/
theorem placeSound_within (hstarts : ∀ shot start, shotStarts shot = some start → 0 ≤ start)
    (h : placeSound shotStarts duration item = some placed) :
    0 ≤ placed.start ∧ placed.start < placed.finish ∧ placed.finish ≤ duration := by
  cases placeSound_spec h with
  | clip start finish hrole hbed hstart hfinish hroom hlength =>
      refine ⟨?_, hlength, ?_⟩
      · exact hstart ▸ le_max_right item.start 0
      · exact hfinish ▸ min_le_right _ _
  | line shotStart start finish hrole hshot hstart hfinish hroom hlength =>
      obtain ⟨shot, -, hknown⟩ := Option.bind_eq_some_iff.mp hshot
      refine ⟨?_, hlength, ?_⟩
      · exact hstart ▸ add_nonneg (hstarts shot shotStart hknown) (harnessF64_nonneg _)
      · exact hfinish ▸ min_le_right _ _
  | bed start finish hbed hwindow hroom hlength =>
      have hrole : item.harness.role ≠ some "dialogue" := by
        intro hdialogue
        rw [hdialogue] at hbed
        exact absurd hbed (by decide)
      rw [soundWindow, if_neg hrole] at hwindow
      obtain ⟨hstart, -⟩ := Prod.mk.inj (Option.some.inj hwindow)
      exact ⟨hstart ▸ harnessF64_nonneg _, hlength, min_le_right _ _⟩

end Sounds

end SceneWorks.FilmSequence
