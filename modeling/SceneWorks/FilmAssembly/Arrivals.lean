import SceneWorks.FilmAssembly.Sound
import SceneWorks.FilmTimeline.ShotView

/-!
A film whose shots arrive in any order. Each delivery puts its take at its slot and its
sound against the picture; the cut after all of them does not tell the order.
-/

namespace SceneWorks.FilmAssembly

open FilmTimeline (deliveryId deliveryId_injective)

variable {env : DeliveryEnv}

/-- The cut after the takes of `shots` have arrived on the picture track `base`, which stands
between `front` and `back`. -/
structure Arrived (film : Film env) (base : Track) (shots : List String) (timeline : Timeline)
    (front back : List Track) : Prop where
  tracks : timeline.tracks =
    front ++ { base with items := film.pictures base.id (film.arrived shots) } :: back
  front_kind : ∀ track ∈ front, track.kind ≠ "video"
  base_kind : base.kind = "video"
  base_lane : ∀ entry ∈ film.entries, base.id ≠ entry.1.id
  others : Others film (film.arrived shots) (Tiling.place film.length (film.arrived shots))
    (timeline.runs film.run).audioDelivered (front ++ back)
  deleted : (timeline.runs film.run).deletedShots = []
  conflicts : (timeline.runs film.run).trimConflicts = []
  applied : ∀ id ∈ (timeline.runs film.run).appliedDeliveries, ∃ shot ∈ shots, ∃ attempt,
    id = deliveryId film.run shot attempt

variable {film : Film env} {base : Track} {shots : List String} {timeline : Timeline}
  {front back : List Track} {shot : String}

theorem runs_editRun (timeline : Timeline) (run : String) (f : RunRecord → RunRecord) :
    (timeline.editRun run f).runs run = f (timeline.runs run) := Function.update_self ..

theorem mem_arrived : shot ∈ film.arrived shots ↔ shot ∈ film.order ∧ shot ∈ shots := by
  rw [Film.arrived, List.mem_filter, decide_eq_true_eq]

theorem Arrived.picture_mem (h : Arrived film base shots timeline front back) {item : Item}
    (hitem : item ∈ timeline.items) (hrun : item.harness.runId = film.run)
    (hrole : item.harness.role = "picture") :
    item ∈ film.pictures base.id (film.arrived shots) := by
  obtain ⟨track, htrack, hmem⟩ := List.mem_flatMap.mp hitem
  rw [h.tracks, List.mem_append, List.mem_cons] at htrack
  obtain htrack | rfl | htrack := htrack
  · exact absurd hrole (h.others.sound track (List.mem_append_left _ htrack) item hmem hrun)
  · exact hmem
  · exact absurd hrole (h.others.sound track (List.mem_append_right _ htrack) item hmem hrun)

section Take

theorem Arrived.no_picture (h : Arrived film base shots timeline front back)
    (hnew : shot ∉ shots) : timeline.items.find? (isShotPicture film.run shot) = none := by
  rw [List.find?_eq_none]
  intro item hitem hpicture
  simp only [isShotPicture, Bool.and_eq_true, decide_eq_true_eq] at hpicture
  obtain ⟨⟨hrun, hshot⟩, hrole⟩ := hpicture
  obtain ⟨other, hother, start, -, rfl⟩ := mem_pictures (h.picture_mem hitem hrun hrole)
  rw [placed_shot (mem_arrived.mp hother).1] at hshot
  exact hnew (hshot ▸ (mem_arrived.mp hother).2)

theorem Arrived.not_replay (h : Arrived film base shots timeline front back)
    (hnew : shot ∉ shots) (attempt : Nat) : isReplay timeline film.run shot attempt = false := by
  have happlied : (timeline.runs film.run).appliedDeliveries.contains
      (deliveryId film.run shot attempt) = false := by
    rw [Bool.eq_false_iff]
    intro hcontains
    obtain ⟨other, hother, attempt', heq⟩ := h.applied _ (List.contains_iff_mem.mp hcontains)
    exact hnew ((deliveryId_injective heq).1 ▸ hother)
  rw [isReplay, happlied, h.no_picture hnew, h.conflicts]
  rfl

theorem find_video (h : ∀ track ∈ front, track.kind ≠ "video") {picture : Track}
    (hkind : picture.kind = "video") :
    (front ++ picture :: back).find? (·.kind = "video") = some picture := by
  have hnone : front.find? (·.kind = "video") = none := by
    rw [List.find?_eq_none]
    intro track htrack
    simpa using h track htrack
  rw [List.find?_append, hnone, List.find?_cons_of_pos (by simpa using hkind)]
  rfl

theorem modifyFirst_video (h : ∀ track ∈ front, track.kind ≠ "video") {picture : Track}
    (hkind : picture.kind = "video") (f : Track → Track) :
    modifyFirst (·.kind = "video") f (front ++ picture :: back) = front ++ f picture :: back := by
  have hnone : front.any (·.kind = "video") = false := by
    rw [List.any_eq_false]
    intro track htrack
    simpa using h track htrack
  rw [modifyFirst_append, if_neg (by rw [hnone]; exact Bool.false_ne_true), modifyFirst,
    if_pos (by simpa using hkind)]

theorem editAudio_around {picture : Track} (hkind : picture.kind = "video") (f : Item → Item) :
    editAudio f (front ++ picture :: back) = editAudio f front ++ picture :: editAudio f back := by
  rw [editAudio, List.map_append, List.map_cons, if_neg (by rw [hkind]; decide)]
  rfl

/-- The edits that an insertion makes to the sound: a shift, and perhaps longer beds. -/
theorem extend_around {picture : Track} (hkind : picture.kind = "video") (incoming : List Track)
    (run : String) (old new : ℚ) :
    ∃ f, KeepsLine f ∧ (∀ item, (f item).timelineStart = item.timelineStart) ∧
      extendUneditedSequenceBeds incoming run old new (front ++ picture :: back) =
        editAudio f front ++ picture :: editAudio f back := by
  unfold extendUneditedSequenceBeds
  split
  · have hid : ∀ l, editAudio (fun item => item) l = l := by
      intro l
      refine (List.map_congr_left fun track _ => ?_).trans (List.map_id l)
      split
      · exact congrArg (fun items => { track with items }) (List.map_id track.items)
      · rfl
    refine ⟨fun item => item, ⟨fun _ => rfl, fun _ => rfl, fun _ => rfl, fun _ => rfl,
      fun _ => rfl⟩, fun _ => rfl, ?_⟩
    rw [hid, hid]
  · have hkeeps := keepsLine_extendBed incoming run old new
    exact ⟨_, hkeeps.1, hkeeps.2, editAudio_around hkind _⟩

/-- How far a picture moves when a new shot is put between them. -/
theorem place_insert {xs ys : List String} (hnodup : (xs ++ shot :: ys).Nodup) {x : String}
    (hx : x ∈ xs ++ ys) :
    Tiling.place film.length (xs ++ shot :: ys) x - Tiling.place film.length (xs ++ ys) x =
      if x ∈ ys then film.length shot else 0 := by
  obtain ⟨-, htail, hapart⟩ := List.nodup_append.mp hnodup
  by_cases hmem : x ∈ xs
  · have hnot : x ∉ ys := fun hy => hapart x hmem x (List.mem_cons_of_mem _ hy) rfl
    rw [Tiling.place_append_of_mem hmem, Tiling.place_append_of_mem hmem, if_neg hnot, sub_self]
  · have hy := (List.mem_append.mp hx).resolve_left hmem
    have hne : shot ≠ x := fun heq => (List.nodup_cons.mp htail).1 (heq ▸ hy)
    rw [Tiling.place_append_of_not_mem hmem, Tiling.place_append_of_not_mem hmem,
      Tiling.place_cons_of_ne hne, if_pos hy]
    ring

theorem keepsLine_shiftWith (run : String) (shifted : List String) (length : ℚ) :
    KeepsLine (shiftWith run shifted length) where
  id item := by
    unfold shiftWith
    split <;> rfl
  run item := by
    unfold shiftWith
    split <;> rfl
  shot item := by
    unfold shiftWith
    split <;> rfl
  role item := by
    unfold shiftWith
    split <;> rfl
  offset item := by
    unfold shiftWith
    split <;> rfl

theorem editAudio_append (f : Item → Item) (xs ys : List Track) :
    editAudio f (xs ++ ys) = editAudio f xs ++ editAudio f ys := List.map_append ..

theorem editAudio_kind {f : Item → Item} (h : ∀ track ∈ front, track.kind ≠ "video") :
    ∀ track ∈ editAudio f front, track.kind ≠ "video" := by
  intro track htrack
  obtain ⟨old, hold, -, hkind, -⟩ := mem_editAudio htrack
  rw [hkind]
  exact h old hold

variable (env back shot) in
theorem insertPicture_eq (hfront : ∀ track ∈ front, track.kind ≠ "video") {picture : Track}
    (hkind : picture.kind = "video") (run : String) (order : List String) (incoming : List Track)
    (take : Item) (length : ℚ) :
    ∃ old new, insertPicture env run order incoming shot (front ++ picture :: back) take length =
      .ok (extendUneditedSequenceBeds incoming run old new
        (editAudio (shiftWith run (shiftedShots order run shot picture.items) length) front ++
          { picture with
            items := insertItem env order run shot picture.id take length picture.items } ::
          editAudio (shiftWith run (shiftedShots order run shot picture.items) length) back)) := by
  unfold insertPicture
  rw [find_video hfront hkind]
  dsimp only
  have hplaced : ({ picture with
      items := insertItem env order run shot picture.id take length picture.items } : Track).kind =
        "video" := hkind
  rw [modifyFirst_video hfront hkind, editAudio_around hplaced]
  exact ⟨_, _, rfl⟩

/-- A new take goes between the pictures that have arrived, and the sound of those after it
moves with them. -/
theorem Arrived.insertPicture (h : Arrived film base shots timeline front back)
    (hshot : shot ∈ film.order) (hnew : shot ∉ shots) (incoming : List Track) :
    ∃ front' back', insertPicture env film.run film.order incoming shot timeline.tracks
        (stampTake film.run (film.take shot) (film.length shot)) (film.length shot) =
        .ok (front' ++
          { base with items := film.pictures base.id (film.arrived (shot :: shots)) } :: back') ∧
      (∀ track ∈ front', track.kind ≠ "video") ∧
      Others film (film.arrived (shot :: shots))
        (Tiling.place film.length (film.arrived (shot :: shots)))
        (timeline.runs film.run).audioDelivered (front' ++ back') := by
  obtain ⟨xs, ys, hbefore, hafter, hslot⟩ := slot_of_new hshot hnew
  have hkind : ∀ items, ({ base with items := items } : Track).kind = "video" :=
    fun _ => h.base_kind
  have hnodup : (xs ++ shot :: ys).Nodup := by
    rw [← hafter]
    exact film.distinct.filter _
  have hothers := h.others
  rw [hbefore] at hothers
  have hshifted : Others film (xs ++ shot :: ys) (Tiling.place film.length (xs ++ shot :: ys))
      (timeline.runs film.run).audioDelivered
      (editAudio (shiftWith film.run ys (film.length shot)) (front ++ back)) := by
    refine hothers.edit (keepsLine_shiftWith film.run ys (film.length shot)) ?_ ?_
    · intro x hx
      rw [List.mem_append] at hx
      exact List.mem_append.mpr (hx.imp id (List.mem_cons_of_mem _))
    · intro item hrun hmem
      rw [place_insert hnodup hmem, shiftWith]
      by_cases hy : item.harness.shotId ∈ ys
      · rw [if_pos hy, if_pos (by simp [hrun, hy])]
        exact add_sub_cancel_left ..
      · rw [if_neg hy, if_neg (by simp [hy]), sub_self]
  rw [h.tracks, hbefore, hafter]
  obtain ⟨old, new, hinsert⟩ := insertPicture_eq env back shot h.front_kind
    (hkind (film.pictures base.id (xs ++ ys))) film.run film.order incoming
    (stampTake film.run (film.take shot) (film.length shot)) (film.length shot)
  rw [hinsert]
  dsimp only
  rw [shiftedShots_pictures hslot, insertItem_pictures hslot]
  obtain ⟨f, hkeeps, hstart, hextend⟩ := extend_around
    (hkind (film.pictures base.id (xs ++ shot :: ys))) incoming film.run old new
  rw [hextend]
  refine ⟨_, _, rfl, editAudio_kind (editAudio_kind h.front_kind), ?_⟩
  rw [editAudio_append] at hshifted
  rw [← editAudio_append]
  refine hshifted.edit hkeeps (fun x hx => hx) ?_
  intro item _ _
  rw [hstart, sub_self, sub_self]

def merged (timeline : Timeline) (run id : String) (tracks : List Track) : Timeline :=
  { timeline with tracks }.editRun run fun record =>
    { record with appliedDeliveries := id :: record.appliedDeliveries }

theorem Arrived.deliverTake (h : Arrived film base shots timeline front back)
    (horder : (timeline.runs film.run).shotOrder = some film.order) (hshot : shot ∈ film.order)
    (hnew : shot ∉ shots) (incoming : List Track) :
    ∃ timeline' front' back',
      deliverTake env film.run incoming timeline (film.take shot) = .ok timeline' ∧
        Arrived film base (shot :: shots) timeline' front' back' ∧
        (timeline'.runs film.run).shotOrder = some film.order ∧
        (timeline'.runs film.run).audioDelivered = (timeline.runs film.run).audioDelivered := by
  obtain ⟨front', back', hinsert, hfront, hothers⟩ := h.insertPicture hshot hnew incoming
  obtain ⟨asset, hasset, hlength⟩ := film.measured shot hshot
  have htake := film.take_shot shot hshot
  have hnamed : shot ≠ "" := fun heq => film.shots_named (heq ▸ hshot)
  refine ⟨merged timeline film.run
    (deliveryId film.run shot ((film.take shot).harness.attempt.getD 0)) (front' ++
      { base with items := film.pictures base.id (film.arrived (shot :: shots)) } :: back'),
    front', back', ?_, ?_, ?_, ?_⟩
  · unfold FilmAssembly.deliverTake
    dsimp only
    rw [htake, if_neg hnamed, h.deleted, if_neg (by simp), h.not_replay hnew,
      if_neg Bool.false_ne_true]
    unfold mergeTake
    rw [hasset, htake]
    simp only [bind, Except.bind, hlength, h.no_picture hnew, horder, Option.getD_some, hinsert]
    rfl
  · exact
      { tracks := rfl
        front_kind := hfront
        base_kind := h.base_kind
        base_lane := h.base_lane
        others := by
          rw [merged, runs_editRun]
          exact hothers
        deleted := by
          rw [merged, runs_editRun]
          exact h.deleted
        conflicts := by
          rw [merged, runs_editRun]
          exact h.conflicts
        applied := by
          intro id hid
          rw [merged, runs_editRun] at hid
          cases List.mem_cons.mp hid with
          | inl heq => exact ⟨shot, List.mem_cons_self, _, heq⟩
          | inr hmem =>
              obtain ⟨other, hother, attempt, heq⟩ := h.applied id hmem
              exact ⟨other, List.mem_cons_of_mem _ hother, attempt, heq⟩ }
  · rw [merged, runs_editRun]
    exact horder
  · rw [merged, runs_editRun]

end Take

section Audio

theorem establishLane_arrived {lane : Track} (h : Arrived film base shots timeline front back)
    (hkind : lane.kind = "audio") :
    ∃ back', Arrived film base shots (establishLane timeline lane) front back' ∧
      (establishLane timeline lane).runs = timeline.runs := by
  unfold establishLane
  split
  · exact ⟨back, h, rfl⟩
  · refine ⟨back ++ [{ lane with items := [] }], ?_, rfl⟩
    refine { h with tracks := ?_, others := ?_ }
    · change timeline.tracks ++ [{ lane with items := [] }] = _
      rw [h.tracks, List.append_assoc, List.cons_append]
    · rw [← List.append_assoc]
      exact h.others.establish hkind

/-- The picture of a shot that has arrived stands at its place; there is none of another. -/
theorem Arrived.picture_place (h : Arrived film base shots timeline front back) (shot : String) :
    (shot ∈ film.arrived shots → ∃ picture, pictureOf timeline film.run shot = some picture ∧
        picture.timelineStart = Tiling.place film.length (film.arrived shots) shot) ∧
      (shot ∉ film.arrived shots → pictureOf timeline film.run shot = none) := by
  have hnodup : (film.arrived shots).Nodup := film.distinct.filter _
  have hfound : ∀ picture, pictureOf timeline film.run shot = some picture →
      shot ∈ film.arrived shots ∧
        picture.timelineStart = Tiling.place film.length (film.arrived shots) shot := by
    intro picture hpicture
    have hmem := List.mem_of_find?_eq_some hpicture
    have hmatch := List.find?_some hpicture
    simp only [Bool.and_eq_true, decide_eq_true_eq] at hmatch
    obtain ⟨⟨⟨hrole, -⟩, hrun⟩, hshot⟩ := hmatch
    obtain ⟨other, hother, start, hstart, rfl⟩ := mem_pictures (h.picture_mem hmem hrun hrole)
    rw [placed_shot (mem_arrived.mp hother).1] at hshot
    rw [← hshot]
    refine ⟨hother, ?_⟩
    have hplace := Tiling.eq_place_of_mem_starts hnodup hstart
    rwa [zero_add] at hplace
  constructor
  · intro hshot
    cases hpicture : pictureOf timeline film.run shot with
    | some picture => exact ⟨picture, rfl, (hfound picture hpicture).2⟩
    | none =>
        have horder := (mem_arrived.mp hshot).1
        have hstart : (shot, 0 + Tiling.place film.length (film.arrived shots) shot) ∈
            Tiling.starts film.length 0 (film.arrived shots) :=
          Tiling.mem_starts_of_mem hnodup hshot
        have hplaced : film.placed base.id shot (0 + Tiling.place film.length (film.arrived shots)
            shot) ∈ timeline.items := by
          refine List.mem_flatMap.mpr
            ⟨{ base with items := film.pictures base.id (film.arrived shots) }, ?_, ?_⟩
          · rw [h.tracks]
            exact List.mem_append_right _ List.mem_cons_self
          · exact List.mem_map.mpr ⟨_, hstart, rfl⟩
        have hno := List.find?_eq_none.mp hpicture _ hplaced
        rw [placed_run horder, placed_shot horder] at hno
        have hrole : (film.placed base.id shot (0 + Tiling.place film.length (film.arrived shots)
            shot)).harness.role = "picture" := (film.take_run horder).2
        rw [hrole] at hno
        simp [film.run_named] at hno
  · intro hshot
    cases hpicture : pictureOf timeline film.run shot with
    | none => rfl
    | some picture => exact absurd (hfound picture hpicture).1 hshot

theorem mem_entries {entry : Track × Item} (h : entry ∈ film.entries) :
    entry.1.kind = "audio" ∧ entry.2.harness.runId = film.run ∧
      entry.2.harness.role ≠ "picture" := by
  obtain ⟨shot, hshot, hmem⟩ := List.mem_flatMap.mp h
  obtain ⟨lane, hlane, hitem⟩ := List.mem_flatMap.mp hmem
  obtain ⟨item, hfilter, rfl⟩ := List.mem_map.mp hitem
  have hrun := of_decide_eq_true (List.mem_filter.mp hfilter).2
  rw [film.payload_run shot hshot] at hrun
  exact ⟨of_decide_eq_true (List.mem_filter.mp hlane).2, hrun,
    film.sound shot hshot lane hlane item (List.mem_filter.mp hfilter).1⟩

theorem same_line {entry entry' : Track × Item} (h : entry ∈ film.entries)
    (h' : entry' ∈ film.entries) (hid : entry'.2.id = entry.2.id) :
    entry'.1.id = entry.1.id ∧ entry'.2.harness.shotId = entry.2.harness.shotId ∧
      entry'.2.harness.offsetSeconds = entry.2.harness.offsetSeconds := by
  obtain ⟨shot, hshot, hmem⟩ := List.mem_flatMap.mp h
  obtain ⟨shot', hshot', hmem'⟩ := List.mem_flatMap.mp h'
  exact film.line_ids shot' hshot' entry' hmem' shot hshot entry hmem hid

/-- The placed item keeps its line, and stands at its offset to the picture. -/
theorem placeAudio_line (item : Item) (picture : Option Item) :
    (placeAudio item picture).id = item.id ∧
      (placeAudio item picture).harness.runId = item.harness.runId ∧
      (placeAudio item picture).harness.shotId = item.harness.shotId ∧
      (placeAudio item picture).harness.role = item.harness.role ∧
      (placeAudio item picture).harness.offsetSeconds = item.harness.offsetSeconds ∧
      ∀ p ∈ picture, (placeAudio item picture).timelineStart =
        p.timelineStart + item.harness.offsetSeconds := by
  cases picture with
  | none =>
      obtain ⟨hid, hrun, hshot, hrole, hoffset, -⟩ := keepsLine_stamp item
      exact ⟨hid, hrun, hshot, hrole, hoffset, fun p hp => absurd hp (Option.not_mem_none p)⟩
  | some picture =>
      unfold placeAudio
      dsimp only
      obtain ⟨hid, hrun, hshot, hrole, hoffset, hstart⟩ := keepsLine_stamp { item with
        timelineStart := picture.timelineStart + item.harness.offsetSeconds
        timelineEnd := picture.timelineStart + item.harness.offsetSeconds +
          (item.timelineEnd - item.timelineStart) }
      refine ⟨hid, hrun, hshot, hrole, hoffset, ?_⟩
      rintro p hp
      cases hp
      exact hstart

/-- What the sound of a delivery leaves: the same shots, and no item lost. -/
structure Heard (film : Film env) (base : Track) (shots : List String)
    (timeline timeline' : Timeline) : Prop where
  arrived : ∃ front back, Arrived film base shots timeline' front back
  shotOrder : (timeline'.runs film.run).shotOrder = (timeline.runs film.run).shotOrder
  grows : ∀ id ∈ (timeline.runs film.run).audioDelivered,
    id ∈ (timeline'.runs film.run).audioDelivered

def voiced (timeline : Timeline) (run id : String) (tracks : List Track) : Timeline :=
  { timeline with tracks }.editRun run fun record =>
    { record with audioDelivered := id :: record.audioDelivered }

theorem Arrived.addAudio (h : Arrived film base shots timeline front back)
    {entry : Track × Item} (hentry : entry ∈ film.entries)
    (hnew : entry.2.id ∉ (timeline.runs film.run).audioDelivered)
    (hready : entry.2.harness.shotId ≠ "" →
      (pictureOf timeline film.run entry.2.harness.shotId).isSome) :
    Heard film base shots timeline (voiced timeline film.run entry.2.id (addAudio entry.1
      (placeAudio entry.2 (pictureOf timeline film.run entry.2.harness.shotId))
      timeline.tracks)) := by
  obtain ⟨hlane, hrun, hrole⟩ := mem_entries hentry
  obtain ⟨hid, hrun', hshot, hrole', hoffset, hstart⟩ :=
    placeAudio_line entry.2 (pictureOf timeline film.run entry.2.harness.shotId)
  have hbase : ({ base with items := film.pictures base.id (film.arrived shots) } : Track).id ≠
      entry.1.id := h.base_lane entry hentry
  obtain ⟨front', back', htracks, hpushed, hkinds⟩ := addAudio_around front back
    (placeAudio entry.2 (pictureOf timeline film.run entry.2.harness.shotId)) hbase
  have hothers := h.others.push hpushed hlane hentry hid hnew
    (hrun'.trans hrun) (by rw [hrole']; exact hrole) hshot hoffset
    (by
      intro hnamed
      rw [hshot] at hnamed ⊢
      obtain ⟨picture, hpicture⟩ := Option.isSome_iff_exists.mp (hready hnamed)
      obtain ⟨hthere, habsent⟩ := h.picture_place entry.2.harness.shotId
      have hmem : entry.2.harness.shotId ∈ film.arrived shots := by
        by_contra hnot
        rw [habsent hnot] at hpicture
        cases hpicture
      obtain ⟨found, hfound, hplace⟩ := hthere hmem
      rw [hoffset, ← hplace]
      exact ⟨hmem, hstart found hfound⟩)
    (fun entry' hentry' hsame => same_line hentry hentry' hsame)
  refine ⟨⟨front', back', ?_⟩, ?_, ?_⟩
  · exact
      { tracks := by
          rw [← htracks, ← h.tracks]
          rfl
        front_kind := by
          intro track htrack
          obtain ⟨old, hold, hkind⟩ := hkinds track htrack
          rw [hkind]
          exact h.front_kind old hold
        base_kind := h.base_kind
        base_lane := h.base_lane
        others := by
          rw [voiced, runs_editRun]
          exact hothers
        deleted := by
          rw [voiced, runs_editRun]
          exact h.deleted
        conflicts := by
          rw [voiced, runs_editRun]
          exact h.conflicts
        applied := by
          rw [voiced, runs_editRun]
          exact h.applied }
  · rw [voiced, runs_editRun]
  · rw [voiced, runs_editRun]
    exact fun id hmem => List.mem_cons_of_mem _ hmem

/-- One audio item of the film: it is in the cut afterwards if its shot has arrived. -/
theorem Arrived.deliverAudio (h : Arrived film base shots timeline front back)
    {entry : Track × Item} (hentry : entry ∈ film.entries) :
    Heard film base shots timeline (deliverAudio film.run timeline entry) ∧
      (entry.2.harness.shotId ∈ film.arrived shots →
        entry.2.id ∈ ((FilmAssembly.deliverAudio film.run timeline entry).runs
          film.run).audioDelivered) := by
  have hstay : Heard film base shots timeline timeline := ⟨⟨front, back, h⟩, rfl, fun _ hid => hid⟩
  unfold FilmAssembly.deliverAudio
  dsimp only
  by_cases hdone : entry.2.id ∈ (timeline.runs film.run).audioDelivered
  · rw [if_pos (List.contains_iff_mem.mpr hdone)]
    exact ⟨hstay, fun _ => hdone⟩
  · rw [if_neg fun hcontains => hdone (List.contains_iff_mem.mp hcontains)]
    by_cases hwait : entry.2.harness.shotId ≠ "" ∧
        (pictureOf timeline film.run entry.2.harness.shotId).isNone = true
    · rw [if_pos (by simpa using hwait)]
      refine ⟨hstay, fun hmem => ?_⟩
      obtain ⟨picture, hpicture, -⟩ := (h.picture_place entry.2.harness.shotId).1 hmem
      rw [hpicture] at hwait
      exact absurd hwait.2 (by simp)
    · rw [if_neg (by simpa using hwait)]
      refine ⟨h.addAudio hentry hdone fun hnamed => ?_, fun _ => ?_⟩
      · rw [← Option.isNone_eq_false_iff, Bool.eq_false_iff]
        exact fun hnone => hwait ⟨hnamed, hnone⟩
      · rw [runs_editRun]
        exact List.mem_cons_self

theorem Heard.trans {timeline' timeline'' : Timeline}
    (h : Heard film base shots timeline timeline')
    (h' : Heard film base shots timeline' timeline'') :
    Heard film base shots timeline timeline'' :=
  ⟨h'.arrived, h'.shotOrder.trans h.shotOrder, fun id hid => h'.grows id (h.grows id hid)⟩

/-- All audio items of a payload, in their order. -/
theorem Arrived.foldl_deliverAudio {entries : List (Track × Item)}
    (h : Arrived film base shots timeline front back)
    (hentries : ∀ entry ∈ entries, entry ∈ film.entries) :
    Heard film base shots timeline (entries.foldl (FilmAssembly.deliverAudio film.run) timeline) ∧
      ∀ entry ∈ entries, entry.2.harness.shotId ∈ film.arrived shots →
        entry.2.id ∈ ((entries.foldl (FilmAssembly.deliverAudio film.run) timeline).runs
          film.run).audioDelivered := by
  induction entries generalizing timeline front back with
  | nil => exact ⟨⟨⟨front, back, h⟩, rfl, fun _ hid => hid⟩, fun entry hmem =>
      absurd hmem List.not_mem_nil⟩
  | cons entry entries ih =>
      obtain ⟨hstep, hhere⟩ := h.deliverAudio (hentries entry List.mem_cons_self)
      obtain ⟨front', back', harrived⟩ := hstep.arrived
      obtain ⟨hrest, hthere⟩ := ih harrived fun entry' hmem =>
        hentries entry' (List.mem_cons_of_mem _ hmem)
      rw [List.foldl_cons]
      refine ⟨hstep.trans hrest, fun entry' hmem hshot => ?_⟩
      cases List.mem_cons.mp hmem with
      | inl heq =>
          rw [heq] at hshot ⊢
          exact hrest.grows _ (hhere hshot)
      | inr hmem => exact hthere entry' hmem hshot

theorem Arrived.foldl_establishLane {lanes : List Track}
    (h : Arrived film base shots timeline front back)
    (hlanes : ∀ lane ∈ lanes, lane.kind = "audio") :
    ∃ back', Arrived film base shots (lanes.foldl establishLane timeline) front back' ∧
      (lanes.foldl establishLane timeline).runs = timeline.runs := by
  induction lanes generalizing timeline back with
  | nil => exact ⟨back, h, rfl⟩
  | cons lane lanes ih =>
      obtain ⟨back', hlane, hruns⟩ := establishLane_arrived h (hlanes lane List.mem_cons_self)
      obtain ⟨back'', hrest, hruns'⟩ := ih hlane fun other hmem =>
        hlanes other (List.mem_cons_of_mem _ hmem)
      exact ⟨back'', hrest, hruns'.trans hruns⟩

end Audio

section Delivery

theorem Arrived.openRun {payload : Payload} (h : Arrived film base shots timeline front back)
    (hrun : payload.runId = film.run) :
    Arrived film base shots (openRun payload timeline) front back := by
  have hrecord : (FilmAssembly.openRun payload timeline).runs film.run =
      { timeline.runs film.run with
        shotOrder := some ((timeline.runs film.run).shotOrder.getD payload.shotOrder) } := by
    rw [FilmAssembly.openRun, hrun, runs_editRun]
  exact
    { tracks := h.tracks
      front_kind := h.front_kind
      base_kind := h.base_kind
      base_lane := h.base_lane
      others := by
        rw [hrecord]
        exact h.others
      deleted := by
        rw [hrecord]
        exact h.deleted
      conflicts := by
        rw [hrecord]
        exact h.conflicts
      applied := by
        rw [hrecord]
        exact h.applied }

theorem Arrived.deliver (h : Arrived film base shots timeline front back)
    (horder : (timeline.runs film.run).shotOrder.getD film.order = film.order)
    (hshot : shot ∈ film.order) (hnew : shot ∉ shots) :
    ∃ timeline', deliver env timeline (film.payload shot) = .ok timeline' ∧
      (∃ front' back', Arrived film base (shot :: shots) timeline' front' back') ∧
      (timeline'.runs film.run).shotOrder = some film.order ∧
      (∀ id ∈ (timeline.runs film.run).audioDelivered,
        id ∈ (timeline'.runs film.run).audioDelivered) ∧
      ∀ entry ∈ incomingAudio (film.payload shot), entry.2.harness.shotId = shot →
        entry.2.id ∈ (timeline'.runs film.run).audioDelivered := by
  have hrun := film.payload_run shot hshot
  have hrecord : ((FilmAssembly.openRun (film.payload shot) timeline).runs film.run) =
      { timeline.runs film.run with shotOrder := some film.order } := by
    rw [FilmAssembly.openRun, hrun, runs_editRun, film.payload_order shot hshot, horder]
  obtain ⟨taken, front₁, back₁, htake, htaken, htakenOrder, hdelivered⟩ :=
    (h.openRun hrun).deliverTake (by rw [hrecord]) hshot hnew (film.payload shot).tracks
  have haudio : ∀ lane ∈ incomingLanes (film.payload shot), lane.kind = "audio" :=
    fun lane hlane => of_decide_eq_true (List.mem_filter.mp hlane).2
  have hentries : ∀ entry ∈ incomingAudio (film.payload shot), entry ∈ film.entries :=
    fun entry hentry => List.mem_flatMap.mpr ⟨shot, hshot, hentry⟩
  obtain ⟨back₂, hlanes, hruns⟩ := htaken.foldl_establishLane haudio
  obtain ⟨hheard, hsaid⟩ := hlanes.foldl_deliverAudio hentries
  have harrived : shot ∈ film.arrived (shot :: shots) :=
    mem_arrived.mpr ⟨hshot, List.mem_cons_self⟩
  refine ⟨_, ?_, hheard.arrived, ?_, ?_, ?_⟩
  · unfold FilmAssembly.deliver
    rw [hrun, if_neg film.run_named, film.one_take shot hshot]
    dsimp only
    rw [List.foldlM_cons, htake]
    rfl
  · rw [hheard.shotOrder, hruns]
    exact htakenOrder
  · intro id hid
    refine hheard.grows id ?_
    rw [hruns, hdelivered, hrecord]
    exact hid
  · intro entry hentry hentryShot
    exact hsaid entry hentry (hentryShot ▸ harrived)

end Delivery

end SceneWorks.FilmAssembly
