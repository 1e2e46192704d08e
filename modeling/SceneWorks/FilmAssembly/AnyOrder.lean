import SceneWorks.FilmAssembly.Arrivals

/-!
The assembled cut does not depend on the order in which the shots of a film finish.
-/

namespace SceneWorks.FilmAssembly

variable {env : DeliveryEnv}

/-- The deliveries of a film, in the order in which its shots finish. -/
def Film.assemble (film : Film env) (timeline : Timeline) (finished : List String) :
    Except String Timeline :=
  finished.foldlM (fun cut shot => deliver env cut (film.payload shot)) timeline

/-- A cut that does not know the run yet, and whose first video track `base` is empty. -/
structure Ready (film : Film env) (base : Track) (timeline : Timeline) (front back : List Track) :
    Prop where
  tracks : timeline.tracks = front ++ base :: back
  front_kind : ∀ track ∈ front, track.kind ≠ "video"
  base_kind : base.kind = "video"
  base_empty : base.items = []
  run_new : timeline.runs film.run = {}
  items_new : ∀ item ∈ timeline.items, item.harness.runId ≠ film.run
  base_lane : ∀ entry ∈ film.entries, base.id ≠ entry.1.id
  lanes : ∀ entry ∈ film.entries, ∀ track ∈ front ++ back, track.id = entry.1.id →
    track.kind = "audio"
  ids_new : ∀ entry ∈ film.entries, ∀ item ∈ timeline.items, item.id ≠ entry.2.id

variable {film : Film env} {base : Track} {shots finished : List String}
  {timeline cut : Timeline} {front back : List Track} {shot : String}

theorem Ready.arrived (h : Ready film base timeline front back) :
    Arrived film base [] timeline front back := by
  have hmem : ∀ track ∈ front ++ back, ∀ item ∈ track.items, item ∈ timeline.items := by
    intro track htrack item hitem
    refine List.mem_flatMap.mpr ⟨track, ?_, hitem⟩
    rw [h.tracks, List.mem_append, List.mem_cons]
    exact (List.mem_append.mp htrack).imp id Or.inr
  have hnone : film.arrived [] = [] := by
    rw [Film.arrived, List.filter_eq_nil_iff]
    intro x _
    simp
  have hbase : ({ base with items := film.pictures base.id (film.arrived []) } : Track) = base := by
    rw [hnone, Film.pictures, Tiling.starts, List.map_nil, ← h.base_empty]
  exact
    { tracks := by
        rw [hbase]
        exact h.tracks
      front_kind := h.front_kind
      base_kind := h.base_kind
      base_lane := h.base_lane
      others :=
        { sound := fun track htrack item hitem hrun =>
            absurd hrun (h.items_new item (hmem track htrack item hitem))
          aligned := fun track htrack _ item hitem hrun =>
            absurd hrun (h.items_new item (hmem track htrack item hitem))
          lanes := h.lanes
          marked := fun track htrack _ item hitem entry hentry heq =>
            absurd heq.symm (h.ids_new entry hentry item (hmem track htrack item hitem))
          heard := by
            rw [h.run_new]
            exact fun entry _ hid => absurd hid List.not_mem_nil }
      deleted := by rw [h.run_new]
      conflicts := by rw [h.run_new]
      applied := by
        rw [h.run_new]
        exact fun id hid => absurd hid List.not_mem_nil }

/-- Any run of deliveries of shots that have not arrived. -/
theorem Arrived.assemble (h : Arrived film base shots timeline front back)
    (horder : (timeline.runs film.run).shotOrder.getD film.order = film.order)
    (hlisted : ∀ shot ∈ finished, shot ∈ film.order) (hnew : ∀ shot ∈ finished, shot ∉ shots)
    (hnodup : finished.Nodup) :
    ∃ cut, film.assemble timeline finished = .ok cut ∧
      (∃ front' back', Arrived film base (finished.reverse ++ shots) cut front' back') ∧
      (∀ id ∈ (timeline.runs film.run).audioDelivered, id ∈ (cut.runs film.run).audioDelivered) ∧
      ∀ shot ∈ finished, ∀ entry ∈ incomingAudio (film.payload shot),
        entry.2.harness.shotId = shot → entry.2.id ∈ (cut.runs film.run).audioDelivered := by
  induction finished generalizing timeline shots front back with
  | nil => exact ⟨timeline, rfl, ⟨front, back, h⟩, fun _ hid => hid,
      fun shot hshot => absurd hshot List.not_mem_nil⟩
  | cons shot finished ih =>
      obtain ⟨hfresh, hrest⟩ := List.nodup_cons.mp hnodup
      obtain ⟨next, hdeliver, ⟨front₁, back₁, harrived⟩, horder', hgrows, hsaid⟩ :=
        h.deliver horder (hlisted shot List.mem_cons_self) (hnew shot List.mem_cons_self)
      have hnew' : ∀ x ∈ finished, x ∉ shot :: shots := by
        intro x hx hmem
        cases List.mem_cons.mp hmem with
        | inl heq => exact hfresh (heq ▸ hx)
        | inr hold => exact hnew x (List.mem_cons_of_mem _ hx) hold
      obtain ⟨cut, hcut, hall, hgrows', hsaid'⟩ := ih harrived (by rw [horder', Option.getD_some])
        (fun x hx => hlisted x (List.mem_cons_of_mem _ hx)) hnew' hrest
      refine ⟨cut, ?_, ?_, fun id hid => hgrows' id (hgrows id hid), ?_⟩
      · rw [Film.assemble, List.foldlM_cons, hdeliver]
        exact hcut
      · rw [List.reverse_cons, List.append_assoc, List.singleton_append]
        exact hall
      · intro other hother entry hentry hentryShot
        cases List.mem_cons.mp hother with
        | inl heq =>
            rw [heq] at hentry hentryShot
            exact hgrows' _ (hsaid entry hentry hentryShot)
        | inr hmem => exact hsaid' other hmem entry hentry hentryShot

theorem arrived_all (hperm : finished.Perm film.order) :
    film.arrived (finished.reverse ++ []) = film.order := by
  rw [Film.arrived, List.filter_eq_self, List.append_nil]
  intro x hx
  exact decide_eq_true (List.mem_reverse.mpr (hperm.mem_iff.mpr hx))

/-- The takes of a film end to end: in shot order, from zero, without a gap. -/
structure EndToEnd (film : Film env) (items : List Item) : Prop where
  shots : items.map (fun item => item.harness.shotId) = film.order
  lengths : ∀ item ∈ items, item.timelineEnd = item.timelineStart + film.length item.harness.shotId
  first : ∀ item ∈ items.head?, item.timelineStart = 0
  joined : items.IsChain fun a b => b.timelineStart = a.timelineEnd

theorem isChain_starts (start : ℚ) (xs : List String) :
    ((Tiling.starts film.length start xs).map fun p => film.placed base.id p.1 p.2).IsChain
      fun a b => b.timelineStart = a.timelineEnd := by
  induction xs generalizing start with
  | nil => exact List.IsChain.nil
  | cons x xs ih =>
      cases xs with
      | nil => exact List.IsChain.singleton _
      | cons y ys => exact List.IsChain.cons_cons rfl (ih (start + film.length x))

theorem endToEnd_pictures (film : Film env) (base : Track) :
    EndToEnd film (film.pictures base.id film.order) where
  shots := by
    have hshots : ∀ p ∈ Tiling.starts film.length 0 film.order,
        (film.placed base.id p.1 p.2).harness.shotId = p.1 := fun p hp =>
      placed_shot (Tiling.mem_of_mem_starts hp) p.2
    rw [Film.pictures, List.map_map]
    exact (List.map_congr_left hshots).trans (Tiling.map_fst_starts ..)
  lengths item hitem := by
    obtain ⟨shot, hshot, start, -, rfl⟩ := mem_pictures hitem
    rw [placed_shot hshot]
    rfl
  first item hitem := by
    cases horder : film.order with
    | nil =>
        rw [Film.pictures, horder] at hitem
        exact absurd hitem (Option.not_mem_none item)
    | cons shot rest =>
        rw [Film.pictures, horder, Tiling.starts, List.map_cons, List.head?_cons] at hitem
        rw [← Option.some.inj hitem]
        rfl
  joined := isChain_starts 0 film.order

/-- Every sound item of the film that came with its shot stands against its picture. -/
def SoundAligned (film : Film env) (cut : Timeline) : Prop :=
  ∀ shot ∈ film.order, ∀ entry ∈ incomingAudio (film.payload shot),
    entry.2.harness.shotId = shot → ∃ picture, pictureOf cut film.run shot = some picture ∧
      ∃ track ∈ cut.tracks, track.id = entry.1.id ∧ ∃ item ∈ track.items, item.id = entry.2.id ∧
        item.harness.shotId = shot ∧
        item.timelineStart = picture.timelineStart + entry.2.harness.offsetSeconds

theorem Arrived.soundAligned (h : Arrived film base shots cut front back)
    (hall : film.arrived shots = film.order)
    (hsaid : ∀ shot ∈ film.order, ∀ entry ∈ incomingAudio (film.payload shot),
      entry.2.harness.shotId = shot → entry.2.id ∈ (cut.runs film.run).audioDelivered) :
    SoundAligned film cut := by
  intro shot hshot entry hentry hentryShot
  have hmem : entry ∈ film.entries := List.mem_flatMap.mpr ⟨shot, hshot, hentry⟩
  have hnamed : shot ≠ "" := fun heq => film.shots_named (heq ▸ hshot)
  obtain ⟨picture, hpicture, hplace⟩ := (h.picture_place shot).1 (hall ▸ hshot)
  obtain ⟨track, htrack, hid, hkind, item, hitem, hitemId, hrun, hitemShot, hoffset⟩ :=
    h.others.heard entry hmem (hsaid shot hshot entry hentry hentryShot)
  rw [hentryShot] at hitemShot
  obtain ⟨-, hstart⟩ := h.others.aligned track htrack hkind item hitem hrun (hitemShot ▸ hnamed)
  refine ⟨picture, hpicture, track, ?_, hid, item, hitem, hitemId, hitemShot, ?_⟩
  · rw [h.tracks, List.mem_append, List.mem_cons]
    exact (List.mem_append.mp htrack).imp id Or.inr
  · rw [hstart, hitemShot, hplace, hoffset]

/-- In whatever order the shots of a film finish, the same picture track comes out. -/
theorem assemble_any_order (film : Film env) (h : Ready film base timeline front back)
    (hperm : finished.Perm film.order) :
    ∃ cut, film.assemble timeline finished = .ok cut ∧
      cut.tracks.find? (·.kind = "video") =
        some { base with items := film.pictures base.id film.order } ∧
      EndToEnd film (film.pictures base.id film.order) ∧ SoundAligned film cut := by
  have horder : (timeline.runs film.run).shotOrder.getD film.order = film.order := by
    rw [h.run_new]
    rfl
  obtain ⟨cut, hcut, ⟨front', back', harrived⟩, -, hsaid⟩ := h.arrived.assemble horder
    (fun x hx => hperm.mem_iff.mp hx) (fun x _ => List.not_mem_nil)
    (hperm.nodup_iff.mpr film.distinct)
  have hall := arrived_all hperm
  refine ⟨cut, hcut, ?_, endToEnd_pictures film base, harrived.soundAligned hall ?_⟩
  · rw [harrived.tracks, hall]
    exact find_video harrived.front_kind harrived.base_kind
  · exact fun shot hshot => hsaid shot (hperm.mem_iff.mpr hshot)

section TwoShots

def harnessOf (role id shot : String) : Harness :=
  { runId := "run_1"
    shotId := shot
    role
    id
    attempt := some 1
    deliveryId := none
    alignedDurationSeconds := none
    offsetSeconds := 1
    startSeconds := 0
    aligned := none }

def takeOf (shot : String) : Item :=
  { id := "picture"
    trackId := "film"
    assetId := some ("asset_" ++ shot)
    sourceIn := 0
    sourceOut := 5
    timelineStart := 0
    timelineEnd := 5
    harness := harnessOf "picture" "" shot }

def lineOf (shot : String) : Item :=
  { id := "line_" ++ shot
    trackId := "lines"
    assetId := some "voice"
    sourceIn := 0
    sourceOut := 2
    timelineStart := 0
    timelineEnd := 2
    harness := harnessOf "dialogue" ("line_" ++ shot) shot }

def payloadOf (shot : String) : Payload :=
  { runId := "run_1"
    shotOrder := ["A", "B"]
    tracks := [⟨"film", "video", [takeOf shot]⟩, ⟨"lines", "audio", [lineOf shot]⟩] }

def lengthOf (asset : String) : ℚ := if asset = "asset_A" then 4 else 3

def measuredEnv : DeliveryEnv := ⟨fun asset => .ok (lengthOf asset), fun text => text⟩

def twoShots : Film measuredEnv where
  run := "run_1"
  order := ["A", "B"]
  take := takeOf
  length shot := lengthOf ("asset_" ++ shot)
  payload := payloadOf
  run_named := by decide
  distinct := by decide
  shots_named := by decide
  positive := by decide +kernel
  payload_run _ _ := rfl
  payload_order _ _ := rfl
  one_take _ _ := rfl
  take_shot _ _ := rfl
  measured shot _ := ⟨"asset_" ++ shot, rfl, rfl⟩
  sound := by decide
  line_ids := by decide +kernel

def emptyCut (record : RunRecord) : Timeline :=
  { tracks := [⟨"main", "video", []⟩]
    runs := fun _ => record }

theorem ready_emptyCut : Ready twoShots ⟨"main", "video", []⟩ (emptyCut {}) [] [] where
  tracks := rfl
  front_kind := by decide
  base_kind := rfl
  base_empty := rfl
  run_new := rfl
  items_new := by decide
  base_lane := by decide +kernel
  lanes := by decide +kernel
  ids_new := by decide +kernel

/-- The second shot finishes first. -/
theorem assemble_second_first : ∃ cut,
    twoShots.assemble (emptyCut {}) ["B", "A"] = .ok cut ∧
      cut.tracks.find? (·.kind = "video") =
        some ⟨"main", "video", twoShots.pictures "main" twoShots.order⟩ ∧
      EndToEnd twoShots (twoShots.pictures "main" twoShots.order) ∧ SoundAligned twoShots cut :=
  assemble_any_order twoShots ready_emptyCut (List.Perm.swap "A" "B" [])

/-- The shots on the picture track. -/
def pictureShots (cut : Timeline) : Option (List String) :=
  (cut.tracks.find? (·.kind = "video")).map fun track =>
    track.items.map fun item => item.harness.shotId

/-- A shot whose picture an editor deleted does not come back, although the picture track is
empty. -/
theorem assemble_deleted_shot :
    pictureShots (emptyCut { deletedShots := ["A"] }) = some [] ∧
      ¬ ∃ cut, twoShots.assemble (emptyCut { deletedShots := ["A"] }) ["B", "A"] = .ok cut ∧
        pictureShots cut = some twoShots.order := by
  refine ⟨by decide, ?_⟩
  rintro ⟨cut, hcut, hshots⟩
  have hrun : (twoShots.assemble (emptyCut { deletedShots := ["A"] }) ["B", "A"]).map
      pictureShots = .ok (some ["B"]) := by decide +kernel
  rw [hcut, Except.map, hshots] at hrun
  exact absurd hrun (by decide)

end TwoShots

end SceneWorks.FilmAssembly
