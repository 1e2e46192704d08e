import SceneWorks.FilmTimeline.Merge

/-!
The frame of a whole delivery, composed from the frames of its steps: the other runs of
the assembly, the slots and tombstones of its own run, and every picture stay; a picture
that is new is one of its own run, for a shot that is not deleted.
-/

namespace SceneWorks.FilmTimeline

structure Frame (run : String) (before after : Json) : Prop where
  object : (assembly before).isObject = true → (assembly after).isObject = true
  others : (runEntries after).eraseP (fun entry => entry.1 == run) =
    (runEntries before).eraseP fun entry => entry.1 == run
  listed : JsonObject.containsKey (runEntries before) run = true →
    JsonObject.containsKey (runEntries after) run = true
  order : (runData after run).get "shotOrder" = (runData before run).get "shotOrder"
  deleted : (runData after run).get "deletedShots" = (runData before run).get "deletedShots"
  kept : ∀ r s, HasPicture before r s → HasPicture after r s
  new : ∀ r s, HasPicture after r s →
    HasPicture before r s ∨ r = run ∧ isDeleted before run s = false

theorem isDeleted_congr {a b : Json} {run : String}
    (h : (runData a run).get "deletedShots" = (runData b run).get "deletedShots") (shot : String) :
    isDeleted a run shot = isDeleted b run shot := by
  rw [isDeleted, isDeleted, Json.idx_eq_of_get h]

theorem Frame.refl (run : String) (timeline : Json) : Frame run timeline timeline where
  object := id
  others := rfl
  listed := id
  order := rfl
  deleted := rfl
  kept := fun _ _ => id
  new := fun _ _ => .inl

theorem Frame.trans {run : String} {a b c : Json} (hab : Frame run a b) (hbc : Frame run b c) :
    Frame run a c where
  object := fun h => hbc.object (hab.object h)
  others := hbc.others.trans hab.others
  listed := fun h => hbc.listed (hab.listed h)
  order := hbc.order.trans hab.order
  deleted := hbc.deleted.trans hab.deleted
  kept := fun r s h => hbc.kept r s (hab.kept r s h)
  new := by
    intro r s h
    obtain h | ⟨hrun, h⟩ := hbc.new r s h
    · exact hab.new r s h
    · exact .inr ⟨hrun, by rw [← isDeleted_congr hab.deleted, h]⟩

theorem Booked.frame_of {run key : String} {before after : Json} (h : Booked run key before after)
    (horder : key ≠ "shotOrder") (hdeleted : key ≠ "deletedShots") : Frame run before after := by
  have hmarks : pictureMarks after = pictureMarks before :=
    pictureMarks_congr (h.frame "tracks" (by decide))
  exact
    { object := fun _ => h.object
      others := h.others
      listed := fun _ => h.listed
      order := h.data _ (Ne.symm horder)
      deleted := h.data _ (Ne.symm hdeleted)
      kept := fun r s hpicture => by rwa [HasPicture, hmarks]
      new := fun r s hpicture => .inl (by rwa [HasPicture, hmarks] at hpicture) }

theorem runData_congr {a b : Json} (h : a.get "filmAssembly" = b.get "filmAssembly")
    (run : String) : runData a run = runData b run := by
  rw [runData, runData, Json.idx_eq_of_get h]

/-- A step that writes the tracks only. -/
theorem frame_of_tracks {run : String} {before after : Json}
    (h : after.get "filmAssembly" = before.get "filmAssembly")
    (hkept : ∀ r s, HasPicture before r s → HasPicture after r s)
    (hnew : ∀ r s, HasPicture after r s →
      HasPicture before r s ∨ r = run ∧ isDeleted before run s = false) :
    Frame run before after := by
  have hassembly : assembly after = assembly before := Json.idx_eq_of_get h
  have hentries : runEntries after = runEntries before := by
    rw [runEntries, runEntries, runs, runs, hassembly]
  exact
    { object := fun hobject => hassembly ▸ hobject
      others := by rw [hentries]
      listed := fun hlisted => hentries ▸ hlisted
      order := by rw [runData_congr h]
      deleted := by rw [runData_congr h]
      kept := hkept
      new := hnew }

theorem hasPicture_of_perm {before after : Json} {extra : List (Option Json)}
    (h : (pictureMarks after).Perm (pictureMarks before ++ extra)) (run shot : String) :
    HasPicture after run shot ↔
      HasPicture before run shot ∨ ∃ mark ∈ extra, isShotMark run shot mark = true := by
  simp only [HasPicture, h.mem_iff, List.mem_append, or_and_right, exists_or]

theorem frame_insert {d : Delivery} {id : String} {timeline take stamped retracked : Json}
    (htake : isShotPicture d.run (field take "shotId") take = true)
    (hstamped : Stamped id take stamped)
    (hmarks : (pictureMarks retracked).Perm (pictureMarks timeline ++ itemMarks [stamped]))
    (hassembly : retracked.get "filmAssembly" = timeline.get "filmAssembly")
    (hdeleted : isDeleted timeline d.run (field take "shotId") = false) :
    Frame d.run timeline retracked := by
  refine frame_of_tracks hassembly ?_ ?_
  · intro r s h
    exact (hasPicture_of_perm hmarks r s).mpr (.inl h)
  · intro r s h
    obtain h | ⟨mark, hmark, hshot⟩ := (hasPicture_of_perm hmarks r s).mp h
    · exact .inl h
    · have hmark' : mark = stamped.get "filmHarness" := by
        simpa using (List.mem_filter.mp hmark).1
      subst hmark'
      have hrun : field stamped "runId" = r ∧ field stamped "shotId" = s := by
        simpa [isShotMark, ← field_eq_markField] using hshot
      rw [hstamped.field (by decide) (by decide), hstamped.field (by decide) (by decide)] at hrun
      have htake' := (isShotPicture_iff.mp htake).1
      have hrunTake : field take "runId" = d.run := by
        simpa [isShotMark, ← field_eq_markField] using htake'
      exact .inr ⟨hrun.1.symm.trans hrunTake, hrun.2 ▸ hdeleted⟩

/-- Replacing the picture of a shot by a take of the shot leaves every shot its picture. -/
theorem hasPicture_replace {timeline retracked new : Json} {run shot : String}
    (hnew : isShotPicture run shot new = true) {current : Json}
    (hexisting : existingPicture timeline run shot = some current)
    (htracks : timeline.put ["tracks"] (.arr (replaceFirstItem (isShotPicture run shot) new
      (tracks timeline))) = some retracked) (r s : String) :
    HasPicture retracked r s ↔ HasPicture timeline r s := by
  have hany : ((tracks timeline).flatMap trackItems).any (isShotPicture run shot) = true := by
    rw [List.any_eq_true]
    exact ⟨current, List.mem_of_find?_eq_some hexisting, List.find?_some hexisting⟩
  obtain ⟨before, old, after, hmarks, -, hold, hresult⟩ := flatMap_replaceFirstItem hnew hany
  have hmarks' : pictureMarks timeline = before ++ old :: after := hmarks
  have hsame : isShotMark r s (new.get "filmHarness") = isShotMark r s old := by
    have hnewMark := (isShotPicture_iff.mp hnew).1
    simp only [isShotMark, Bool.and_eq_true, beq_iff_eq] at hnewMark hold ⊢
    rw [hnewMark.1, hnewMark.2, hold.1, hold.2]
  rw [HasPicture, HasPicture, pictureMarks_put htracks, hresult, hmarks']
  simp only [List.mem_append, List.mem_cons, or_and_right, exists_or, exists_eq_left, hsame]

theorem isShotPicture_congr {a b : Json} (h : a.get "filmHarness" = b.get "filmHarness")
    (run shot : String) : isShotPicture run shot a = isShotPicture run shot b := by
  simp only [isShotPicture, field_eq_markField, h]

theorem Merged.frame {env : DeliveryEnv} {d : Delivery} {timeline take after : Json}
    (htake : isShotPicture d.run (field take "shotId") take = true)
    (hdeleted : isDeleted timeline d.run (field take "shotId") = false)
    (h : Merged env d timeline take after) : Frame d.run timeline after := by
  cases h with
  | conflict length hexisting hstamped hput =>
      exact (booked_of_edit hput).1.frame_of (by decide) (by decide)
  | replaced hexisting hstamped hnew htracks hclear hmark =>
      have hnewPicture := isShotPicture_congr hnew d.run (field take "shotId")
      rw [hstamped.isShotPicture, htake] at hnewPicture
      have hpictures := hasPicture_replace hnewPicture hexisting htracks
      have hframe : Frame d.run timeline _ := frame_of_tracks
        (Json.get_edit_of_ne htracks (by decide)) (fun r s => (hpictures r s).mpr)
        (fun r s hpicture => .inl ((hpictures r s).mp hpicture))
      exact (hframe.trans ((booked_of_edit hclear).1.frame_of (by decide) (by decide))).trans
        ((booked_of_edit hmark).1.frame_of (by decide) (by decide))
  | inserted hexisting hstamped hmarks hlanes hassembly hmark =>
      exact (frame_insert htake hstamped hmarks hassembly hdeleted).trans
        ((booked_of_edit hmark).1.frame_of (by decide) (by decide))

theorem isShotPicture_of_mem_takes {incoming take : Json} {run : String}
    (h : take ∈ incomingTakes incoming run) :
    isShotPicture run (field take "shotId") take = true := by
  have hfields := (List.mem_filter.mp h).2
  simp only [Bool.and_eq_true, beq_iff_eq] at hfields
  simp [isShotPicture, hfields]

theorem deliverTake_frame {env : DeliveryEnv} {d : Delivery} {timeline take after : Json}
    (htake : isShotPicture d.run (field take "shotId") take = true)
    (h : deliverTake env d timeline take = .ok after) : Frame d.run timeline after := by
  obtain ⟨-, ⟨rfl, -⟩ | ⟨hdeleted, -, hmerged⟩⟩ := deliverTake_cases h
  · exact .refl _ _
  · exact hmerged.frame htake hdeleted

/-- The rule for the loops of a delivery. -/
theorem foldlM_frame {α : Type} {run : String} {g : Json → α → Except ProjectStoreError Json}
    {l : List α} (hg : ∀ a ∈ l, ∀ before after, g before a = .ok after → Frame run before after)
    {before after : Json} (h : l.foldlM g before = .ok after) : Frame run before after := by
  induction l generalizing before with
  | nil =>
      cases h
      exact .refl _ _
  | cons a l ih =>
      rw [List.foldlM_cons, Fallible.bind_eq_ok] at h
      obtain ⟨middle, hstep, hrest⟩ := h
      have hfirst := hg a List.mem_cons_self _ _ hstep
      exact hfirst.trans (ih (fun b hb => hg b (List.mem_cons_of_mem _ hb)) hrest)

theorem establishLane_marks {timeline track after : Json}
    (h : establishLane timeline track = .ok after) :
    pictureMarks after = pictureMarks timeline ∧
      after.get "filmAssembly" = timeline.get "filmAssembly" := by
  simp only [establishLane] at h
  split at h
  · cases h
    exact ⟨rfl, rfl⟩
  · simp only [Fallible.bind_eq_ok, orPanic_eq_ok] at h
    obtain ⟨ts, hts, h⟩ := h
    split at h
    · cases h
      exact ⟨rfl, rfl⟩
    · simp only [Fallible.bind_eq_ok, orPanic_eq_ok] at h
      obtain ⟨lane, hlane, hput⟩ := h
      have hempty : trackMarks lane = [] := by
        rw [trackMarks, trackItems_put hlane]
        rfl
      have htracks : tracks timeline = ts := by
        rw [tracks, Json.asArray_eq_some.mp hts]
        rfl
      refine ⟨?_, Json.get_edit_of_ne hput (by decide)⟩
      rw [pictureMarks_put hput, List.flatMap_append, List.flatMap_singleton, hempty,
        List.append_nil, pictureMarks, htracks]

theorem establishLane_frame {run : String} {timeline track after : Json}
    (h : establishLane timeline track = .ok after) : Frame run timeline after := by
  obtain ⟨hmarks, hassembly⟩ := establishLane_marks h
  refine frame_of_tracks hassembly ?_ ?_
  · exact fun r s hpicture => by rwa [HasPicture, hmarks]
  · exact fun r s hpicture => .inl (by rwa [HasPicture, hmarks] at hpicture)

theorem pushItem_marks {audio id track after : Json} (h : pushItem audio id track = some after) :
    trackMarks after = trackMarks track ∨
      trackMarks after = trackMarks track ++ itemMarks [audio] := by
  simp only [pushItem, Option.bind_eq_bind, Option.bind_eq_some_iff] at h
  obtain ⟨xs, hxs, h⟩ := h
  have hitems := Json.asArray_eq_some.mp hxs
  split at h
  · cases h
    exact .inl rfl
  · cases h
    have htrack : trackItems track = xs := by
      rw [trackItems, hitems]
      rfl
    refine .inr ?_
    rw [trackMarks, trackItems_setItems hitems, trackMarks, htrack]
    exact itemMarks_append xs [audio]

theorem modifyFirstM_marks {p : Json → Bool} {f : Json → Option Json} {audio : Json}
    (hf : ∀ track after, f track = some after → trackMarks after = trackMarks track ∨
      trackMarks after = trackMarks track ++ itemMarks [audio])
    {ts ts' : List Json} (h : modifyFirstM p f ts = some ts') :
    ∃ extra, (extra = [] ∨ extra = itemMarks [audio]) ∧
      (ts'.flatMap trackMarks).Perm (ts.flatMap trackMarks ++ extra) := by
  induction ts generalizing ts' with
  | nil =>
      cases h
      exact ⟨[], .inl rfl, .refl _⟩
  | cons track rest ih =>
      simp only [modifyFirstM] at h
      split at h
      · simp only [Option.bind_eq_bind, Option.bind_eq_some_iff] at h
        obtain ⟨new, hnew, hresult⟩ := h
        cases hresult
        obtain hmarks | hmarks := hf track new hnew
        · exact ⟨[], .inl rfl, by simp [hmarks]⟩
        · refine ⟨itemMarks [audio], .inr rfl, ?_⟩
          rw [List.flatMap_cons, List.flatMap_cons, hmarks, List.append_assoc, List.append_assoc]
          exact List.perm_append_comm.append_left _
      · simp only [Option.bind_eq_bind, Option.bind_eq_some_iff] at h
        obtain ⟨rest', hrest, hresult⟩ := h
        cases hresult
        obtain ⟨extra, hextra, hperm⟩ := ih hrest
        refine ⟨extra, hextra, ?_⟩
        rw [List.flatMap_cons, List.flatMap_cons, List.append_assoc]
        exact hperm.append_left _

/-- Adding an audio item adds at most its own mark. -/
theorem addAudio_marks {timeline track audio id after : Json}
    (h : addAudio timeline track audio id = some after) :
    after.get "filmAssembly" = timeline.get "filmAssembly" ∧
      ∃ extra, (extra = [] ∨ extra = itemMarks [audio]) ∧
        (pictureMarks after).Perm (pictureMarks timeline ++ extra) := by
  simp only [addAudio, Option.bind_eq_bind, Option.bind_eq_some_iff] at h
  obtain ⟨ts, hts, h⟩ := h
  have htracks : pictureMarks timeline = ts.flatMap trackMarks := by
    rw [pictureMarks, tracks, Json.asArray_eq_some.mp hts]
    rfl
  split at h
  · simp only [Option.bind_eq_some_iff] at h
    obtain ⟨ts', hts', hput⟩ := h
    refine ⟨Json.get_edit_of_ne hput (by decide), ?_⟩
    rw [pictureMarks_put hput, htracks]
    exact modifyFirstM_marks (fun _ _ => pushItem_marks) hts'
  · simp only [Option.bind_eq_some_iff] at h
    obtain ⟨lane, hlane, lane', hlane', ts', hts', hput⟩ := h
    cases hts'
    refine ⟨Json.get_edit_of_ne hput (by decide), trackMarks lane', ?_, ?_⟩
    · have hempty : trackMarks lane = [] := by
        rw [trackMarks, trackItems_put hlane]
        rfl
      simpa [hempty] using pushItem_marks hlane'
    · rw [pictureMarks_put hput, htracks]
      simp

theorem field_placeAudio {item audio : Json} {picture : Option Json}
    (h : placeAudio item picture = some audio) {key : String}
    (hkey : key = "role" ∨ key = "runId" ∨ key = "shotId") : field audio key = field item key := by
  cases picture with
  | none => exact field_stamp h hkey
  | some picture =>
      simp only [placeAudio, Option.bind_eq_bind, Option.bind_eq_some_iff] at h
      obtain ⟨a, ha, b, hb, hstamp⟩ := h
      rw [field_stamp hstamp hkey, field, Json.get_edit_of_ne hb (by decide),
        Json.get_edit_of_ne ha (by decide), ← field]

theorem pictureOf_hasPicture {timeline picture : Json} {run shot : String}
    (h : pictureOf timeline run shot = some picture) : HasPicture timeline run shot := by
  have hfields : field picture "runId" = run ∧ field picture "shotId" = shot := by
    simpa using List.find?_some h
  exact (exists_picture_iff.mp ⟨picture, List.mem_of_find?_eq_some h, hfields⟩).2

/-- What an audio item does: it is skipped, or added and booked. -/
theorem deliverAudio_cases {run : String} {timeline after : Json} {entry : Json × Json}
    (h : deliverAudio run timeline entry = .ok after) :
    after = timeline ∧
        (audioDelivered timeline run ((entry.2.idx "id").asStr.getD "") = true ∨
          field entry.2 "shotId" ≠ "" ∧ pictureOf timeline run (field entry.2 "shotId") = none) ∨
      (field entry.2 "shotId" ≠ "" →
          ∃ picture, pictureOf timeline run (field entry.2 "shotId") = some picture) ∧
        ∃ audio added,
          placeAudio entry.2 (pictureOf timeline run (field entry.2 "shotId")) = some audio ∧
          addAudio timeline entry.1 audio (entry.2.idx "id") = some added ∧
          added.put (runPath run ["audioDelivered", (entry.2.idx "id").asStr.getD ""])
            (.bool true) = some after := by
  obtain ⟨track, item⟩ := entry
  simp only [deliverAudio] at h
  split at h
  · next hdelivered =>
      cases h
      exact .inl ⟨rfl, .inl hdelivered⟩
  · split at h
    · next hmissing =>
        cases h
        simp only [Bool.and_eq_true, bne_iff_ne, Option.isNone_iff_eq_none] at hmissing
        exact .inl ⟨rfl, .inr hmissing⟩
    · next hmissing =>
        simp only [Fallible.bind_eq_ok, orPanic_eq_ok] at h
        obtain ⟨audio, haudio, added, hadded, hput⟩ := h
        refine .inr ⟨?_, audio, added, haudio, hadded, hput⟩
        intro hshot
        cases hpicture : pictureOf timeline run (field item "shotId") with
        | none => simp [hshot, hpicture] at hmissing
        | some picture => exact ⟨picture, rfl⟩

theorem deliverAudio_frame {run : String} {timeline after : Json} {entry : Json × Json}
    (hrun : field entry.2 "runId" = run)
    (hrole : field entry.2 "role" = "picture" → field entry.2 "shotId" ≠ "")
    (h : deliverAudio run timeline entry = .ok after) : Frame run timeline after := by
  obtain ⟨rfl, -⟩ | ⟨hpicture, audio, added, haudio, hadded, hput⟩ := deliverAudio_cases h
  · exact .refl _ _
  · obtain ⟨hassembly, extra, hextra, hperm⟩ := addAudio_marks hadded
    refine Frame.trans (frame_of_tracks hassembly ?_ ?_)
      ((booked_of_edit hput).1.frame_of (by decide) (by decide))
    · exact fun r s hold => (hasPicture_of_perm hperm r s).mpr (.inl hold)
    · intro r s hnew
      obtain hold | ⟨mark, hmark, hshot⟩ := (hasPicture_of_perm hperm r s).mp hnew
      · exact .inl hold
      -- A picture item on an audio lane belongs to a shot that has its picture already.
      obtain rfl | rfl := hextra
      · simp at hmark
      · obtain ⟨hmem, hpictureMark⟩ := List.mem_filter.mp hmark
        have hmark' : mark = audio.get "filmHarness" := by simpa using hmem
        subst hmark'
        have hfields : field audio "runId" = r ∧ field audio "shotId" = s := by
          simpa [isShotMark, ← field_eq_markField] using hshot
        have hroleAudio : field audio "role" = "picture" := by
          simpa [isPictureMark, ← field_eq_markField] using hpictureMark
        rw [field_placeAudio haudio (by simp)] at hroleAudio
        rw [field_placeAudio haudio (by simp), field_placeAudio haudio (by simp)] at hfields
        obtain ⟨picture, hfound⟩ := hpicture (hrole hroleAudio)
        rw [← hfields.1, ← hfields.2, hrun]
        exact .inl (pictureOf_hasPicture hfound)

theorem incomingAudio_spec {incoming : Json} {run : String} {entry : Json × Json}
    (h : entry ∈ incomingAudio incoming run) :
    field entry.2 "runId" = run ∧ entry.2 ∈ items incoming := by
  simp only [incomingAudio, incomingLanes, List.mem_flatMap, List.mem_map, List.mem_filter] at h
  obtain ⟨track, ⟨htrack, -⟩, item, ⟨hitem, hrun⟩, rfl⟩ := h
  exact ⟨by simpa using hrun, List.mem_flatMap.mpr ⟨track, htrack, hitem⟩⟩

/-- Every take of a delivery that succeeds names its shot. -/
theorem takes_named {env : DeliveryEnv} {d : Delivery} {takes : List Json} {before after : Json}
    (h : takes.foldlM (deliverTake env d) before = .ok after) :
    ∀ take ∈ takes, field take "shotId" ≠ "" := by
  induction takes generalizing before with
  | nil => simp
  | cons take takes ih =>
      rw [List.foldlM_cons, Fallible.bind_eq_ok] at h
      obtain ⟨middle, hstep, hrest⟩ := h
      exact List.forall_mem_cons.mpr ⟨(deliverTake_cases hstep).1, ih hrest⟩

/-- The stages of a delivery that succeeds. -/
structure Stages (env : DeliveryEnv) (timeline payload after : Json) where
  d : Delivery
  opened : Json
  merged : Json
  laned : Json
  run_eq : (payload.idx "runId").asStr = some d.run
  run_ne : d.run ≠ ""
  resolve_eq : d.resolve = (payload.idx "resolveShotId").asStr
  choice_eq : d.choice = (payload.idx "resolution").asStr
  valid : MetadataValid timeline
  incoming_eq : incomingOf timeline payload d.run = .ok d.incoming
  open_eq : openRun d.run (payload.idx "shotOrder").elements timeline = some opened
  takes_eq : (incomingTakes d.incoming d.run).foldlM (deliverTake env d) opened = .ok merged
  lanes_eq : (incomingLanes d.incoming).foldlM establishLane merged = .ok laned
  audio_eq : (incomingAudio d.incoming d.run).foldlM (deliverAudio d.run) laned = .ok after

theorem deliver_stages {env : DeliveryEnv} {timeline payload after : Json}
    (h : deliver env timeline payload = .ok after) :
    Nonempty (Stages env timeline payload after) := by
  simp only [deliver, Fallible.bind_eq_ok, orPanic_eq_ok, orBadRequest_eq_ok] at h
  obtain ⟨⟨⟩, hvalid, run, hrun, incoming, hincoming, opened, hopened, merged, hmerged, laned,
    hlaned, haudio⟩ := h
  obtain ⟨hrun, hne⟩ := Option.filter_eq_some_iff.mp hrun
  exact ⟨{
    d := ⟨run, (payload.idx "resolveShotId").asStr, (payload.idx "resolution").asStr, incoming⟩
    opened := opened
    merged := merged
    laned := laned
    run_eq := hrun
    run_ne := by simpa using hne
    resolve_eq := rfl
    choice_eq := rfl
    valid := validateMetadata_eq_ok.mp hvalid
    incoming_eq := hincoming
    open_eq := hopened
    takes_eq := hmerged
    lanes_eq := hlaned
    audio_eq := haudio }⟩

/-- Everything after the opening of the run keeps the frame. -/
theorem Stages.frame {env : DeliveryEnv} {timeline payload after : Json}
    (st : Stages env timeline payload after) : Frame st.d.run st.opened after := by
  have htakes : Frame st.d.run st.opened st.merged := by
    refine foldlM_frame ?_ st.takes_eq
    exact fun take htake _ _ hstep => deliverTake_frame (isShotPicture_of_mem_takes htake) hstep
  have hlanes : Frame st.d.run st.merged st.laned := by
    refine foldlM_frame ?_ st.lanes_eq
    exact fun track _ _ _ hstep => establishLane_frame hstep
  refine (htakes.trans hlanes).trans (foldlM_frame ?_ st.audio_eq)
  intro entry hentry _ _ hstep
  obtain ⟨hrun, hmem⟩ := incomingAudio_spec hentry
  refine deliverAudio_frame hrun ?_ hstep
  intro hrole
  exact takes_named st.takes_eq entry.2 (List.mem_filter.mpr ⟨hmem, by simp [hrun, hrole]⟩)

/-- What a delivery leaves of the document it was merged into. -/
structure Delivered (run : String) (before after : Json) : Prop where
  object : (assembly after).isObject = true
  others : (runEntries after).eraseP (fun entry => entry.1 == run) =
    (runEntries before).eraseP fun entry => entry.1 == run
  listed : JsonObject.containsKey (runEntries after) run = true
  slots : HasShotOrder (runData after run)
  deleted : (runData after run).get "deletedShots" = (runData before run).get "deletedShots"
  kept : ∀ r s, HasPicture before r s → HasPicture after r s
  new : ∀ r s, HasPicture after r s →
    HasPicture before r s ∨ r = run ∧ isDeleted before run s = false

theorem listed_of_hasShotOrder {timeline : Json} {run : String}
    (h : HasShotOrder (runData timeline run)) :
    JsonObject.containsKey (runEntries timeline) run = true := by
  rw [runData_eq, HasShotOrder] at h
  cases hruns : runs timeline with
  | obj fields =>
      rw [runEntries, hruns]
      rw [hruns, Json.idx, Json.get_obj] at h
      cases hget : JsonObject.get fields run with
      | none =>
          rw [hget] at h
          cases h
      | some data =>
          rw [JsonObject.containsKey]
          exact hget ▸ rfl
  | _ =>
      rw [hruns] at h
      simp [Json.idx, Json.get, Json.asObject] at h

/-- The version stamp leaves the runs alone. -/
theorem runs_put_version {timeline after : Json}
    (h : timeline.put ["filmAssembly", "schemaVersion"] (.int 1) = some after) :
    runs after = runs timeline ∧ (assembly after).isObject = true ∧
      ∀ key, key ≠ "filmAssembly" → after.get key = timeline.get key := by
  have hassembly := Json.idx_edit_self h
  refine ⟨?_, Json.isObject_edit hassembly, fun key hkey => Json.get_edit_of_ne h (Ne.symm hkey)⟩
  exact Json.idx_edit_of_ne hassembly (by decide)

theorem openRun_delivered {run : String} {order : List Json} {timeline opened : Json}
    (h : openRun run order timeline = some opened) : Delivered run timeline opened := by
  have hbooked : ∃ middle, (middle = timeline ∧ HasShotOrder (runData timeline run) ∨
      Booked run "shotOrder" timeline middle ∧ HasShotOrder (runData middle run)) ∧
      middle.put ["filmAssembly", "schemaVersion"] (.int 1) = some opened := by
    simp only [openRun] at h
    split at h
    · simp only [Option.bind_eq_bind, Option.bind_eq_some_iff] at h
      obtain ⟨middle, hmiddle, hput⟩ := h
      obtain ⟨hbooked, hedit⟩ := booked_of_edit hmiddle
      refine ⟨middle, .inr ⟨hbooked, ?_⟩, hput⟩
      have horder : (runData middle run).idx "shotOrder" = .arr order := by
        simpa using hedit.symm
      rw [Json.idx] at horder
      rw [HasShotOrder]
      cases hget : (runData middle run).get "shotOrder" with
      | none => simp [hget] at horder
      | some value => rfl
    · next hnull =>
        refine ⟨timeline, .inl ⟨rfl, ?_⟩, h⟩
        rw [HasShotOrder]
        cases hget : (runData timeline run).get "shotOrder" with
        | none => simp [Json.idx, hget, Json.isNull] at hnull
        | some value => rfl
  obtain ⟨middle, hmiddle, hput⟩ := hbooked
  obtain ⟨hruns, hobject, hframe⟩ := runs_put_version hput
  have hentries : runEntries opened = runEntries middle := by rw [runEntries, hruns, ← runEntries]
  have hdata : runData opened run = runData middle run := by rw [runData_eq, hruns, ← runData_eq]
  have hslots : HasShotOrder (runData opened run) := by
    rw [hdata]
    exact hmiddle.elim (fun h => h.1 ▸ h.2) (fun h => h.2)
  have hpictures : pictureMarks opened = pictureMarks timeline := by
    refine pictureMarks_congr ((hframe "tracks" (by decide)).trans ?_)
    exact hmiddle.elim (fun h => by rw [h.1]) (fun h => h.1.frame "tracks" (by decide))
  exact
    { object := hobject
      others := by
        rw [hentries]
        exact hmiddle.elim (fun h => by rw [h.1]) (fun h => h.1.others)
      listed := listed_of_hasShotOrder hslots
      slots := hslots
      deleted := by
        rw [hdata]
        exact hmiddle.elim (fun h => by rw [h.1]) (fun h => h.1.data _ (by decide))
      kept := fun r s h => by rwa [HasPicture, hpictures]
      new := fun r s h => .inl (by rwa [HasPicture, hpictures] at h) }

theorem Stages.delivered {env : DeliveryEnv} {timeline payload after : Json}
    (st : Stages env timeline payload after) : Delivered st.d.run timeline after := by
  have hopened := openRun_delivered st.open_eq
  have hframe := st.frame
  exact
    { object := hframe.object hopened.object
      others := hframe.others.trans hopened.others
      listed := hframe.listed hopened.listed
      slots := by
        rw [HasShotOrder, hframe.order]
        exact hopened.slots
      deleted := hframe.deleted.trans hopened.deleted
      kept := fun r s h => hframe.kept r s (hopened.kept r s h)
      new := by
        intro r s h
        obtain h | ⟨hrun, h⟩ := hframe.new r s h
        · exact hopened.new r s h
        · exact .inr ⟨hrun, by rw [← isDeleted_congr hopened.deleted, h]⟩ }

end SceneWorks.FilmTimeline
