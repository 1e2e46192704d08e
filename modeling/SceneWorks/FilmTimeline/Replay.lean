import SceneWorks.FilmTimeline.Attempts
import SceneWorks.Library.Run

/-!
Deliveries of one run, one after the other. `Grows` is what no step of a delivery takes
back: the marks of the shots stay in order, what was seen stays seen, and the slots, lanes
and booked audio items stay. A payload that was delivered is therefore `Settled` from then
on, and a settled payload that is delivered again passes every stage without a change.
-/

namespace SceneWorks.FilmTimeline

/-- The marks of every shot of the run that is not deleted are in order. -/
def InOrder (run : String) (timeline : Json) : Prop :=
  ∀ shot, isDeleted timeline run shot = false → ShotInOrder run shot (shotView timeline run shot)

structure Grows (run : String) (before after : Json) : Prop where
  deleted : ∀ shot, isDeleted after run shot = isDeleted before run shot
  slots : ((runData before run).idx "shotOrder").isNull = false →
    ((runData after run).idx "shotOrder").isNull = false
  version : (assembly before).get "schemaVersion" = some (.int 1) →
    (assembly after).get "schemaVersion" = some (.int 1)
  lanes : laneIds before ⊆ laneIds after
  audio : ∀ id, audioDelivered before run id = true → audioDelivered after run id = true
  order : InOrder run before → InOrder run after
  seen : InOrder run before → ∀ shot attempt, isDeleted before run shot = false →
    Seen run shot (shotView before run shot) attempt →
    Seen run shot (shotView after run shot) attempt

theorem Grows.refl (run : String) (timeline : Json) : Grows run timeline timeline where
  deleted := fun _ => rfl
  slots := id
  version := id
  lanes := List.Subset.refl _
  audio := fun _ => id
  order := id
  seen := fun _ _ _ _ => id

theorem Grows.trans {run : String} {a b c : Json} (hab : Grows run a b) (hbc : Grows run b c) :
    Grows run a c where
  deleted := fun shot => (hbc.deleted shot).trans (hab.deleted shot)
  slots := fun h => hbc.slots (hab.slots h)
  version := fun h => hbc.version (hab.version h)
  lanes := fun _ h => hbc.lanes (hab.lanes h)
  audio := fun id h => hbc.audio id (hab.audio id h)
  order := fun h => hbc.order (hab.order h)
  seen := fun h shot attempt hdeleted hseen =>
    hbc.seen (hab.order h) shot attempt ((hab.deleted shot).trans hdeleted)
      (hab.seen h shot attempt hdeleted hseen)

/-- A step that leaves every shot of the run as it was. -/
structure Quiet (run : String) (before after : Json) : Prop extends Grows run before after where
  view : InOrder run before → ∀ shot, isDeleted before run shot = false →
    shotView after run shot = shotView before run shot

theorem Quiet.refl (run : String) (timeline : Json) : Quiet run timeline timeline where
  toGrows := .refl _ _
  view := fun _ _ _ => rfl

theorem Quiet.trans {run : String} {a b c : Json} (hab : Quiet run a b) (hbc : Quiet run b c) :
    Quiet run a c where
  toGrows := hab.toGrows.trans hbc.toGrows
  view := fun h shot hdeleted =>
    (hbc.view (hab.order h) shot ((hab.deleted shot).trans hdeleted)).trans
      (hab.view h shot hdeleted)

theorem quiet_of_view {run : String} {before after : Json}
    (hview : InOrder run before → ∀ shot, isDeleted before run shot = false →
      shotView after run shot = shotView before run shot)
    (hdeleted : ∀ shot, isDeleted after run shot = isDeleted before run shot)
    (hslots : ((runData before run).idx "shotOrder").isNull = false →
      ((runData after run).idx "shotOrder").isNull = false)
    (hversion : (assembly before).get "schemaVersion" = some (.int 1) →
      (assembly after).get "schemaVersion" = some (.int 1))
    (hlanes : laneIds before ⊆ laneIds after)
    (haudio : ∀ id, audioDelivered before run id = true → audioDelivered after run id = true) :
    Quiet run before after where
  deleted := hdeleted
  slots := hslots
  version := hversion
  lanes := hlanes
  audio := haudio
  view := hview
  order := by
    intro h shot hshot
    rw [hdeleted] at hshot
    rw [hview h shot hshot]
    exact h shot hshot
  seen := by
    intro h shot attempt hshot hseen
    rw [hview h shot hshot]
    exact hseen

theorem Booked.isDeleted {run key : String} {before after : Json} (h : Booked run key before after)
    (hkey : key ≠ "deletedShots") (shot : String) :
    isDeleted after run shot = isDeleted before run shot :=
  isDeleted_congr (h.data _ (Ne.symm hkey)) shot

theorem Booked.audioDelivered {run key : String} {before after : Json}
    (h : Booked run key before after) (hkey : key ≠ "audioDelivered") (id : String) :
    audioDelivered after run id = audioDelivered before run id := by
  rw [FilmTimeline.audioDelivered, FilmTimeline.audioDelivered,
    Json.idx_eq_of_get (h.data _ (Ne.symm hkey))]

theorem Booked.laneIds {run key : String} {before after : Json} (h : Booked run key before after) :
    laneIds after = laneIds before :=
  laneIds_congr (h.frame "tracks" (by decide))

theorem Booked.shotView {run key : String} {before after : Json} (h : Booked run key before after)
    (happlied : key ≠ "appliedDeliveries") (hconflict : key ≠ "trimConflicts") (shot : String) :
    shotView after run shot = shotView before run shot := by
  simp only [FilmTimeline.shotView, h.pictureMarks, h.isApplied happlied, h.trimConflict hconflict]

theorem audioDelivered_congr {a b : Json} (h : a.get "filmAssembly" = b.get "filmAssembly")
    (run id : String) : audioDelivered a run id = audioDelivered b run id := by
  rw [audioDelivered, audioDelivered, runData_congr h]

theorem assembly_congr {a b : Json} (h : a.get "filmAssembly" = b.get "filmAssembly") :
    assembly a = assembly b :=
  Json.idx_eq_of_get h

/-- What the merge of a take leaves alone, beside its frame. -/
theorem Merged.kept {env : DeliveryEnv} {d : Delivery} {timeline take after : Json}
    (h : Merged env d timeline take after) :
    (assembly after).get "schemaVersion" = (assembly timeline).get "schemaVersion" ∧
      laneIds after = laneIds timeline ∧
      ∀ id, audioDelivered after d.run id = audioDelivered timeline d.run id := by
  cases h with
  | conflict length hexisting hstamped hput =>
      have hbooked := (booked_of_edit hput).1
      exact ⟨hbooked.version, hbooked.laneIds, hbooked.audioDelivered (by decide)⟩
  | replaced hexisting hstamped hnew htracks hclear hmark =>
      have hassembly := Json.get_edit_of_ne htracks (show "tracks" ≠ "filmAssembly" by decide)
      have hcleared := (booked_of_edit hclear).1
      have hmarked := (booked_of_edit hmark).1
      refine ⟨?_, ?_, ?_⟩
      · rw [hmarked.version, hcleared.version, assembly_congr hassembly]
      · rw [hmarked.laneIds, hcleared.laneIds, laneIds_put htracks, replaceFirstItem_id]
        rfl
      · intro id
        rw [hmarked.audioDelivered (by decide), hcleared.audioDelivered (by decide),
          audioDelivered_congr hassembly]
  | inserted hexisting hstamped hmarks hlanes hassembly hmark =>
      have hmarked := (booked_of_edit hmark).1
      refine ⟨?_, ?_, ?_⟩
      · rw [hmarked.version, assembly_congr hassembly]
      · rw [hmarked.laneIds, hlanes]
      · intro id
        rw [hmarked.audioDelivered (by decide), audioDelivered_congr hassembly]

/-- The take is skipped, or no conflict of a higher attempt is pending. -/
def TakeInOrder (run : String) (timeline take : Json) : Prop :=
  isDeleted timeline run (field take "shotId") = true ∨
    isReplay timeline run (field take "shotId") (attemptOf take) = true ∨
    NotUndercut (shotView timeline run (field take "shotId")) (attemptOf take)

/-- The step of a shot that a take was merged into. -/
structure TakeStep (run : String) (take before after : Json) : Prop where
  grows : Grows run before after
  seen : isDeleted before run (field take "shotId") = false →
    Seen run (field take "shotId") (shotView after run (field take "shotId")) (attemptOf take)
  carried : ∀ shot, isDeleted before run shot = false →
    (shotView after run shot).carried =
      if field take "shotId" = shot then raise (shotView before run shot).carried (attemptOf take)
      else (shotView before run shot).carried

theorem merged_step {env : DeliveryEnv} {d : Delivery} {timeline take after : Json}
    (horder : InOrder d.run timeline)
    (htake : isShotPicture d.run (field take "shotId") take = true)
    (hdeleted : isDeleted timeline d.run (field take "shotId") = false)
    (hreplay : isReplay timeline d.run (field take "shotId") (attemptOf take) = false)
    (hcut : NotUndercut (shotView timeline d.run (field take "shotId")) (attemptOf take))
    (h : Merged env d timeline take after) : TakeStep d.run take timeline after := by
  have hv := horder _ hdeleted
  have hframe := h.frame htake hdeleted
  rw [isReplay_eq] at hreplay
  obtain ⟨hstep, hothers⟩ := merged_view htake hv.unique h
  obtain ⟨hversion, hlanes, haudio⟩ := h.kept
  obtain ⟨hseen, hkept⟩ := viewStep_seen hv hreplay hcut hstep
  have hother : ∀ shot, shot ≠ field take "shotId" → isDeleted timeline d.run shot = false →
      shotView after d.run shot = shotView timeline d.run shot :=
    fun shot hne hshot => hothers shot hne (horder shot hshot).unique
  have hsame := isDeleted_congr hframe.deleted
  refine ⟨⟨hsame, ?_, ?_, ?_, ?_, ?_, ?_⟩, fun _ => hseen, ?_⟩
  · rw [Json.idx_eq_of_get hframe.order]
    exact id
  · rw [hversion]
    exact id
  · rw [hlanes]
    exact List.Subset.refl _
  · intro id hid
    rw [haudio, hid]
  · intro _ shot hshot
    rw [hsame] at hshot
    by_cases hne : shot = field take "shotId"
    · rw [hne]
      exact viewStep_inOrder hv hreplay hcut hstep
    · rw [hother shot hne hshot]
      exact horder shot hshot
  · intro _ shot attempt hshot hold
    by_cases hne : shot = field take "shotId"
    · rw [hne] at hold ⊢
      exact hkept attempt hold
    · rw [hother shot hne hshot]
      exact hold
  · intro shot hshot
    by_cases hne : field take "shotId" = shot
    · rw [if_pos hne, ← hne]
      exact viewStep_carried hv hreplay hcut hstep
    · rw [if_neg hne, hother shot (Ne.symm hne) hshot]

theorem take_step {env : DeliveryEnv} {d : Delivery} {timeline take after : Json}
    (hresolve : d.resolve = none) (horder : InOrder d.run timeline)
    (htake : isShotPicture d.run (field take "shotId") take = true)
    (hcut : TakeInOrder d.run timeline take)
    (h : deliverTake env d timeline take = .ok after) : TakeStep d.run take timeline after := by
  obtain ⟨-, ⟨rfl, hskip⟩ | ⟨hdeleted, hreplay, hmerged⟩⟩ := deliverTake_cases h
  · have hreplay : isDeleted after d.run (field take "shotId") = false →
        raise (shotView after d.run (field take "shotId")).carried (attemptOf take) =
            (shotView after d.run (field take "shotId")).carried ∧
          Seen d.run (field take "shotId") (shotView after d.run (field take "shotId"))
            (attemptOf take) := by
      intro hdeleted
      obtain hskip | ⟨-, hskip⟩ := hskip
      · simp [hdeleted] at hskip
      · rw [isReplay_eq] at hskip
        exact replay_seen (horder _ hdeleted) hskip
    refine ⟨.refl _ _, fun hdeleted => (hreplay hdeleted).2, ?_⟩
    intro shot hshot
    by_cases hne : field take "shotId" = shot
    · rw [if_pos hne, ← hne]
      exact (hreplay (hne ▸ hshot)).1.symm
    · rw [if_neg hne]
  · have hmerge := hreplay hresolve
    obtain hcut | hcut | hcut := hcut
    · simp [hdeleted] at hcut
    · simp [hmerge] at hcut
    · exact merged_step horder htake hdeleted hmerge hcut hmerged

/-- Every take of the loop is in order where its turn comes. -/
def TakesInOrder (env : DeliveryEnv) (d : Delivery) : Json → List Json → Prop
  | _, [] => True
  | timeline, take :: takes => TakeInOrder d.run timeline take ∧
      ∀ after, deliverTake env d timeline take = .ok after → TakesInOrder env d after takes

/-- The attempts of a shot among the takes of a payload. -/
def attemptsOf (shot : String) (takes : List Json) : List Nat :=
  (takes.filter fun take => field take "shotId" = shot).map attemptOf

theorem takes_step {env : DeliveryEnv} {d : Delivery} (hresolve : d.resolve = none)
    {takes : List Json} {timeline after : Json} (horder : InOrder d.run timeline)
    (htakes : ∀ take ∈ takes, isShotPicture d.run (field take "shotId") take = true)
    (hcut : TakesInOrder env d timeline takes)
    (h : takes.foldlM (deliverTake env d) timeline = .ok after) :
    Grows d.run timeline after ∧
      (∀ take ∈ takes, isDeleted timeline d.run (field take "shotId") = false →
        Seen d.run (field take "shotId") (shotView after d.run (field take "shotId"))
          (attemptOf take)) ∧
      ∀ shot, isDeleted timeline d.run shot = false →
        (shotView after d.run shot).carried =
          (attemptsOf shot takes).foldl raise (shotView timeline d.run shot).carried := by
  induction takes generalizing timeline with
  | nil =>
      cases h
      exact ⟨.refl _ _, by simp, fun _ _ => rfl⟩
  | cons take takes ih =>
      rw [List.foldlM_cons, Fallible.bind_eq_ok] at h
      obtain ⟨middle, hfirst, hrest⟩ := h
      obtain ⟨hgrows, hseen, hcarried⟩ := take_step hresolve horder (htakes take List.mem_cons_self)
        hcut.1 hfirst
      have hmiddle := hgrows.order horder
      obtain ⟨hgrows', hseen', hcarried'⟩ := ih hmiddle
        (fun other hother => htakes other (List.mem_cons_of_mem _ hother)) (hcut.2 middle hfirst)
          hrest
      refine ⟨hgrows.trans hgrows', ?_, ?_⟩
      · intro other hother hdeleted
        have hdeleted' := (hgrows.deleted _).trans hdeleted
        obtain rfl | hother := List.mem_cons.mp hother
        · exact hgrows'.seen hmiddle _ _ hdeleted' (hseen hdeleted)
        · exact hseen' other hother hdeleted'
      · intro shot hdeleted
        rw [hcarried' shot ((hgrows.deleted shot).trans hdeleted), hcarried shot hdeleted]
        by_cases hshot : field take "shotId" = shot
        · simp [attemptsOf, hshot]
        · simp [attemptsOf, hshot]

theorem foldlM_quiet {α : Type} {run : String} {g : Json → α → Except ProjectStoreError Json}
    {l : List α} (hg : ∀ a ∈ l, ∀ before after, g before a = .ok after → Quiet run before after)
    {before after : Json} (h : l.foldlM g before = .ok after) : Quiet run before after := by
  induction l generalizing before with
  | nil =>
      cases h
      exact .refl _ _
  | cons a l ih =>
      rw [List.foldlM_cons, Fallible.bind_eq_ok] at h
      obtain ⟨middle, hstep, hrest⟩ := h
      have hfirst := hg a List.mem_cons_self _ _ hstep
      exact hfirst.trans (ih (fun b hb => hg b (List.mem_cons_of_mem _ hb)) hrest)

/-- The run is open from then on: it has its slots and the assembly its version. -/
theorem openRun_quiet {run : String} {order : List Json} {timeline opened : Json}
    (h : openRun run order timeline = some opened) :
    Quiet run timeline opened ∧ ((runData opened run).idx "shotOrder").isNull = false ∧
      (assembly opened).get "schemaVersion" = some (.int 1) := by
  have hmiddle : ∃ middle, Quiet run timeline middle ∧
      ((runData middle run).idx "shotOrder").isNull = false ∧
      middle.put ["filmAssembly", "schemaVersion"] (.int 1) = some opened := by
    simp only [openRun] at h
    split at h
    · next hnull =>
        simp only [Option.bind_eq_bind, Option.bind_eq_some_iff] at h
        obtain ⟨middle, hmiddle, hput⟩ := h
        obtain ⟨hbooked, hedit⟩ := booked_of_edit hmiddle
        have horder : (runData middle run).idx "shotOrder" = .arr order := by
          simpa using hedit.symm
        refine ⟨middle,
          quiet_of_view (fun _ shot _ => hbooked.shotView (by decide) (by decide) shot)
          (hbooked.isDeleted (by decide)) ?_ ?_ ?_ ?_, by rw [horder]; rfl, hput⟩
        · exact fun _ => by rw [horder]; rfl
        · rw [hbooked.version]
          exact id
        · rw [hbooked.laneIds]
          exact List.Subset.refl _
        · intro id hid
          rw [hbooked.audioDelivered (by decide), hid]
    · next hnull => exact ⟨timeline, .refl _ _, by simpa using hnull, h⟩
  obtain ⟨middle, hquiet, hslots, hput⟩ := hmiddle
  obtain ⟨hruns, -, hframe⟩ := runs_put_version hput
  have hdata : runData opened run = runData middle run := by rw [runData_eq, hruns, ← runData_eq]
  have htracks := hframe "tracks" (by decide)
  have hversion : (assembly opened).get "schemaVersion" = some (.int 1) := by
    obtain ⟨_, hchild, hget⟩ := Json.get_edit_self (Json.idx_edit_self hput)
    cases hchild
    exact hget
  refine ⟨hquiet.trans (quiet_of_view ?_ ?_ ?_ (fun _ => hversion) ?_ ?_), ?_, hversion⟩
  · intro _ shot _
    simp only [shotView, pictureMarks_congr htracks, trimConflict, isApplied, hdata]
  · intro shot
    rw [isDeleted, isDeleted, hdata]
  · rw [hdata]
    exact id
  · rw [laneIds_congr htracks]
    exact List.Subset.refl _
  · intro id hid
    rw [audioDelivered, hdata]
    exact hid
  · rw [hdata]
    exact hslots

/-- A step that writes the tracks only, and no picture of them. -/
theorem quiet_of_tracks {run : String} {before after : Json}
    (hassembly : after.get "filmAssembly" = before.get "filmAssembly")
    (hmarks : (pictureMarks after).Perm (pictureMarks before))
      (hlanes : laneIds before ⊆ laneIds after) :
    Quiet run before after := by
  refine quiet_of_view ?_ ?_ ?_ ?_ hlanes ?_
  · intro horder shot hdeleted
    have hmarks' := eq_of_perm_short (hmarks.filter (isShotMark run shot))
      (horder shot hdeleted).unique
    simp only [shotView, hmarks', trimConflict, isApplied, runData_congr hassembly]
  · intro shot
    rw [isDeleted, isDeleted, runData_congr hassembly]
  · rw [runData_congr hassembly]
    exact id
  · rw [assembly_congr hassembly]
    exact id
  · intro id hid
    rw [audioDelivered_congr hassembly]
    exact hid

/-- The cut has the lane, if the lane has a name. -/
def LanePresent (timeline track : Json) : Prop :=
  ∀ id, (track.idx "id").asStr.filter (· ≠ "") = some id → .str id ∈ laneIds timeline

theorem establishLane_quiet {run : String} {timeline track after : Json}
    (h : establishLane timeline track = .ok after) :
    Quiet run timeline after ∧ LanePresent after track := by
  obtain ⟨hmarks, hassembly⟩ := establishLane_marks h
  have hlanes : laneIds timeline ⊆ laneIds after ∧ LanePresent after track := by
    simp only [establishLane] at h
    split at h
    · next hnone =>
        cases h
        refine ⟨List.Subset.refl _, ?_⟩
        intro id hid
        cases hnone.symm.trans hid
    · next id hid =>
        simp only [Fallible.bind_eq_ok, orPanic_eq_ok] at h
        obtain ⟨ts, hts, h⟩ := h
        have hids : laneIds timeline = ts.map (·.idx "id") := by
          rw [laneIds, tracks, Json.asArray_eq_some.mp hts]
          rfl
        split at h
        · next hany =>
            cases h
            refine ⟨List.Subset.refl _, ?_⟩
            intro id' hid'
            obtain rfl := Option.some.inj (hid.symm.trans hid')
            obtain ⟨existing, hmem, hsame⟩ := List.any_eq_true.mp hany
            rw [hids]
            exact List.mem_map.mpr ⟨existing, hmem, by simpa using hsame⟩
        · simp only [Fallible.bind_eq_ok, orPanic_eq_ok] at h
          obtain ⟨lane, hlane, hput⟩ := h
          have hlaneId : lane.idx "id" = track.idx "id" := Json.idx_edit_of_ne hlane (by decide)
          have hname : track.idx "id" = .str id := by
            have hstr := (Option.filter_eq_some_iff.mp hid).1
            cases hvalue : track.idx "id" <;> simp_all [Json.asStr]
          rw [hids, laneIds_put hput, List.map_append]
          refine ⟨List.subset_append_left _ _, ?_⟩
          intro id' hid'
          obtain rfl := Option.some.inj (hid.symm.trans hid')
          rw [laneIds_put hput]
          simp [hlaneId, hname]
  exact ⟨quiet_of_tracks hassembly (.of_eq hmarks) hlanes.1, hlanes.2⟩

/-- A lane that is there is not added again. -/
theorem establishLane_present {timeline track after : Json} (hpresent : LanePresent timeline track)
    (h : establishLane timeline track = .ok after) : after = timeline := by
  simp only [establishLane] at h
  split at h
  · exact (Except.ok.inj h).symm
  · next id hid =>
      simp only [Fallible.bind_eq_ok, orPanic_eq_ok] at h
      obtain ⟨ts, hts, h⟩ := h
      have hmem := hpresent id hid
      rw [laneIds, tracks, Json.asArray_eq_some.mp hts] at hmem
      obtain ⟨existing, hexisting, hsame⟩ := List.mem_map.mp hmem
      have hany : ts.any (fun existing => existing.idx "id" == .str id) = true :=
        List.any_eq_true.mpr ⟨existing, hexisting, by simp [hsame]⟩
      rw [if_pos hany] at h
      exact (Except.ok.inj h).symm

theorem pushItem_id {audio id track after : Json} (h : pushItem audio id track = some after) :
    after.idx "id" = track.idx "id" := by
  simp only [pushItem, Option.bind_eq_bind, Option.bind_eq_some_iff] at h
  obtain ⟨xs, -, h⟩ := h
  split at h
  · cases h
    rfl
  · cases h
    exact setItems_id _ _

theorem modifyFirstM_id {p : Json → Bool} {f : Json → Option Json}
    (hf : ∀ track after, f track = some after → after.idx "id" = track.idx "id")
    {ts ts' : List Json} (h : modifyFirstM p f ts = some ts') :
    ts'.map (·.idx "id") = ts.map (·.idx "id") := by
  induction ts generalizing ts' with
  | nil =>
      cases h
      rfl
  | cons track rest ih =>
      simp only [modifyFirstM] at h
      split at h
      · simp only [Option.bind_eq_bind, Option.bind_eq_some_iff] at h
        obtain ⟨new, hnew, hresult⟩ := h
        cases hresult
        simp [hf track new hnew]
      · simp only [Option.bind_eq_bind, Option.bind_eq_some_iff] at h
        obtain ⟨rest', hrest, hresult⟩ := h
        cases hresult
        simp [ih hrest]

theorem addAudio_lanes {timeline track audio id after : Json}
    (h : addAudio timeline track audio id = some after) : laneIds timeline ⊆ laneIds after := by
  simp only [addAudio, Option.bind_eq_bind, Option.bind_eq_some_iff] at h
  obtain ⟨ts, hts, h⟩ := h
  have hids : laneIds timeline = ts.map (·.idx "id") := by
    rw [laneIds, tracks, Json.asArray_eq_some.mp hts]
    rfl
  split at h
  · simp only [Option.bind_eq_some_iff] at h
    obtain ⟨ts', hts', hput⟩ := h
    rw [hids, laneIds_put hput, modifyFirstM_id (fun _ _ => pushItem_id) hts']
    exact List.Subset.refl _
  · simp only [Option.bind_eq_some_iff] at h
    obtain ⟨lane, hlane, lane', hlane', ts', hts', hput⟩ := h
    cases hts'
    rw [hids, laneIds_put hput, List.map_append]
    exact List.subset_append_left _ _

/-- The item is booked, or it waits for the picture of its shot. -/
def AudioSettled (run : String) (timeline : Json) (item : Json) : Prop :=
  audioDelivered timeline run ((item.idx "id").asStr.getD "") = true ∨
    field item "shotId" ≠ "" ∧ pictureOf timeline run (field item "shotId") = none

instance (run : String) (timeline item : Json) : Decidable (AudioSettled run timeline item) :=
  inferInstanceAs (Decidable (_ ∨ _))

theorem deliverAudio_quiet {run : String} {timeline after : Json} {entry : Json × Json}
    (hrole : field entry.2 "role" ≠ "picture") (h : deliverAudio run timeline entry = .ok after) :
    Quiet run timeline after ∧ (field entry.2 "shotId" = "" →
      audioDelivered after run ((entry.2.idx "id").asStr.getD "") = true) := by
  obtain ⟨rfl, hskip⟩ | ⟨-, audio, added, haudio, hadded, hput⟩ := deliverAudio_cases h
  · refine ⟨.refl _ _, ?_⟩
    intro hshot
    exact hskip.elim id fun hmissing => absurd hshot hmissing.1
  · obtain ⟨hassembly, extra, hextra, hperm⟩ := addAudio_marks hadded
    have hnone : itemMarks [audio] = [] :=
      itemMarks_of_not_picture (by rwa [field_placeAudio haudio (.inl rfl)])
    have hextra' : extra = [] := hextra.elim id fun h => h.trans hnone
    rw [hextra', List.append_nil] at hperm
    have hadd : Quiet run timeline added := quiet_of_tracks hassembly hperm (addAudio_lanes hadded)
    have hbooked := (booked_of_edit hput).1
    have hflag : ∀ id, audioDelivered after run id = _ := flag_put hput
    refine ⟨hadd.trans (quiet_of_view (fun _ shot _ =>
      hbooked.shotView (by decide) (by decide) shot)
      (hbooked.isDeleted (by decide)) ?_ ?_ ?_ ?_), fun _ => by rw [hflag]; simp⟩
    · rw [Json.idx_eq_of_get (hbooked.data "shotOrder" (by decide))]
      exact id
    · rw [hbooked.version]
      exact id
    · rw [hbooked.laneIds]
      exact List.Subset.refl _
    · intro id hid
      rw [hflag, ← audioDelivered, hid, Bool.true_or]

theorem deliverAudio_settled {run : String} {timeline after : Json} {entry : Json × Json}
    (hsettled : AudioSettled run timeline entry.2)
    (h : deliverAudio run timeline entry = .ok after) : after = timeline := by
  simp only [deliverAudio] at h
  obtain hdelivered | ⟨hshot, hnone⟩ := hsettled
  · rw [if_pos hdelivered] at h
    exact (Except.ok.inj h).symm
  · split at h
    · exact (Except.ok.inj h).symm
    · rw [if_pos (by simp [hshot, hnone])] at h
      exact (Except.ok.inj h).symm

/-- A payload of the run that settles no conflict; its audio lanes hold no pictures. -/
structure Unresolved (run : String) (payload : Json) : Prop where
  run_eq : (payload.idx "runId").asStr = some run
  resolve_eq : (payload.idx "resolveShotId").asStr = none
  audio : ∀ entry ∈ incomingAudio (payload.idx "timeline") run, field entry.2 "role" ≠ "picture"

def takesOf (run : String) (payload : Json) : List Json :=
  incomingTakes (payload.idx "timeline") run

def deliveryOf (run : String) (payload : Json) : Delivery where
  run := run
  resolve := none
  choice := (payload.idx "resolution").asStr
  incoming := payload.idx "timeline"

/-- No take of a delivery that succeeds undercuts a pending conflict when its turn comes. -/
def DeliveryInOrder (run : String) (timeline : Json) (op : DeliveryEnv × Json) : Prop :=
  ∀ opened after, openRun run (op.2.idx "shotOrder").elements timeline = some opened →
    deliver op.1 timeline op.2 = .ok after →
    TakesInOrder op.1 (deliveryOf run op.2) opened (takesOf run op.2)

theorem Stages.delivery_eq {env : DeliveryEnv} {timeline payload after : Json} {run : String}
    (st : Stages env timeline payload after) (h : Unresolved run payload) :
    st.d = deliveryOf run payload := by
  have hrun : st.d.run = run := Option.some.inj (st.run_eq.symm.trans h.run_eq)
  have hincoming := st.incoming_eq
  rw [incomingOf, h.resolve_eq] at hincoming
  have hresolve := st.resolve_eq.trans h.resolve_eq
  have hchoice := st.choice_eq
  cases hd : st.d with
  | mk run' resolve choice incoming =>
      rw [hd] at hrun hincoming hresolve hchoice
      rw [deliveryOf, Delivery.mk.injEq]
      exact ⟨hrun, hresolve, hchoice, (Except.ok.inj hincoming).symm⟩

/-- What a payload that was delivered leaves, as far as a later delivery of it looks. -/
structure Settled (run : String) (payload timeline : Json) : Prop where
  slots : ((runData timeline run).idx "shotOrder").isNull = false
  version : (assembly timeline).get "schemaVersion" = some (.int 1)
  takes : ∀ take ∈ takesOf run payload, isDeleted timeline run (field take "shotId") = false →
    Seen run (field take "shotId") (shotView timeline run (field take "shotId")) (attemptOf take)
  lanes : ∀ track ∈ incomingLanes (payload.idx "timeline"), LanePresent timeline track
  audio : ∀ entry ∈ incomingAudio (payload.idx "timeline") run, field entry.2 "shotId" = "" →
    audioDelivered timeline run ((entry.2.idx "id").asStr.getD "") = true

theorem Settled.grows {run : String} {payload before after : Json} (h : Settled run payload before)
    (horder : InOrder run before) (hgrows : Grows run before after) :
    Settled run payload after where
  slots := hgrows.slots h.slots
  version := hgrows.version h.version
  takes := by
    intro take htake hdeleted
    rw [hgrows.deleted] at hdeleted
    exact hgrows.seen horder _ _ hdeleted (h.takes take htake hdeleted)
  lanes := fun track htrack id hid => hgrows.lanes (h.lanes track htrack id hid)
  audio := fun entry hentry hshot => hgrows.audio _ (h.audio entry hentry hshot)

/-- What each turn of a quiet loop leaves is there at its end. -/
theorem foldlM_leaves {α : Type} {run : String} {g : Json → α → Except ProjectStoreError Json}
    {P : α → Json → Prop} {l : List α}
    (hg : ∀ a ∈ l, ∀ before after, g before a = .ok after → Quiet run before after ∧ P a after)
    (hP : ∀ a before after, Quiet run before after → P a before → P a after)
    {before after : Json} (h : l.foldlM g before = .ok after) : ∀ a ∈ l, P a after := by
  induction l generalizing before with
  | nil => simp
  | cons a l ih =>
      rw [List.foldlM_cons, Fallible.bind_eq_ok] at h
      obtain ⟨middle, hstep, hrest⟩ := h
      have htail : ∀ b ∈ l, ∀ before after, g before b = .ok after →
          Quiet run before after ∧ P b after :=
        fun b hb => hg b (List.mem_cons_of_mem _ hb)
      refine List.forall_mem_cons.mpr ⟨?_, ih htail hrest⟩
      have hquiet := foldlM_quiet (fun b hb _ _ hb' => (htail b hb _ _ hb').1) hrest
      exact hP a middle after hquiet (hg a List.mem_cons_self _ _ hstep).2

/-- The stages of an unresolved delivery. -/
theorem deliver_unresolved {run : String} {env : DeliveryEnv} {timeline payload after : Json}
    (hpayload : Unresolved run payload) (h : deliver env timeline payload = .ok after) :
    ∃ opened merged laned,
      openRun run (payload.idx "shotOrder").elements timeline = some opened ∧
      (takesOf run payload).foldlM (deliverTake env (deliveryOf run payload)) opened = .ok merged ∧
      (incomingLanes (payload.idx "timeline")).foldlM establishLane merged = .ok laned ∧
      (incomingAudio (payload.idx "timeline") run).foldlM (deliverAudio run) laned = .ok after := by
  obtain ⟨st⟩ := deliver_stages h
  have hd := st.delivery_eq hpayload
  refine ⟨st.opened, st.merged, st.laned, ?_, ?_, ?_, ?_⟩
  · simpa [hd, deliveryOf] using st.open_eq
  · simpa [hd, deliveryOf, takesOf] using st.takes_eq
  · simpa [hd, deliveryOf] using st.lanes_eq
  · simpa [hd, deliveryOf] using st.audio_eq

theorem deliver_step {run : String} {env : DeliveryEnv} {timeline payload after : Json}
    (horder : InOrder run timeline) (hpayload : Unresolved run payload)
    (hcut : DeliveryInOrder run timeline (env, payload))
    (h : deliver env timeline payload = .ok after) :
    Grows run timeline after ∧ Settled run payload after ∧
      ∀ shot, isDeleted timeline run shot = false →
        (shotView after run shot).carried =
          (attemptsOf shot (takesOf run payload)).foldl raise
            (shotView timeline run shot).carried := by
  obtain ⟨opened, merged, laned, hopen, htakes, hlanes, haudio⟩ := deliver_unresolved hpayload h
  obtain ⟨hopened, hslots, hversion⟩ := openRun_quiet hopen
  have horderOpened := hopened.order horder
  have hresolve : (deliveryOf run payload).resolve = none := rfl
  obtain ⟨hmerged, hseen, hcarried⟩ := takes_step hresolve horderOpened
    (fun take htake => isShotPicture_of_mem_takes htake) (hcut _ _ hopen h) htakes
  change Grows run opened merged at hmerged
  have horderMerged := hmerged.order horderOpened
  have hlaneStep : ∀ track ∈ incomingLanes (payload.idx "timeline"), ∀ before after,
      establishLane before track = .ok after → Quiet run before after ∧ LanePresent after track :=
    fun track _ before after => establishLane_quiet
  have haudioStep : ∀ entry ∈ incomingAudio (payload.idx "timeline") run, ∀ before after,
      deliverAudio run before entry = .ok after → Quiet run before after ∧
        (field entry.2 "shotId" = "" →
          audioDelivered after run ((entry.2.idx "id").asStr.getD "") = true) :=
    fun entry hentry before after => deliverAudio_quiet (hpayload.audio entry hentry)
  have hlaned :=
    foldlM_quiet (fun track htrack _ _ hstep => (hlaneStep track htrack _ _ hstep).1) hlanes
  have hadded := foldlM_quiet (fun entry hentry _ _ hstep => (haudioStep entry hentry _ _ hstep).1)
    haudio
  have hlanesLeft := foldlM_leaves hlaneStep
    (fun track _ _ hquiet hpresent id hid => hquiet.lanes (hpresent id hid)) hlanes
  have haudioLeft := foldlM_leaves haudioStep
    (fun entry _ _ hquiet hflag hshot => hquiet.audio _ (hflag hshot)) haudio
  have hquiet := hlaned.trans hadded
  refine ⟨(hopened.toGrows.trans hmerged).trans hquiet.toGrows, ⟨?_, ?_, ?_, ?_, haudioLeft⟩, ?_⟩
  · exact hquiet.slots (hmerged.slots hslots)
  · exact hquiet.version (hmerged.version hversion)
  · intro take htake hdeleted
    rw [hquiet.deleted, hmerged.deleted] at hdeleted
    exact hquiet.seen horderMerged _ _ ((hmerged.deleted _).trans hdeleted)
      (hseen take htake hdeleted)
  · exact fun track htrack id hid => hadded.lanes (hlanesLeft track htrack id hid)
  · intro shot hdeleted
    have hdeletedOpened := (hopened.deleted shot).trans hdeleted
    rw [hquiet.view horderMerged shot ((hmerged.deleted shot).trans hdeletedOpened),
      ← hopened.view horder shot hdeleted]
    exact hcarried shot hdeletedOpened

theorem foldlM_fixed {α : Type} {g : Json → α → Except ProjectStoreError Json} {l : List α}
    {timeline : Json} (hg : ∀ a ∈ l, ∀ after, g timeline a = .ok after → after = timeline)
    {after : Json} (h : l.foldlM g timeline = .ok after) : after = timeline := by
  induction l with
  | nil => exact (Except.ok.inj h).symm
  | cons a l ih =>
      rw [List.foldlM_cons, Fallible.bind_eq_ok] at h
      obtain ⟨middle, hstep, hrest⟩ := h
      obtain rfl := hg a List.mem_cons_self _ hstep
      exact ih (fun b hb => hg b (List.mem_cons_of_mem _ hb)) hrest

/-- Writing the value that is there changes nothing. -/
theorem put_self {value child : Json} {key : String} {path : List String} {new : Json}
    (hget : value.get key = some child) (hchild : child.put path new = some child) :
    value.put (key :: path) new = some value := by
  cases value with
  | obj fields =>
      have hidx : (Json.obj fields).idx key = child := by rw [Json.idx, hget]; rfl
      have hchild' : ((Json.obj fields).idx key).edit path (fun _ => new) = some child := by
        rw [hidx]
        exact hchild
      rw [Json.put, Json.edit_cons_of rfl hchild', JsonObject.write_self hget]
  | _ => simp [Json.get, Json.asObject] at hget

theorem openRun_settled {run : String} {order : List Json} {timeline : Json}
    (hslots : ((runData timeline run).idx "shotOrder").isNull = false)
    (hversion : (assembly timeline).get "schemaVersion" = some (.int 1)) :
    openRun run order timeline = some timeline := by
  have hassembly : timeline.get "filmAssembly" = some (assembly timeline) := by
    cases hget : timeline.get "filmAssembly" with
    | none =>
        rw [assembly, Json.idx, hget] at hversion
        cases hversion
    | some value => rw [assembly, Json.idx, hget]; rfl
  simp only [openRun, hslots, Bool.false_eq_true, if_false, Option.bind_eq_bind, Option.bind_some]
  exact put_self hassembly (put_self hversion rfl)

theorem takes_settled {env : DeliveryEnv} {d : Delivery} (hresolve : d.resolve = none)
    {takes : List Json} {timeline after : Json} (horder : InOrder d.run timeline)
    (hseen : ∀ take ∈ takes, isDeleted timeline d.run (field take "shotId") = false →
      Seen d.run (field take "shotId") (shotView timeline d.run (field take "shotId"))
        (attemptOf take))
    (hcut : TakesInOrder env d timeline takes)
    (h : takes.foldlM (deliverTake env d) timeline = .ok after) : after = timeline := by
  induction takes with
  | nil => exact (Except.ok.inj h).symm
  | cons take takes ih =>
      rw [List.foldlM_cons, Fallible.bind_eq_ok] at h
      obtain ⟨middle, hfirst, hrest⟩ := h
      have hskip : middle = timeline := by
        obtain ⟨-, ⟨hsame, -⟩ | ⟨hdeleted, hreplay, -⟩⟩ := deliverTake_cases hfirst
        · exact hsame
        · have hmerge := hreplay hresolve
          obtain hcut | hcut | hcut := hcut.1
          · simp [hdeleted] at hcut
          · simp [hmerge] at hcut
          · have hagain := replay_of_seen (horder _ hdeleted)
              (hseen take List.mem_cons_self hdeleted) hcut
            rw [← isReplay_eq, hmerge] at hagain
            cases hagain
      subst hskip
      exact ih (fun other hother => hseen other (List.mem_cons_of_mem _ hother))
        (hcut.2 _ hfirst) hrest

/-- A settled payload delivered again changes nothing, unless an audio item of it waited for
a picture that is there by now. -/
theorem deliver_settled {run : String} {env : DeliveryEnv} {timeline payload after : Json}
    (horder : InOrder run timeline) (hpayload : Unresolved run payload)
    (hcut : DeliveryInOrder run timeline (env, payload)) (hsettled : Settled run payload timeline)
    (haudio : ∀ entry ∈ incomingAudio (payload.idx "timeline") run, field entry.2 "shotId" ≠ "" →
      AudioSettled run timeline entry.2)
    (h : deliver env timeline payload = .ok after) : after = timeline := by
  obtain ⟨opened, merged, laned, hopen, htakes, hlanes, hadd⟩ := deliver_unresolved hpayload h
  have hcut' := hcut _ _ hopen h
  obtain rfl := Option.some.inj ((openRun_settled hsettled.slots hsettled.version).symm.trans hopen)
  have hresolve : (deliveryOf run payload).resolve = none := rfl
  obtain rfl := takes_settled hresolve horder hsettled.takes hcut' htakes
  obtain rfl := foldlM_fixed (fun track htrack _ hstep =>
    establishLane_present (hsettled.lanes track htrack) hstep) hlanes
  refine foldlM_fixed (fun entry hentry _ hstep => deliverAudio_settled ?_ hstep) hadd
  by_cases hshot : field entry.2 "shotId" = ""
  · exact .inl (hsettled.audio entry hentry hshot)
  · exact haudio entry hentry hshot

/-- A delivery that fails leaves the cut as it was. -/
def deliverStep (timeline : Json) (op : DeliveryEnv × Json) : Json :=
  match deliver op.1 timeline op.2 with
  | .ok after => after
  | .error _ => timeline

/-- The attempts of the shot that the deliveries which succeeded brought, in order. -/
def deliveredAttempts (run shot : String) : Json → List (DeliveryEnv × Json) → List Nat
  | _, [] => []
  | timeline, op :: ops =>
      (match deliver op.1 timeline op.2 with
        | .ok _ => attemptsOf shot (takesOf run op.2)
        | .error _ => []) ++ deliveredAttempts run shot (deliverStep timeline op) ops

/-- The payload was delivered before, by a delivery that succeeded. -/
def DeliveredBefore (start : Json) (front : List (DeliveryEnv × Json)) (payload : Json) : Prop :=
  ∃ before env rest, front = before ++ (env, payload) :: rest ∧
    (deliver env (Run.exec deliverStep start before) payload).isOk = true

theorem deliverStep_spec {run : String} {timeline : Json} {op : DeliveryEnv × Json}
    (horder : InOrder run timeline) (hpayload : Unresolved run op.2)
    (hcut : DeliveryInOrder run timeline op) :
    Grows run timeline (deliverStep timeline op) ∧
      ((deliver op.1 timeline op.2).isOk = true → Settled run op.2 (deliverStep timeline op)) ∧
      ∀ shot, isDeleted timeline run shot = false →
        (shotView (deliverStep timeline op) run shot).carried =
          (deliveredAttempts run shot timeline [op]).foldl raise
            (shotView timeline run shot).carried := by
  cases h : deliver op.1 timeline op.2 with
  | error e =>
      have hstep : deliverStep timeline op = timeline := by rw [deliverStep, h]
      rw [hstep]
      refine ⟨.refl _ _, fun hok => (nomatch hok), fun shot _ => ?_⟩
      simp [deliveredAttempts, h]
  | ok after =>
      have hstep : deliverStep timeline op = after := by rw [deliverStep, h]
      rw [hstep]
      obtain ⟨hgrows, hsettled, hcarried⟩ := deliver_step horder hpayload hcut h
      refine ⟨hgrows, fun _ => hsettled, fun shot hdeleted => ?_⟩
      simpa [deliveredAttempts, h] using hcarried shot hdeleted

/-- A run of deliveries: what grows, and what each shot carries at its end. -/
theorem deliveries_grow {run : String} {start : Json} {ops : List (DeliveryEnv × Json)}
    (hstart : InOrder run start) (hops : ∀ op ∈ ops, Unresolved run op.2)
    (halong : Run.Along deliverStep (DeliveryInOrder run) start ops) :
    Grows run start (Run.exec deliverStep start ops) ∧
      ∀ shot, isDeleted start run shot = false →
        (shotView (Run.exec deliverStep start ops) run shot).carried =
          (deliveredAttempts run shot start ops).foldl raise (shotView start run shot).carried := by
  induction ops generalizing start with
  | nil => exact ⟨.refl _ _, fun _ _ => rfl⟩
  | cons op ops ih =>
      obtain ⟨hgrows, -, hcarried⟩ := deliverStep_spec hstart (hops op List.mem_cons_self) halong.1
      obtain ⟨hrest, hcarriedRest⟩ := ih (hgrows.order hstart)
        (fun other hother => hops other (List.mem_cons_of_mem _ hother)) halong.2
      refine ⟨hgrows.trans hrest, fun shot hdeleted => ?_⟩
      rw [Run.exec_cons, hcarriedRest shot ((hgrows.deleted shot).trans hdeleted),
        hcarried shot hdeleted]
      simp [deliveredAttempts]

theorem settled_of_delivered {run : String} {start payload : Json}
    {front : List (DeliveryEnv × Json)} (hstart : InOrder run start)
    (hops : ∀ op ∈ front, Unresolved run op.2)
    (halong : Run.Along deliverStep (DeliveryInOrder run) start front)
    (h : DeliveredBefore start front payload) :
    Settled run payload (Run.exec deliverStep start front) := by
  obtain ⟨before, env, rest, rfl, hok⟩ := h
  obtain ⟨hbefore, hcut, hrest⟩ := Run.along_append.mp halong
  have hmem : ∀ op ∈ before, Unresolved run op.2 := fun op hop => hops op (by simp [hop])
  have horder := (deliveries_grow hstart hmem hbefore).1.order hstart
  obtain ⟨hgrows, hsettled, -⟩ := deliverStep_spec horder (hops (env, payload) (by simp)) hcut
  have horder' := hgrows.order horder
  have hgrowsRest := (deliveries_grow horder'
    (fun op hop => hops op (by simp [hop])) hrest).1
  rw [Run.exec_append, Run.exec_cons]
  exact (hsettled hok).grows horder' hgrowsRest

/-- A cut that knows nothing of the run is in order. -/
theorem inOrder_of_unmarked {run : String} {timeline : Json} (hmarks : pictureMarks timeline = [])
    (hdata : runData timeline run = .null) : InOrder run timeline := by
  intro shot _
  have hnull : ∀ key other, ((runData timeline run).idx key).idx other = .null := by
    rw [hdata]
    exact fun _ _ => rfl
  have hview : shotView timeline run shot = ⟨[], .null, fun _ => false⟩ := by
    refine ShotView.ext ?_ ?_ ?_
    · simp [shotView, hmarks]
    · exact hnull _ _
    · funext attempt
      simp [shotView, isApplied, hnull]
  rw [hview]
  exact
    { unique := by simp
      applied := by simp
      aligned := by simp
      pending := by simp }

instance (v : ShotView) (attempt : Nat) : Decidable (NotUndercut v attempt) :=
  inferInstanceAs (Decidable (_ → _))

instance (run : String) (timeline take : Json) : Decidable (TakeInOrder run timeline take) :=
  inferInstanceAs (Decidable (_ ∨ _ ∨ _))

theorem deliveryInOrder_single {run : String} {timeline take : Json} {op : DeliveryEnv × Json}
    (htakes : takesOf run op.2 = [take])
    (h : (openRun run (op.2.idx "shotOrder").elements timeline).all
      (fun opened => decide (TakeInOrder run opened take)) = true) :
    DeliveryInOrder run timeline op := by
  intro opened after hopen _
  rw [htakes]
  rw [hopen] at h
  exact ⟨of_decide_eq_true h, fun _ _ => trivial⟩

/-- At every point of a sequence of deliveries of one run whose takes undercut no pending
conflict, each shot that is not deleted carries the highest attempt delivered for it; and a
payload delivered before leaves the cut as it is, unless it brings an audio item whose shot
got its picture since. -/
theorem deliveries_carry_highest_and_replay (run : String) (start : Json)
    (ops : List (DeliveryEnv × Json)) (hstart : InOrder run start)
    (hops : ∀ op ∈ ops, Unresolved run op.2)
    (halong : Run.Along deliverStep (DeliveryInOrder run) start ops) :
    (∀ front back, ops = front ++ back → ∀ shot, isDeleted start run shot = false →
      (shotView (Run.exec deliverStep start front) run shot).carried =
        (deliveredAttempts run shot start front).foldl raise (shotView start run shot).carried) ∧
      ∀ front op back, ops = front ++ op :: back → DeliveredBefore start front op.2 →
        (∀ entry ∈ incomingAudio (op.2.idx "timeline") run, field entry.2 "shotId" ≠ "" →
          AudioSettled run (Run.exec deliverStep start front) entry.2) →
        deliverStep (Run.exec deliverStep start front) op = Run.exec deliverStep start front := by
  constructor
  · intro front back heq shot hdeleted
    subst heq
    exact (deliveries_grow hstart (fun op hop => hops op (List.mem_append_left _ hop))
      (Run.along_append.mp halong).1).2 shot hdeleted
  · intro front op back heq hbefore haudio
    subst heq
    obtain ⟨hfront, hcut, -⟩ := Run.along_append.mp halong
    have hmem : ∀ op ∈ front, Unresolved run op.2 := fun op hop => hops op (by simp [hop])
    have horder := (deliveries_grow hstart hmem hfront).1.order hstart
    have hsettled := settled_of_delivered hstart hmem hfront hbefore
    cases h : deliver op.1 (Run.exec deliverStep start front) op.2 with
    | error e => rw [deliverStep, h]
    | ok after =>
        rw [deliverStep, h]
        exact deliver_settled horder (hops op (by simp)) hcut hsettled haudio h

def sampleTake (attempt : Nat) (asset : String) : DeliveryEnv × Json :=
  (sampleFilm, takesPayload "run" [takeOf "run" "A" attempt asset])

/-- The take of one shot, with a line of another. -/
def takeAndLine : DeliveryEnv × Json :=
  (sampleFilm, payloadOf "run" [videoTrack [takeOf "run" "B" 1 "b1"],
    audioTrack "voice" [soundOf "run" "A" "line"]])

theorem sampleTake_silent (attempt : Nat) (asset : String) :
    incomingAudio ((sampleTake attempt asset).2.idx "timeline") "run" = [] := rfl

theorem sampleTake_unresolved (attempt : Nat) (asset : String) :
    Unresolved "run" (sampleTake attempt asset).2 where
  run_eq := rfl
  resolve_eq := rfl
  audio := by
    rw [sampleTake_silent]
    exact fun entry hentry => absurd hentry List.not_mem_nil

/-- The short third attempt stays pending beside the first one, which changes nothing when
it is delivered again. -/
theorem sample_takes_replay :
    (shotView (Run.exec deliverStep emptyCut [sampleTake 1 "a1", sampleTake 3 "short"]) "run"
        "A").carried =
      (deliveredAttempts "run" "A" emptyCut [sampleTake 1 "a1", sampleTake 3 "short"]).foldl raise
        (shotView emptyCut "run" "A").carried ∧
    deliverStep (Run.exec deliverStep emptyCut [sampleTake 1 "a1", sampleTake 3 "short"])
        (sampleTake 1 "a1") =
      Run.exec deliverStep emptyCut [sampleTake 1 "a1", sampleTake 3 "short"] := by
  have hstart : InOrder "run" emptyCut :=
    inOrder_of_unmarked (by decide +kernel) (by decide +kernel)
  obtain ⟨hcarried, hreplay⟩ := deliveries_carry_highest_and_replay "run" emptyCut
    [sampleTake 1 "a1", sampleTake 3 "short", sampleTake 1 "a1"] hstart
    (by
      intro op hop
      simp only [List.mem_cons, List.not_mem_nil, or_false] at hop
      obtain rfl | rfl | rfl := hop <;> exact sampleTake_unresolved _ _)
    ⟨deliveryInOrder_single rfl (by decide +kernel), deliveryInOrder_single rfl (by decide +kernel),
      deliveryInOrder_single rfl (by decide +kernel), trivial⟩
  refine ⟨hcarried [sampleTake 1 "a1", sampleTake 3 "short"] [sampleTake 1 "a1"] rfl "A"
    (by decide +kernel), ?_⟩
  refine hreplay [sampleTake 1 "a1", sampleTake 3 "short"] (sampleTake 1 "a1") [] rfl
    ⟨[], sampleFilm, [sampleTake 3 "short"], rfl, by decide +kernel⟩ ?_
  rw [sampleTake_silent]
  exact fun entry hentry => absurd hentry List.not_mem_nil

/-- A line of a shot without a picture waits: its payload, delivered again after the picture
came, places it. -/
theorem delivered_line_not_replay_safe :
    ¬ ∀ (run : String) (start : Json) (ops : List (DeliveryEnv × Json)), InOrder run start →
      (∀ op ∈ ops, Unresolved run op.2 ∧ takesOf run op.2 ≠ []) →
      Run.Along deliverStep (DeliveryInOrder run) start ops →
      ∀ front op back, ops = front ++ op :: back → DeliveredBefore start front op.2 →
        deliverStep (Run.exec deliverStep start front) op = Run.exec deliverStep start front := by
  intro h
  have hstart : InOrder "run" emptyCut :=
    inOrder_of_unmarked (by decide +kernel) (by decide +kernel)
  have hline : Unresolved "run" takeAndLine.2 :=
    { run_eq := rfl
      resolve_eq := rfl
      audio := by decide +kernel }
  have hsame := h "run" emptyCut [takeAndLine, sampleTake 1 "a1", takeAndLine] hstart
    (by
      intro op hop
      simp only [List.mem_cons, List.not_mem_nil, or_false] at hop
      obtain rfl | rfl | rfl := hop
      · exact ⟨hline, by decide +kernel⟩
      · exact ⟨sampleTake_unresolved _ _, by decide +kernel⟩
      · exact ⟨hline, by decide +kernel⟩)
    ⟨deliveryInOrder_single rfl (by decide +kernel), deliveryInOrder_single rfl (by decide +kernel),
      deliveryInOrder_single rfl (by decide +kernel), trivial⟩
    [takeAndLine, sampleTake 1 "a1"] takeAndLine [] rfl
    ⟨[], sampleFilm, [sampleTake 1 "a1"], rfl, by decide +kernel⟩
  revert hsame
  decide +kernel

end SceneWorks.FilmTimeline
