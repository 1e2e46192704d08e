import SceneWorks.ProjectStore.Savable

/-!
A deleted shot stays deleted for as long as its tombstone is there. A save that drops a
picture writes the tombstone and every later save carries it on, provided that the film
assembly they work on is an object; a delivery skips a shot with a tombstone.
-/

namespace SceneWorks.ProjectStore

open FilmTimeline

def stamp (timeline : Json) (run shot : String) : Json :=
  ((runData timeline run).idx "deletedShots").idx shot

theorem isDeleted_iff {timeline : Json} {run shot : String} :
    isDeleted timeline run shot = true ↔ stamp timeline run shot ≠ .null := by
  rw [isDeleted, stamp]
  simp [← Json.isNull_iff]

theorem stamp_congr {a b : Json} (h : a.get "filmAssembly" = b.get "filmAssembly")
    (run shot : String) : stamp a run shot = stamp b run shot := by
  rw [stamp, stamp, runData_congr h]

theorem stamp_put {timeline after value : Json} {run shot : String}
    (h : timeline.put (deletedShotsPath run ++ [shot]) value = some after) (r s : String) :
    stamp after r s = if run = r ∧ shot = s then value else stamp timeline r s := by
  obtain ⟨hbooked, hedit⟩ := booked_of_edit h
  by_cases hrun : run = r
  · subst hrun
    by_cases hshot : shot = s
    · subst hshot
      have hvalue : some value = some (stamp after run shot) := Json.idx_edit_self hedit
      rw [if_pos ⟨rfl, rfl⟩]
      exact (Option.some.inj hvalue).symm
    · rw [if_neg fun h => hshot h.2]
      exact Json.idx_edit_of_ne hedit hshot
  · rw [if_neg fun h => hrun h.1, stamp, stamp, hbooked.siblings r (Ne.symm hrun)]

theorem stamp_clear {timeline after : Json} {p : Present} {run shot : String}
    (h : clearTombstone timeline p = some after) (hne : ¬ (p.run = run ∧ p.shot = shot)) :
    stamp after run shot = stamp timeline run shot := by
  obtain ⟨hbooked, hedit⟩ := booked_of_edit h
  by_cases hrun : p.run = run
  · subst hrun
    have hshot : p.shot ≠ shot := fun e => hne ⟨rfl, e⟩
    have hvalue := Option.some.inj hedit
    rw [stamp, stamp, ← hvalue, idx_removeEntry hshot]
  · rw [stamp, stamp, hbooked.siblings run (Ne.symm hrun)]

/-- A loop of writes that are all non-null for the shot leaves it a tombstone if it had one
or one of the writes is for it. -/
theorem foldlM_stamp {α : Type} {g : Json → α → Option Json} {run shot : String}
    (hits : α → Prop) {l : List α}
    (hg : ∀ a ∈ l, ∀ before after, g before a = some after →
      stamp after run shot = stamp before run shot ∧ ¬ hits a ∨ stamp after run shot ≠ .null)
    {before after : Json} (h : l.foldlM g before = some after)
    (hstart : stamp before run shot ≠ .null ∨ ∃ a ∈ l, hits a) : stamp after run shot ≠ .null := by
  induction l generalizing before with
  | nil =>
      cases h
      exact hstart.elim id fun ⟨a, ha, _⟩ => nomatch ha
  | cons a l ih =>
      simp only [List.foldlM_cons, Option.bind_eq_bind, Option.bind_eq_some_iff] at h
      obtain ⟨middle, hstep, hrest⟩ := h
      refine ih (fun b hb => hg b (List.mem_cons_of_mem _ hb)) hrest ?_
      obtain ⟨hsame, hmiss⟩ | hset := hg a List.mem_cons_self _ _ hstep
      · obtain hstart | ⟨b, hb, hhit⟩ := hstart
        · exact .inl (hsame ▸ hstart)
        · obtain rfl | hb := List.mem_cons.mp hb
          · exact absurd hhit hmiss
          · exact .inr ⟨b, hb, hhit⟩
      · exact .inl hset

theorem holds_present_iff {timeline : Json} {run shot : String} :
    Present.holds (present timeline) run shot = true ↔
      ∃ item ∈ pictures timeline, field item "runId" = run ∧ field item "shotId" = shot := by
  simp [Present.holds, present]

theorem mem_tombstones {timeline : Json} {run shot : String} {value : Json} :
    (run, shot, value) ∈ tombstones timeline ↔
      ((runData timeline run).idx "deletedShots").get shot = some value := by
  have hobject : ∀ (v : Json) (key : String) (x : Json),
      (key, x) ∈ JsonObject.entries (v.asObject.getD []) ↔ v.get key = some x := by
    intro v key x
    rw [JsonObject.mem_entries, Json.get]
    cases v.asObject <;> simp
  simp only [tombstones, List.mem_flatMap, List.mem_map, Prod.exists, Prod.mk.injEq, hobject]
  constructor
  · intro h
    obtain ⟨r, data, hdata, s, x, hx, rfl, rfl, rfl⟩ := h
    have hrunData : runData timeline r = data := congrArg (·.getD .null) hdata
    rw [hrunData]
    exact hx
  · intro h
    cases hdata : ((timeline.idx "filmAssembly").idx "runs").get run with
    | none =>
        have hrunData : runData timeline run = .null := congrArg (·.getD .null) hdata
        rw [hrunData] at h
        simp [Json.idx, Json.get, Json.asObject] at h
    | some data =>
        have hrunData : runData timeline run = data := congrArg (·.getD .null) hdata
        rw [hrunData] at h
        exact ⟨run, data, hdata, shot, value, h, rfl, rfl, rfl⟩

/-- The tombstone of the shot is there but holds nothing. -/
def NullStone (timeline : Json) (run shot : String) : Prop :=
  ((runData timeline run).idx "deletedShots").get shot = some .null

theorem not_nullStone_of_deleted {timeline : Json} {run shot : String}
    (h : isDeleted timeline run shot = true) : ¬ NullStone timeline run shot := by
  intro hnull
  rw [isDeleted_iff, stamp, Json.idx, hnull] at h
  exact h rfl

theorem stamp_reorder {cut : List Present} {timeline after : Json}
    (h : reorderRuns cut timeline = some after) (run shot : String) :
    stamp after run shot = stamp timeline run shot := by
  simp only [reorderRuns] at h
  split at h
  · cases h
    rfl
  · next fields hfields =>
      simp only [Option.bind_eq_bind, Option.bind_eq_some_iff] at h
      obtain ⟨result, hresult, hput⟩ := h
      have hruns : (timeline.idx "filmAssembly").idx "runs" = .obj fields := by
        obtain ⟨runsValue, hvalue, hobj⟩ := Option.bind_eq_some_iff.mp hfields
        obtain ⟨asm, hasm, hget⟩ := Option.bind_eq_some_iff.mp hvalue
        rw [Json.idx, Json.idx, hasm, Option.getD_some, hget, Json.asObject_eq_some.mp hobj]
        rfl
      have hruns' : (after.idx "filmAssembly").idx "runs" = .obj result := by
        have hedit := Json.idx_edit_self (Json.idx_edit_self hput)
        exact (Option.some.inj hedit).symm
      obtain ⟨hget, -⟩ := JsonObject.get_mapM hresult run
      rw [stamp, stamp, runData, runData, hruns, hruns']
      simp only [Json.idx, Json.get_obj] at hget ⊢
      rw [← hget]
      cases hdata : JsonObject.get fields run with
      | none => rfl
      | some data =>
          simp only [Option.bind_some, Option.getD_some]
          cases hnew : reorderRun cut run data with
          | none =>
              have hsome := (JsonObject.get_mapM hresult run).2
              rw [← (JsonObject.get_mapM hresult run).1, hdata, Option.bind_some, hnew] at hsome
              cases hsome
          | some new =>
              rw [Option.getD_some, Json.get_edit_of_ne hnew (by decide)]

/-- The reconciliation leaves a tombstone for a shot that the next cut has no picture of and
the previous one had a picture or a tombstone of. -/
theorem reconcileCut_buries {previous next after : Json} {nextRevision : Nat} {run shot : String}
    (hrun : run ≠ "") (hobject : next.isObject = true)
    (hassembly : (carriedAssembly previous next).isObject = true)
    (hnone : ¬ HasPicture next run shot) (hstone : ¬ NullStone previous run shot)
    (hold : HasPicture previous run shot ∨ isDeleted previous run shot = true)
    (h : reconcileCut previous next nextRevision = some after) :
    isDeleted after run shot = true := by
  obtain ⟨carried, hcarry, hcarried, -, hframe⟩ := carryAssembly_spec previous hobject
  have htest : (carried.get "filmAssembly").any Json.isObject = true := by
    rw [← hcarried, assembly, Json.idx] at hassembly
    cases hget : carried.get "filmAssembly" with
    | none => simp [hget, Json.isObject] at hassembly
    | some value => simpa [hget] using hassembly
  simp only [reconcileCut, hcarry, Option.bind_eq_bind, Option.bind_some, htest, if_true,
    Option.bind_eq_some_iff] at h
  obtain ⟨buried, hbury, stones, hcarryStones, cleared, hclear, hreorder⟩ := h
  have hholds : Present.holds (present carried) run shot = false := by
    rw [Bool.eq_false_iff]
    intro hholds
    obtain hpicture := exists_picture_iff.mp (holds_present_iff.mp hholds)
    rw [HasPicture, pictureMarks_congr (hframe "tracks" (by decide))] at hpicture
    exact hnone hpicture.2
  have hburied : HasPicture previous run shot → stamp buried run shot ≠ .null := by
    intro hpicture
    obtain ⟨item, hitem, hitemRun, hitemShot⟩ := exists_picture_iff.mpr ⟨hrun, hpicture⟩
    refine foldlM_stamp (fun item => field item "runId" = run ∧ field item "shotId" = shot)
      ?_ hbury (.inr ⟨item, hitem, hitemRun, hitemShot⟩)
    intro item _ before middle hstep
    simp only [buryDropped] at hstep
    split at hstep
    · next hpresent =>
        cases hstep
        refine .inl ⟨rfl, fun hhit => ?_⟩
        rw [hhit.1, hhit.2, hholds] at hpresent
        cases hpresent
    · rw [stamp_put hstep]
      by_cases hhit : field item "runId" = run ∧ field item "shotId" = shot
      · exact .inr (by simp [hhit, deletedStamp])
      · exact .inl ⟨if_neg hhit, hhit⟩
  have hstones : stamp stones run shot ≠ .null := by
    refine foldlM_stamp (fun stone : String × String × Json => stone.1 = run ∧ stone.2.1 = shot)
      ?_ hcarryStones ?_
    · intro stone hmem before middle hstep
      simp only [carryTombstone] at hstep
      split at hstep
      · next hpresent =>
          cases hstep
          refine .inl ⟨rfl, fun hhit => ?_⟩
          rw [hhit.1, hhit.2, hholds] at hpresent
          cases hpresent
      · rw [stamp_put hstep]
        by_cases hhit : stone.1 = run ∧ stone.2.1 = shot
        · refine .inr ?_
          rw [if_pos hhit]
          obtain ⟨r, s, value⟩ := stone
          obtain ⟨rfl, rfl⟩ := hhit
          intro hnull
          exact hstone (mem_tombstones.mp (hnull ▸ hmem))
        · exact .inl ⟨if_neg hhit, hhit⟩
    · obtain hpicture | hdeleted := hold
      · exact .inl (hburied hpicture)
      · refine .inr ?_
        rw [isDeleted_iff, stamp, Json.idx] at hdeleted
        cases hget : ((runData previous run).idx "deletedShots").get shot with
        | none => simp [hget] at hdeleted
        | some value => exact ⟨(run, shot, value), mem_tombstones.mpr hget, rfl, rfl⟩
  have hcleared : stamp cleared run shot ≠ .null := by
    refine foldlM_stamp (fun _ => False) ?_ hclear (.inl hstones)
    intro p hp before middle hstep
    refine .inl ⟨stamp_clear hstep fun hhit => ?_, id⟩
    have hpresent : Present.holds (present carried) run shot = true := by
      rw [Present.holds, List.any_eq_true]
      exact ⟨p, hp, by simp [hhit]⟩
    rw [hholds] at hpresent
    cases hpresent
  rw [isDeleted_iff, stamp_reorder hreorder]
  exact hcleared

def Shows (document : Json) (run shot : String) : Prop :=
  ∃ item ∈ pictures document, field item "runId" = run ∧ field item "shotId" = shot

/-- A save whose own document has a picture of the shot. -/
def Restores (run shot : String) (_ : Option Json) : TimelineCall → Prop
  | .save _ document => Shows document run shot
  | .deliver _ _ _ => False

/-- A save works on a film assembly: its own, or the stored one it does not mention. -/
def KeepsTombstones (stored : Option Json) : TimelineCall → Prop
  | .save _ document => ∀ previous, stored = some previous →
      (carriedAssembly previous document).isObject = true
  | .deliver _ _ _ => True

/-- The stored cut has a tombstone for the shot and no picture of it. -/
def Buried (run shot : String) (stored : Option Json) : Prop :=
  ∃ document, stored = some document ∧ isDeleted document run shot = true ∧
    ¬ HasPicture document run shot

theorem saved_buried {previous document after : Json} {run shot : String} (hrun : run ≠ "")
    (hassembly : (carriedAssembly previous document).isObject = true)
    (hnone : ¬ HasPicture document run shot) (hstone : ¬ NullStone previous run shot)
    (hold : HasPicture previous run shot ∨ isDeleted previous run shot = true)
    (h : Saved (some previous) document after) : Buried run shot (some after) := by
  obtain ⟨-, reconciled, hcut, hget⟩ := h.assembly_cut previous rfl
  refine ⟨after, rfl, ?_, ?_⟩
  · rw [isDeleted_iff, stamp_congr hget, ← isDeleted_iff]
    exact reconcileCut_buries hrun h.object hassembly hnone hstone hold hcut
  · rw [HasPicture, h.marks]
    exact hnone

theorem delivered_buried {run shot delivered : String} {before merged : Json}
    (h : Delivered delivered before merged) (hdeleted : isDeleted before run shot = true)
    (hnone : ¬ HasPicture before run shot) : ¬ HasPicture merged run shot := by
  intro hpicture
  obtain hold | ⟨rfl, hfree⟩ := h.new run shot hpicture
  · exact hnone hold
  · rw [hdeleted] at hfree
    cases hfree

theorem carriedAssembly_of_object {previous next : Json}
    (h : (assembly next).isObject = true) : (carriedAssembly previous next).isObject = true := by
  rw [assembly, Json.idx] at h
  rw [carriedAssembly]
  cases hget : next.get "filmAssembly" with
  | none => simp [hget, Json.isObject] at h
  | some value => simpa [hget] using h

theorem buried_step {timelineId run shot : String} (hrun : run ≠ "") (stored : Option Json)
    (c : TimelineCall) (hburied : Buried run shot stored) (hkeeps : KeepsTombstones stored c)
    (hother : ¬ Restores run shot stored c) :
    Buried run shot (timelineStep timelineId stored c) := by
  obtain ⟨before, rfl, hdeleted, hnone⟩ := hburied
  cases hresult : c.run timelineId (some before) with
  | error e =>
      simp only [timelineStep, hresult]
      exact ⟨before, rfl, hdeleted, hnone⟩
  | ok after =>
      simp only [timelineStep, hresult]
      cases c with
      | save env document =>
          simp only [TimelineCall.run] at hresult
          split at hresult
          · have hnone' : ¬ HasPicture document run shot := fun hpicture =>
              hother (exists_picture_iff.mpr ⟨hrun, hpicture⟩)
            exact saved_buried hrun (hkeeps before rfl) hnone' (not_nullStone_of_deleted hdeleted)
              (.inr hdeleted) (saveTimeline_saved hresult)
          · cases hresult
      | deliver env film payload =>
          have hdeliver : deliverFilmTimeline env film timelineId (some before) payload =
              .ok after := hresult
          obtain ⟨found, hfound, hcases⟩ := deliverFilmTimeline_cases hdeliver
          cases hfound
          obtain rfl | ⟨merged, hmerged, hsaved⟩ := hcases
          · exact ⟨after, rfl, hdeleted, hnone⟩
          · obtain ⟨st⟩ := deliver_stages hmerged
            have hdelivered := st.delivered
            exact saved_buried hrun (carriedAssembly_of_object hdelivered.object)
              (delivered_buried hdelivered hdeleted hnone) (not_nullStone_of_deleted hdeleted)
              (.inr hdeleted) hsaved

/-- A shot whose picture a save dropped is not put back by any delivery before a save that
has a picture of it, provided that the saves from that one on work on a film assembly and
the cut it was dropped from did not list the shot with a null tombstone. -/
theorem deleted_shot_stays_deleted (timelineId run shot : String) (previous document : Json)
    (env : CallEnv) (calls : List TimelineCall) (hshown : Shows previous run shot)
    (hdropped : ¬ Shows document run shot)
    (hsaved : ∃ after,
      (TimelineCall.save env document).run timelineId (some previous) = .ok after)
    (hstone : ¬ NullStone previous run shot)
    (hkeeps : KeepsTombstones (some previous) (.save env document))
    (hcalls : Run.AlongUntil (timelineStep timelineId) (Restores run shot) KeepsTombstones
      (timelineStep timelineId (some previous) (.save env document)) calls) :
    Run.ThroughoutUntil (timelineStep timelineId) (Restores run shot)
      (fun stored => ∀ current, stored = some current → ¬ Shows current run shot)
      (timelineStep timelineId (some previous) (.save env document)) calls := by
  obtain ⟨hrun, hpicture⟩ := exists_picture_iff.mp hshown
  have hstart : Buried run shot (timelineStep timelineId (some previous) (.save env document)) := by
    obtain ⟨after, hafter⟩ := hsaved
    simp only [timelineStep, hafter]
    simp only [TimelineCall.run] at hafter
    split at hafter
    · have hnone : ¬ HasPicture document run shot := fun h =>
        hdropped (exists_picture_iff.mpr ⟨hrun, h⟩)
      exact saved_buried hrun (hkeeps previous rfl) hnone hstone (.inl hpicture)
        (saveTimeline_saved hafter)
    · cases hafter
  refine Run.throughoutUntil_of_invariant (Buried run shot) (buried_step hrun) ?_ hstart hcalls
  intro stored hburied current hcurrent hshows
  obtain ⟨document', rfl, -, hnone⟩ := hburied
  cases hcurrent
  exact hnone (exists_picture_iff.mp hshows).2

/-- The sample cut with a picture of shot A on it, its film assembly as given. -/
def cutWith (filmAssembly : Json) (takes : List Json) : Json :=
  .obj [("filmAssembly", filmAssembly), ("id", .str "timeline_a"), ("name", .str "Cut"),
    ("projectId", .str "project_a"),
    ("tracks", .arr [.obj [("id", .str "main"), ("items", .arr takes), ("kind", .str "video"),
      ("name", .str "Main")]])]

def placedTake (run shot : String) (attempt : Nat) : Json :=
  .obj [("assetId", .str "a1"), ("displayName", .str shot),
    ("filmHarness", .obj [("attempt", .int attempt), ("role", .str "picture"), ("runId", .str run),
      ("shotId", .str shot)]), ("id", .str "item_a"), ("sourceIn", .int 0), ("sourceOut", .int 4),
    ("timelineEnd", .int 4), ("timelineStart", .int 0), ("trackId", .str "main")]

def slottedAssembly : Json :=
  .obj [("runs", .obj [("run", .obj [("shotOrder", .arr [.str "A", .str "B"])])])]

/-- A save that drops the picture and sends a null film assembly leaves no tombstone, and the
next delivery puts the shot back. -/
theorem null_assembly_revives_shot :
    (cutWith slottedAssembly [placedTake "run" "A" 1]).get "filmAssembly" = some slottedAssembly ∧
      (pictures (cutWith slottedAssembly [placedTake "run" "A" 1])).any
        (isShotPicture "run" "A") = true ∧
      (pictures (cutWith .null [])).any (isShotPicture "run" "A") = false ∧
      ((TimelineCall.save sampleEnv (cutWith .null [])).run "timeline_a"
        (some (cutWith slottedAssembly [placedTake "run" "A" 1]))).isOk = true ∧
      (Run.exec (timelineStep "timeline_a")
        (some (cutWith slottedAssembly [placedTake "run" "A" 1]))
        [.save sampleEnv (cutWith .null []), .deliver sampleEnv sampleFilm
          (takesPayload "run" [takeOf "run" "A" 2 "a2"])]).any
        (fun stored => (pictures stored).any (isShotPicture "run" "A")) = true := by
  decide +kernel

/-- With the film assembly left out of the same save the shot stays deleted. -/
theorem dropped_sample_stays_deleted :
    Run.ThroughoutUntil (timelineStep "timeline_a") (Restores "run" "A")
      (fun stored => ∀ current, stored = some current → ¬ Shows current "run" "A")
      (timelineStep "timeline_a" (some (cutWith slottedAssembly [placedTake "run" "A" 1]))
        (.save sampleEnv emptyCut))
      [.deliver sampleEnv sampleFilm (takesPayload "run" [takeOf "run" "A" 2 "a2"])] := by
  refine deleted_shot_stays_deleted "timeline_a" "run" "A" _ emptyCut sampleEnv _ ?_ ?_ ?_ ?_ ?_
    ⟨trivial, fun _ => trivial⟩
  · exact ⟨placedTake "run" "A" 1, by decide +kernel, by decide +kernel⟩
  · intro h
    obtain ⟨item, hitem, -⟩ := h
    have hnone : pictures emptyCut = [] := by decide +kernel
    rw [hnone] at hitem
    cases hitem
  · have hok : ((TimelineCall.save sampleEnv emptyCut).run "timeline_a"
        (some (cutWith slottedAssembly [placedTake "run" "A" 1]))).isOk = true := by
      decide +kernel
    cases hresult : (TimelineCall.save sampleEnv emptyCut).run "timeline_a"
        (some (cutWith slottedAssembly [placedTake "run" "A" 1])) with
    | ok after => exact ⟨after, rfl⟩
    | error e =>
        rw [hresult] at hok
        cases hok
  · intro hnull
    exact absurd (mem_tombstones.mpr hnull) (by decide +kernel)
  · intro previous hprevious
    cases hprevious
    decide +kernel

end SceneWorks.ProjectStore
