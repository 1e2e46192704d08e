import SceneWorks.FilmTimeline.Metadata

/-!
When the document a reconciliation leaves can be checked again. Every run that either cut
mentions is written to, and every listed run has its slots read through a mutable index,
which leaves a null where there were none. So the result is valid exactly when the film
assembly lists all these runs and gives each run it lists a `shotOrder`.
-/

namespace SceneWorks.FilmTimeline

/-- The film assembly the reconciliation works on. -/
def carriedAssembly (previous next : Json) : Json :=
  ((next.get "filmAssembly").or (previous.get "filmAssembly")).getD .null

/-- The runs of the pictures of both cuts and of the tombstones of the previous one. -/
def mentionedRuns (previous next : Json) : List String :=
  (pictures previous).map (field · "runId") ++ (tombstones previous).map Prod.fst ++
    (pictures next).map (field · "runId")

def assemblyRuns (assembly : Json) : List (String × Json) :=
  (assembly.idx "runs").asObject.getD []

/-- The film assembly lists every run the cuts mention, and each with its slots. -/
def SlotsComplete (previous next : Json) : Prop :=
  (carriedAssembly previous next).isObject = true →
    (∀ entry ∈ assemblyRuns (carriedAssembly previous next), HasShotOrder entry.2) ∧
      ∀ run ∈ mentionedRuns previous next,
        JsonObject.containsKey (assemblyRuns (carriedAssembly previous next)) run = true

theorem foldlM_touched {α : Type} {g : Json → α → Option Json} (target : α → Option String)
    (hskip : ∀ timeline a, target a = none → g timeline a = some timeline)
    (hwrite : ∀ timeline a run, Ready timeline → target a = some run →
      ∃ after, g timeline a = some after ∧ Touched [run] timeline after)
    (l : List α) {timeline : Json} (h : Ready timeline) :
    ∃ after, l.foldlM g timeline = some after ∧ Touched (l.filterMap target) timeline after := by
  induction l generalizing timeline with
  | nil => exact ⟨timeline, rfl, .refl h⟩
  | cons a l ih =>
      cases htarget : target a with
      | none =>
          obtain ⟨after, hfold, htouched⟩ := ih h
          refine ⟨after, ?_, ?_⟩
          · simp [List.foldlM_cons, hskip timeline a htarget, hfold]
          · rw [List.filterMap_cons_none htarget]
            exact htouched
      | some run =>
          obtain ⟨middle, hstep, hmiddle⟩ := hwrite timeline a run h htarget
          obtain ⟨after, hfold, htouched⟩ := ih hmiddle.ready
          refine ⟨after, ?_, ?_⟩
          · simp [List.foldlM_cons, hstep, hfold]
          · rw [List.filterMap_cons_some htarget]
            exact hmiddle.trans htouched

/-- Writing one tombstone. -/
theorem touched_put {timeline : Json} (h : Ready timeline) (run shot : String) (stamp : Json) :
    ∃ after, timeline.put (deletedShotsPath run ++ [shot]) stamp = some after ∧
      Touched [run] timeline after := by
  obtain ⟨after, hedit⟩ := edit_deletedShots h run [shot] (fun _ => stamp)
    fun value hvalue => Json.edit_cons_isSome hvalue rfl
  refine ⟨after, hedit, touched_of_edit h ?_ hedit⟩
  intro value new _ hnew
  exact .inr (Json.isObject_edit hnew)

theorem removeEntry_shape {value : Json} (key : String)
    (h : value = .null ∨ value.isObject = true) :
    removeEntry key value = .null ∨ (removeEntry key value).isObject = true := by
  obtain rfl | h := h
  · exact .inl rfl
  · obtain ⟨fields, rfl⟩ := Json.isObject_iff.mp h
    exact .inr rfl

theorem touched_clear {timeline : Json} (h : Ready timeline) (p : Present) :
    ∃ after, clearTombstone timeline p = some after ∧ Touched [p.run] timeline after := by
  obtain ⟨after, hedit⟩ := edit_deletedShots h p.run [] (removeEntry p.shot)
    fun value _ => ⟨_, rfl⟩
  refine ⟨after, hedit, touched_of_edit h ?_ hedit⟩
  intro value new hvalue hnew
  cases hnew
  exact removeEntry_shape p.shot hvalue

def dropTarget (cut : List Present) (item : Json) : Option String :=
  if Present.holds cut (field item "runId") (field item "shotId") then none
  else some (field item "runId")

def carryTarget (cut : List Present) (stone : String × String × Json) : Option String :=
  if Present.holds cut stone.1 stone.2.1 then none else some stone.1

theorem buryDropped_skips (cut : List Present) (nextRevision : Nat) (timeline item : Json)
    (h : dropTarget cut item = none) :
    buryDropped cut nextRevision timeline item = some timeline := by
  have hholds : Present.holds cut (field item "runId") (field item "shotId") = true := by
    simpa [dropTarget] using h
  simp [buryDropped, hholds]

theorem buryDropped_touches (cut : List Present) (nextRevision : Nat) (timeline item : Json)
    (run : String) (hready : Ready timeline) (h : dropTarget cut item = some run) :
    ∃ after, buryDropped cut nextRevision timeline item = some after ∧
      Touched [run] timeline after := by
  obtain ⟨hholds, hrun⟩ := Option.ite_none_left_eq_some.mp h
  cases hrun
  rw [buryDropped, if_neg hholds]
  exact touched_put hready _ _ _

theorem carryTombstone_skips (cut : List Present) (timeline : Json)
    (stone : String × String × Json) (h : carryTarget cut stone = none) :
    carryTombstone cut timeline stone = some timeline := by
  have hholds : Present.holds cut stone.1 stone.2.1 = true := by
    simpa [carryTarget] using h
  simp [carryTombstone, hholds]

theorem carryTombstone_touches (cut : List Present) (timeline : Json)
    (stone : String × String × Json) (run : String) (hready : Ready timeline)
    (h : carryTarget cut stone = some run) :
    ∃ after, carryTombstone cut timeline stone = some after ∧ Touched [run] timeline after := by
  obtain ⟨hholds, hrun⟩ := Option.ite_none_left_eq_some.mp h
  cases hrun
  rw [carryTombstone, if_neg hholds]
  exact touched_put hready _ _ _

/-- The three loops over tombstones, with the runs they write to. -/
theorem tombstoneLoops_touched (previous : Json) {next : Json} (h : Ready next) (cut : List Present)
    (nextRevision : Nat) :
    ∃ buried carried cleared written,
      (pictures previous).foldlM (buryDropped cut nextRevision) next = some buried ∧
      (tombstones previous).foldlM (carryTombstone cut) buried = some carried ∧
      cut.foldlM clearTombstone carried = some cleared ∧ Touched written next cleared ∧
      ∀ run, run ∈ written ↔
        run ∈ (pictures previous).map (field · "runId") ∨
          run ∈ (tombstones previous).map Prod.fst ∨ run ∈ cut.map Present.run := by
  obtain ⟨buried, hbury, htouched₁⟩ := foldlM_touched (dropTarget cut) (buryDropped_skips _ _)
    (buryDropped_touches _ _) (pictures previous) h
  obtain ⟨carried, hcarry, htouched₂⟩ := foldlM_touched (carryTarget cut) (carryTombstone_skips _)
    (carryTombstone_touches _) (tombstones previous) htouched₁.ready
  obtain ⟨cleared, hclear, htouched₃⟩ := foldlM_touched (fun p => some p.run)
    (fun _ _ h => nomatch h) (fun _ p _ hready h => Option.some.inj h ▸ touched_clear hready p)
    cut htouched₂.ready
  refine ⟨buried, carried, cleared, _, hbury, hcarry, hclear,
    (htouched₁.trans htouched₂).trans htouched₃, ?_⟩
  intro run
  -- A picture or tombstone that the next cut holds is skipped, but its run is in the cut.
  have hcut : ∀ shot, Present.holds cut run shot = true → run ∈ cut.map Present.run := by
    intro shot hholds
    obtain ⟨p, hp, hrun⟩ := List.any_eq_true.mp hholds
    simp only [Bool.and_eq_true, beq_iff_eq] at hrun
    exact List.mem_map.mpr ⟨p, hp, hrun.1⟩
  simp only [List.mem_append, List.mem_filterMap, List.mem_map, dropTarget, carryTarget,
    Option.ite_none_left_eq_some, Option.some.injEq] at hcut ⊢
  constructor
  · intro h
    rcases h with (⟨item, hitem, -, rfl⟩ | ⟨stone, hstone, -, rfl⟩) | ⟨p, hp, rfl⟩
    · exact .inl ⟨item, hitem, rfl⟩
    · exact .inr (.inl ⟨stone, hstone, rfl⟩)
    · exact .inr (.inr ⟨p, hp, rfl⟩)
  · intro h
    rcases h with ⟨item, hitem, rfl⟩ | ⟨stone, hstone, rfl⟩ | ⟨p, hp, rfl⟩
    · by_cases hholds : Present.holds cut (field item "runId") (field item "shotId") = true
      · exact .inr (hcut _ hholds)
      · exact .inl (.inl ⟨item, hitem, hholds, rfl⟩)
    · by_cases hholds : Present.holds cut stone.1 stone.2.1 = true
      · exact .inr (hcut _ hholds)
      · exact .inl (.inr ⟨stone, hstone, hholds, rfl⟩)
    · exact .inr ⟨p, hp, rfl⟩

theorem fillSlots_str (ordered : List String) (slots : List Json) (cursor : List String)
    (h : ∀ slot ∈ slots, slot.asStr.isSome = true) :
    ∀ slot ∈ fillSlots ordered slots cursor, slot.asStr.isSome = true := by
  induction slots generalizing cursor with
  | nil => simp [fillSlots]
  | cons slot slots ih =>
      have hslot := h slot List.mem_cons_self
      have hrest := fun cursor => ih cursor fun s hs => h s (List.mem_cons_of_mem _ hs)
      simp only [fillSlots]
      split
      · cases cursor with
        | nil => exact List.forall_mem_cons.mpr ⟨hslot, hrest _⟩
        | cons shot cursor => exact List.forall_mem_cons.mpr ⟨rfl, hrest _⟩
      · exact List.forall_mem_cons.mpr ⟨hslot, hrest _⟩

/-- Slots that were there stay a list of shots; slots that were not become a null. -/
theorem validShotOrder_reorder (ordered : List String) {order : Option Json}
    (h : validShotOrder order = true) :
    validShotOrder (some (reorderSlots ordered (order.getD .null))) = true ↔
        order.isSome = true := by
  cases order with
  | none => simp [reorderSlots, validShotOrder, Json.asArray]
  | some value =>
      cases value with
      | arr slots =>
          simp only [validShotOrder, Json.asArray, List.all_eq_true] at h
          simpa [reorderSlots, validShotOrder, Json.asArray] using fillSlots_str ordered slots _ h
      | _ => simp [validShotOrder, Json.asArray] at h

theorem reorderRun_valid (cut : List Present) (run : String) {data : Json}
    (h : validRun data = true) :
    ∃ result, reorderRun cut run data = some result ∧
      (validRun result = true ↔ HasShotOrder data) ∧
      ∀ key, key ≠ "shotOrder" → result.get key = data.get key := by
  have hvalid := (validRun_iff data).mp h
  obtain ⟨result, hresult⟩ := Json.edit_cons_isSome (.inr hvalid.1) (Json.edit_nil
    (data.idx "shotOrder") (reorderSlots (orderedShots cut run)))
  refine ⟨result, hresult, ?_, fun key hkey => Json.get_edit_of_ne hresult (Ne.symm hkey)⟩
  obtain ⟨order, horder, hget⟩ := Json.get_edit_self hresult
  cases horder
  have hkeys : ∀ key ∈ deliveryMetadataKeys,
      result.idx key = .null ∨ (result.idx key).isObject = true := by
    intro key hkey
    have hne : "shotOrder" ≠ key := by
      intro e
      simp [← e, deliveryMetadataKeys] at hkey
    rw [Json.idx_edit_of_ne hresult hne]
    exact hvalid.2.1 key hkey
  rw [validRun_iff, hget, Json.idx, validShotOrder_reorder _ hvalid.2.2]
  exact ⟨fun h => h.2.2, fun h => ⟨Json.isObject_edit hresult, hkeys, h⟩⟩

/-- The last loop succeeds, and leaves valid runs exactly where all had their slots. -/
theorem mapM_reorderRun {fields : JsonObject} (cut : List Present)
    (h : ∀ entry ∈ fields, validRun entry.2 = true) :
    ∃ result, fields.mapM (fun entry =>
        (reorderRun cut entry.1 entry.2).map fun data => (entry.1, data)) = some result ∧
      ((∀ entry ∈ result, validRun entry.2 = true) ↔ ∀ entry ∈ fields, HasShotOrder entry.2) := by
  induction fields with
  | nil => exact ⟨[], rfl, by simp⟩
  | cons head rest ih =>
      obtain ⟨run, data⟩ := head
      obtain ⟨hdata, hrest⟩ := List.forall_mem_cons.mp h
      obtain ⟨new, hnew, hiff, -⟩ := reorderRun_valid cut run hdata
      obtain ⟨result, hresult, hall⟩ := ih hrest
      refine ⟨(run, new) :: result, ?_, ?_⟩
      · simp [List.mapM_cons, hnew, hresult]
      · simp only [List.forall_mem_cons, hiff, hall]

theorem reorderRuns_valid {timeline : Json} (cut : List Present) (h : Ready timeline) :
    ∃ after, reorderRuns cut timeline = some after ∧
      (MetadataValid after ↔ SlotsListed timeline) ∧
      ∀ key, key ≠ "filmAssembly" → after.get key = timeline.get key := by
  obtain ⟨fields, hassembly⟩ := Json.isObject_iff.mp h.assembly_object
  have hget : timeline.get "filmAssembly" = some (.obj fields) := by
    cases hget : timeline.get "filmAssembly" with
    | none => simp [assembly, Json.idx, hget] at hassembly
    | some value => simpa [assembly, Json.idx, hget] using hassembly
  have hruns : runs timeline = ((JsonObject.get fields "runs").getD .null) := by
    rw [runs, hassembly]
    rfl
  cases hentries : (JsonObject.get fields "runs").bind Json.asObject with
  | none =>
      refine ⟨timeline, by simp [reorderRuns, hget, hentries], ?_, fun _ _ => rfl⟩
      have hempty : runEntries timeline = [] := by
        rw [runEntries, hruns]
        cases hrunsGet : JsonObject.get fields "runs" with
        | none => rfl
        | some value => simpa [hrunsGet] using congrArg (·.getD []) hentries
      simp [SlotsListed, hempty, h.valid]
  | some entries =>
      obtain ⟨value, hvalue, hobj⟩ := Option.bind_eq_some_iff.mp hentries
      cases value with
      | obj entries' =>
          cases hobj
          have hruns' : runs timeline = .obj entries := by rw [hruns, hvalue]; rfl
          have hall : ∀ entry ∈ entries, validRun entry.2 = true := by
            obtain hnull | ⟨_, hobj, hall⟩ := h.runs_valid
            · rw [hruns'] at hnull
              cases hnull
            · rw [hruns'] at hobj
              cases hobj
              exact hall
          obtain ⟨result, hresult, hiff⟩ := mapM_reorderRun cut hall
          obtain ⟨_, hinner⟩ := Json.edit_cons_isSome (.inr h.assembly_object)
            (Json.edit_nil (runs timeline) fun _ => .obj result)
          obtain ⟨after, hafter⟩ := Json.edit_cons_isSome
            (.inr (Json.isObject_of_idx h.assembly_object)) hinner
          refine ⟨after, by simp [reorderRuns, hget, hentries, hresult, Json.put, hafter], ?_,
            fun key hkey => Json.get_edit_of_ne hafter (Ne.symm hkey)⟩
          have hassembly' := Json.idx_edit_self hafter
          have hruns'' : runs after = .obj result := by
            have hedit : some (Json.obj result) = some (runs after) := Json.idx_edit_self hassembly'
            exact (Option.some.inj hedit).symm
          have hobject : (assembly after).isObject = true := Json.isObject_edit hassembly'
          have hentries' : runEntries timeline = entries := by rw [runEntries, hruns']; rfl
          rw [SlotsListed, hentries', ← hiff, MetadataValid, hruns'']
          constructor
          · intro hvalid
            obtain hnull | ⟨-, hnull | ⟨_, hobj, hvalid⟩⟩ := hvalid
            · rw [hnull] at hobject
              cases hobject
            · cases hnull
            · cases hobj
              exact hvalid
          · exact fun hvalid => .inr ⟨hobject, .inr ⟨_, rfl, hvalid⟩⟩
      | _ => simp [Json.asObject] at hobj

theorem carryAssembly_spec (previous : Json) {next : Json} (h : next.isObject = true) :
    ∃ carried, carryAssembly previous next = some carried ∧
      assembly carried = carriedAssembly previous next ∧
      (carried.get "filmAssembly" = (next.get "filmAssembly").or (previous.get "filmAssembly")) ∧
      ∀ key, key ≠ "filmAssembly" → carried.get key = next.get key := by
  cases hnext : next.get "filmAssembly" with
  | some value =>
      refine ⟨next, by simp [carryAssembly, hnext], ?_, by simp [hnext], fun _ _ => rfl⟩
      simp [assembly, carriedAssembly, Json.idx, hnext]
  | none =>
      cases hprevious : previous.get "filmAssembly" with
      | none =>
          refine ⟨next, by simp [carryAssembly, hprevious], ?_, by simp [hnext], fun _ _ => rfl⟩
          simp [assembly, carriedAssembly, Json.idx, hnext, hprevious]
      | some value =>
          have hidx : previous.idx "filmAssembly" = value := by simp [Json.idx, hprevious]
          obtain ⟨carried, hcarried⟩ := Json.edit_cons_isSome (.inr h)
            (Json.edit_nil (next.idx "filmAssembly") fun _ => value)
          obtain ⟨_, hchild, hget⟩ := Json.get_edit_self hcarried
          cases hchild
          refine ⟨carried, by simp [carryAssembly, hnext, hprevious, hidx, Json.put, hcarried], ?_,
            by simp [hget], fun key hkey => Json.get_edit_of_ne hcarried (Ne.symm hkey)⟩
          simp [assembly, carriedAssembly, Json.idx, hget, hnext, hprevious]

theorem pictures_congr {a b : Json} (h : a.get "tracks" = b.get "tracks") :
    pictures a = pictures b := by
  simp only [pictures, items, tracks, Json.idx, h]

theorem carriedAssembly_valid {previous next carried : Json} (hprevious : MetadataValid previous)
    (hnext : MetadataValid next)
    (h : assembly carried = carriedAssembly previous next) : MetadataValid carried := by
  have hcases : carriedAssembly previous next = assembly next ∨
      carriedAssembly previous next = assembly previous := by
    simp only [carriedAssembly, assembly, Json.idx]
    cases next.get "filmAssembly" with
    | none => exact .inr (by simp)
    | some value => exact .inl (by simp)
  rw [MetadataValid, runs, h]
  obtain e | e := hcases
  · rw [e]
    exact hnext
  · rw [e]
    exact hprevious

/-- The document a reconciliation of two valid cuts leaves is valid exactly when the film
assembly lists every run the cuts mention and gives each run it lists its slots. -/
theorem reconcileCut_valid {previous next : Json} (nextRevision : Nat)
    (hobject : next.isObject = true) (hprevious : MetadataValid previous)
    (hnext : MetadataValid next) :
    ∃ after, reconcileCut previous next nextRevision = some after ∧
      (MetadataValid after ↔ SlotsComplete previous next) ∧
      ∀ key, key ≠ "filmAssembly" → after.get key = next.get key := by
  obtain ⟨carried, hcarry, hassembly, hget, hframe⟩ := carryAssembly_spec previous hobject
  have hvalid := carriedAssembly_valid hprevious hnext hassembly
  have htest : (carried.get "filmAssembly").any Json.isObject =
      (carriedAssembly previous next).isObject := by
    rw [← hassembly, assembly, Json.idx]
    cases carried.get "filmAssembly" <;> rfl
  cases hobj : (carriedAssembly previous next).isObject with
  | false =>
      refine ⟨carried, by simp [reconcileCut, hcarry, htest, hobj], ?_, hframe⟩
      simp [SlotsComplete, hobj, hvalid]
  | true =>
      have hready : Ready carried := by
        obtain hnull | hvalid := hvalid
        · rw [hassembly] at hnull
          rw [hnull] at hobj
          cases hobj
        · exact ⟨hvalid.1, hvalid.2⟩
      obtain ⟨buried, stones, cleared, written, hbury, hstones, hclear, htouched, hwritten⟩ :=
        tombstoneLoops_touched previous hready (present carried) nextRevision
      obtain ⟨after, hafter, hiff, hframe'⟩ := reorderRuns_valid (present carried) htouched.ready
      refine ⟨after, ?_, ?_, fun key hkey =>
        (hframe' key hkey).trans ((htouched.frame key hkey).trans (hframe key hkey))⟩
      · simp [reconcileCut, hcarry, htest, hobj, hbury, hstones, hclear, hafter]
      have hcut : (present carried).map Present.run = (pictures next).map (field · "runId") := by
        rw [present, List.map_map, pictures_congr (hframe "tracks" (by decide))]
        rfl
      have hentries : runEntries carried = assemblyRuns (carriedAssembly previous next) := by
        rw [runEntries, runs, hassembly]
        rfl
      rw [hiff, htouched.slots, SlotsListed, SlotsComplete, hobj, hentries]
      simp only [forall_const, Listed, hentries]
      refine and_congr_right fun _ => forall_congr' fun run => ?_
      rw [hwritten, hcut, mentionedRuns, List.mem_append, List.mem_append, or_assoc]

end SceneWorks.FilmTimeline
