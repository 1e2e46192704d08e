import SceneWorks.FilmTimeline.Marks

/-!
One inversion lemma for each step of a delivery: the merge of a take, the establishing of
a lane and the adding of an audio item, and the frame they share.
-/

namespace SceneWorks.FilmTimeline

theorem runData_eq (timeline : Json) (run : String) :
    runData timeline run = (runs timeline).idx run :=
  rfl

/-- A write below one key of one run's data. -/
structure Booked (run key : String) (before after : Json) : Prop where
  object : (assembly after).isObject = true
  others : (runEntries after).eraseP (fun entry => entry.1 == run) =
    (runEntries before).eraseP fun entry => entry.1 == run
  listed : JsonObject.containsKey (runEntries after) run = true
  version : (assembly after).get "schemaVersion" = (assembly before).get "schemaVersion"
  siblings : ∀ other, other ≠ run → runData after other = runData before other
  data : ∀ other, other ≠ key → (runData after run).get other = (runData before run).get other
  frame : ∀ other, other ≠ "filmAssembly" → after.get other = before.get other

theorem booked_of_edit {timeline after : Json} {run key : String} {path : List String}
    {f : Json → Json} (h : timeline.edit (runPath run (key :: path)) f = some after) :
    Booked run key timeline after ∧
      ((runData timeline run).idx key).edit path f = some ((runData after run).idx key) := by
  obtain ⟨data, hdata, ⟨fields, hfields⟩, hruns⟩ := runs_of_edit h
  have hentries : runEntries after = JsonObject.write (runEntries timeline) run data := by
    rw [runEntries, hruns]
    rfl
  have hlookup : runData after run = data := by
    rw [runData_eq, hruns, Json.idx, Json.get_obj, JsonObject.get_write, if_pos rfl]
    rfl
  refine ⟨⟨Json.isObject_edit (Json.idx_edit_self h), ?_, ?_,
    Json.get_edit_of_ne (Json.idx_edit_self h) (by decide), ?_, ?_, ?_⟩, ?_⟩
  · rw [hentries, JsonObject.eraseP_write]
  · rw [hentries, JsonObject.containsKey, JsonObject.get_write, if_pos rfl]
    rfl
  · intro other hother
    refine Json.idx_eq_of_get ?_
    change (runs after).get other = (runs timeline).get other
    rw [hruns, Json.get_obj, JsonObject.get_write, if_neg (Ne.symm hother),
      runEntries_of_runs hfields, Json.entriesMut_get hfields]
  · intro other hother
    rw [hlookup]
    exact Json.get_edit_of_ne hdata (Ne.symm hother)
  · exact fun other hother => Json.get_edit_of_ne h (Ne.symm hother)
  · rw [hlookup]
    exact Json.idx_edit_self hdata

theorem idx_removeEntry {value : Json} {key other : String} (h : key ≠ other) :
    (removeEntry key value).idx other = value.idx other := by
  cases value with
  | obj fields => exact Json.idx_eq_of_get (JsonObject.get_remove fields h)
  | _ => rfl

theorem idx_removeEntry_self (value : Json) (key : String) :
    (removeEntry key value).idx key = .null := by
  cases value with
  | obj fields =>
      rw [removeEntry, Json.idx, Json.get_obj, JsonObject.get_remove_self]
      rfl
  | _ => rfl

/-- A take with its delivery id and measured length written into its record. -/
structure Stamped (id : String) (take stamped : Json) : Prop where
  exists_record : ∃ record, stamped.get "filmHarness" = some record ∧
    record.get "deliveryId" = some (.str id) ∧
    ∀ key, key ≠ "deliveryId" → key ≠ "alignedDurationSeconds" →
      record.get key = (take.idx "filmHarness").get key

theorem stamped_of_put {id : String} {take first second : Json} {length : F64}
    (h₁ : take.put ["filmHarness", "deliveryId"] (.str id) = some first)
    (h₂ : first.put ["filmHarness", "alignedDurationSeconds"] (.ofF64 length) = some second) :
    Stamped id take second := by
  obtain ⟨record, hrecord, hget⟩ := Json.get_edit_self h₂
  have hfirst := Json.idx_edit_self h₁
  refine ⟨record, hget, ?_, ?_⟩
  · rw [Json.get_edit_of_ne hrecord (by decide)]
    obtain ⟨_, hchild, hid⟩ := Json.get_edit_self hfirst
    cases hchild
    exact hid
  · intro key hid haligned
    rw [Json.get_edit_of_ne hrecord (Ne.symm haligned), Json.get_edit_of_ne hfirst (Ne.symm hid)]

theorem Stamped.field {id : String} {take stamped : Json} (h : Stamped id take stamped)
    {key : String} (hid : key ≠ "deliveryId") (haligned : key ≠ "alignedDurationSeconds") :
    field stamped key = field take key := by
  obtain ⟨record, hget, -, hrecord⟩ := h.exists_record
  rw [FilmTimeline.field, hget, Option.bind_some, hrecord key hid haligned, FilmTimeline.field,
    Json.idx]
  cases take.get "filmHarness" <;> rfl

theorem Stamped.deliveryIdOf {id : String} {take stamped : Json} (h : Stamped id take stamped) :
    deliveryIdOf stamped = .str id := by
  obtain ⟨record, hget, hid, -⟩ := h.exists_record
  rw [FilmTimeline.deliveryIdOf, Json.idx, Json.idx, hget, Option.getD_some, hid]
  rfl

theorem Stamped.attemptField {id : String} {take stamped : Json} (h : Stamped id take stamped) :
    attemptField stamped = attemptField take := by
  obtain ⟨record, hget, -, hrecord⟩ := h.exists_record
  have hattempt := hrecord "attempt" (by decide) (by decide)
  have hidx : stamped.idx "filmHarness" = record := by rw [Json.idx, hget]; rfl
  rw [FilmTimeline.attemptField, FilmTimeline.attemptField, hidx, Json.idx, hattempt, ← Json.idx]

theorem Stamped.isShotPicture {id run shot : String} {take stamped : Json}
    (h : Stamped id take stamped) :
    isShotPicture run shot stamped = isShotPicture run shot take := by
  simp only [FilmTimeline.isShotPicture]
  rw [h.field (by decide) (by decide), h.field (by decide) (by decide),
    h.field (by decide) (by decide)]

theorem replacePicture_mark {choice : Option String} {current take new : Json} {length : F64}
    (h : replacePicture choice current take length = .ok new) :
    new.get "filmHarness" = some (take.idx "filmHarness") := by
  simp only [replacePicture, Fallible.bind_eq_ok, orPanic_eq_ok] at h
  obtain ⟨adopted, -, hput⟩ := h
  obtain ⟨_, hchild, hget⟩ := Json.get_edit_self hput
  cases hchild
  exact hget

/-- What the merge of a take can do: keep a conflict, replace the shot's picture, or insert
the shot's first one. -/
inductive Merged (env : DeliveryEnv) (d : Delivery) (timeline take : Json) : Json → Prop where
  | conflict {current stamped after : Json} (length : F64)
      (hexisting : existingPicture timeline d.run (field take "shotId") = some current)
      (hstamped : Stamped (deliveryId d.run (field take "shotId") (attemptOf take)) take stamped)
      (hput : timeline.put (runPath d.run ["trimConflicts", field take "shotId"])
        (conflictRecord current stamped (field take "shotId") length) = some after) :
      Merged env d timeline take after
  | replaced {current stamped new retracked cleared after : Json}
      (hexisting : existingPicture timeline d.run (field take "shotId") = some current)
      (hstamped : Stamped (deliveryId d.run (field take "shotId") (attemptOf take)) take stamped)
      (hnew : new.get "filmHarness" = stamped.get "filmHarness")
      (htracks : timeline.put ["tracks"] (.arr (replaceFirstItem
        (isShotPicture d.run (field take "shotId")) new (tracks timeline))) = some retracked)
      (hclear : retracked.edit (runPath d.run ["trimConflicts"])
        (removeEntry (field take "shotId")) = some cleared)
      (hmark : cleared.put (runPath d.run ["appliedDeliveries",
        deliveryId d.run (field take "shotId") (attemptOf take)]) (.bool true) = some after) :
      Merged env d timeline take after
  | inserted {stamped retracked after : Json}
      (hexisting : existingPicture timeline d.run (field take "shotId") = none)
      (hstamped : Stamped (deliveryId d.run (field take "shotId") (attemptOf take)) take stamped)
      (hmarks : (pictureMarks retracked).Perm (pictureMarks timeline ++ itemMarks [stamped]))
      (hlanes : laneIds retracked = laneIds timeline)
      (hassembly : retracked.get "filmAssembly" = timeline.get "filmAssembly")
      (hmark : retracked.put (runPath d.run ["appliedDeliveries",
        deliveryId d.run (field take "shotId") (attemptOf take)]) (.bool true) = some after) :
      Merged env d timeline take after

theorem mergeTake_cases {env : DeliveryEnv} {d : Delivery} {timeline take after : Json}
    (h : mergeTake env d timeline take = .ok after) : Merged env d timeline take after := by
  simp only [mergeTake, Fallible.bind_eq_ok, orBadRequest_eq_ok, orPanic_eq_ok] at h
  obtain ⟨asset, -, length, -, first, hfirst, stamped, hsecond, h⟩ := h
  have hstamped := stamped_of_put hfirst hsecond
  cases hexisting : existingPicture timeline d.run (field take "shotId") with
  | some current =>
      simp only [hexisting] at h
      split at h
      · exact .conflict length hexisting hstamped (orPanic_eq_ok.mp h)
      · simp only [Fallible.bind_eq_ok, orPanic_eq_ok, markApplied] at h
        obtain ⟨new, hnew, retracked, htracks, cleared, hclear, hmark⟩ := h
        refine .replaced hexisting hstamped ?_ htracks hclear hmark
        obtain ⟨record, hget, -⟩ := hstamped.exists_record
        rw [replacePicture_mark hnew, hget, Json.idx, hget]
        rfl
  | none =>
      simp only [hexisting, Fallible.bind_eq_ok, orPanic_eq_ok, markApplied] at h
      obtain ⟨retracked, hinsert, hmark⟩ := h
      obtain ⟨hmarks, hlanes, hassembly⟩ := insertPicture_marks hinsert
      exact .inserted hexisting hstamped hmarks hlanes hassembly hmark

/-- What a take does: it is skipped, or merged if no mark of the cut tells otherwise. -/
theorem deliverTake_cases {env : DeliveryEnv} {d : Delivery} {timeline take after : Json}
    (h : deliverTake env d timeline take = .ok after) :
    field take "shotId" ≠ "" ∧
      (after = timeline ∧ (isDeleted timeline d.run (field take "shotId") = true ∨
          d.resolve = none ∧
            isReplay timeline d.run (field take "shotId") (attemptOf take) = true) ∨
        isDeleted timeline d.run (field take "shotId") = false ∧
          (d.resolve = none →
            isReplay timeline d.run (field take "shotId") (attemptOf take) = false) ∧
          Merged env d timeline take after) := by
  simp only [deliverTake] at h
  split at h
  · cases h
  · next hshot =>
      refine ⟨hshot, ?_⟩
      split at h
      · next hdeleted =>
          cases h
          exact .inl ⟨rfl, .inl hdeleted⟩
      · next hdeleted =>
          split at h
          · next hreplay =>
              cases h
              simp only [Bool.and_eq_true, Option.isNone_iff_eq_none] at hreplay
              exact .inl ⟨rfl, .inr hreplay⟩
          · next hreplay =>
              refine .inr ⟨by simpa using hdeleted, ?_, mergeTake_cases h⟩
              intro hresolve
              simpa [hresolve] using hreplay

end SceneWorks.FilmTimeline
