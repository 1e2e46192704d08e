import SceneWorks.FilmAssembly.Pictures

/-!
The sound of a film that is delivered shot by shot. Every item of the run that belongs to a
shot stays at the place of its picture plus its offset, and what was added once stays.
-/

namespace SceneWorks.FilmAssembly

variable {env : DeliveryEnv} {film : Film env}

/-- The audio items the payloads of the film carry, each with its lane. -/
def Film.entries (film : Film env) : List (Track × Item) :=
  film.order.flatMap fun shot => incomingAudio (film.payload shot)

/-- The item stands in its lane, under its id, with its shot and its offset. -/
def Present (film : Film env) (others : List Track) (entry : Track × Item) : Prop :=
  ∃ track ∈ others, track.id = entry.1.id ∧ track.kind = "audio" ∧ ∃ item ∈ track.items,
    item.id = entry.2.id ∧ item.harness.runId = film.run ∧
      item.harness.shotId = entry.2.harness.shotId ∧
      item.harness.offsetSeconds = entry.2.harness.offsetSeconds

/-- The tracks beside the picture track, when `at` says where the pictures stand. -/
structure Others (film : Film env) (shots : List String) (at_ : String → ℚ)
    (delivered : List String) (others : List Track) : Prop where
  sound : ∀ track ∈ others, ∀ item ∈ track.items, item.harness.runId = film.run →
    item.harness.role ≠ "picture"
  aligned : ∀ track ∈ others, track.kind = "audio" → ∀ item ∈ track.items,
    item.harness.runId = film.run → item.harness.shotId ≠ "" →
      item.harness.shotId ∈ shots ∧
        item.timelineStart = at_ item.harness.shotId + item.harness.offsetSeconds
  lanes : ∀ entry ∈ film.entries, ∀ track ∈ others, track.id = entry.1.id → track.kind = "audio"
  marked : ∀ track ∈ others, track.kind = "audio" → ∀ item ∈ track.items, ∀ entry ∈ film.entries,
    entry.2.id = item.id → item.id ∈ delivered
  heard : ∀ entry ∈ film.entries, entry.2.id ∈ delivered → Present film others entry

section Edit

/-- An edit that leaves an item's line alone. -/
structure KeepsLine (f : Item → Item) : Prop where
  id : ∀ item, (f item).id = item.id
  run : ∀ item, (f item).harness.runId = item.harness.runId
  shot : ∀ item, (f item).harness.shotId = item.harness.shotId
  role : ∀ item, (f item).harness.role = item.harness.role
  offset : ∀ item, (f item).harness.offsetSeconds = item.harness.offsetSeconds

theorem keepsLine_stamp (item : Item) :
    (stampSequenceBedAlignment item).id = item.id ∧
      (stampSequenceBedAlignment item).harness.runId = item.harness.runId ∧
      (stampSequenceBedAlignment item).harness.shotId = item.harness.shotId ∧
      (stampSequenceBedAlignment item).harness.role = item.harness.role ∧
      (stampSequenceBedAlignment item).harness.offsetSeconds = item.harness.offsetSeconds ∧
      (stampSequenceBedAlignment item).timelineStart = item.timelineStart := by
  unfold stampSequenceBedAlignment
  split <;> exact ⟨rfl, rfl, rfl, rfl, rfl, rfl⟩

theorem keepsLine_extendBed (incoming : List Track) (run : String) (old new : ℚ) :
    KeepsLine (extendBed incoming run old new) ∧
      ∀ item, (extendBed incoming run old new item).timelineStart = item.timelineStart := by
  have hall : ∀ item, (extendBed incoming run old new item).id = item.id ∧
      (extendBed incoming run old new item).harness.runId = item.harness.runId ∧
      (extendBed incoming run old new item).harness.shotId = item.harness.shotId ∧
      (extendBed incoming run old new item).harness.role = item.harness.role ∧
      (extendBed incoming run old new item).harness.offsetSeconds = item.harness.offsetSeconds ∧
      (extendBed incoming run old new item).timelineStart = item.timelineStart := by
    intro item
    unfold extendBed
    dsimp only
    split
    · exact keepsLine_stamp _
    · exact ⟨rfl, rfl, rfl, rfl, rfl, rfl⟩
  exact ⟨⟨fun item => (hall item).1, fun item => (hall item).2.1, fun item => (hall item).2.2.1,
    fun item => (hall item).2.2.2.1, fun item => (hall item).2.2.2.2.1⟩,
    fun item => (hall item).2.2.2.2.2⟩

variable {shots shots' : List String} {at_ at_' : String → ℚ} {delivered : List String}
  {others : List Track} {f : Item → Item}

theorem mem_editAudio {track : Track} (h : track ∈ editAudio f others) :
    ∃ old ∈ others, track.id = old.id ∧ track.kind = old.kind ∧
      (track.items = if old.kind = "audio" then old.items.map f else old.items) := by
  obtain ⟨old, hold, rfl⟩ := List.mem_map.mp h
  refine ⟨old, hold, ?_⟩
  split <;> exact ⟨rfl, rfl, rfl⟩

theorem Present.edit {entry : Track × Item} (hf : KeepsLine f) (h : Present film others entry) :
    Present film (editAudio f others) entry := by
  obtain ⟨track, htrack, hid, hkind, item, hitem, hline⟩ := h
  refine ⟨{ track with items := track.items.map f }, ?_, hid, hkind, f item,
    List.mem_map_of_mem hitem, ?_⟩
  · have hmem := List.mem_map_of_mem (f := fun track : Track =>
      if track.kind = "audio" then { track with items := track.items.map f } else track) htrack
    rwa [if_pos hkind] at hmem
  · rw [hf.id, hf.run, hf.shot, hf.offset]
    exact hline

/-- An edit that moves every item with its picture. -/
theorem Others.edit (h : Others film shots at_ delivered others) (hf : KeepsLine f)
    (hsub : ∀ shot ∈ shots, shot ∈ shots')
    (hmoves : ∀ item, item.harness.runId = film.run → item.harness.shotId ∈ shots →
      (f item).timelineStart - item.timelineStart =
        at_' item.harness.shotId - at_ item.harness.shotId) :
    Others film shots' at_' delivered (editAudio f others) where
  sound track htrack item hitem hrun := by
    obtain ⟨old, hold, -, -, hitems⟩ := mem_editAudio htrack
    rw [hitems] at hitem
    split at hitem
    · obtain ⟨before, hbefore, rfl⟩ := List.mem_map.mp hitem
      rw [hf.run] at hrun
      rw [hf.role]
      exact h.sound old hold before hbefore hrun
    · exact h.sound old hold item hitem hrun
  aligned track htrack hkind item hitem hrun hshot := by
    obtain ⟨old, hold, -, hkind', hitems⟩ := mem_editAudio htrack
    rw [hkind] at hkind'
    rw [hitems, if_pos hkind'.symm] at hitem
    obtain ⟨before, hbefore, rfl⟩ := List.mem_map.mp hitem
    rw [hf.run] at hrun
    rw [hf.shot] at hshot ⊢
    obtain ⟨hmem, hstart⟩ := h.aligned old hold hkind'.symm before hbefore hrun hshot
    have hmove := hmoves before hrun hmem
    rw [hf.offset]
    exact ⟨hsub _ hmem, by linarith⟩
  lanes entry hentry track htrack hid := by
    obtain ⟨old, hold, hid', hkind', -⟩ := mem_editAudio htrack
    rw [hkind']
    exact h.lanes entry hentry old hold (hid'.symm.trans hid)
  marked track htrack hkind item hitem entry hentry hid := by
    obtain ⟨old, hold, -, hkind', hitems⟩ := mem_editAudio htrack
    rw [hkind] at hkind'
    rw [hitems, if_pos hkind'.symm] at hitem
    obtain ⟨before, hbefore, rfl⟩ := List.mem_map.mp hitem
    rw [hf.id] at hid ⊢
    exact h.marked old hold hkind'.symm before hbefore entry hentry hid
  heard entry hentry hid := (h.heard entry hentry hid).edit hf

end Edit

section Push

variable {shots : List String} {at_ : String → ℚ} {delivered : List String}
  {others others' : List Track} {lane : Track} {audio : Item}

theorem pushItem_id (audio : Item) (track : Track) : (pushItem audio track).id = track.id := by
  unfold pushItem
  split <;> rfl

theorem pushItem_kind (audio : Item) (track : Track) :
    (pushItem audio track).kind = track.kind := by
  unfold pushItem
  split <;> rfl

theorem mem_pushItem {track : Track} {item : Item} (h : item ∈ (pushItem audio track).items) :
    item ∈ track.items ∨ item = audio := by
  unfold pushItem at h
  split at h
  · exact Or.inl h
  · exact (List.mem_append.mp h).imp id List.mem_singleton.mp

theorem mem_pushItem_of_mem {track : Track} {item : Item} (h : item ∈ track.items) :
    item ∈ (pushItem audio track).items := by
  unfold pushItem
  split
  · exact h
  · exact List.mem_append_left _ h

theorem audio_mem_pushItem {track : Track} (h : ∀ item ∈ track.items, item.id ≠ audio.id) :
    audio ∈ (pushItem audio track).items := by
  have hnone : track.items.any (·.id = audio.id) = false := by
    rw [List.any_eq_false]
    intro item hitem
    simpa using h item hitem
  rw [pushItem, hnone]
  exact List.mem_append_right _ (List.mem_singleton_self audio)

/-- The tracks after an item was added to its lane, which is made if it was missing. -/
structure Pushed (lane : Track) (audio : Item) (others others' : List Track) : Prop where
  source : ∀ track ∈ others', track ∈ others ∨ ∃ old, track = pushItem audio old ∧
    (old ∈ others ∧ old.id = lane.id ∨ old = { lane with items := [] })
  kept : ∀ track ∈ others, track ∈ others' ∨ track.id = lane.id ∧ pushItem audio track ∈ others'
  there : ∃ old, pushItem audio old ∈ others' ∧
    (old ∈ others ∧ old.id = lane.id ∨ old = { lane with items := [] })

theorem pushed_at {front back : List Track} {track : Track} (hid : track.id = lane.id) :
    Pushed lane audio (front ++ track :: back) (front ++ pushItem audio track :: back) where
  source other hother := by
    rw [List.mem_append, List.mem_cons] at hother
    obtain hother | rfl | hother := hother
    · exact Or.inl (List.mem_append_left _ hother)
    · exact Or.inr ⟨track, rfl, Or.inl ⟨List.mem_append_right _ List.mem_cons_self, hid⟩⟩
    · exact Or.inl (List.mem_append_right _ (List.mem_cons_of_mem _ hother))
  kept other hother := by
    rw [List.mem_append, List.mem_cons] at hother
    obtain hother | rfl | hother := hother
    · exact Or.inl (List.mem_append_left _ hother)
    · exact Or.inr ⟨hid, List.mem_append_right _ List.mem_cons_self⟩
    · exact Or.inl (List.mem_append_right _ (List.mem_cons_of_mem _ hother))
  there := ⟨track, List.mem_append_right _ List.mem_cons_self,
    Or.inl ⟨List.mem_append_right _ List.mem_cons_self, hid⟩⟩

theorem pushed_new (lane : Track) (audio : Item) (others : List Track) :
    Pushed lane audio others (others ++ [pushItem audio { lane with items := [] }]) where
  source other hother := by
    cases List.mem_append.mp hother with
    | inl hmem => exact Or.inl hmem
    | inr hmem => exact Or.inr ⟨_, List.mem_singleton.mp hmem, Or.inr rfl⟩
  kept other hother := Or.inl (List.mem_append_left _ hother)
  there := ⟨_, List.mem_append_right _ (List.mem_singleton_self _), Or.inr rfl⟩

theorem modifyFirst_append (p : Track → Bool) (f : Track → Track) (xs ys : List Track) :
    modifyFirst p f (xs ++ ys) =
      if xs.any p then modifyFirst p f xs ++ ys else xs ++ modifyFirst p f ys := by
  induction xs with
  | nil => rfl
  | cons x xs ih =>
      by_cases hx : p x = true
      · simp [modifyFirst, hx]
      · rw [List.cons_append, modifyFirst, if_neg hx, ih, modifyFirst, if_neg hx, List.any_cons,
          Bool.eq_false_iff.mpr hx, Bool.false_or]
        split <;> rfl

theorem modifyFirst_split {p : Track → Bool} (f : Track → Track) {l : List Track}
    (h : l.any p = true) : ∃ front x back, l = front ++ x :: back ∧ p x = true ∧
      modifyFirst p f l = front ++ f x :: back := by
  induction l with
  | nil => cases h
  | cons x l ih =>
      by_cases hx : p x = true
      · exact ⟨[], x, l, rfl, hx, by rw [modifyFirst, if_pos hx]; rfl⟩
      · rw [List.any_cons, Bool.eq_false_iff.mpr hx, Bool.false_or] at h
        obtain ⟨front, y, back, hl, hy, hmodify⟩ := ih h
        exact ⟨x :: front, y, back, by rw [hl]; rfl, hy,
          by rw [modifyFirst, if_neg hx, hmodify]; rfl⟩

/-- An item goes to its lane around a picture track that is no lane. -/
theorem addAudio_around (front back : List Track) (audio : Item) {picture : Track}
    (hpicture : picture.id ≠ lane.id) :
    ∃ front' back', addAudio lane audio (front ++ picture :: back) = front' ++ picture :: back' ∧
      Pushed lane audio (front ++ back) (front' ++ back') ∧
      ∀ track ∈ front', ∃ old ∈ front, track.kind = old.kind := by
  have hsame : ∀ track ∈ front, ∃ old ∈ front, track.kind = old.kind :=
    fun track htrack => ⟨track, htrack, rfl⟩
  unfold addAudio
  by_cases hfront : front.any (·.id = lane.id) = true
  · obtain ⟨xs, x, ys, hsplit, hx, hmodify⟩ := modifyFirst_split (pushItem audio) hfront
    have hid : x.id = lane.id := of_decide_eq_true hx
    rw [List.any_append, hfront, Bool.true_or, if_pos rfl, modifyFirst_append, if_pos hfront,
      hmodify]
    refine ⟨xs ++ pushItem audio x :: ys, back, rfl, ?_, ?_⟩
    · rw [hsplit, List.append_assoc, List.cons_append, List.append_assoc, List.cons_append]
      exact pushed_at hid
    · intro track htrack
      rw [hsplit]
      rw [List.mem_append, List.mem_cons] at htrack
      obtain htrack | rfl | htrack := htrack
      · exact ⟨track, List.mem_append_left _ htrack, rfl⟩
      · exact ⟨x, List.mem_append_right _ List.mem_cons_self, pushItem_kind audio x⟩
      · exact ⟨track, List.mem_append_right _ (List.mem_cons_of_mem _ htrack), rfl⟩
  · rw [List.any_append, Bool.eq_false_iff.mpr hfront, Bool.false_or, List.any_cons,
      decide_eq_false hpicture, Bool.false_or]
    by_cases hback : back.any (·.id = lane.id) = true
    · obtain ⟨xs, x, ys, hsplit, hx, hmodify⟩ := modifyFirst_split (pushItem audio) hback
      have hid : x.id = lane.id := of_decide_eq_true hx
      rw [if_pos hback, modifyFirst_append, if_neg hfront, modifyFirst,
        if_neg (by simpa using hpicture), hmodify]
      refine ⟨front, xs ++ pushItem audio x :: ys, rfl, ?_, hsame⟩
      rw [hsplit, ← List.append_assoc, ← List.append_assoc]
      exact pushed_at hid
    · rw [if_neg hback]
      refine ⟨front, back ++ [pushItem audio { lane with items := [] }], ?_, ?_, hsame⟩
      · rw [List.append_assoc, List.cons_append]
      · rw [← List.append_assoc]
        exact pushed_new lane audio (front ++ back)

theorem Present.push {entry : Track × Item} (hpushed : Pushed lane audio others others')
    (h : Present film others entry) : Present film others' entry := by
  obtain ⟨track, htrack, hid, hkind, item, hitem, hline⟩ := h
  cases hpushed.kept track htrack with
  | inl hmem => exact ⟨track, hmem, hid, hkind, item, hitem, hline⟩
  | inr hpush =>
      exact ⟨pushItem audio track, hpush.2, (pushItem_id audio track).trans hid,
        (pushItem_kind audio track).trans hkind, item, mem_pushItem_of_mem hitem, hline⟩

/-- A new item of the film goes to its lane. -/
theorem Others.push (h : Others film shots at_ delivered others)
    (hpushed : Pushed lane audio others others') (hkind : lane.kind = "audio")
    {item : Item} (hentry : (lane, item) ∈ film.entries) (hid : audio.id = item.id)
    (hnew : item.id ∉ delivered) (hrun : audio.harness.runId = film.run)
    (hrole : audio.harness.role ≠ "picture")
    (hshot : audio.harness.shotId = item.harness.shotId)
    (hoffset : audio.harness.offsetSeconds = item.harness.offsetSeconds)
    (hplace : audio.harness.shotId ≠ "" → audio.harness.shotId ∈ shots ∧
      audio.timelineStart = at_ audio.harness.shotId + audio.harness.offsetSeconds)
    (hline : ∀ entry ∈ film.entries, entry.2.id = item.id → entry.1.id = lane.id ∧
      entry.2.harness.shotId = item.harness.shotId ∧
      entry.2.harness.offsetSeconds = item.harness.offsetSeconds) :
    Others film shots at_ (item.id :: delivered) others' := by
  have hitems : ∀ track ∈ others', ∀ other ∈ track.items, other = audio ∨
      ∃ old ∈ others, old.id = track.id ∧ old.kind = track.kind ∧ other ∈ old.items := by
    intro track htrack other hother
    cases hpushed.source track htrack with
    | inl hmem => exact Or.inr ⟨track, hmem, rfl, rfl, hother⟩
    | inr hpush =>
        obtain ⟨old, rfl, hold⟩ := hpush
        cases mem_pushItem hother with
        | inr heq => exact Or.inl heq
        | inl hmem =>
            cases hold with
            | inl hold =>
                exact Or.inr ⟨old, hold.1, (pushItem_id audio old).symm,
                  (pushItem_kind audio old).symm, hmem⟩
            | inr hold =>
                rw [hold] at hmem
                cases hmem
  have hkinds : ∀ track ∈ others', track.kind = "audio" ∨
      ∃ old ∈ others, old.id = track.id ∧ old.kind = track.kind := by
    intro track htrack
    cases hpushed.source track htrack with
    | inl hmem => exact Or.inr ⟨track, hmem, rfl, rfl⟩
    | inr hpush =>
        obtain ⟨old, rfl, hold⟩ := hpush
        cases hold with
        | inl hold =>
            exact Or.inr ⟨old, hold.1, (pushItem_id audio old).symm, (pushItem_kind audio old).symm⟩
        | inr hold => exact Or.inl (by rw [pushItem_kind, hold]; exact hkind)
  refine ⟨?_, ?_, ?_, ?_, ?_⟩
  · intro track htrack other hother hrun'
    obtain rfl | ⟨old, hold, -, -, hmem⟩ := hitems track htrack other hother
    · exact hrole
    · exact h.sound old hold other hmem hrun'
  · intro track htrack hkind' other hother hrun' hshot'
    obtain rfl | ⟨old, hold, -, hsame, hmem⟩ := hitems track htrack other hother
    · exact hplace hshot'
    · exact h.aligned old hold (hsame.trans hkind') other hmem hrun' hshot'
  · intro entry hentry' track htrack hid'
    obtain haudio | ⟨old, hold, hsameId, hsame⟩ := hkinds track htrack
    · exact haudio
    · exact hsame.symm.trans (h.lanes entry hentry' old hold (hsameId.trans hid'))
  · intro track htrack hkind' other hother entry hentry' hid'
    obtain rfl | ⟨old, hold, -, hsame, hmem⟩ := hitems track htrack other hother
    · rw [hid]
      exact List.mem_cons_self
    · exact List.mem_cons_of_mem _ (h.marked old hold (hsame.trans hkind') other hmem entry
        hentry' hid')
  · intro entry hentry' hid'
    by_cases hsame : entry.2.id = item.id
    · obtain ⟨hlane, hshotId, hoff⟩ := hline entry hentry' hsame
      obtain ⟨old, hmem, hold⟩ := hpushed.there
      have holdAudio : old.id = lane.id ∧ old.kind = "audio" := by
        cases hold with
        | inl hold => exact ⟨hold.2, h.lanes (lane, item) hentry old hold.1 hold.2⟩
        | inr hold => exact ⟨by rw [hold], by rw [hold]; exact hkind⟩
      have hfree : ∀ other ∈ old.items, other.id ≠ audio.id := by
        intro other hother heq
        cases hold with
        | inl hold =>
            refine hnew ?_
            have hmark := h.marked old hold.1 holdAudio.2 other hother (lane, item) hentry
              (heq.trans hid).symm
            rwa [heq, hid] at hmark
        | inr hold =>
            rw [hold] at hother
            cases hother
      exact ⟨pushItem audio old, hmem, (pushItem_id audio old).trans (holdAudio.1.trans hlane.symm),
        (pushItem_kind audio old).trans holdAudio.2, audio, audio_mem_pushItem hfree,
        hid.trans hsame.symm, hrun, hshot.trans hshotId.symm, hoffset.trans hoff.symm⟩
    · have hold := (List.mem_cons.mp hid').resolve_left hsame
      exact (h.heard entry hentry' hold).push hpushed

/-- An empty lane of the film changes nothing. -/
theorem Others.establish (h : Others film shots at_ delivered others)
    (hkind : lane.kind = "audio") :
    Others film shots at_ delivered (others ++ [{ lane with items := [] }]) := by
  have hcases : ∀ track ∈ others ++ [{ lane with items := [] }],
      track ∈ others ∨ track = { lane with items := [] } := fun track htrack =>
    (List.mem_append.mp htrack).imp id List.mem_singleton.mp
  refine ⟨?_, ?_, ?_, ?_, ?_⟩
  · intro track htrack item hitem
    obtain hmem | rfl := hcases track htrack
    · exact h.sound track hmem item hitem
    · cases hitem
  · intro track htrack hkind' item hitem
    obtain hmem | rfl := hcases track htrack
    · exact h.aligned track hmem hkind' item hitem
    · cases hitem
  · intro entry hentry track htrack hid
    obtain hmem | rfl := hcases track htrack
    · exact h.lanes entry hentry track hmem hid
    · exact hkind
  · intro track htrack hkind' item hitem
    obtain hmem | rfl := hcases track htrack
    · exact h.marked track hmem hkind' item hitem
    · cases hitem
  · intro entry hentry hid
    obtain ⟨track, htrack, hrest⟩ := h.heard entry hentry hid
    exact ⟨track, List.mem_append_left _ htrack, hrest⟩

end Push

end SceneWorks.FilmAssembly
