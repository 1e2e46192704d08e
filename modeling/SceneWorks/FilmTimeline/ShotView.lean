import SceneWorks.FilmTimeline.Frame

/-!
One shot of one run as a delivery sees it: the marks of its pictures, its trim conflict and
which of its attempts are booked as applied. A take changes the view of its own shot in
one of two ways and leaves the view of every other shot as it is, because the delivery id
determines the shot and the attempt.
-/

namespace SceneWorks.FilmTimeline

theorem digits_injective {n m : Nat} (h : Nat.toDigits 10 n = Nat.toDigits 10 m) : n = m := by
  have hvalue := congrArg (fun digits => Nat.ofDigitChars 10 digits 0) h
  simpa using hvalue

theorem not_mem_digits (n : Nat) : 'a' ∉ Nat.toDigits 10 n := by
  intro h
  have hdigit := Nat.isDigit_of_mem_toDigits (by decide) (by decide) h
  simp at hdigit

/-- A text is cut at its last `:a` when no digit follows that is an `a`. -/
theorem append_digits_cancel {xs ys digits digits' : List Char} (h : 'a' ∉ digits)
    (h' : 'a' ∉ digits') (heq : xs ++ ':' :: 'a' :: digits = ys ++ ':' :: 'a' :: digits') :
    xs = ys ∧ digits = digits' := by
  have hshort : ∀ {xs ys digits digits' : List Char}, 'a' ∉ digits →
      xs ++ ':' :: 'a' :: digits = ys ++ ':' :: 'a' :: digits' → ∀ rest, ys = xs ++ rest →
      rest = [] := by
    intro xs ys digits digits' hnot heq rest hrest
    subst hrest
    rw [List.append_assoc, List.append_cancel_left_eq] at heq
    match rest with
    | [] => rfl
    | [c] => simp at heq
    | c :: c' :: rest =>
        simp only [List.cons_append, List.cons.injEq] at heq
        refine absurd ?_ hnot
        rw [heq.2.2]
        simp
  obtain ⟨rest, hrest, -⟩ | ⟨rest, hrest, -⟩ := List.append_eq_append_iff.mp heq
  · obtain rfl := hshort h heq rest hrest
    rw [List.append_nil] at hrest
    subst hrest
    simpa using heq
  · obtain rfl := hshort h' heq.symm rest hrest
    rw [List.append_nil] at hrest
    subst hrest
    simpa using heq

theorem deliveryId_injective {run shot shot' : String} {attempt attempt' : Nat}
    (h : deliveryId run shot attempt = deliveryId run shot' attempt') :
    shot = shot' ∧ attempt = attempt' := by
  have hchars := congrArg String.toList h
  simp only [deliveryId, String.toList_append, Nat.toString_eq_repr, Nat.toList_repr,
    List.append_assoc, List.append_cancel_left_eq] at hchars
  obtain ⟨hshot, hdigits⟩ := append_digits_cancel (not_mem_digits _) (not_mem_digits _) hchars
  exact ⟨String.toList_inj.mp hshot, digits_injective hdigits⟩

def markAttemptField (mark : Option Json) : Option Nat := ((mark.getD .null).idx "attempt").asU64

def markAttempt (mark : Option Json) : Nat := (markAttemptField mark).getD 0

def markDeliveryId (mark : Option Json) : Json := (mark.getD .null).idx "deliveryId"

def markAligned (id : String) (attempt : Nat) (mark : Option Json) : Bool :=
  markDeliveryId mark == .str id || (markAttemptField mark).any fun aligned => attempt ≤ aligned

@[ext]
structure ShotView where
  marks : List (Option Json)
  conflict : Json
  applied : Nat → Bool

def shotView (timeline : Json) (run shot : String) : ShotView where
  marks := (pictureMarks timeline).filter (isShotMark run shot)
  conflict := trimConflict timeline run shot
  applied := fun attempt => isApplied timeline run (deliveryId run shot attempt)

namespace ShotView

def aligned (v : ShotView) (run shot : String) (attempt : Nat) : Bool :=
  v.marks.head?.any (markAligned (deliveryId run shot attempt) attempt)

def pending (v : ShotView) (run shot : String) (attempt : Nat) : Bool :=
  deliveryIdOf (v.conflict.idx "take") == .str (deliveryId run shot attempt)

def replay (v : ShotView) (run shot : String) (attempt : Nat) : Bool :=
  v.applied attempt || v.aligned run shot attempt || v.pending run shot attempt

/-- The attempt of the pending conflict, else of the picture. -/
def carried (v : ShotView) : Option Nat :=
  if v.conflict.isNull then v.marks.head?.map markAttempt
  else some (attemptOf (v.conflict.idx "take"))

end ShotView

theorem pictureMarks_eq (timeline : Json) :
    pictureMarks timeline = ((items timeline).map (·.get "filmHarness")).filter isPictureMark := by
  rw [pictureMarks, items, List.map_flatMap, List.filter_flatMap]
  rfl

theorem existingPicture_mark (timeline : Json) (run shot : String) :
    (existingPicture timeline run shot).map (·.get "filmHarness") =
      (shotView timeline run shot).marks.head? := by
  rw [shotView, pictureMarks_eq, List.filter_filter, List.head?_filter, List.find?_map,
    existingPicture]
  congr 2

theorem isReplay_eq (timeline : Json) (run shot : String) (attempt : Nat) :
    isReplay timeline run shot attempt = (shotView timeline run shot).replay run shot attempt := by
  have haligned : (existingPicture timeline run shot).any
      (isAligned (deliveryId run shot attempt) attempt) =
        (shotView timeline run shot).aligned run shot attempt := by
    rw [ShotView.aligned, ← existingPicture_mark, Option.any_map]
    rfl
  rw [isReplay, ShotView.replay, haligned]
  rfl

/-- What the merge of a take with this attempt does to the view of its shot. -/
inductive ViewStep (run shot : String) (attempt : Nat) (v : ShotView) : ShotView → Prop where
  | conflicted {mark : Option Json} {rest : List (Option Json)} {record : Json}
      (hmarks : v.marks = mark :: rest) (hrecord : record ≠ .null)
      (hid : deliveryIdOf (record.idx "take") = .str (deliveryId run shot attempt))
      (hattempt : attemptOf (record.idx "take") = attempt) :
      ViewStep run shot attempt v { v with conflict := record }
  | placed {mark : Option Json} {conflict : Json}
      (hid : markDeliveryId mark = .str (deliveryId run shot attempt))
      (hattempt : markAttempt mark = attempt)
      (hconflict : conflict = .null ∨ v.marks = [] ∧ conflict = v.conflict) :
      ViewStep run shot attempt v
        { marks := [mark]
          conflict := conflict
          applied := fun other => v.applied other || other == attempt }

theorem Stamped.mark {id : String} {take stamped : Json} (h : Stamped id take stamped) :
    markDeliveryId (stamped.get "filmHarness") = .str id ∧
      markAttempt (stamped.get "filmHarness") = attemptOf take := by
  refine ⟨h.deliveryIdOf, ?_⟩
  have hfield : markAttemptField (stamped.get "filmHarness") = FilmTimeline.attemptField take :=
    h.attemptField
  rw [markAttempt, hfield]
  rfl

/-- Setting a flag in a table of the run. -/
theorem flag_put {timeline after : Json} {run key id : String}
    (h : timeline.put (runPath run [key, id]) (.bool true) = some after) (other : String) :
    (((runData after run).idx key).idx other == .bool true) =
      ((((runData timeline run).idx key).idx other == .bool true) || other == id) := by
  obtain ⟨-, hedit⟩ := booked_of_edit h
  by_cases hid : id = other
  · subst hid
    have hvalue : some (Json.bool true) = some (((runData after run).idx key).idx id) :=
      Json.idx_edit_self hedit
    rw [← Option.some.inj hvalue]
    simp
  · rw [Json.idx_edit_of_ne hedit hid, beq_eq_false_iff_ne.mpr (Ne.symm hid), Bool.or_false]

theorem isApplied_put {timeline after : Json} {run id : String}
    (h : timeline.put (runPath run ["appliedDeliveries", id]) (.bool true) = some after)
    (other : String) : isApplied after run other = (isApplied timeline run other || other == id) :=
  flag_put h other

theorem trimConflict_put {timeline after record : Json} {run shot : String}
    (h : timeline.put (runPath run ["trimConflicts", shot]) record = some after) (other : String) :
    trimConflict after run other = if shot = other then record
        else trimConflict timeline run other := by
  obtain ⟨-, hedit⟩ := booked_of_edit h
  by_cases hshot : shot = other
  · subst hshot
    have hvalue : some record = some (trimConflict after run shot) := Json.idx_edit_self hedit
    rw [if_pos rfl]
    exact (Option.some.inj hvalue).symm
  · rw [if_neg hshot]
    exact Json.idx_edit_of_ne hedit hshot

theorem trimConflict_remove {timeline after : Json} {run shot : String}
    (h : timeline.edit (runPath run ["trimConflicts"]) (removeEntry shot) = some after)
    (other : String) :
    trimConflict after run other = if shot = other then .null
        else trimConflict timeline run other := by
  obtain ⟨-, hedit⟩ := booked_of_edit h
  have hvalue := Option.some.inj hedit
  rw [trimConflict, ← hvalue]
  by_cases hshot : shot = other
  · rw [if_pos hshot, hshot]
    exact idx_removeEntry_self _ _
  · rw [if_neg hshot, idx_removeEntry hshot]
    rfl

theorem Booked.isApplied {run key : String} {before after : Json} (h : Booked run key before after)
    (hkey : key ≠ "appliedDeliveries") (id : String) :
    isApplied after run id = isApplied before run id := by
  rw [FilmTimeline.isApplied, FilmTimeline.isApplied, Json.idx_eq_of_get (h.data _ (Ne.symm hkey))]

theorem Booked.trimConflict {run key : String} {before after : Json}
    (h : Booked run key before after) (hkey : key ≠ "trimConflicts") (shot : String) :
    trimConflict after run shot = trimConflict before run shot := by
  rw [FilmTimeline.trimConflict, FilmTimeline.trimConflict,
    Json.idx_eq_of_get (h.data _ (Ne.symm hkey))]

theorem Booked.pictureMarks {run key : String} {before after : Json}
    (h : Booked run key before after) : pictureMarks after = pictureMarks before :=
  pictureMarks_congr (h.frame "tracks" (by decide))

/-- A list of at most one element is the same after a permutation. -/
theorem eq_of_perm_short {α : Type} {l l' : List α} (h : l'.Perm l) (hlen : l.length ≤ 1) :
    l' = l := by
  match l, hlen with
  | [], _ => exact h.eq_nil
  | [a], _ => exact List.perm_singleton.mp h

theorem conflictRecord_take (current take : Json) (shot : String) (length : F64) :
    (conflictRecord current take shot length).idx "take" = take := rfl

theorem filter_shot_of_mark {run shot other : String} {mark : Option Json}
    (h : isShotMark run shot mark = true) (hne : other ≠ shot) :
    isShotMark run other mark = false := by
  simp only [isShotMark, Bool.and_eq_true, beq_iff_eq] at h
  simp [isShotMark, h.2, Ne.symm hne]

/-- The marks of the shots after its picture was replaced. -/
theorem marks_replace {timeline retracked new current : Json} {run shot : String}
    (hnew : isShotPicture run shot new = true)
    (hexisting : existingPicture timeline run shot = some current)
    (htracks : timeline.put ["tracks"] (.arr (replaceFirstItem (isShotPicture run shot) new
      (tracks timeline))) = some retracked) :
    ((shotView timeline run shot).marks.length ≤ 1 →
        (shotView retracked run shot).marks = [new.get "filmHarness"]) ∧
      ∀ other, other ≠ shot →
        (shotView retracked run other).marks = (shotView timeline run other).marks := by
  have hany : ((tracks timeline).flatMap trackItems).any (isShotPicture run shot) = true := by
    rw [List.any_eq_true]
    exact ⟨current, List.mem_of_find?_eq_some hexisting, List.find?_some hexisting⟩
  obtain ⟨before, old, after, hmarks, hbefore, hold, hresult⟩ := flatMap_replaceFirstItem hnew hany
  have hnewMark := (isShotPicture_iff.mp hnew).1
  have hmarks' : pictureMarks timeline = before ++ old :: after := hmarks
  have hafter' : pictureMarks retracked = before ++ new.get "filmHarness" :: after := by
    rw [pictureMarks_put htracks, hresult]
  have hnone : before.filter (isShotMark run shot) = [] := by
    rw [List.filter_eq_nil_iff]
    intro mark hmark
    simp [hbefore mark hmark]
  constructor
  · intro hlen
    have hrest : after.filter (isShotMark run shot) = [] := by
      simp only [shotView, hmarks', List.filter_append, hnone, List.nil_append,
        List.filter_cons_of_pos hold, List.length_cons] at hlen
      exact List.length_eq_zero_iff.mp (by omega)
    simp [shotView, hafter', hnone, List.filter_cons_of_pos hnewMark, hrest]
  · intro other hne
    simp [shotView, hafter', hmarks', filter_shot_of_mark hnewMark hne,
      filter_shot_of_mark hold hne]

/-- The marks of the shots after a first take was inserted. -/
theorem marks_insert {timeline stamped retracked : Json} {run shot : String}
    (hpicture : isShotPicture run shot stamped = true)
    (hmarks : (pictureMarks retracked).Perm (pictureMarks timeline ++ itemMarks [stamped])) :
    ((shotView timeline run shot).marks = [] →
        (shotView retracked run shot).marks = [stamped.get "filmHarness"]) ∧
      ∀ other, other ≠ shot → (shotView timeline run other).marks.length ≤ 1 →
        (shotView retracked run other).marks = (shotView timeline run other).marks := by
  obtain ⟨hshot, hmark⟩ := isShotPicture_iff.mp hpicture
  have hsingle : itemMarks [stamped] = [stamped.get "filmHarness"] := by simp [itemMarks, hmark]
  rw [hsingle] at hmarks
  constructor
  · intro hnone
    have hfiltered := hmarks.filter (isShotMark run shot)
    have hnone' : (pictureMarks timeline).filter (isShotMark run shot) = [] := hnone
    rw [List.filter_append, hnone', List.nil_append, List.filter_cons_of_pos hshot] at hfiltered
    exact List.perm_singleton.mp hfiltered
  · intro other hne hlen
    have hfiltered := hmarks.filter (isShotMark run other)
    rw [List.filter_append, List.filter_cons_of_neg (by simp [filter_shot_of_mark hshot hne]),
      List.filter_nil, List.append_nil] at hfiltered
    exact eq_of_perm_short hfiltered hlen

/-- Booking an attempt of a shot says nothing about another shot. -/
theorem isApplied_booked {timeline after : Json} {run shot : String} {attempt : Nat}
    (h : timeline.put (runPath run ["appliedDeliveries", deliveryId run shot attempt])
      (.bool true) = some after) :
    (∀ other b, other ≠ shot → isApplied after run (deliveryId run other b) =
        isApplied timeline run (deliveryId run other b)) ∧
      ∀ b, isApplied after run (deliveryId run shot b) =
        (isApplied timeline run (deliveryId run shot b) || b == attempt) := by
  have hput := isApplied_put h
  constructor
  · intro other b hne
    rw [hput, beq_eq_false_iff_ne.mpr fun e => hne (deliveryId_injective e).1, Bool.or_false]
  · intro b
    rw [hput]
    by_cases hb : b = attempt
    · simp [hb]
    · have hne : deliveryId run shot b ≠ deliveryId run shot attempt := fun e =>
        hb (deliveryId_injective e).2
      rw [beq_eq_false_iff_ne.mpr hne, beq_eq_false_iff_ne.mpr hb]

theorem merged_view {env : DeliveryEnv} {d : Delivery} {timeline take after : Json}
    (htake : isShotPicture d.run (field take "shotId") take = true)
    (hunique : (shotView timeline d.run (field take "shotId")).marks.length ≤ 1)
    (h : Merged env d timeline take after) :
    ViewStep d.run (field take "shotId") (attemptOf take)
        (shotView timeline d.run (field take "shotId"))
        (shotView after d.run (field take "shotId")) ∧
      ∀ other, other ≠ field take "shotId" → (shotView timeline d.run other).marks.length ≤ 1 →
        shotView after d.run other = shotView timeline d.run other := by
  generalize hshot : field take "shotId" = shot at *
  cases h with
  | @conflict current stamped _ length hexisting hstamped hput =>
      rw [hshot] at hexisting hstamped hput
      have hbooked := (booked_of_edit hput).1
      have hconflict := trimConflict_put hput
      have hview : ∀ s, shotView after d.run s =
          { shotView timeline d.run s with conflict := trimConflict after d.run s } := by
        intro s
        simp only [shotView, hbooked.pictureMarks, hbooked.isApplied (by decide)]
      constructor
      · rw [hview, hconflict, if_pos rfl]
        have hhead := existingPicture_mark timeline d.run shot
        rw [hexisting] at hhead
        obtain ⟨rest, hrest⟩ := List.head?_eq_some_iff.mp hhead.symm
        refine .conflicted hrest (by simp [conflictRecord]) ?_ ?_
        · rw [conflictRecord_take]
          exact hstamped.deliveryIdOf
        · rw [conflictRecord_take]
          exact hstamped.mark.2
      · intro other hne _
        rw [hview, hconflict, if_neg (Ne.symm hne)]
        rfl
  | @replaced current stamped new retracked cleared _ hexisting hstamped hnew htracks hclear
      hmark =>
      rw [hshot] at hexisting hstamped htracks hclear hmark
      have hnewPicture : isShotPicture d.run shot new = true := by
        rw [isShotPicture_congr hnew, hstamped.isShotPicture, htake]
      obtain ⟨hmarksShot, hmarksOther⟩ := marks_replace hnewPicture hexisting htracks
      have hassembly : retracked.get "filmAssembly" = timeline.get "filmAssembly" :=
        Json.get_edit_of_ne htracks (by decide)
      have hcleared := (booked_of_edit hclear).1
      have hmarked := (booked_of_edit hmark).1
      have hmarksEq : pictureMarks after = pictureMarks retracked := by
        rw [hmarked.pictureMarks, hcleared.pictureMarks]
      have hconflict : ∀ s, trimConflict after d.run s =
          if shot = s then .null else trimConflict timeline d.run s := by
        intro s
        rw [hmarked.trimConflict (by decide), trimConflict_remove hclear, trimConflict,
          runData_congr hassembly]
        rfl
      have happliedBefore : ∀ id, isApplied cleared d.run id = isApplied timeline d.run id := by
        intro id
        rw [hcleared.isApplied (by decide), isApplied, runData_congr hassembly]
        rfl
      obtain ⟨happliedOther, happliedShot⟩ := isApplied_booked hmark
      constructor
      · have hview : shotView after d.run shot =
            { marks := [new.get "filmHarness"]
              conflict := .null
              applied := fun b => (shotView timeline d.run shot).applied b ||
                  b == attemptOf take } := by
          have hmarks : (shotView after d.run shot).marks = [new.get "filmHarness"] := by
            rw [← hmarksShot hunique]
            simp only [shotView, hmarksEq]
          have happlied : (shotView after d.run shot).applied = fun b =>
              (shotView timeline d.run shot).applied b || b == attemptOf take := by
            funext b
            exact (happliedShot b).trans (by rw [happliedBefore]; rfl)
          have hnull : (shotView after d.run shot).conflict = .null :=
            (hconflict shot).trans (if_pos rfl)
          exact ShotView.ext hmarks hnull happlied
        rw [hview]
        refine .placed ?_ ?_ (.inl rfl)
        · rw [hnew]
          exact hstamped.mark.1
        · rw [hnew]
          exact hstamped.mark.2
      · intro other hne _
        have hmarks :
            (shotView after d.run other).marks = (shotView timeline d.run other).marks := by
          rw [← hmarksOther other hne]
          simp only [shotView, hmarksEq]
        have happlied :
            (shotView after d.run other).applied = (shotView timeline d.run other).applied := by
          funext b
          exact (happliedOther other b hne).trans (happliedBefore _)
        have hsame :
            (shotView after d.run other).conflict = (shotView timeline d.run other).conflict :=
          (hconflict other).trans (if_neg (Ne.symm hne))
        exact ShotView.ext hmarks hsame happlied
  | @inserted stamped retracked _ hexisting hstamped hmarks hlanes hassembly hmark =>
      rw [hshot] at hexisting hstamped hmark
      have hpicture : isShotPicture d.run shot stamped = true := by
        rw [hstamped.isShotPicture, htake]
      obtain ⟨hmarksShot, hmarksOther⟩ := marks_insert hpicture hmarks
      have hempty : (shotView timeline d.run shot).marks = [] := by
        have hhead := existingPicture_mark timeline d.run shot
        rw [hexisting] at hhead
        exact List.head?_eq_none_iff.mp hhead.symm
      have hmarked := (booked_of_edit hmark).1
      have hconflict : ∀ s, trimConflict after d.run s = trimConflict timeline d.run s := by
        intro s
        rw [hmarked.trimConflict (by decide), trimConflict, runData_congr hassembly]
        rfl
      have happliedBefore : ∀ id, isApplied retracked d.run id = isApplied timeline d.run id := by
        intro id
        rw [isApplied, runData_congr hassembly]
        rfl
      obtain ⟨happliedOther, happliedShot⟩ := isApplied_booked hmark
      constructor
      · have hview : shotView after d.run shot =
            { marks := [stamped.get "filmHarness"]
              conflict := (shotView timeline d.run shot).conflict
              applied := fun b => (shotView timeline d.run shot).applied b ||
                  b == attemptOf take } := by
          have hmarks' : (shotView after d.run shot).marks = [stamped.get "filmHarness"] := by
            rw [← hmarksShot hempty]
            simp only [shotView, hmarked.pictureMarks]
          have happlied : (shotView after d.run shot).applied = fun b =>
              (shotView timeline d.run shot).applied b || b == attemptOf take := by
            funext b
            exact (happliedShot b).trans (by rw [happliedBefore]; rfl)
          have hsame : (shotView after d.run shot).conflict =
              (shotView timeline d.run shot).conflict := hconflict shot
          exact ShotView.ext hmarks' hsame happlied
        rw [hview]
        exact .placed hstamped.mark.1 hstamped.mark.2 (.inr ⟨hempty, rfl⟩)
      · intro other hne hlen
        have hmarks' :
            (shotView after d.run other).marks = (shotView timeline d.run other).marks := by
          rw [← hmarksOther other hne hlen]
          simp only [shotView, hmarked.pictureMarks]
        have happlied :
            (shotView after d.run other).applied = (shotView timeline d.run other).applied := by
          funext b
          exact (happliedOther other b hne).trans (happliedBefore _)
        have hsame :
            (shotView after d.run other).conflict = (shotView timeline d.run other).conflict :=
          hconflict other
        exact ShotView.ext hmarks' hsame happlied

end SceneWorks.FilmTimeline
