import SceneWorks.Library.StableSort
import SceneWorks.TimelineExport.Clock

/-!
Where each picture item stands against its own `timelineStart`, read off the items alone:
how late it is rendered, how many crossfade seconds have been taken by then, and what the
last crossfade asked for and did not find. The reel of the planned segments is then these
standings, with the gaps between them.
-/

namespace SceneWorks.TimelineExport

/-- A picture item by the numbers the export reads. -/
structure Shot where
  item : Json
  start : ℚ
  stop : ℚ
  fade : Option ℚ

/-- What the items before one leave behind: where they reach, the seconds they were rendered
beyond that, the crossfades they took, and what the last of these did not find. -/
structure Count where
  reach : ℚ
  surplus : ℚ
  faded : ℚ
  unpaid : ℚ

def Count.zero : Count := ⟨0, 0, 0, 0⟩

structure Standing where
  item : Json
  start : ℚ
  lateness : ℚ
  fade : Option ℚ
  faded : ℚ
  unpaid : ℚ

/-- The seconds rendered before an item. -/
def Standing.place (row : Standing) : ℚ := row.start + row.lateness

/-- An item begins late by what earlier items cover past its start, and by every second that
was rendered twice or added by the floor before. -/
def Count.standing (count : Count) (shot : Shot) : Standing :=
  let lateness := max (count.reach - shot.start) 0 + count.surplus
  let faded := count.faded + shot.fade.getD 0
  { item := shot.item
    start := shot.start
    lateness := lateness
    fade := shot.fade
    faded := faded
    unpaid := if shot.fade.isSome then max (faded - (shot.start + lateness)) 0 else count.unpaid }

def Count.next (count : Count) (shot : Shot) : Count :=
  { reach := max count.reach shot.stop
    surplus := count.surplus + min (max (count.reach - shot.start) 0) (shot.stop - shot.start) +
      max (1 / 10 - (shot.stop - shot.start)) 0
    faded := (count.standing shot).faded
    unpaid := (count.standing shot).unpaid }

def standings (count : Count) : List Shot → List Standing
  | [] => []
  | shot :: rest => count.standing shot :: standings (count.next shot) rest

/-- The strips of one planned item: the gap before it, and the item. -/
def pieces (reach : ℚ) (shot : Shot) : List Strip :=
  (if reach < shot.start then [⟨none, shot.start - reach, none⟩] else []) ++
    [⟨some shot.item, max (shot.stop - shot.start) (1 / 10), shot.fade⟩]

def stripsFrom (reach : ℚ) : List Shot → List Strip
  | [] => []
  | shot :: rest => pieces reach shot ++ stripsFrom (max reach shot.stop) rest

def Count.head (count : Count) : Head :=
  { rendered := count.reach + count.surplus
    absorbed := count.faded
    length := count.reach + count.surplus - count.faded + count.unpaid }

/-- Where an item's segment starts in the joined picture. -/
def Standing.exported (row : Standing) : ℚ := row.place - row.faded + row.unpaid

def Standing.frame (row : Standing) : Frame :=
  ⟨some row.item, row.exported, row.place, row.faded⟩

def Count.gap (count : Count) (shot : Shot) : List Frame :=
  if count.reach < shot.start then [count.head.frame ⟨none, shot.start - count.reach, none⟩]
  else []

/-- The head when an item's own segment is reached. -/
def Count.upTo (count : Count) (shot : Shot) : Head :=
  Count.head { count with reach := max count.reach shot.start }

theorem reelEnd_gap (count : Count) (shot : Shot) :
    reelEnd count.head (if count.reach < shot.start then [⟨none, shot.start - count.reach, none⟩]
      else []) = count.upTo shot := by
  by_cases hgap : count.reach < shot.start
  · rw [if_pos hgap, Count.upTo, max_eq_right hgap.le, reelEnd_cons]
    simp only [Head.next, Head.start, Count.head, reelEnd, List.foldl_nil, Option.getD_none,
      Head.mk.injEq]
    exact ⟨by ring, by ring, by ring⟩
  · rw [if_neg hgap, Count.upTo, max_eq_left (not_lt.mp hgap)]
    rfl

theorem reel_gap (count : Count) (shot : Shot) :
    reel count.head (if count.reach < shot.start then [⟨none, shot.start - count.reach, none⟩]
      else []) = count.gap shot := by
  rw [Count.gap]
  split <;> rfl

theorem place_eq (count : Count) (shot : Shot) :
    (count.standing shot).place = (count.upTo shot).rendered := by
  simp only [Standing.place, Count.standing, Count.upTo, Count.head]
  rcases le_total count.reach shot.start with h | h
  · rw [max_eq_right (sub_nonpos.mpr h), max_eq_right h]
    ring
  · rw [max_eq_left (sub_nonneg.mpr h), max_eq_left h]
    ring

theorem start_eq_exported (count : Count) (shot : Shot) :
    (count.upTo shot).start shot.fade = (count.standing shot).exported := by
  rw [Standing.exported, place_eq]
  cases hfade : shot.fade with
  | none => simp [Head.start, Count.standing, Count.upTo, Count.head, hfade]
  | some d =>
      have hplace := place_eq count shot
      simp only [Standing.place] at hplace
      have hstart : (count.standing shot).start = shot.start := rfl
      have hunpaid : (count.standing shot).unpaid =
          max (count.faded + d - (count.upTo shot).rendered) 0 := by
        rw [← hplace, hstart]
        simp [Count.standing, hfade]
      have hfaded : (count.standing shot).faded = count.faded + d := by
        simp [Count.standing, hfade]
      have habsorbed : (count.upTo shot).absorbed = count.faded := rfl
      rw [hunpaid, hfaded, Head.start, habsorbed]
      rcases le_total ((count.upTo shot).rendered) (count.faded + d) with h | h
      · rw [max_eq_right (by linarith), max_eq_left (by linarith)]
        ring
      · rw [max_eq_left (by linarith), max_eq_right (by linarith)]
        ring

theorem frame_eq (count : Count) (shot : Shot) (duration : ℚ) :
    (count.upTo shot).frame ⟨some shot.item, duration, shot.fade⟩ =
      (count.standing shot).frame := by
  rw [Head.frame, Standing.frame, start_eq_exported, place_eq]
  rfl

/-- What an item covers of the items before it is rendered twice. -/
theorem max_add_length {reach start stop : ℚ} (h : start < stop) :
    max reach start + (stop - start) =
      max reach stop + min (max (reach - start) 0) (stop - start) := by
  rcases le_total reach start with hearly | hlate
  · rw [max_eq_right hearly, max_eq_right (hearly.trans h.le), max_eq_right (sub_nonpos.mpr hearly),
      min_eq_left (sub_nonneg.mpr h.le)]
    ring
  · rw [max_eq_left hlate, max_eq_left (sub_nonneg.mpr hlate)]
    rcases le_total reach stop with hinside | hbeyond
    · rw [max_eq_right hinside, min_eq_left (sub_le_sub_right hinside start)]
      ring
    · rw [max_eq_left hbeyond, min_eq_right (sub_le_sub_right hbeyond start)]

theorem next_head (count : Count) {shot : Shot} (h : shot.start < shot.stop) :
    (count.upTo shot).next ⟨some shot.item, max (shot.stop - shot.start) (1 / 10), shot.fade⟩ =
      (count.next shot).head := by
  have hfloor : max (shot.stop - shot.start) (1 / 10) =
      shot.stop - shot.start + max (1 / 10 - (shot.stop - shot.start)) 0 := by
    rw [← max_add_add_left, add_sub_cancel, add_zero, max_comm]
  have hrendered : (count.upTo shot).rendered + max (shot.stop - shot.start) (1 / 10) =
      (count.next shot).reach + (count.next shot).surplus := by
    have hcover := @max_add_length count.reach shot.start shot.stop h
    simp only [Count.upTo, Count.head, Count.next]
    linarith
  rw [Head.next, Count.head]
  dsimp only
  rw [start_eq_exported, ← hrendered, Standing.exported, place_eq]
  simp only [Count.next, Count.standing, Count.upTo, Count.head, Head.mk.injEq, true_and]
  ring

theorem reel_pieces (count : Count) (shot : Shot) :
    reel count.head (pieces count.reach shot) =
      count.gap shot ++ [(count.standing shot).frame] := by
  rw [pieces, reel_append, reel_gap, reelEnd_gap, reel, frame_eq, reel]

theorem reelEnd_append (head : Head) (front back : List Strip) :
    reelEnd head (front ++ back) = reelEnd (reelEnd head front) back := List.foldl_append

theorem reelEnd_pieces (count : Count) {shot : Shot} (h : shot.start < shot.stop) :
    reelEnd count.head (pieces count.reach shot) = (count.next shot).head := by
  rw [pieces, reelEnd_append, reelEnd_gap, reelEnd_cons, next_head count h]
  rfl

theorem reel_shot (count : Count) {shot : Shot} (h : shot.start < shot.stop)
    (rest : List Shot) :
    reel count.head (stripsFrom count.reach (shot :: rest)) =
      count.gap shot ++ (count.standing shot).frame ::
        reel (count.next shot).head (stripsFrom (count.next shot).reach rest) := by
  rw [stripsFrom, reel_append, reel_pieces, reelEnd_pieces count h, List.append_assoc]
  rfl

/-- The shown frames of a reel, each with the item it shows. -/
def shownStarts (frames : List Frame) : List (Json × ℚ) :=
  frames.filterMap fun frame => frame.shows.map fun item => (item, frame.start)

/-- Every window of the plan is a real one. -/
def Windowed (shots : List Shot) : Prop := ∀ shot ∈ shots, 0 ≤ shot.start ∧ shot.start < shot.stop

theorem Windowed.head {shot : Shot} {rest : List Shot} (h : Windowed (shot :: rest)) :
    0 ≤ shot.start ∧ shot.start < shot.stop := h shot List.mem_cons_self

theorem Windowed.tail {shot : Shot} {rest : List Shot} (h : Windowed (shot :: rest)) :
    Windowed rest := fun other hother => h other (List.mem_cons_of_mem shot hother)

theorem shownStarts_gap (count : Count) (shot : Shot) (frames : List Frame) :
    shownStarts (count.gap shot ++ frames) = shownStarts frames := by
  rw [Count.gap]
  split <;> rfl

theorem shownStarts_reel (count : Count) {shots : List Shot} (h : Windowed shots) :
    shownStarts (reel count.head (stripsFrom count.reach shots)) =
      (standings count shots).map fun row => (row.item, row.exported) := by
  induction shots generalizing count with
  | nil => rfl
  | cons shot rest ih =>
      rw [reel_shot count h.head.2, shownStarts_gap, standings, List.map_cons,
        ← ih (count.next shot) h.tail]
      rfl

theorem next_rendered (count : Count) {shot : Shot} (h : shot.start < shot.stop) :
    (count.standing shot).place + 1 / 10 ≤ (count.next shot).reach + (count.next shot).surplus := by
  have hnext := congrArg Head.rendered (next_head count h)
  have hfloor := le_max_right (shot.stop - shot.start) (1 / 10 : ℚ)
  have hplace := place_eq count shot
  simp only [Head.next, Count.head] at hnext
  linarith

theorem rendered_le_place (count : Count) (shot : Shot) :
    count.reach + count.surplus ≤ (count.standing shot).place := by
  have hplace := place_eq count shot
  have hreach := le_max_left count.reach shot.start
  simp only [Count.upTo, Count.head] at hplace
  linarith

/-- Items are rendered one after another. -/
theorem le_place_of_mem (count : Count) {shots : List Shot} (h : Windowed shots) :
    ∀ row ∈ standings count shots, count.reach + count.surplus ≤ row.place := by
  induction shots generalizing count with
  | nil => simp [standings]
  | cons shot rest ih =>
      intro row hrow
      obtain rfl | hrow := List.mem_cons.mp hrow
      · exact rendered_le_place count shot
      · have hrest := ih (count.next shot) h.tail row hrow
        have hnext := next_rendered count h.head.2
        have hplace := rendered_le_place count shot
        linarith

/-- The crossfades of the items rendered by a second. -/
def fadesBy (rows : List Standing) (second : ℚ) : ℚ :=
  ((rows.filter fun row => row.place ≤ second).map fun row => row.fade.getD 0).sum

theorem fadesBy_eq_zero {rows : List Standing} {second : ℚ} (h : ∀ row ∈ rows, second < row.place) :
    fadesBy rows second = 0 := by
  have hnone : rows.filter (fun row => row.place ≤ second) = [] := by
    rw [List.filter_eq_nil_iff]
    intro row hrow
    have hlt := h row hrow
    simpa using hlt
  rw [fadesBy, hnone]
  rfl

theorem fadesBy_cons_le {row : Standing} {rows : List Standing} {second : ℚ}
    (h : row.place ≤ second) :
    fadesBy (row :: rows) second = row.fade.getD 0 + fadesBy rows second := by
  rw [fadesBy, List.filter_cons_of_pos (by simpa using h), List.map_cons, List.sum_cons, fadesBy]

theorem absorbedAt_gap (count : Count) (shot : Shot) {time : ℚ} (frames : List Frame)
    (h : count.reach + count.surplus ≤ time + slack) :
    absorbedAt time count.faded (count.gap shot ++ frames) =
      absorbedAt time count.faded frames := by
  rw [Count.gap]
  split
  · rw [List.cons_append, absorbedAt]
    refine (if_pos h).trans ?_
    simp [Head.frame, Count.head]
  · rfl

theorem absorbedAt_gap_late (count : Count) (shot : Shot) {time : ℚ} (frames : List Frame)
    (h : time + slack < count.reach + count.surplus) :
    absorbedAt time count.faded
      (count.gap shot ++ (count.standing shot).frame :: frames) = count.faded := by
  rw [Count.gap]
  split
  · rw [List.cons_append, absorbedAt]
    exact if_neg (not_le.mpr h)
  · rw [List.nil_append, absorbedAt, if_neg]
    exact not_le.mpr (lt_of_lt_of_le h (rendered_le_place count shot))

/-- The timing table answers with the crossfades of the items rendered by then. -/
theorem absorbedAt_reel (count : Count) (time : ℚ) {shots : List Shot} (h : Windowed shots) :
    absorbedAt time count.faded (reel count.head (stripsFrom count.reach shots)) =
      count.faded + fadesBy (standings count shots) (time + slack) := by
  induction shots generalizing count with
  | nil => simp [stripsFrom, reel, absorbedAt, standings, fadesBy]
  | cons shot rest ih =>
      rw [reel_shot count h.head.2]
      rcases lt_or_ge (time + slack) (count.reach + count.surplus) with hlate | hdue
      · have hnone := fadesBy_eq_zero fun row hrow =>
          lt_of_lt_of_le hlate (le_place_of_mem count h row hrow)
        rw [absorbedAt_gap_late count shot _ hlate, hnone, add_zero]
      · rw [absorbedAt_gap count shot _ hdue, absorbedAt]
        have hplace : (count.standing shot).frame.place = (count.standing shot).place := rfl
        rw [hplace]
        by_cases hdone : (count.standing shot).place ≤ time + slack
        · have hrest := ih (count.next shot) h.tail
          have hfaded : (count.standing shot).frame.absorbed = (count.next shot).faded := rfl
          have hnext : (count.next shot).faded = count.faded + shot.fade.getD 0 := rfl
          rw [if_pos hdone, hfaded, hrest, standings, fadesBy_cons_le hdone, hnext, add_assoc]
          rfl
        · have hlater : ∀ row ∈ standings count (shot :: rest), time + slack < row.place := by
            intro row hrow
            obtain rfl | hrow := List.mem_cons.mp hrow
            · exact not_le.mp hdone
            · have hrest := le_place_of_mem (count.next shot) h.tail row hrow
              have hnext := next_rendered count h.head.2
              linarith [not_le.mp hdone]
          rw [if_neg hdone, fadesBy_eq_zero hlater, add_zero]

theorem standings_apart (count : Count) {shots : List Shot} (h : Windowed shots) :
    (standings count shots).Pairwise fun earlier later => earlier.place + 1 / 10 ≤ later.place := by
  induction shots generalizing count with
  | nil => exact List.Pairwise.nil
  | cons shot rest ih =>
      refine List.pairwise_cons.mpr ⟨?_, ih (count.next shot) h.tail⟩
      intro row hrow
      exact (next_rendered count h.head.2).trans (le_place_of_mem (count.next shot) h.tail row hrow)

theorem faded_eq_fadesBy (count : Count) {shots : List Shot} (h : Windowed shots) :
    ∀ row ∈ standings count shots,
      row.faded = count.faded + fadesBy (standings count shots) row.place := by
  induction shots generalizing count with
  | nil => simp [standings]
  | cons shot rest ih =>
      have hapart := List.pairwise_cons.mp (standings_apart count h)
      intro row hrow
      obtain rfl | hrow := List.mem_cons.mp hrow
      · have hlater : fadesBy (standings (count.next shot) rest) (count.standing shot).place = 0 :=
          fadesBy_eq_zero fun row hrow => by linarith [hapart.1 row hrow]
        rw [standings, fadesBy_cons_le le_rfl, hlater, add_zero]
        rfl
      · have hbefore : (count.standing shot).place ≤ row.place := by
          linarith [hapart.1 row hrow]
        have hnext : (count.next shot).faded = count.faded + shot.fade.getD 0 := rfl
        rw [standings, fadesBy_cons_le hbefore, ih (count.next shot) h.tail row hrow, hnext,
          add_assoc]
        rfl

def countEnd (count : Count) (shots : List Shot) : Count := shots.foldl Count.next count

theorem reelEnd_shots (count : Count) {shots : List Shot} (h : Windowed shots) :
    reelEnd count.head (stripsFrom count.reach shots) = (countEnd count shots).head := by
  induction shots generalizing count with
  | nil => rfl
  | cons shot rest ih =>
      have hreach : max count.reach shot.stop = (count.next shot).reach := rfl
      rw [stripsFrom, reelEnd_append, reelEnd_pieces count h.head.2, hreach,
        ih (count.next shot) h.tail]
      rfl

theorem countEnd_unpaid (count : Count) (shots : List Shot) :
    (countEnd count shots).unpaid = ((standings count shots).getLast?.map Standing.unpaid).getD
      count.unpaid := by
  induction shots generalizing count with
  | nil => rfl
  | cons shot rest ih =>
      have hnext : (count.next shot).unpaid = (count.standing shot).unpaid := rfl
      rw [countEnd, List.foldl_cons, ← countEnd, ih (count.next shot), standings,
        List.getLast?_cons, hnext]
      cases (standings (count.next shot) rest).getLast? <;> rfl

/-- A picture joined so far has a length. -/
def Count.Sound (count : Count) : Prop :=
  0 ≤ count.surplus ∧ 0 ≤ count.unpaid ∧ 0 ≤ count.head.length

theorem sound_zero : Count.zero.Sound := by simp [Count.Sound, Count.zero, Count.head]

theorem unpaid_nonneg {count : Count} (hsound : count.Sound) (shot : Shot) :
    0 ≤ (count.standing shot).unpaid := by
  simp only [Count.standing]
  split
  · exact le_max_right _ _
  · exact hsound.2.1

theorem exported_nonneg {count : Count} (hsound : count.Sound) (shot : Shot) :
    0 ≤ (count.standing shot).exported := by
  rw [← start_eq_exported]
  cases shot.fade with
  | some d => exact le_max_right _ _
  | none =>
      have hreach := le_max_left count.reach shot.start
      have hlength := hsound.2.2
      simp only [Head.start, Count.upTo, Count.head] at hlength ⊢
      linarith

theorem length_next {count : Count} {shot : Shot} (hsound : count.Sound)
    (h : shot.start < shot.stop) : 1 / 10 ≤ (count.next shot).head.length := by
  have hfloor := le_max_right (shot.stop - shot.start) (1 / 10 : ℚ)
  have hexported := exported_nonneg hsound shot
  rw [← next_head count h, Head.next]
  dsimp only
  rw [start_eq_exported]
  linarith

theorem sound_next {count : Count} {shot : Shot} (hsound : count.Sound)
    (h : shot.start < shot.stop) : (count.next shot).Sound := by
  have hlength := length_next hsound h
  refine ⟨?_, unpaid_nonneg hsound shot, by linarith⟩
  have htwice : 0 ≤ min (max (count.reach - shot.start) 0) (shot.stop - shot.start) :=
    le_min (le_max_right _ _) (sub_nonneg.mpr h.le)
  have hfloor := le_max_right (1 / 10 - (shot.stop - shot.start)) 0
  have hsurplus := hsound.1
  simp only [Count.next]
  linarith

theorem sound_end {count : Count} {shots : List Shot} (hsound : count.Sound) (h : Windowed shots)
    (hne : shots ≠ []) :
    (countEnd count shots).Sound ∧ 0 < (countEnd count shots).head.length := by
  induction shots generalizing count with
  | nil => exact absurd rfl hne
  | cons shot rest ih =>
      have hnext := sound_next hsound h.head.2
      cases rest with
      | nil => exact ⟨hnext, lt_of_lt_of_le (by norm_num) (length_next hsound h.head.2)⟩
      | cons other rest => exact ih hnext h.tail (List.cons_ne_nil _ _)

theorem lateness_nonneg {count : Count} {shots : List Shot} (hsound : count.Sound)
    (h : Windowed shots) : ∀ row ∈ standings count shots, 0 ≤ row.lateness ∧ 0 ≤ row.start := by
  induction shots generalizing count with
  | nil => simp [standings]
  | cons shot rest ih =>
      intro row hrow
      obtain rfl | hrow := List.mem_cons.mp hrow
      · exact ⟨add_nonneg (le_max_right _ _) hsound.1, h.head.1⟩
      · exact ih (sound_next hsound h.head.2) h.tail row hrow

/-- The crossfades rendered after an item's `timelineStart` and no later than the item. -/
def pending (rows : List Standing) (row : Standing) : ℚ :=
  ((rows.filter fun other => row.start + slack < other.place ∧ other.place ≤ row.place).map
    fun other => other.fade.getD 0).sum

theorem fadesBy_add_pending {rows : List Standing} {row : Standing}
    (h : ∀ other ∈ rows, other.place ≤ row.start + slack → other.place ≤ row.place) :
    fadesBy rows (row.start + slack) + pending rows row = fadesBy rows row.place := by
  induction rows with
  | nil => simp [fadesBy, pending]
  | cons other rows ih =>
      have hrest := ih fun other hother => h other (List.mem_cons_of_mem _ hother)
      have hother := h other List.mem_cons_self
      simp only [fadesBy, pending, List.filter_cons, decide_eq_true_eq] at hrest ⊢
      by_cases hearly : other.place ≤ row.start + slack
      · rw [if_pos hearly, if_neg (fun hlate => absurd hearly (not_le.mpr hlate.1)),
          if_pos (hother hearly), List.map_cons, List.map_cons, List.sum_cons, List.sum_cons,
          ← hrest,
          add_assoc]
      · by_cases hplace : other.place ≤ row.place
        · rw [if_neg hearly, if_pos ⟨not_le.mp hearly, hplace⟩, if_pos hplace, List.map_cons,
            List.map_cons, List.sum_cons, List.sum_cons, ← hrest]
          ring
        · rw [if_neg hearly, if_neg (fun hboth => hplace hboth.2), if_neg hplace, hrest]

/-- What the timing table takes off an item's start is what was faded by the item's place, less
what is rendered in between. -/
theorem fadesBy_start {shots : List Shot} (h : Windowed shots) {row : Standing}
    (hrow : row ∈ standings Count.zero shots) :
    fadesBy (standings Count.zero shots) (row.start + slack) =
      row.faded - pending (standings Count.zero shots) row := by
  have hfaded := faded_eq_fadesBy Count.zero h row hrow
  have hlate := (lateness_nonneg sound_zero h row hrow).1
  have hslack : slack < 1 / 10 := by norm_num [slack]
  have hearlier : ∀ other ∈ standings Count.zero shots, other.place ≤ row.start + slack →
      other.place ≤ row.place := by
    intro other hother hearly
    have hplace : row.place = row.start + row.lateness := rfl
    by_cases hsame : other = row
    · rw [hsame]
    · obtain hbefore | hafter :=
        StableSort.either_of_pairwise (standings_apart Count.zero h) hother hrow hsame
      · linarith
      · linarith
  have hsplit := fadesBy_add_pending hearlier
  rw [show Count.zero.faded = 0 from rfl, zero_add] at hfaded
  linarith

/-- One item after the other, with no crossfade longer than the item before it. -/
def Follows (earlier later : Shot) : Prop :=
  earlier.stop ≤ later.start ∧ later.fade.getD 0 ≤ earlier.stop - earlier.start

/-- Where the items follow one another none is late, and every crossfade finds its picture. -/
theorem standings_of_follows {count : Count} {shots : List Shot} (hwindowed : Windowed shots)
    (hlong : ∀ shot ∈ shots, 1 / 10 ≤ shot.stop - shot.start) (hfollows : shots.IsChain Follows)
    (hfirst : ∀ shot ∈ shots.head?,
      count.reach ≤ shot.start ∧ count.faded + shot.fade.getD 0 ≤ shot.start)
    (hsurplus : count.surplus = 0) (hunpaid : count.unpaid = 0) :
    ∀ row ∈ standings count shots,
      row.lateness = 0 ∧ row.unpaid = 0 ∧ row.faded ≤ row.start := by
  induction shots generalizing count with
  | nil => exact fun row hrow => absurd hrow List.not_mem_nil
  | cons shot rest ih =>
      obtain ⟨hreach, hfaded⟩ := hfirst shot rfl
      have hlate : max (count.reach - shot.start) 0 = 0 := max_eq_right (by linarith)
      have hstanding : (count.standing shot).lateness = 0 ∧ (count.standing shot).unpaid = 0 ∧
          (count.standing shot).faded ≤ (count.standing shot).start := by
        have hpaid : max (count.faded + shot.fade.getD 0 - shot.start) 0 = 0 :=
          max_eq_right (by linarith)
        simp only [Count.standing, hlate, hsurplus, add_zero, hpaid, hunpaid, ite_self]
        exact ⟨trivial, trivial, hfaded⟩
      intro row hrow
      obtain rfl | hrow := List.mem_cons.mp hrow
      · exact hstanding
      · have hshort := hlong shot List.mem_cons_self
        have hnonneg : 0 ≤ shot.stop - shot.start := by linarith
        refine ih hwindowed.tail (fun other hother => hlong other (List.mem_cons_of_mem _ hother))
          hfollows.tail ?_ ?_ hstanding.2.1 row hrow
        · intro other hother
          obtain ⟨hapart, hfade⟩ := (List.isChain_cons.mp hfollows).1 other hother
          refine ⟨max_le (by linarith) hapart, ?_⟩
          have hbefore : (count.next shot).faded = count.faded + shot.fade.getD 0 := rfl
          linarith
        · have hfloor : max (1 / 10 - (shot.stop - shot.start)) 0 = 0 := max_eq_right (by linarith)
          simp only [Count.next, hsurplus, hlate, hfloor, min_eq_left hnonneg, add_zero]

end SceneWorks.TimelineExport
