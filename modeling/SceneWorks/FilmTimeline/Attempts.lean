import SceneWorks.FilmTimeline.ShotView

/-!
The order of the attempts of a shot. Where the marks of a shot are in order, a take that is
recognised as a replay is no newer than what the shot carries, and a take that is merged
while no conflict of a higher attempt is pending becomes what the shot carries. `Seen`
is what makes a later delivery of the same attempt a replay.
-/

namespace SceneWorks.FilmTimeline

/-- The marks of a shot as deliveries leave them: one picture, no booked or pending attempt
that its picture does not account for. -/
structure ShotInOrder (run shot : String) (v : ShotView) : Prop where
  unique : v.marks.length ≤ 1
  applied : ∀ attempt, v.applied attempt = true → ∃ mark ∈ v.marks, attempt ≤ markAttempt mark
  aligned : ∀ attempt, ∀ mark ∈ v.marks,
    markDeliveryId mark = .str (deliveryId run shot attempt) → attempt ≤ markAttempt mark
  pending : v.conflict ≠ .null →
    deliveryIdOf (v.conflict.idx "take") =
        .str (deliveryId run shot (attemptOf (v.conflict.idx "take"))) ∧
      ∃ mark ∈ v.marks, markAttempt mark ≤ attemptOf (v.conflict.idx "take")

/-- The highest attempt after one more. -/
def raise (highest : Option Nat) (attempt : Nat) : Option Nat := some (max (highest.getD 0) attempt)

/-- The attempt is recognised from now on, as long as none of a pending conflict is undercut. -/
def Seen (run shot : String) (v : ShotView) (attempt : Nat) : Prop :=
  v.applied attempt = true ∨ v.aligned run shot attempt = true ∨
    v.conflict ≠ .null ∧ attempt ≤ attemptOf (v.conflict.idx "take")

namespace ShotView

variable {run shot : String} {v : ShotView} {attempt : Nat}

theorem marks_single {mark : Option Json} (h : v.marks.length ≤ 1) (hmark : mark ∈ v.marks) :
    v.marks = [mark] := by
  match hv : v.marks, h with
  | [], _ => simp [hv] at hmark
  | [m], _ =>
      rw [hv] at hmark
      rw [List.mem_singleton.mp hmark]

theorem carried_null {mark : Option Json} (hnull : v.conflict = .null) (hmarks : v.marks = [mark]) :
    v.carried = some (markAttempt mark) := by
  simp [carried, hnull, hmarks, Json.isNull]

theorem carried_conflict (h : v.conflict ≠ .null) :
    v.carried = some (attemptOf (v.conflict.idx "take")) := by
  have hnull : v.conflict.isNull = false := by
    rw [Bool.eq_false_iff]
    exact fun hnull => h (Json.isNull_iff.mp hnull)
  simp [carried, hnull]

theorem pending_conflict (h : v.pending run shot attempt = true) : v.conflict ≠ .null := by
  intro hnull
  simp [pending, hnull, deliveryIdOf, Json.idx, Json.get, Json.asObject] at h

theorem le_carried (hv : ShotInOrder run shot v) {mark : Option Json} (hmark : mark ∈ v.marks)
    (h : attempt ≤ markAttempt mark) : ∃ highest, v.carried = some highest ∧ attempt ≤ highest := by
  have hsingle := marks_single hv.unique hmark
  by_cases hnull : v.conflict = .null
  · exact ⟨_, carried_null hnull hsingle, h⟩
  · obtain ⟨-, other, hother, hle⟩ := hv.pending hnull
    rw [hsingle, List.mem_singleton] at hother
    subst hother
    exact ⟨_, carried_conflict hnull, h.trans hle⟩

theorem aligned_iff {mark : Option Json} (hmarks : v.marks = [mark]) :
    v.aligned run shot attempt = true ↔
      markDeliveryId mark = .str (deliveryId run shot attempt) ∨
        ∃ aligned, markAttemptField mark = some aligned ∧ attempt ≤ aligned := by
  simp only [aligned, hmarks, List.head?_cons, Option.any_some, markAligned, Bool.or_eq_true,
    beq_iff_eq, Option.any_eq_true, decide_eq_true_eq]

theorem markAttempt_of_field {mark : Option Json} {aligned : Nat}
    (h : markAttemptField mark = some aligned) : markAttempt mark = aligned := by
  rw [markAttempt, h]
  rfl

end ShotView

open ShotView

variable {run shot : String} {v v' : ShotView} {attempt : Nat}

theorem raise_eq_self {highest : Option Nat} (h : ∃ n, highest = some n ∧ attempt ≤ n) :
    raise highest attempt = highest := by
  obtain ⟨n, rfl, hle⟩ := h
  simp only [raise, Option.getD_some, Option.some.injEq]
  omega

theorem raise_eq_attempt {highest : Option Nat} (h : highest.getD 0 ≤ attempt) :
    raise highest attempt = some attempt := by
  simp only [raise, Option.some.injEq]
  omega

theorem replay_seen (hv : ShotInOrder run shot v) (h : v.replay run shot attempt = true) :
    raise v.carried attempt = v.carried ∧ Seen run shot v attempt := by
  simp only [ShotView.replay, Bool.or_eq_true] at h
  obtain (happlied | haligned) | hpending := h
  · obtain ⟨mark, hmark, hle⟩ := hv.applied attempt happlied
    exact ⟨raise_eq_self (le_carried hv hmark hle), .inl happlied⟩
  · refine ⟨raise_eq_self ?_, .inr (.inl haligned)⟩
    cases hmarks : v.marks with
    | nil => simp [ShotView.aligned, hmarks] at haligned
    | cons mark rest =>
        have hmark : mark ∈ v.marks := hmarks ▸ List.mem_cons_self
        obtain hid | ⟨aligned, hfield, hle⟩ :=
          (aligned_iff (marks_single hv.unique hmark)).mp haligned
        · exact le_carried hv hmark (hv.aligned attempt mark hmark hid)
        · exact le_carried hv hmark (markAttempt_of_field hfield ▸ hle)
  · have hconflict := pending_conflict hpending
    obtain ⟨hid, -⟩ := hv.pending hconflict
    have hsame : attempt = attemptOf (v.conflict.idx "take") := by
      have hid' : deliveryIdOf (v.conflict.idx "take") = .str (deliveryId run shot attempt) := by
        simpa [ShotView.pending] using hpending
      rw [hid] at hid'
      exact (deliveryId_injective (Json.str.inj hid')).2.symm
    exact ⟨raise_eq_self ⟨_, carried_conflict hconflict, hsame.le⟩,
      .inr (.inr ⟨hconflict, hsame.le⟩)⟩

/-- No conflict of a higher attempt is pending. -/
def NotUndercut (v : ShotView) (attempt : Nat) : Prop :=
  v.conflict ≠ .null → attemptOf (v.conflict.idx "take") ≤ attempt

theorem not_replay_iff : v.replay run shot attempt = false ↔
    v.applied attempt = false ∧ v.aligned run shot attempt = false ∧
      v.pending run shot attempt = false := by
  simp only [ShotView.replay, Bool.or_eq_false_iff, and_assoc]

theorem carried_le_of_merged (hv : ShotInOrder run shot v)
    (hreplay : v.replay run shot attempt = false) (hcut : NotUndercut v attempt) :
    v.carried.getD 0 ≤ attempt ∧ ∀ mark ∈ v.marks, markAttempt mark ≤ attempt := by
  obtain ⟨-, haligned, -⟩ := not_replay_iff.mp hreplay
  have hmarks : ∀ mark ∈ v.marks, markAttempt mark ≤ attempt := by
    intro mark hmark
    have hiff : v.aligned run shot attempt = true ↔ _ := aligned_iff (marks_single hv.unique hmark)
    rw [haligned] at hiff
    cases hfield : markAttemptField mark with
    | none => simp [markAttempt, hfield]
    | some aligned =>
        rw [markAttempt_of_field hfield]
        by_contra hlt
        exact absurd (hiff.mpr (.inr ⟨aligned, hfield, by omega⟩)) (by simp)
  refine ⟨?_, hmarks⟩
  by_cases hnull : v.conflict = .null
  · cases hlist : v.marks with
    | nil => simp [carried, hnull, hlist, Json.isNull]
    | cons mark rest =>
        have hmark : mark ∈ v.marks := hlist ▸ List.mem_cons_self
        rw [carried_null hnull (marks_single hv.unique hmark)]
        exact hmarks mark hmark
  · rw [carried_conflict hnull]
    exact hcut hnull

theorem viewStep_carried (hv : ShotInOrder run shot v)
    (hreplay : v.replay run shot attempt = false) (hcut : NotUndercut v attempt)
    (h : ViewStep run shot attempt v v') : v'.carried = raise v.carried attempt := by
  rw [raise_eq_attempt (carried_le_of_merged hv hreplay hcut).1]
  cases h with
  | conflicted hmarks hrecord hid hattempt =>
      have hcarried := carried_conflict (v := { v with conflict := _ }) hrecord
      rw [hcarried, hattempt]
  | @placed mark conflict hid hattempt hconflict =>
      have hnull : conflict = .null := by
        obtain hnull | ⟨hempty, hsame⟩ := hconflict
        · exact hnull
        · by_contra hne
          obtain ⟨-, other, hother, -⟩ := hv.pending (hsame ▸ hne)
          simp [hempty] at hother
      rw [← hattempt]
      exact carried_null hnull rfl

theorem viewStep_inOrder (hv : ShotInOrder run shot v)
    (hreplay : v.replay run shot attempt = false) (hcut : NotUndercut v attempt)
    (h : ViewStep run shot attempt v v') : ShotInOrder run shot v' := by
  obtain ⟨-, hmarksLe⟩ := carried_le_of_merged hv hreplay hcut
  cases h with
  | @conflicted mark rest record hmarks hrecord hid hattempt =>
      refine ⟨hv.unique, hv.applied, hv.aligned, fun _ => ⟨?_, mark, ?_, ?_⟩⟩
      · rw [hid, hattempt]
      · exact hmarks ▸ List.mem_cons_self
      · rw [hattempt]
        exact hmarksLe mark (hmarks ▸ List.mem_cons_self)
  | @placed mark conflict hid hattempt hconflict =>
      refine ⟨by simp, ?_, ?_, ?_⟩
      · intro other happlied
        refine ⟨mark, by simp, ?_⟩
        rw [hattempt]
        simp only [Bool.or_eq_true, beq_iff_eq] at happlied
        obtain hold | rfl := happlied
        · obtain ⟨old, hold, hle⟩ := hv.applied other hold
          exact hle.trans (hmarksLe old hold)
        · exact Nat.le_refl _
      · intro other mark' hmark' hid'
        rw [List.mem_singleton.mp hmark'] at hid' ⊢
        rw [hid] at hid'
        rw [hattempt, ← (deliveryId_injective (Json.str.inj hid')).2]
      · intro hne
        obtain hnull | ⟨hempty, hsame⟩ := hconflict
        · exact absurd hnull hne
        · obtain ⟨-, other, hother, -⟩ := hv.pending (hsame ▸ hne)
          simp [hempty] at hother

/-- A take that is merged is seen, and what was seen stays seen. -/
theorem viewStep_seen (hv : ShotInOrder run shot v)
    (hreplay : v.replay run shot attempt = false) (hcut : NotUndercut v attempt)
    (h : ViewStep run shot attempt v v') :
    Seen run shot v' attempt ∧ ∀ other, Seen run shot v other → Seen run shot v' other := by
  obtain ⟨-, hmarksLe⟩ := carried_le_of_merged hv hreplay hcut
  obtain ⟨-, haligned, hpending⟩ := not_replay_iff.mp hreplay
  cases h with
  | @conflicted mark rest record hmarks hrecord hid hattempt =>
      refine ⟨.inr (.inr ⟨hrecord, hattempt.ge⟩), fun other hseen => ?_⟩
      obtain happlied | halignedOther | ⟨hconflict, hle⟩ := hseen
      · exact .inl happlied
      · exact .inr (.inl halignedOther)
      · refine .inr (.inr ⟨hrecord, ?_⟩)
        change other ≤ attemptOf (record.idx "take")
        rw [hattempt]
        exact hle.trans (hcut hconflict)
  | @placed mark conflict hid hattempt hconflict =>
      refine ⟨.inl (by simp), fun other hseen => ?_⟩
      -- A positive attempt is read back from the mark of the take that carries it.
      have hcovers : other ≤ attempt → 0 < attempt → Seen run shot
          { marks := [mark], conflict := conflict,
            applied := fun b => v.applied b || b == attempt } other := by
        intro hle hpos
        refine .inr (.inl ((aligned_iff rfl).mpr (.inr ?_)))
        cases hfield : markAttemptField mark with
        | none =>
            rw [markAttempt, hfield] at hattempt
            simp at hattempt
            omega
        | some aligned =>
            rw [markAttempt_of_field hfield] at hattempt
            exact ⟨aligned, rfl, by omega⟩
      obtain happlied | halignedOther | ⟨hpendingOther, hle⟩ := hseen
      · exact .inl (by simp [happlied])
      · cases hlist : v.marks with
        | nil => simp [ShotView.aligned, hlist] at halignedOther
        | cons old rest =>
            have hold : old ∈ v.marks := hlist ▸ List.mem_cons_self
            have hsingle := marks_single hv.unique hold
            have hiff : v.aligned run shot attempt = true ↔ _ := aligned_iff hsingle
            have hnot' := hiff.not.mp (by simp [haligned])
            obtain hidOld | ⟨aligned, hfield, hle⟩ := (aligned_iff hsingle).mp halignedOther
            · have hle := hv.aligned other old hold hidOld
              have hne : other ≠ attempt := fun e => hnot' (.inl (e ▸ hidOld))
              have hbound := hmarksLe old hold
              exact hcovers (by omega) (by omega)
            · have hlt : aligned < attempt := by
                by_contra hge
                exact hnot' (.inr ⟨aligned, hfield, by omega⟩)
              exact hcovers (by omega) (by omega)
      · have hbound := hcut hpendingOther
        have hne : attemptOf (v.conflict.idx "take") ≠ attempt := by
          intro hsame
          have hid' := (hv.pending hpendingOther).1
          rw [hsame] at hid'
          rw [ShotView.pending, hid'] at hpending
          simp at hpending
        exact hcovers (by omega) (by omega)

/-- An attempt that was seen is recognised while no conflict of a higher attempt is pending. -/
theorem replay_of_seen (hv : ShotInOrder run shot v) (hseen : Seen run shot v attempt)
    (hcut : NotUndercut v attempt) : v.replay run shot attempt = true := by
  simp only [ShotView.replay, Bool.or_eq_true]
  obtain happlied | haligned | ⟨hconflict, hle⟩ := hseen
  · exact .inl (.inl happlied)
  · exact .inl (.inr haligned)
  · refine .inr ?_
    have hsame : attemptOf (v.conflict.idx "take") = attempt := Nat.le_antisymm (hcut hconflict) hle
    rw [ShotView.pending, (hv.pending hconflict).1, hsame]
    simp

end SceneWorks.FilmTimeline
