import SceneWorks.FilmRun.Reachable

/-!
The selected take of a shot over whole runs. Between two looks at the record every shot has
done automatic work, after at most one human step an invocation; so attempts only grow, a
selection is only dropped by a human, and a rejected take is not selected again. All of it
rests on attempts having numbers of their own, which the number's type grants to the first
`maxAttemptNumber` attempts of a shot.
-/

namespace SceneWorks
namespace FilmRun

open ShotRunRecord Controller

/-- The record of a shot, or that of a shot never worked. -/
def RunRecord.shotRecord (record : RunRecord) (shotId : String) : ShotRunRecord :=
  (record.shots.find? fun shot => shot.shotId == shotId).getD (ShotRunRecord.fresh shotId)

/-- What one invocation does to a shot: automatic work, after a replacement of that shot. -/
def ShotMoves (runId : String) (cap : Nat) (action : Action) (shotId : String)
    (before after : ShotRunRecord) : Prop :=
  ∃ first, (first = before ∨
    ∃ reason, action = .replaceTake shotId reason ∧ first = replacedShot runId before reason) ∧
    ShotRun runId cap first after

variable {plan : Plan}

theorem orderedShots_eq_map (plan : Plan) (record : RunRecord) :
    orderedShots plan record.shots = plan.shotIds.map record.shotRecord := by
  simp [orderedShots, Plan.shotIds, RunRecord.shotRecord]

theorem shotRecord_of_mem {record : RunRecord} (hshape : Shaped plan record.shots)
    {shot : ShotRunRecord} (hmem : shot ∈ record.shots) : record.shotRecord shot.shotId = shot := by
  obtain hnil | hids := hshape
  · rw [hnil] at hmem
    cases hmem
  · rw [RunRecord.shotRecord, find?_of_ids plan.distinct hids hmem]
    rfl

theorem shotRecord_of_notMem {record : RunRecord} (hshape : Shaped plan record.shots)
    {shotId : String} (hnot : shotId ∉ plan.shotIds) :
    record.shotRecord shotId = ShotRunRecord.fresh shotId := by
  have hnone : (record.shots.find? fun shot => shot.shotId == shotId) = none := by
    rw [List.find?_eq_none]
    intro shot hshot hid
    obtain hnil | hids := hshape
    · rw [hnil] at hshot
      cases hshot
    · apply hnot
      rw [← hids, ← eq_of_beq hid]
      exact List.mem_map_of_mem hshot
  rw [RunRecord.shotRecord, hnone]
  rfl

theorem regular_shotRecord {world : World} {saved : RunRecord} (h : OnDisk plan world saved)
    (shotId : String) : Regular saved.runId plan.maxAttemptsPerShot (saved.shotRecord shotId) := by
  by_cases hmem : shotId ∈ plan.shotIds
  · apply h.regular
    rw [orderedShots_eq_map]
    exact List.mem_map_of_mem hmem
  · rw [shotRecord_of_notMem h.shape hmem]
    exact regular_fresh saved.runId plan.maxAttemptsPerShot shotId

theorem forall₂_map_same {α β : Type} {R : β → β → Prop} {f g : α → β} {l : List α} :
    List.Forall₂ R (l.map f) (l.map g) ↔ ∀ x ∈ l, R (f x) (g x) := by
  rw [List.forall₂_map_left_iff, List.forall₂_map_right_iff, List.forall₂_same]

/-- Automatic work between two records, shot by shot. -/
theorem shotRun_of_evolves {runId : String} {cap : Nat} (before : RunRecord) {after : RunRecord}
    (hbefore : Shaped plan before.shots) (hafter : Shaped plan after.shots)
    (h : Evolves runId cap (orderedShots plan before.shots) (orderedShots plan after.shots))
    (shotId : String) : ShotRun runId cap (before.shotRecord shotId) (after.shotRecord shotId) := by
  by_cases hmem : shotId ∈ plan.shotIds
  · rw [orderedShots_eq_map, orderedShots_eq_map] at h
    exact forall₂_map_same.mp h shotId hmem
  · rw [shotRecord_of_notMem hbefore hmem, shotRecord_of_notMem hafter hmem]

theorem shotRecord_set {record : RunRecord} (hids : record.shots.map (·.shotId) = plan.shotIds)
    {i : Nat} {shot shot' : ShotRunRecord} (hi : record.shots[i]? = some shot)
    (hid : shot'.shotId = shot.shotId) (shotId : String) :
    RunRecord.shotRecord { record with shots := record.shots.set i shot' } shotId =
      if shotId = shot.shotId then shot' else record.shotRecord shotId := by
  have hlt : i < record.shots.length := (List.getElem?_eq_some_iff.mp hi).1
  have hids' : (record.shots.set i shot').map (·.shotId) = plan.shotIds :=
    (map_shotId_set hi hid).trans hids
  generalize hreplaced : { record with shots := record.shots.set i shot' } = replaced
  have hshots : replaced.shots = record.shots.set i shot' := by rw [← hreplaced]
  have hshape' : Shaped plan replaced.shots := .inr (hshots ▸ hids')
  by_cases hsame : shotId = shot.shotId
  · subst hsame
    rw [if_pos rfl, ← hid]
    exact shotRecord_of_mem hshape' (hshots ▸ List.mem_set hlt shot')
  · rw [if_neg hsame]
    by_cases hmem : shotId ∈ plan.shotIds
    · rw [← hids] at hmem
      obtain ⟨other, hother, rfl⟩ := List.mem_map.mp hmem
      obtain ⟨rfl, -⟩ | hset := mem_set_of_getElem? hi shot' hother
      · exact absurd rfl hsame
      · rw [shotRecord_of_mem (.inr hids) hother]
        exact shotRecord_of_mem hshape' (hshots ▸ hset)
    · rw [shotRecord_of_notMem (.inr hids) hmem]
      exact shotRecord_of_notMem hshape' hmem

/-- What an invocation that found a record does to every shot of it. -/
theorem Progress.shotMoves {directory after : Directory} {action : Action} {saved : RunRecord}
    (hdisk : directory.disk = some saved) (hkept : Kept plan directory)
    (h : Progress plan directory action after) :
    ∃ saved', after.disk = some saved' ∧ saved'.runId = saved.runId ∧
      OnDisk plan after.world saved' ∧
      ∀ shotId, ShotMoves saved.runId plan.maxAttemptsPerShot action shotId
        (saved.shotRecord shotId) (saved'.shotRecord shotId) := by
  simp only [Kept, hdisk] at hkept
  have hautomatic : Advanced plan saved.runId (orderedShots plan saved.shots) after →
      ∃ saved', after.disk = some saved' ∧ saved'.runId = saved.runId ∧
        OnDisk plan after.world saved' ∧
        ∀ shotId, ShotMoves saved.runId plan.maxAttemptsPerShot action shotId
          (saved.shotRecord shotId) (saved'.shotRecord shotId) := by
    rintro ⟨saved', hdisk', hrun, hevolves, honDisk⟩
    refine ⟨saved', hdisk', hrun, honDisk, fun shotId => ⟨_, .inl rfl, ?_⟩⟩
    exact shotRun_of_evolves saved hkept.shape honDisk.shape hevolves shotId
  simp only [Progress, hdisk] at h
  cases action with
  | run _ _ _ => exact hautomatic h
  | resume => exact hautomatic h
  | replaceTake shotId reason =>
      obtain h | ⟨i, shot, hplace, rfl, saved', hdisk', hrun, hevolves, honDisk⟩ := h
      · exact hautomatic h
      · refine ⟨saved', hdisk', hrun, honDisk, fun other => ?_⟩
        have hids := hkept.shape.ids_of_getElem? hplace
        have hid : (replacedShot saved.runId shot reason).shotId = shot.shotId := rfl
        have hids' := (map_shotId_set hplace hid).trans hids
        rw [← orderedShots_of_ids hids'] at hevolves
        have hmoved := shotRun_of_evolves
          { saved with shots := saved.shots.set i (replacedShot saved.runId shot reason) }
          (.inr hids') honDisk.shape hevolves other
        rw [shotRecord_set hids hplace hid] at hmoved
        refine ⟨_, ?_, hmoved⟩
        by_cases hother : other = shot.shotId
        · subst hother
          right
          refine ⟨reason, rfl, ?_⟩
          rw [if_pos rfl, shotRecord_of_mem hkept.shape (List.mem_of_getElem? hplace)]
        · left
          rw [if_neg hother]

section Moves

variable {runId shotId : String} {cap : Nat} {action : Action} {before after : ShotRunRecord}

theorem ShotMoves.grows (h : ShotMoves runId cap action shotId before after) :
    Grows before after := by
  obtain ⟨first, rfl | ⟨reason, -, rfl⟩, hrun⟩ := h
  · exact hrun.grows
  · exact (grows_replacedShot runId before reason).trans hrun.grows

theorem ShotMoves.selected (h : ShotMoves runId cap action shotId before after)
    (hautomatic : ∀ reason, action ≠ .replaceTake shotId reason) {number : Nat}
    (hnumber : before.selectedAttempt = some number) : after.selectedAttempt = some number := by
  obtain ⟨first, rfl | ⟨reason, hreplace, -⟩, hrun⟩ := h
  · exact hrun.selected hnumber
  · exact absurd hreplace (hautomatic reason)

theorem ShotMoves.choosing (hcap : cap ≤ maxAttemptNumber)
    (h : ShotMoves runId cap action shotId before after) (hregular : Regular runId cap before)
    (hlength : before.attempts.length ≤ maxAttemptNumber) (hchoosing : Choosing before) :
    Choosing after := by
  obtain ⟨first, rfl | ⟨reason, -, rfl⟩, hrun⟩ := h
  · exact hrun.choosing hcap hregular hchoosing
  · exact hrun.choosing hcap (regular_replacedShot hregular reason)
      (choosing_replacedShot hregular hchoosing hlength reason)

end Moves

/-- No shot has made more attempts than there are numbers for. -/
def NumbersLast (directory : Directory) : Prop :=
  ∀ saved, directory.disk = some saved → ∀ shot ∈ saved.shots,
    shot.attempts.length ≤ maxAttemptNumber

/-- Attempt numbers increase, and what a shot selects is one attempt of it, whose take nobody
rejected. -/
def TakesReal (directory : Directory) : Prop :=
  ∀ saved, directory.disk = some saved → ∀ shot ∈ saved.shots,
    (shot.attempts.map (·.attempt)).Pairwise (· < ·) ∧
      ∀ number, shot.selectedAttempt = some number →
        ∃ attempt, (shot.attempts.filter fun attempt => attempt.attempt == number) = [attempt] ∧
          attempt.take.isSome ∧ attempt.rejection = none

/-- Later the attempts of a shot are the ones it had and perhaps more, and none that was
rejected is selected. -/
def AttemptsKept (before after : Directory) : Prop :=
  ∀ saved, before.disk = some saved → ∃ saved', after.disk = some saved' ∧
    ∀ shotId,
      (saved.shotRecord shotId).attempts.map (·.attempt) <+:
        (saved'.shotRecord shotId).attempts.map (·.attempt) ∧
      ∀ attempt ∈ (saved.shotRecord shotId).attempts, attempt.rejection.isSome →
        (saved'.shotRecord shotId).selectedAttempt ≠ some attempt.attempt

def SelectionKept (before after : Directory) : Prop :=
  ∀ saved, before.disk = some saved → ∃ saved', after.disk = some saved' ∧
    ∀ shotId number, (saved.shotRecord shotId).selectedAttempt = some number →
      (saved'.shotRecord shotId).selectedAttempt = some number

/-- The selected take over a whole run: real in every state, no attempt lost and no rejected
one back between any two states, and no selection changed but by a human. -/
structure TakesHeld (plan : Plan) (directory : Directory) (invocations : List Invocation) :
    Prop where
  real : Run.Throughout (invoke plan) TakesReal directory invocations
  kept : ∀ front middle back, invocations = front ++ (middle ++ back) →
    AttemptsKept (Run.exec (invoke plan) directory front)
      (Run.exec (invoke plan) directory (front ++ middle))
  human : ∀ front invocation back, invocations = front ++ invocation :: back →
    (∀ shotId reason, invocation.action ≠ .replaceTake shotId reason) →
    SelectionKept (Run.exec (invoke plan) directory front)
      (invoke plan (Run.exec (invoke plan) directory front) invocation)

theorem Regular.pairwise_iff {runId : String} {cap : Nat} {shot : ShotRunRecord}
    (h : Regular runId cap shot) :
    (shot.attempts.map (·.attempt)).Pairwise (· < ·) ↔ shot.attempts.length ≤ maxAttemptNumber := by
  rw [h.numbered.numbers, List.pairwise_map]
  constructor
  · intro hpairwise
    by_contra hlong
    -- the last two of too many attempts carry the largest number both
    have hlt : maxAttemptNumber < shot.attempts.length := Nat.lt_of_not_le hlong
    have hlast := List.pairwise_iff_getElem.mp hpairwise (maxAttemptNumber - 1) maxAttemptNumber
      (by rw [List.length_range]; omega) (by rw [List.length_range]; exact hlt)
      (by decide)
    simp only [List.getElem_range] at hlast
    omega
  · intro hlength
    rw [List.pairwise_iff_getElem]
    intro j k hj hk hjk
    simp only [List.length_range] at hj hk
    simp only [List.getElem_range]
    omega

theorem filter_number_of_nodup {attempts : List AttemptRecord}
    (h : (attempts.map (·.attempt)).Nodup) {attempt : AttemptRecord} (hmem : attempt ∈ attempts) :
    (attempts.filter fun other => other.attempt == attempt.attempt) = [attempt] := by
  induction attempts with
  | nil => cases hmem
  | cons first attempts ih =>
      rw [List.map_cons, List.nodup_cons] at h
      obtain rfl | hmem := List.mem_cons.mp hmem
      · rw [List.filter_cons_of_pos (by simp), List.filter_eq_nil_iff.mpr]
        intro other hother hsame
        exact h.1 (eq_of_beq hsame ▸ List.mem_map_of_mem hother)
      · rw [List.filter_cons_of_neg, ih h.2 hmem]
        intro hsame
        exact h.1 (eq_of_beq hsame ▸ List.mem_map_of_mem hmem)

/-- While the numbers last, a shot that chooses as it should has a real take selected. -/
theorem ShotRunRecord.Choosing.real {runId : String} {cap : Nat} {shot : ShotRunRecord}
    (h : Choosing shot)
    (hregular : Regular runId cap shot) (hlength : shot.attempts.length ≤ maxAttemptNumber)
    {number : Nat} (hnumber : shot.selectedAttempt = some number) :
    ∃ attempt, (shot.attempts.filter fun attempt => attempt.attempt == number) = [attempt] ∧
      attempt.take.isSome ∧ attempt.rejection = none := by
  obtain ⟨attempt, hmem, rfl, htake, hrejection⟩ := h.selected number hnumber
  have hnodup : (shot.attempts.map (·.attempt)).Nodup :=
    (Regular.pairwise_iff hregular).mpr hlength |>.imp Nat.ne_of_lt
  exact ⟨attempt, filter_number_of_nodup hnodup hmem, htake, hrejection⟩

/-- A rejection that an earlier state holds keeps its attempt from being selected. -/
theorem Grows.rejected_not_selected {runId : String} {cap : Nat} {before after : ShotRunRecord}
    (h : Grows before after) (hregular : Regular runId cap after) (hchoosing : Choosing after)
    (hlength : after.attempts.length ≤ maxAttemptNumber) {attempt : AttemptRecord}
    (hmem : attempt ∈ before.attempts) (hrejection : attempt.rejection.isSome) :
    after.selectedAttempt ≠ some attempt.attempt := by
  intro hselected
  obtain ⟨j, hj⟩ := List.mem_iff_getElem?.mp hmem
  obtain ⟨kept, hkept, hnumber, -, -, hstill⟩ := h.attempts j attempt hj
  obtain ⟨chosen, hchosen, hsame, -, hlive⟩ := hchoosing.selected _ hselected
  obtain ⟨k, hk⟩ := List.mem_iff_getElem?.mp hchosen
  have hjk : j = k := hregular.numbered.unique hlength hkept hk (hnumber.trans hsame.symm)
  rw [← hjk, hkept] at hk
  obtain rfl := Option.some.inj hk
  have := hstill hrejection
  simp [hlive] at this

theorem Grows.numbers {before after : ShotRunRecord} (h : Grows before after) :
    before.attempts.map (·.attempt) <+: after.attempts.map (·.attempt) := by
  rw [List.prefix_iff_getElem?]
  intro j hj
  rw [List.length_map] at hj
  obtain ⟨new, hnew, hnumber, -⟩ := h.attempts j _ (List.getElem?_eq_getElem hj)
  simp [hnew, hnumber]

/-- What a run that has written a record keeps of it. -/
def ShotsGrow (before after : Directory) : Prop :=
  ∀ saved, before.disk = some saved → ∃ saved', after.disk = some saved' ∧
    ∀ shotId, Grows (saved.shotRecord shotId) (saved'.shotRecord shotId)

theorem shotsGrow_run {directory : Directory} (h : Kept plan directory)
    (invocations : List Invocation) :
    ShotsGrow directory (Run.exec (invoke plan) directory invocations) := by
  induction invocations generalizing directory with
  | nil => exact fun saved hdisk => ⟨saved, hdisk, fun shotId => Grows.refl _⟩
  | cons invocation invocations ih =>
      intro saved hdisk
      have hprogress := invoke_progress h invocation
      obtain ⟨saved', hdisk', -, -, hmoves⟩ := hprogress.shotMoves hdisk h
      obtain ⟨saved'', hdisk'', hgrows⟩ := ih hprogress.kept saved' hdisk'
      exact ⟨saved'', hdisk'', fun shotId => (hmoves shotId).grows.trans (hgrows shotId)⟩

/-- Every shot of the record chooses as it should. -/
def Chosen (directory : Directory) : Prop :=
  ∀ saved, directory.disk = some saved → ∀ shotId, Choosing (saved.shotRecord shotId)

theorem NumbersLast.shotRecord {directory : Directory} (h : NumbersLast directory)
    {saved : RunRecord} (hdisk : directory.disk = some saved) (shotId : String) :
    (saved.shotRecord shotId).attempts.length ≤ maxAttemptNumber := by
  rw [RunRecord.shotRecord]
  cases hfound : saved.shots.find? fun shot => shot.shotId == shotId with
  | none => simp [ShotRunRecord.fresh]
  | some shot => exact h saved hdisk shot (List.mem_of_find?_eq_some hfound)

theorem Started.chosen {directory : Directory} (h : Started plan directory) :
    Chosen directory := by
  intro saved hdisk shotId
  obtain ⟨hnone, -⟩ | ⟨runId, saved', hdisk', -, hevolves, honDisk⟩ := h
  · rw [hnone] at hdisk
    cases hdisk
  · obtain rfl := Option.some.inj (hdisk.symm.trans hdisk')
    have hrun := shotRun_of_evolves { saved with shots := [] } (.inl rfl) honDisk.shape hevolves
      shotId
    exact hrun.choosing plan.bounded (regular_fresh runId plan.maxAttemptsPerShot shotId)
      (choosing_fresh shotId)

theorem Chosen.invoke {directory : Directory} (hkept : Kept plan directory)
    (hlast : NumbersLast directory) (h : Chosen directory) (invocation : Invocation) :
    Chosen (invoke plan directory invocation) := by
  have hprogress := invoke_progress hkept invocation
  cases hdisk : directory.disk with
  | none =>
      simp only [Progress, hdisk] at hprogress
      exact hprogress.chosen
  | some saved =>
      intro after hafter shotId
      obtain ⟨saved', hdisk', -, -, hmoves⟩ := hprogress.shotMoves hdisk hkept
      obtain rfl := Option.some.inj (hafter.symm.trans hdisk')
      simp only [Kept, hdisk] at hkept
      exact (hmoves shotId).choosing plan.bounded (regular_shotRecord hkept shotId)
        (hlast.shotRecord hdisk shotId) (h saved hdisk shotId)

theorem chosen_run {directory : Directory} (hkept : Kept plan directory) (h : Chosen directory)
    {invocations : List Invocation}
    (hlast : Run.Throughout (FilmRun.invoke plan) NumbersLast directory invocations) :
    Chosen (Run.exec (FilmRun.invoke plan) directory invocations) := by
  induction invocations generalizing directory with
  | nil => exact h
  | cons invocation invocations ih =>
      exact ih (invoke_progress hkept invocation).kept (h.invoke hkept hlast.1 invocation) hlast.2

theorem numbersLast_of_real {directory : Directory} (hkept : Kept plan directory)
    (h : TakesReal directory) : NumbersLast directory := by
  intro saved hdisk shot hshot
  simp only [Kept, hdisk] at hkept
  have hregular := hkept.regular shot (mem_orderedShots hkept.shape hshot)
  exact (Regular.pairwise_iff hregular).mp (h saved hdisk shot hshot).1

theorem Chosen.real {directory : Directory} (hkept : Kept plan directory)
    (hlast : NumbersLast directory) (h : Chosen directory) : TakesReal directory := by
  intro saved hdisk shot hshot
  simp only [Kept, hdisk] at hkept
  have hregular := hkept.regular shot (mem_orderedShots hkept.shape hshot)
  have hlength := hlast saved hdisk shot hshot
  have hchoosing := h saved hdisk shot.shotId
  rw [shotRecord_of_mem hkept.shape hshot] at hchoosing
  exact ⟨(Regular.pairwise_iff hregular).mpr hlength, fun number hnumber =>
    hchoosing.real hregular hlength hnumber⟩

theorem ShotsGrow.attemptsKept {before after : Directory} (h : ShotsGrow before after)
    (hkept : Kept plan after) (hlast : NumbersLast after) (hchosen : Chosen after) :
    AttemptsKept before after := by
  intro saved hdisk
  obtain ⟨saved', hdisk', hgrows⟩ := h saved hdisk
  simp only [Kept, hdisk'] at hkept
  refine ⟨saved', hdisk', fun shotId => ⟨(hgrows shotId).numbers, ?_⟩⟩
  intro attempt hattempt hrejection
  exact (hgrows shotId).rejected_not_selected (regular_shotRecord hkept shotId)
    (hchosen saved' hdisk' shotId) (hlast.shotRecord hdisk' shotId) hattempt hrejection

theorem selectionKept_invoke {directory : Directory} (hkept : Kept plan directory)
    {invocation : Invocation}
    (hautomatic : ∀ shotId reason, invocation.action ≠ .replaceTake shotId reason) :
    SelectionKept directory (invoke plan directory invocation) := by
  intro saved hdisk
  obtain ⟨saved', hdisk', -, -, hmoves⟩ := (invoke_progress hkept invocation).shotMoves hdisk hkept
  exact ⟨saved', hdisk', fun shotId number hnumber =>
    (hmoves shotId).selected (hautomatic shotId) hnumber⟩

/-- A run that never numbers more attempts of a shot than a number can tell apart holds every
promise about selected takes, and it alone does. -/
theorem takes_held_iff (plan : Plan) (now : Nat) (invocations : List Invocation) :
    TakesHeld plan (Directory.empty now) invocations ↔
      Run.Throughout (invoke plan) NumbersLast (Directory.empty now) invocations := by
  constructor
  · intro h
    have hreal := Run.throughout_iff_exec.mp h.real
    rw [Run.throughout_iff_exec]
    intro front back hsplit
    exact numbersLast_of_real (kept_run (kept_empty now) front) (hreal front back hsplit)
  · intro h
    have hlast := Run.throughout_iff_exec.mp h
    have hchosen : ∀ front back, invocations = front ++ back →
        Chosen (Run.exec (invoke plan) (Directory.empty now) front) := by
      intro front back hsplit
      apply chosen_run (kept_empty now)
      · intro saved hdisk
        cases hdisk
      · rw [Run.throughout_iff_exec]
        rintro front' back' rfl
        exact hlast front' (back' ++ back) (by rw [hsplit, List.append_assoc])
    constructor
    · rw [Run.throughout_iff_exec]
      intro front back hsplit
      exact (hchosen front back hsplit).real (kept_run (kept_empty now) front)
        (hlast front back hsplit)
    · intro front middle back hsplit
      have hsplit' : invocations = (front ++ middle) ++ back := by
        rw [hsplit, List.append_assoc]
      have hkept : Kept plan _ := kept_run (kept_empty now) front
      have hgrow := shotsGrow_run hkept middle
      rw [← Run.exec_append] at hgrow
      exact hgrow.attemptsKept (kept_run (kept_empty now) (front ++ middle))
        (hlast _ back hsplit') (hchosen _ back hsplit')
    · intro front invocation back _ hautomatic
      exact selectionKept_invoke (kept_run (kept_empty now) front) hautomatic

section Exhausted

/-- A plan of one shot, which a run starts and leaves before the shot is worked. -/
def oneShotPlan : Plan :=
  { shots := [{ id := "s", dialogueClip := none }]
    maxAttemptsPerShot := 1
    maxMemoryGb := 96
    beds := []
    sound := []
    digest := id
    bounded := one_le_maxAttemptNumber
    safe := by decide
    distinct := by decide }

def leftRun : Invocation :=
  { action := .run "r" none none, exporting := false, script := List.replicate 11 {} }

/-- A replacement whose render job the API refuses. -/
def refusal : Invocation :=
  { action := .replaceTake "s" "again"
    exporting := false
    script := [{}, {}, {}, {}, {}, { answer := .refused }, {}, {}, {}, {}] }

def refusedRecord (attempts : List AttemptRecord) : RunRecord :=
  { runId := "r"
    state := .finished
    outcome := .failed
    stop := some { reason := "enqueue_refused", resumable := false }
    projectId := some "r"
    selectedShotIds := ["s"]
    shots := [{ shotId := "s", outcome := .failed, attempts, selectedAttempt := none }]
    synthesizedSound := []
    sound := []
    timeline := none
    exported := none
    exportPending := none
    supersededExportJobIds := []
    activeTakeOperation := none }

def idleWorld : World :=
  { jobs := [], timeline := none, canceled := false, now := 0 }

def refusedDirectory (attempts : List AttemptRecord) : Directory :=
  { disk := some (refusedRecord attempts), world := idleWorld }

def refusedVerdict : RunOutcome × Option RunStop :=
  (.failed, some { reason := "enqueue_refused", resumable := false })

def refusedShot (attempts : List AttemptRecord) : ShotRunRecord :=
  { shotId := "s", outcome := .failed, attempts, selectedAttempt := none }

def askedAttempt (attempts : List AttemptRecord) : AttemptRecord :=
  freshAttempt "r" (refusedShot attempts) true

def refusedAttempt (attempts : List AttemptRecord) : AttemptRecord :=
  { askedAttempt attempts with status := "rejected" }

/-- The controller of a refusal when it has found its shot. -/
def lookingSession (attempts : List AttemptRecord) : Session :=
  { record := { refusedRecord attempts with state := .running, stop := none }
    stop := none
    exporting := false
    runDeadline := false
    disk := some (refusedRecord attempts)
    world := idleWorld
    script := [{}, {}, {}, { answer := .refused }, {}, {}, {}, {}] }

def askedRecord (attempts : List AttemptRecord) (shots : List ShotRunRecord) : RunRecord :=
  { refusedRecord [] with
    state := .running
    stop := none
    shots
    activeTakeOperation := some
      { shotId := "s"
        attempt := (askedAttempt attempts).attempt
        idempotencyKey := (askedAttempt attempts).idempotencyKey
        priorOutcome := refusedVerdict.1
        priorStop := refusedVerdict.2
        reason := "again"
        exporting := false } }

/-- The controller of a refusal once its attempt is on disk. -/
def askingSession (attempts : List AttemptRecord) (shots : List ShotRunRecord) : Session :=
  { lookingSession attempts with
    record := askedRecord attempts shots
    disk := some (askedRecord attempts shots)
    script := [{}, {}, { answer := .refused }, {}, {}, {}, {}] }

variable (attempts : List AttemptRecord)

def askedShots : List ShotRunRecord :=
  [refusedShot (attempts ++ [askedAttempt attempts])]

theorem getElem?_asked :
    (attempts ++ [askedAttempt attempts])[attempts.length]? = some (askedAttempt attempts) := by
  simp

theorem modify_asked :
    (attempts ++ [askedAttempt attempts]).modify attempts.length
      (fun attempt => { attempt with status := "rejected" }) =
        attempts ++ [refusedAttempt attempts] := by
  rw [modify_of_getElem? (getElem?_asked attempts)]
  simp [refusedAttempt]

def toldSession : Session :=
  let record := (askedRecord attempts (askedShots attempts)).modifyAttempt 0 attempts.length
    fun attempt => { attempt with status := "rejected" }
  { askingSession attempts (askedShots attempts) with
    record
    stop := some (.failed, { reason := "enqueue_refused", resumable := false })
    disk := some record
    script := [{}, {}, {}] }

theorem workAttempt_asking :
    workAttempt oneShotPlan 0 attempts.length (askingSession attempts (askedShots attempts)) =
      .ok false (toldSession attempts) := by
  have hat : attemptAt 0 attempts.length (askingSession attempts (askedShots attempts)) =
      .ok (askedAttempt attempts) (askingSession attempts (askedShots attempts)) :=
    attemptAt_of_some (getElem?_asked attempts)
  have hjob : attemptJob 0 attempts.length (askingSession attempts (askedShots attempts)) =
      .ok none (toldSession attempts) := by
    rw [attemptJob, Crash.bind_of_ok hat]
    rfl
  have hproject : projectId (askingSession attempts (askedShots attempts)) =
      .ok "r" (askingSession attempts (askedShots attempts)) := rfl
  rw [workAttempt, Crash.bind_of_ok hproject, Crash.bind_of_ok hjob]
  rfl

theorem completeTakeOperation_told :
    (Crash.final (completeTakeOperation oneShotPlan 0 "s" refusedVerdict
      (toldSession attempts))).directory =
        refusedDirectory (attempts ++ [refusedAttempt attempts]) := by
  rw [← modify_asked]
  rfl

variable {attempts}

/-- Attempts that are over and left no take behind. -/
def Spent (attempts : List AttemptRecord) : Prop :=
  ∀ attempt ∈ attempts, attempt.isTerminal = true ∧ attempt.take = none

theorem Spent.rejectTake (h : Spent attempts) :
    rejectTake (refusedShot attempts) "again" = attempts := by
  have hnone : attempts.reverse.find? (·.hasLiveTake) = none := by
    rw [List.find?_eq_none]
    intro attempt hattempt
    simp [AttemptRecord.hasLiveTake, (h attempt (List.mem_reverse.mp hattempt)).2]
  simp [Controller.rejectTake, rejectedAttempt, refusedShot, hnone]

theorem replaceTake_refusal (h : Spent attempts) :
    replaceTake oneShotPlan "s" "again" (refusal.session (refusedDirectory attempts)) =
      (workAttempt oneShotPlan 0 attempts.length >>= fun _ =>
        completeTakeOperation oneShotPlan 0 "s" refusedVerdict)
        (askingSession attempts (askedShots attempts)) := by
  have hany : (attempts.any fun attempt => !attempt.isTerminal) = false := by
    rw [List.any_eq_false]
    intro attempt hattempt
    simp [(h attempt hattempt).1]
  have hshots : askedShots attempts = [replacedShot "r" (refusedShot attempts) "again"] := by
    rw [replacedShot, h.rejectTake]
    rfl
  have hlooking : replaceTake oneShotPlan "s" "again"
      (refusal.session (refusedDirectory attempts)) =
      (if (attempts.any fun attempt => !attempt.isTerminal) = true then
        fail .refused
      else do
        let exporting := (← get).exporting
        modifyRecord fun record =>
          beginReplacement record 0 (refusedShot attempts) "again" exporting refusedVerdict
        persist
        let _ ← workAttempt oneShotPlan 0 attempts.length
        completeTakeOperation oneShotPlan 0 "s" refusedVerdict) (lookingSession attempts) := rfl
  rw [hlooking, hany, if_neg Bool.false_ne_true, hshots]
  rfl

theorem invoke_refusal (h : Spent attempts) :
    invoke oneShotPlan (refusedDirectory attempts) refusal =
      refusedDirectory (attempts ++ [refusedAttempt attempts]) := by
  show (Crash.final (replaceTake oneShotPlan "s" "again" _)).directory = _
  rw [replaceTake_refusal h, Crash.bind_of_ok (workAttempt_asking attempts)]
  exact completeTakeOperation_told attempts

theorem Spent.append (h : Spent attempts) : Spent (attempts ++ [refusedAttempt attempts]) := by
  intro attempt hattempt
  obtain hattempt | hattempt := List.mem_append.mp hattempt
  · exact h attempt hattempt
  · rw [List.mem_singleton.mp hattempt]
    exact ⟨rfl, rfl⟩

/-- Nothing stops a human from asking again: every refusal is one more attempt. -/
theorem exec_refusals (h : Spent attempts) (count : Nat) :
    ∃ more, Run.exec (invoke oneShotPlan) (refusedDirectory attempts)
        (List.replicate count refusal) = refusedDirectory more ∧
      more.length = attempts.length + count := by
  induction count generalizing attempts with
  | zero => exact ⟨attempts, rfl, rfl⟩
  | succ count ih =>
      obtain ⟨more, hexec, hlength⟩ := ih h.append
      refine ⟨more, ?_, ?_⟩
      · rw [List.replicate_succ, Run.exec_cons, invoke_refusal h]
        exact hexec
      · rw [hlength, List.length_append, List.length_singleton]
        omega

def firstAttempt : AttemptRecord :=
  { freshAttempt "r" (ShotRunRecord.fresh "s") true with status := "rejected" }

theorem invoke_leftRun :
    invoke oneShotPlan (invoke oneShotPlan (Directory.empty 0) leftRun) refusal =
      refusedDirectory [firstAttempt] := by
  generalize hreached :
    invoke oneShotPlan (invoke oneShotPlan (Directory.empty 0) leftRun) refusal = directory
  have hdisk : directory.disk = some (refusedRecord [firstAttempt]) := by
    rw [← hreached]
    decide +kernel
  have hjobs : directory.world.jobs = [] := by
    rw [← hreached, ← List.isEmpty_iff]
    decide +kernel
  have hrest : (directory.world.timeline, directory.world.canceled, directory.world.now) =
      (none, false, 0) := by
    rw [← hreached]
    decide +kernel
  obtain ⟨disk, jobs, timeline, canceled, now⟩ := directory
  simp only [Prod.mk.injEq] at hdisk hjobs hrest
  rw [hdisk, hjobs, hrest.1, hrest.2.1, hrest.2.2]
  rfl

theorem not_takesHeld_of_refusals {count : Nat} (hcount : maxAttemptNumber ≤ count) :
    ¬ TakesHeld oneShotPlan (Directory.empty 0)
      (leftRun :: refusal :: List.replicate count refusal) := by
  intro h
  have hreal := Run.throughout_iff_exec.mp h.real _ [] (List.append_nil _).symm
  have hspent : Spent [firstAttempt] := by
    intro attempt hattempt
    rw [List.mem_singleton.mp hattempt]
    exact ⟨rfl, rfl⟩
  obtain ⟨more, hexec, hlength⟩ := exec_refusals hspent count
  have hkept : Kept oneShotPlan _ := kept_run (kept_empty 0)
    (leftRun :: refusal :: List.replicate count refusal)
  have hlast := numbersLast_of_real hkept hreal
  rw [Run.exec_cons, Run.exec_cons, invoke_leftRun, hexec] at hlast
  have hlong : more.length ≤ maxAttemptNumber :=
    hlast (refusedRecord more) rfl (refusedShot more) List.mem_cons_self
  rw [hlength, List.length_singleton] at hlong
  omega

/-- A human who asks often enough: the last two attempts carry one number, the largest. -/
theorem not_takesHeld_refusals :
    ¬ TakesHeld oneShotPlan (Directory.empty 0)
      (leftRun :: refusal :: List.replicate maxAttemptNumber refusal) :=
  not_takesHeld_of_refusals (Nat.le_refl maxAttemptNumber)

end Exhausted

end FilmRun
end SceneWorks
