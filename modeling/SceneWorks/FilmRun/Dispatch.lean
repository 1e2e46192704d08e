import SceneWorks.FilmRun.Evolution

/-!
Dispatch across crashes. The record on disk is never ahead of the one in memory and the two
differ by automatic work only; every job that carries the key of an attempt has that attempt
on disk; and no two jobs carry one key. `Held` is that state with every attempt written out,
`Loose` the same while an attempt may be in memory only: a controller may be left there, but
it asks for no job there.
-/

namespace SceneWorks
namespace FilmRun

open Crash ShotRunRecord Controller

/-- The keys of the jobs the API holds. -/
def World.keys (world : World) : List String :=
  world.jobs.filterMap Job.key

theorem World.Drift.keys_eq {a b : World} (h : Drift a b) : b.keys = a.keys := by
  have hfilter : ∀ jobs : List Job, jobs.filterMap Job.key = (jobs.map Job.key).filterMap id := by
    intro jobs
    rw [List.filterMap_map]
    rfl
  rw [World.keys, World.keys, hfilter, hfilter, h.keys]

/-- A record has no shots yet or one for each shot of the plan. -/
def Shaped (plan : Plan) (shots : List ShotRunRecord) : Prop :=
  shots = [] ∨ shots.map (·.shotId) = plan.shotIds

theorem find?_of_ids {ids : List String} (hids : ids.Nodup) {shots : List ShotRunRecord}
    (h : shots.map (·.shotId) = ids) {shot : ShotRunRecord} (hmem : shot ∈ shots) :
    (shots.find? fun record => record.shotId == shot.shotId) = some shot := by
  induction shots generalizing ids with
  | nil => cases hmem
  | cons first shots ih =>
      subst h
      rw [List.map_cons, List.nodup_cons] at hids
      obtain rfl | hmem := List.mem_cons.mp hmem
      · simp
      · have hne : first.shotId ≠ shot.shotId := by
          intro heq
          exact hids.1 (heq ▸ List.mem_map_of_mem hmem)
        rw [List.find?_cons_of_neg (by simpa using hne)]
        exact ih hids.2 rfl hmem

theorem orderedShots_of_ids {plan : Plan} {shots : List ShotRunRecord}
    (h : shots.map (·.shotId) = plan.shotIds) : orderedShots plan shots = shots := by
  have hordered : orderedShots plan shots = plan.shotIds.map fun id =>
      (shots.find? fun record => record.shotId == id).getD (ShotRunRecord.fresh id) := by
    simp [orderedShots, Plan.shotIds]
  rw [hordered, ← h, List.map_map]
  have hself : ∀ shot ∈ shots, ((fun id => (shots.find? fun record => record.shotId == id).getD
      (ShotRunRecord.fresh id)) ∘ fun shot => shot.shotId) shot = id shot := by
    intro shot hmem
    simp only [Function.comp_apply, id_eq]
    rw [find?_of_ids plan.distinct h hmem]
    rfl
  rw [List.map_congr_left hself, List.map_id]

theorem shotIds_orderedShots {plan : Plan} {shots : List ShotRunRecord} (h : Shaped plan shots) :
    (orderedShots plan shots).map (·.shotId) = plan.shotIds := by
  obtain rfl | h := h
  · simp [orderedShots, Plan.shotIds, ShotRunRecord.fresh]
  · rw [orderedShots_of_ids h, h]

theorem orderedShots_idem {plan : Plan} {shots : List ShotRunRecord} (h : Shaped plan shots) :
    orderedShots plan (orderedShots plan shots) = orderedShots plan shots :=
  orderedShots_of_ids (shotIds_orderedShots h)

theorem Shaped.ids_of_getElem? {plan : Plan} {shots : List ShotRunRecord} (h : Shaped plan shots)
    {i : Nat} {shot : ShotRunRecord} (hi : shots[i]? = some shot) :
    shots.map (·.shotId) = plan.shotIds := by
  obtain rfl | h := h
  · simp at hi
  · exact h

/-- Every spoken line of the record carries a key of the spoken kind. -/
def LinesKeyed (plan : Plan) (record : RunRecord) : Prop :=
  ∀ line ∈ record.synthesizedSound, ∃ role model voice text attempt,
    line.idempotencyKey =
      dialogueIdempotencyKey plan.digest record.runId role model voice text attempt

def numbers (shots : List ShotRunRecord) : List (List Nat) :=
  shots.map fun shot => shot.attempts.map (·.attempt)

variable {plan : Plan} {runId : String} {start : List ShotRunRecord}

/-- A controller at work on run `runId`, whose shots were `start` when it took over. -/
structure Tracked (plan : Plan) (runId : String) (start : List ShotRunRecord) (saved : RunRecord)
    (s : Session) : Prop where
  regular : ∀ shot ∈ start, Regular runId plan.maxAttemptsPerShot shot
  disk : s.disk = some saved
  savedRun : saved.runId = runId
  memoryRun : s.record.runId = runId
  savedShape : Shaped plan saved.shots
  memoryShape : Shaped plan s.record.shots
  sinceStart : Evolves runId plan.maxAttemptsPerShot start (orderedShots plan saved.shots)
  sinceSaved : Evolves runId plan.maxAttemptsPerShot (orderedShots plan saved.shots)
    (orderedShots plan s.record.shots)
  savedLines : LinesKeyed plan saved
  memoryLines : LinesKeyed plan s.record
  distinct : s.world.keys.Nodup
  recorded : ∀ key ∈ s.world.keys, ∀ shotId ∈ plan.shotIds, ∀ number,
    key = idempotencyKey runId shotId number →
      ∃ shot ∈ orderedShots plan saved.shots, shot.shotId = shotId ∧
        ∃ attempt ∈ shot.attempts, attempt.attempt = number

def Loose (plan : Plan) (runId : String) (start : List ShotRunRecord) (s : Session) : Prop :=
  ∃ saved, Tracked plan runId start saved s

def Held (plan : Plan) (runId : String) (start : List ShotRunRecord) (s : Session) : Prop :=
  ∃ saved, Tracked plan runId start saved s ∧
    numbers (orderedShots plan s.record.shots) = numbers (orderedShots plan saved.shots)

theorem Held.loose {s : Session} (h : Held plan runId start s) : Loose plan runId start s :=
  let ⟨saved, htracked, _⟩ := h
  ⟨saved, htracked⟩

theorem Tracked.drift {saved : RunRecord} {s s' : Session} (hdrift : Drifts s s')
    (h : Tracked plan runId start saved s) : Tracked plan runId start saved s' where
  regular := h.regular
  disk := hdrift.disk.trans h.disk
  savedRun := h.savedRun
  memoryRun := hdrift.record ▸ h.memoryRun
  savedShape := h.savedShape
  memoryShape := hdrift.record ▸ h.memoryShape
  sinceStart := h.sinceStart
  sinceSaved := hdrift.record ▸ h.sinceSaved
  savedLines := h.savedLines
  memoryLines := hdrift.record ▸ h.memoryLines
  distinct := hdrift.world.keys_eq ▸ h.distinct
  recorded := hdrift.world.keys_eq ▸ h.recorded

theorem Held.drift {s s' : Session} (hdrift : Drifts s s') (h : Held plan runId start s) :
    Held plan runId start s' := by
  obtain ⟨saved, htracked, hnumbers⟩ := h
  refine ⟨saved, htracked.drift hdrift, ?_⟩
  rw [hdrift.record]
  exact hnumbers

theorem Loose.drift {s s' : Session} (hdrift : Drifts s s') (h : Loose plan runId start s) :
    Loose plan runId start s' :=
  let ⟨saved, htracked⟩ := h
  ⟨saved, htracked.drift hdrift⟩

/-- Writing the record out: nothing on disk is lost, so every job keeps its attempt there. -/
theorem Loose.persisted {s : Session} (h : Loose plan runId start s) :
    Held plan runId start { s with disk := some s.record } := by
  obtain ⟨saved, h⟩ := h
  refine ⟨s.record, ⟨h.regular, rfl, h.memoryRun, h.memoryRun, h.memoryShape, h.memoryShape,
    h.sinceStart.trans h.sinceSaved, Evolves.refl _ _ _, h.memoryLines, h.memoryLines, h.distinct,
    ?_⟩, rfl⟩
  intro key hkey shotId hshotId number hnumber
  obtain ⟨shot, hshot, hid, attempt, hattempt, hnumber⟩ :=
    h.recorded key hkey shotId hshotId number hnumber
  obtain ⟨shot', hshot', hrun⟩ := h.sinceSaved.mem hshot
  obtain ⟨attempt', hattempt', hsame⟩ := hrun.grows.mem hattempt
  exact ⟨shot', hshot', hrun.grows.shotId.trans hid, attempt', hattempt', hsame.trans hnumber⟩

/-- A change of the record in memory that is automatic work on its shots. -/
theorem Tracked.changed {saved : RunRecord} {s : Session} (h : Tracked plan runId start saved s)
    {record : RunRecord} (hrun : record.runId = s.record.runId)
    (hshape : Shaped plan record.shots)
    (hshots : Evolves runId plan.maxAttemptsPerShot (orderedShots plan s.record.shots)
      (orderedShots plan record.shots))
    (hlines : LinesKeyed plan record) : Tracked plan runId start saved { s with record } where
  regular := h.regular
  disk := h.disk
  savedRun := h.savedRun
  memoryRun := hrun.trans h.memoryRun
  savedShape := h.savedShape
  memoryShape := hshape
  sinceStart := h.sinceStart
  sinceSaved := h.sinceSaved.trans hshots
  savedLines := h.savedLines
  memoryLines := hlines
  distinct := h.distinct
  recorded := h.recorded

/-- Bookkeeping: the shots and the run stay as they are, and the lines keep their keys. -/
theorem Held.bookkeeping {s : Session} (h : Held plan runId start s) {record : RunRecord}
    (hrun : record.runId = s.record.runId) (hshots : record.shots = s.record.shots)
    (hlines : LinesKeyed plan record) : Held plan runId start { s with record } := by
  obtain ⟨saved, htracked, hnumbers⟩ := h
  refine ⟨saved, htracked.changed hrun (hshots ▸ htracked.memoryShape) ?_ hlines, ?_⟩
  · rw [hshots]
    exact Evolves.refl _ _ _
  · simp only [hshots]
    exact hnumbers

theorem numbers_set {shots : List ShotRunRecord} {i : Nat} {shot shot' : ShotRunRecord}
    (hi : shots[i]? = some shot)
    (h : shot'.attempts.map (·.attempt) = shot.attempts.map (·.attempt)) :
    numbers (shots.set i shot') = numbers shots := by
  apply List.ext_getElem?
  intro k
  simp only [numbers, List.getElem?_map, List.getElem?_set]
  by_cases hik : i = k
  · subst hik
    have hlt : i < shots.length := (List.getElem?_eq_some_iff.mp hi).1
    rw [if_pos rfl, if_pos hlt, hi]
    simp [h]
  · rw [if_neg hik]

theorem Tracked.modifyShot {saved : RunRecord} {s : Session}
    (h : Tracked plan runId start saved s) {i : Nat} {f : ShotRunRecord → ShotRunRecord}
    (hf : ∀ shot, s.record.shots[i]? = some shot →
      ShotRun runId plan.maxAttemptsPerShot shot (f shot)) :
    Tracked plan runId start saved { s with record := s.record.modifyShot i f } := by
  cases hi : s.record.shots[i]? with
  | none =>
      have hsame : s.record.modifyShot i f = s.record := by
        simp [RunRecord.modifyShot, List.modify_eq_self (List.getElem?_eq_none_iff.mp hi)]
      rw [hsame]
      exact h
  | some shot =>
      have hids := h.memoryShape.ids_of_getElem? hi
      have hevolves := Evolves.set hi (hf shot hi)
      have hids' : (s.record.shots.set i (f shot)).map (·.shotId) = plan.shotIds :=
        hevolves.shotIds.trans hids
      refine h.changed rfl ?_ ?_ h.memoryLines
      · right
        simp only [RunRecord.modifyShot, modify_of_getElem? hi]
        exact hids'
      · simp only [RunRecord.modifyShot, modify_of_getElem? hi]
        rw [orderedShots_of_ids hids, orderedShots_of_ids hids']
        exact hevolves

theorem Held.modifyShot {s : Session} (h : Held plan runId start s) {i : Nat}
    {f : ShotRunRecord → ShotRunRecord}
    (hf : ∀ shot, s.record.shots[i]? = some shot →
      ShotRun runId plan.maxAttemptsPerShot shot (f shot) ∧
        (f shot).attempts.map (·.attempt) = shot.attempts.map (·.attempt)) :
    Held plan runId start { s with record := s.record.modifyShot i f } := by
  obtain ⟨saved, htracked, hnumbers⟩ := h
  refine ⟨saved, htracked.modifyShot fun shot hi => (hf shot hi).1, ?_⟩
  rw [← hnumbers]
  cases hi : s.record.shots[i]? with
  | none => simp [RunRecord.modifyShot, List.modify_eq_self (List.getElem?_eq_none_iff.mp hi)]
  | some shot =>
      have hids := htracked.memoryShape.ids_of_getElem? hi
      have hids' : (s.record.shots.set i (f shot)).map (·.shotId) = plan.shotIds :=
        (Evolves.set hi (hf shot hi).1).shotIds.trans hids
      simp only [RunRecord.modifyShot, modify_of_getElem? hi]
      rw [orderedShots_of_ids hids', orderedShots_of_ids hids]
      exact numbers_set hi (hf shot hi).2

theorem Loose.modifyShot {s : Session} (h : Loose plan runId start s) {i : Nat}
    {f : ShotRunRecord → ShotRunRecord}
    (hf : ∀ shot, s.record.shots[i]? = some shot →
      ShotRun runId plan.maxAttemptsPerShot shot (f shot)) :
    Loose plan runId start { s with record := s.record.modifyShot i f } :=
  let ⟨saved, htracked⟩ := h
  ⟨saved, htracked.modifyShot hf⟩

/-- A fact about the record in memory, beside the invariant. -/
abbrev With (I : Session → Prop) (P : RunRecord → Prop) (s : Session) : Prop :=
  I s ∧ P s.record

theorem Quiet.keeps {α : Type} {program : Controller α} (h : Quiet program)
    (P : RunRecord → Prop) :
    Keeps (With (Held plan runId start) P) (Loose plan runId start) program := by
  refine Within.keeps h ?_ fun s hs => hs.1.loose
  intro s s' hdrift hs
  refine ⟨hs.1.drift hdrift, ?_⟩
  rw [hdrift.record]
  exact hs.2

theorem triple_persist (P : RunRecord → Prop) :
    Triple (With (Loose plan runId start) P) persist (fun _ => With (Held plan runId start) P)
      (fun _ => Loose plan runId start) := by
  apply Triple.bind fun _ => With (Loose plan runId start) P
  · refine Within.keeps quiet_next ?_ fun s hs => hs.1
    intro s s' hdrift hs
    refine ⟨hs.1.drift hdrift, ?_⟩
    rw [hdrift.record]
    exact hs.2
  · intro move
    cases move.answer with
    | done => exact triple_modify fun s hs => ⟨hs.1.persisted, hs.2⟩
    | lost =>
        apply Triple.bind fun _ => Held plan runId start
        · exact triple_modify fun s hs => hs.1.persisted
        · intro _
          exact triple_throw fun s hs => hs.loose
    | refused | failed => exact triple_throw fun s hs => hs.1

theorem keeps_persist (P : RunRecord → Prop) :
    Keeps (With (Held plan runId start) P) (Loose plan runId start) persist :=
  (triple_persist P).mono fun _ hs => ⟨hs.1.loose, hs.2⟩

def JobKind.key : JobKind → Option String
  | .video key | .audio key => some key
  | .timelineExport _ _ => none

theorem World.keys_create (world : World) (kind : JobKind) :
    (world.create kind).keys = world.keys ++ kind.key.toList := by
  cases kind <;> simp [World.keys, World.create, Job.key, JobKind.key]

/-- An attempt that memory and disk both number is on disk in the same shot. -/
theorem Held.onDisk {saved : RunRecord} {s : Session} (h : Tracked plan runId start saved s)
    (hnumbers : numbers (orderedShots plan s.record.shots) =
      numbers (orderedShots plan saved.shots))
    {shot : ShotRunRecord} (hshot : shot ∈ orderedShots plan s.record.shots)
    {attempt : AttemptRecord} (hattempt : attempt ∈ shot.attempts) :
    ∃ shot' ∈ orderedShots plan saved.shots, shot'.shotId = shot.shotId ∧
      ∃ attempt' ∈ shot'.attempts, attempt'.attempt = attempt.attempt := by
  obtain ⟨i, hi⟩ := List.mem_iff_getElem?.mp hshot
  have hids : (orderedShots plan s.record.shots).map (·.shotId) =
      (orderedShots plan saved.shots).map (·.shotId) :=
    (shotIds_orderedShots h.memoryShape).trans (shotIds_orderedShots h.savedShape).symm
  have hidi := congrArg (·[i]?) hids
  have hnumberi := congrArg (·[i]?) hnumbers
  simp only [numbers, List.getElem?_map, hi, Option.map_some] at hidi hnumberi
  obtain ⟨shot', hshot', hid⟩ := Option.map_eq_some_iff.mp hidi.symm
  rw [hshot', Option.map_some] at hnumberi
  have hmem : attempt.attempt ∈ shot'.attempts.map (·.attempt) := by
    rw [← Option.some.inj hnumberi]
    exact List.mem_map_of_mem hattempt
  obtain ⟨attempt', hattempt', hsame⟩ := List.mem_map.mp hmem
  exact ⟨shot', List.mem_of_getElem? hshot', hid, attempt', hattempt', hsame⟩

/-- A job may be created under a key no job has, if every attempt of that key is in memory. -/
theorem Held.created {s : Session} (h : Held plan runId start s) {kind : JobKind}
    (hnew : ∀ key ∈ kind.key, key ∉ s.world.keys)
    (hrecorded : ∀ key ∈ kind.key, ∀ shotId ∈ plan.shotIds, ∀ number,
      key = idempotencyKey runId shotId number →
        ∃ shot ∈ orderedShots plan s.record.shots, shot.shotId = shotId ∧
          ∃ attempt ∈ shot.attempts, attempt.attempt = number) :
    Held plan runId start { s with world := s.world.create kind } := by
  obtain ⟨saved, h, hnumbers⟩ := h
  refine ⟨saved, ⟨h.regular, h.disk, h.savedRun, h.memoryRun, h.savedShape, h.memoryShape,
    h.sinceStart, h.sinceSaved, h.savedLines, h.memoryLines, ?_, ?_⟩, hnumbers⟩
  · rw [World.keys_create]
    cases hkey : kind.key with
    | none => simpa using h.distinct
    | some key =>
        have hfresh := hnew key hkey
        simp only [Option.toList_some]
        exact List.nodup_append.mpr ⟨h.distinct, List.nodup_singleton key, fun a ha b hb => by
          rw [List.mem_singleton.mp hb]
          exact fun hab => hfresh (hab ▸ ha)⟩
  · intro key hkey shotId hshotId number hnumber
    rw [World.keys_create] at hkey
    obtain hkey | hkey := List.mem_append.mp hkey
    · exact h.recorded key hkey shotId hshotId number hnumber
    · have hkind : key ∈ kind.key := Option.mem_toList.mp hkey
      obtain ⟨shot, hshot, hid, attempt, hattempt, hsame⟩ :=
        hrecorded key hkind shotId hshotId number hnumber
      obtain ⟨shot', hshot', hid', attempt', hattempt', hsame'⟩ :=
        Held.onDisk h hnumbers hshot hattempt
      exact ⟨shot', hshot', hid'.trans hid, attempt', hattempt', hsame'.trans hsame⟩

/-- The invariant while no job carries `key`. -/
abbrev Unasked (I : Session → Prop) (key : String) (s : Session) : Prop :=
  I s ∧ key ∉ s.world.keys

theorem triple_findJobByIdempotencyKey (P : RunRecord → Prop) (key : String) :
    Triple (With (Held plan runId start) P) (findJobByIdempotencyKey key)
      (fun found s => With (Held plan runId start) P s ∧ (found = none → key ∉ s.world.keys))
      (fun _ => Loose plan runId start) := by
  apply Triple.bind fun jobs s => With (Held plan runId start) P s ∧ jobs = s.world.jobs.reverse
  · apply Triple.bind fun _ => With (Held plan runId start) P
    · exact Quiet.keeps quiet_expectOk P
    · intro _
      apply Triple.bind fun s' s => With (Held plan runId start) P s ∧ s' = s
      · exact triple_get fun s hs => ⟨hs, rfl⟩
      · intro s'
        exact triple_pure fun s hs => ⟨hs.1, hs.2 ▸ rfl⟩
  · intro jobs
    apply triple_pure
    intro s ⟨hs, hjobs⟩
    refine ⟨hs, ?_⟩
    intro hnone hkey
    obtain ⟨job, hjob, hjobKey⟩ := List.mem_filterMap.mp hkey
    rw [Option.map_eq_none_iff, List.find?_eq_none] at hnone
    exact hnone job (hjobs ▸ List.mem_reverse.mpr hjob) (by simp [hjobKey])

theorem triple_knownJob (P : RunRecord → Prop) (jobId : Option JobId) (key : String) :
    Triple (With (Held plan runId start) P) (knownJob jobId key)
      (fun found s => With (Held plan runId start) P s ∧ (found = none → key ∉ s.world.keys))
      (fun _ => Loose plan runId start) := by
  cases jobId with
  | some id => exact triple_pure fun s hs => ⟨hs, by simp⟩
  | none => exact triple_findJobByIdempotencyKey P key

theorem Quiet.keepsUnasked {α : Type} {program : Controller α} (h : Quiet program)
    (P : RunRecord → Prop) (key : String) :
    Keeps (Unasked (With (Held plan runId start) P) key) (Loose plan runId start) program := by
  refine Within.keeps h ?_ fun s hs => hs.1.1.loose
  intro s s' hdrift hs
  refine ⟨⟨hs.1.1.drift hdrift, ?_⟩, ?_⟩
  · rw [hdrift.record]
    exact hs.1.2
  · rw [hdrift.world.keys_eq]
    exact hs.2

theorem triple_postJob (P : RunRecord → Prop) {key : String} {kind : JobKind}
    (hkind : kind.key = some key)
    (hrecorded : ∀ s, With (Held plan runId start) P s → ∀ shotId ∈ plan.shotIds, ∀ number,
      key = idempotencyKey runId shotId number →
        ∃ shot ∈ orderedShots plan s.record.shots, shot.shotId = shotId ∧
          ∃ attempt ∈ shot.attempts, attempt.attempt = number) :
    Triple (Unasked (With (Held plan runId start) P) key) (postJob fun _ => kind)
      (fun _ => With (Held plan runId start) P) (fun _ => Loose plan runId start) := by
  have hcreate : ∀ s, Unasked (With (Held plan runId start) P) key s →
      With (Held plan runId start) P { s with world := s.world.create kind } := by
    intro s hs
    refine ⟨hs.1.1.created ?_ ?_, hs.1.2⟩
    · intro key' hkey'
      obtain rfl := Option.some.inj (hkind.symm.trans hkey')
      exact hs.2
    · intro key' hkey'
      obtain rfl := Option.some.inj (hkind.symm.trans hkey')
      exact hrecorded s hs.1
  apply Triple.bind fun _ => Unasked (With (Held plan runId start) P) key
  · exact Quiet.keepsUnasked quiet_next P key
  · intro move
    apply Triple.bind fun _ => Unasked (With (Held plan runId start) P) key
    · exact triple_get fun s hs => hs
    · intro s'
      cases move.answer with
      | done =>
          apply Triple.bind fun _ => With (Held plan runId start) P
          · exact triple_modify hcreate
          · exact fun _ => Keeps.pure _
      | lost =>
          apply Triple.bind fun _ => With (Held plan runId start) P
          · exact triple_modify hcreate
          · exact fun _ => triple_throw fun s hs => hs.1.loose
      | refused => exact triple_pure fun s hs => hs.1
      | failed => exact triple_throw fun s hs => hs.1.1.loose

/-- Attempt `j` of the shot at place `i`. -/
def At (i j : Nat) (attempt : AttemptRecord) (record : RunRecord) : Prop :=
  ∃ shot, record.shots[i]? = some shot ∧ shot.attempts[j]? = some attempt

theorem At.unique {i j : Nat} {a b : AttemptRecord} {record : RunRecord} (ha : At i j a record)
    (hb : At i j b record) : a = b := by
  obtain ⟨shot, hi, hattempt⟩ := ha
  obtain ⟨shot', hi', hattempt'⟩ := hb
  obtain rfl := Option.some.inj (hi.symm.trans hi')
  exact Option.some.inj (hattempt.symm.trans hattempt')

/-- Attempt `j` of the shot at place `i` is still in flight. -/
def InFlight (i j : Nat) (record : RunRecord) : Prop :=
  ∃ attempt, At i j attempt record ∧ attempt.isTerminal = false

theorem triple_attemptAt (P : RunRecord → Prop) (i j : Nat) :
    Triple (With (Held plan runId start) P) (attemptAt i j)
      (fun attempt => With (Held plan runId start) fun record => P record ∧ At i j attempt record)
      (fun _ => Loose plan runId start) := by
  apply Triple.bind fun s' s => With (Held plan runId start) P s ∧ s' = s
  · exact triple_get fun s hs => ⟨hs, rfl⟩
  · intro s'
    cases hfound : (s'.record.shots[i]?).bind fun shot => shot.attempts[j]? with
    | none => exact triple_throw fun s hs => hs.1.1.loose
    | some attempt =>
        apply triple_pure
        intro s ⟨hs, hsame⟩
        subst hsame
        exact ⟨hs.1, hs.2, Option.bind_eq_some_iff.mp hfound⟩

theorem unfinished_of_inFlight {attempt : AttemptRecord} (h : attempt.isTerminal = false) :
    attempt.isUnfinished = true := by
  simp [AttemptRecord.isUnfinished, h]

/-- Writing into an unfinished attempt whatever leaves it without a take. -/
theorem shotStep_modifyAttempt {cap : Nat} {shot : ShotRunRecord} {j : Nat}
    {attempt : AttemptRecord} (hattempt : shot.attempts[j]? = some attempt)
    (hopen : attempt.isUnfinished = true) {f : AttemptRecord → AttemptRecord}
    (hsame : attempt.SameIntent (f attempt))
    (htake : (f attempt).take.isSome → (f attempt).status = "completed") :
    ShotStep runId cap shot { shot with attempts := shot.attempts.modify j f } := by
  rw [modify_of_getElem? hattempt]
  exact .rewrite shot j attempt (f attempt) shot.selectedAttempt hattempt hopen hsame htake
    (.inl rfl)

theorem map_attempt_modify {attempts : List AttemptRecord} {j : Nat}
    {f : AttemptRecord → AttemptRecord} (hf : ∀ attempt, (f attempt).attempt = attempt.attempt) :
    (attempts.modify j f).map (·.attempt) = attempts.map (·.attempt) := by
  induction attempts generalizing j with
  | nil => simp
  | cons attempt attempts ih =>
      cases j with
      | zero => simp [hf]
      | succ j => simp [ih]

theorem Held.modifyAttempt {s : Session} (h : Held plan runId start s) {i j : Nat}
    (hopen : ∃ attempt, At i j attempt s.record ∧ attempt.isUnfinished = true)
    {f : AttemptRecord → AttemptRecord}
    (hsame : ∀ attempt : AttemptRecord, attempt.SameIntent (f attempt))
    (htake : ∀ attempt, At i j attempt s.record → (f attempt).take.isSome →
      (f attempt).status = "completed") :
    Held plan runId start { s with record := s.record.modifyAttempt i j f } := by
  apply h.modifyShot
  intro shot hi
  obtain ⟨attempt, ⟨shot', hi', hattempt⟩, hunfinished⟩ := hopen
  obtain rfl := Option.some.inj (hi.symm.trans hi')
  exact ⟨Relation.ReflTransGen.single (shotStep_modifyAttempt hattempt hunfinished (hsame attempt)
    (htake attempt ⟨shot, hi, hattempt⟩)), map_attempt_modify fun a => (hsame a).attempt⟩

theorem Tracked.regular_of_mem {saved : RunRecord} {s : Session}
    (h : Tracked plan runId start saved s) {shot : ShotRunRecord}
    (hshot : shot ∈ orderedShots plan s.record.shots) :
    Regular runId plan.maxAttemptsPerShot shot := by
  obtain ⟨first, hfirst, hrun⟩ := (h.sinceStart.trans h.sinceSaved).mem_right hshot
  exact hrun.regular plan.bounded (h.regular first hfirst)

theorem Held.regular {s : Session} (h : Held plan runId start s) {i : Nat}
    {shot : ShotRunRecord} (hi : s.record.shots[i]? = some shot) :
    shot ∈ orderedShots plan s.record.shots ∧ Regular runId plan.maxAttemptsPerShot shot := by
  obtain ⟨saved, h, -⟩ := h
  have hmem : shot ∈ orderedShots plan s.record.shots := by
    rw [orderedShots_of_ids (h.memoryShape.ids_of_getElem? hi)]
    exact List.mem_of_getElem? hi
  exact ⟨hmem, h.regular_of_mem hmem⟩

/-- An unfinished attempt has no take yet. -/
theorem Held.no_take {s : Session} (h : Held plan runId start s) {i j : Nat}
    {attempt : AttemptRecord} (hat : At i j attempt s.record)
    (hopen : attempt.isUnfinished = true) : attempt.take = none := by
  obtain ⟨shot, hi, hattempt⟩ := hat
  exact (h.regular hi).2.take_of_unfinished (List.mem_of_getElem? hattempt) hopen

theorem Held.shotId_mem {s : Session} (h : Held plan runId start s) {shot : ShotRunRecord}
    (hshot : shot ∈ orderedShots plan s.record.shots) : shot.shotId ∈ plan.shotIds := by
  obtain ⟨saved, h, -⟩ := h
  rw [← shotIds_orderedShots h.memoryShape]
  exact List.mem_map_of_mem hshot

theorem Plan.colon_notMem {shotId : String} (h : shotId ∈ plan.shotIds) : ':' ∉ shotId.toList := by
  obtain ⟨shot, hshot, rfl⟩ := List.mem_map.mp h
  exact Ids.notMem_of_isSafePlanId (plan.safe shot hshot) (by decide)

theorem Keeps.halt (I L : Session → Prop) (hI : ∀ s stop, I s → I { s with stop })
    (outcome : RunOutcome) (reason : String) (resumable : Bool) :
    Keeps I L (halt outcome reason resumable) := by
  apply Crash.Keeps.modify
  intro s hs
  by_cases hstop : s.stop.isNone
  · simp only [hstop, if_true]
    exact hI s _ hs
  · simp only [hstop]
    exact hs

theorem Held.stopped {s : Session} (h : Held plan runId start s)
    (stop : Option (RunOutcome × RunStop)) : Held plan runId start { s with stop } := by
  obtain ⟨saved, h, hnumbers⟩ := h
  exact ⟨saved, ⟨h.regular, h.disk, h.savedRun, h.memoryRun, h.savedShape, h.memoryShape,
    h.sinceStart, h.sinceSaved, h.savedLines, h.memoryLines, h.distinct, h.recorded⟩, hnumbers⟩

theorem keeps_halt (P : RunRecord → Prop) (outcome : RunOutcome) (reason : String)
    (resumable : Bool) :
    Keeps (With (Held plan runId start) P) (Loose plan runId start)
      (halt outcome reason resumable) :=
  Keeps.halt _ _ (fun _ stop hs => ⟨hs.1.stopped stop, hs.2⟩) outcome reason resumable

theorem Quiet.keepsHeld {α : Type} {program : Controller α} (h : Quiet program) :
    Keeps (Held plan runId start) (Loose plan runId start) program :=
  Within.keeps h (fun _ _ hdrift hs => hs.drift hdrift) fun _ hs => hs.loose

theorem keeps_haltHeld (outcome : RunOutcome) (reason : String) (resumable : Bool) :
    Keeps (Held plan runId start) (Loose plan runId start) (halt outcome reason resumable) :=
  Keeps.halt _ _ (fun _ stop hs => hs.stopped stop) outcome reason resumable

theorem keeps_persistHeld :
    Keeps (Held plan runId start) (Loose plan runId start) persist :=
  (keeps_persist fun _ => True).weaken (fun _ hs => ⟨hs, trivial⟩) (fun _ _ hs => hs.1)
    (fun _ _ hs => hs)

theorem keeps_leavePending (i : Nat) :
    Keeps (Held plan runId start) (Loose plan runId start) (leavePending i) := by
  apply Keeps.bind
  · apply Crash.Keeps.modify
    intro s hs
    exact hs.modifyShot fun shot _ =>
      ⟨Relation.ReflTransGen.single (.judge shot .canceled), rfl⟩
  · intro _
    exact Keeps.bind (keeps_haltHeld _ _ _) fun _ => keeps_persistHeld

theorem triple_refuseAttempt (i j : Nat) :
    Triple (With (Held plan runId start) (InFlight i j)) (refuseAttempt i j)
      (fun _ => Held plan runId start) (fun _ => Loose plan runId start) := by
  apply Triple.bind fun _ => Held plan runId start
  · apply triple_modify
    intro s ⟨hs, attempt, hat, hterminal⟩
    have hunfinished := unfinished_of_inFlight hterminal
    refine hs.modifyAttempt ⟨attempt, hat, hunfinished⟩ (fun _ => ⟨rfl, rfl, rfl, rfl⟩) ?_
    intro other hother htake
    have hsame : other = attempt := At.unique hother hat
    simp [hsame, hs.no_take hat hunfinished] at htake
  · intro _
    exact Keeps.bind keeps_persistHeld fun _ => keeps_haltHeld _ _ _

/-- The job of an attempt in flight: one is created only when the attempt is on disk and no
job carries its key. -/
theorem triple_attemptJob (i j : Nat) :
    Triple (With (Held plan runId start) (InFlight i j)) (attemptJob i j)
      (fun id => With (Held plan runId start) fun record => id.isSome → InFlight i j record)
      (fun _ => Loose plan runId start) := by
  apply Triple.bind _ (triple_attemptAt (InFlight i j) i j)
  intro attempt
  apply Triple.bind _ (triple_knownJob _ attempt.jobId attempt.idempotencyKey)
  intro found
  cases found with
  | some id => exact triple_pure fun s hs => ⟨hs.1.1, fun _ => hs.1.2.1⟩
  | none =>
      apply Triple.bind fun _ => Unasked (With (Held plan runId start) fun record =>
        InFlight i j record ∧ At i j attempt record) attempt.idempotencyKey
      · exact (Quiet.keepsUnasked quiet_canceled _ _).mono fun s hs => ⟨hs.1, hs.2 rfl⟩
      · intro isCanceled
        apply Triple.ite
        · intro _
          apply Triple.bind fun _ => Held plan runId start
          · exact (keeps_leavePending i).mono fun s hs => hs.1.1
          · intro _
            exact triple_pure fun s hs => ⟨hs, by simp⟩
        · intro _
          apply Triple.bind _ (triple_postJob _ rfl ?_)
          · intro created
            cases created with
            | some id => exact triple_pure fun s hs => ⟨hs.1, fun _ => hs.2.1⟩
            | none =>
                apply Triple.bind fun _ => Held plan runId start
                · exact (triple_refuseAttempt i j).mono fun s hs => ⟨hs.1, hs.2.1⟩
                · intro _
                  exact triple_pure fun s hs => ⟨hs, by simp⟩
          · intro s hs shotId hshotId number hkey
            obtain ⟨shot, hi, hattempt⟩ := hs.2.2
            obtain ⟨hmem, hregular⟩ := hs.1.regular hi
            have hmemAttempt := List.mem_of_getElem? hattempt
            rw [hregular.keyed attempt hmemAttempt] at hkey
            obtain ⟨hid, hnumber⟩ :=
              idempotencyKey_inj (Plan.colon_notMem (hs.1.shotId_mem hmem)) hkey
            exact ⟨shot, hmem, hid, attempt, hmemAttempt, hnumber⟩

end FilmRun
end SceneWorks
