import Mathlib.Logic.Relation
import SceneWorks.FilmRun.Calls

/-!
What may happen to the record of a shot. Automatic work does three things to it: it judges
the shot, it rewrites an attempt that is unfinished, and it appends one while the plan's cap
has room; a human's replacement rejects a take, drops the selection and appends an attempt
of its own. Everything the record promises about attempts, selection and rejection follows
from these steps, whichever controller takes them and wherever it dies.
-/

namespace SceneWorks
namespace FilmRun

theorem modify_of_getElem? {α : Type} {l : List α} {i : Nat} {a : α} (h : l[i]? = some a)
    (f : α → α) : l.modify i f = l.set i (f a) := by
  rw [List.modify_eq_set_getElem?, h]
  rfl

/-- What an attempt is for, as opposed to how it went. -/
structure AttemptRecord.SameIntent (a b : AttemptRecord) : Prop where
  attempt : b.attempt = a.attempt
  idempotencyKey : b.idempotencyKey = a.idempotencyKey
  rejection : b.rejection = a.rejection
  humanRequested : b.humanRequested = a.humanRequested

/-- A step of automatic work on one shot. -/
inductive ShotStep (runId : String) (cap : Nat) : ShotRunRecord → ShotRunRecord → Prop where
  | judge (shot : ShotRunRecord) (outcome : ShotOutcome) :
      ShotStep runId cap shot { shot with outcome }
  | rewrite (shot : ShotRunRecord) (j : Nat) (old new : AttemptRecord) (selected : Option Nat)
      (hold : shot.attempts[j]? = some old) (hopen : old.isUnfinished = true)
      (hsame : old.SameIntent new) (htake : new.take.isSome → new.status = "completed")
      (hselected : selected = shot.selectedAttempt ∨
        shot.selectedAttempt = none ∧ new.take.isSome ∧ selected = some old.attempt) :
      ShotStep runId cap shot
        { shot with attempts := shot.attempts.set j new, selectedAttempt := selected }
  | dispatch (shot : ShotRunRecord) (hroom : shot.automaticAttempts < cap) :
      ShotStep runId cap shot
        { shot with attempts := shot.attempts ++ [freshAttempt runId shot false] }

namespace ShotRunRecord

/-- Attempts are numbered from one on, as far as the number's type reaches. -/
def Numbered (shot : ShotRunRecord) : Prop :=
  ∀ j attempt, shot.attempts[j]? = some attempt → attempt.attempt = min (j + 1) maxAttemptNumber

theorem foldl_max_range (length bound : Nat) :
    ((List.range length).map fun j => min (j + 1) bound).foldl max 0 = min length bound := by
  induction length with
  | zero => simp
  | succ length ih =>
      rw [List.range_succ, List.map_append, List.foldl_append, ih]
      simp only [List.map_cons, List.map_nil, List.foldl_cons, List.foldl_nil]
      omega

theorem Numbered.numbers {shot : ShotRunRecord} (h : shot.Numbered) :
    shot.attempts.map (·.attempt) =
      (List.range shot.attempts.length).map fun j => min (j + 1) maxAttemptNumber := by
  apply List.ext_getElem?
  intro j
  by_cases hj : j < shot.attempts.length
  · have hget : shot.attempts[j]? = some shot.attempts[j] := List.getElem?_eq_getElem hj
    simp [hj, h j _ hget]
  · simp [hj]

theorem Numbered.next {shot : ShotRunRecord} (h : shot.Numbered) :
    shot.nextAttemptNumber = min (shot.attempts.length + 1) maxAttemptNumber := by
  rw [nextAttemptNumber, h.numbers, foldl_max_range]
  omega

/-- What holds of a shot's record whatever happens to it. -/
structure Regular (runId : String) (cap : Nat) (shot : ShotRunRecord) : Prop where
  numbered : shot.Numbered
  keyed : ∀ attempt ∈ shot.attempts,
    attempt.idempotencyKey = idempotencyKey runId shot.shotId attempt.attempt
  capped : (shot.attempts.countP fun attempt => !attempt.humanRequested) ≤ cap
  taken : ∀ attempt ∈ shot.attempts, attempt.take.isSome → attempt.status = "completed"

/-- What holds of the selection while the attempts still have numbers of their own. -/
structure Choosing (shot : ShotRunRecord) : Prop where
  rejected : ∀ attempt ∈ shot.attempts, attempt.rejection.isSome → attempt.take.isSome
  selected : ∀ number, shot.selectedAttempt = some number →
    ∃ attempt ∈ shot.attempts, attempt.attempt = number ∧ attempt.take.isSome ∧
      attempt.rejection = none

theorem regular_fresh (runId : String) (cap : Nat) (shotId : String) :
    Regular runId cap (fresh shotId) := by
  refine ⟨?_, ?_, ?_, ?_⟩
  · intro j attempt h
    simp [fresh] at h
  all_goals simp [fresh]

theorem choosing_fresh (shotId : String) : Choosing (fresh shotId) := by
  constructor
  · simp [fresh]
  · simp [fresh]

/-- An unfinished attempt has no take. -/
theorem Regular.take_of_unfinished {runId : String} {cap : Nat} {shot : ShotRunRecord}
    (h : Regular runId cap shot) {attempt : AttemptRecord} (hmem : attempt ∈ shot.attempts)
    (hopen : attempt.isUnfinished = true) : attempt.take = none := by
  cases htake : attempt.take with
  | none => rfl
  | some take =>
      have hstatus := h.taken attempt hmem (by simp [htake])
      simp [AttemptRecord.isUnfinished, AttemptRecord.isTerminal, terminalAttemptStatuses,
        hstatus, htake] at hopen

theorem Numbered.set {shot : ShotRunRecord} (h : shot.Numbered) {j : Nat}
    {old new : AttemptRecord} (hold : shot.attempts[j]? = some old)
    (hnumber : new.attempt = old.attempt) (selected : Option Nat) :
    Numbered { shot with attempts := shot.attempts.set j new, selectedAttempt := selected } := by
  intro k attempt hk
  simp only [List.getElem?_set] at hk
  by_cases hjk : j = k
  · subst hjk
    obtain ⟨-, rfl⟩ : j < shot.attempts.length ∧ new = attempt := by simpa using hk
    rw [hnumber]
    exact h j old hold
  · rw [if_neg hjk] at hk
    exact h k attempt hk

theorem Numbered.append {shot : ShotRunRecord} (h : shot.Numbered) {attempts : List AttemptRecord}
    (hlength : attempts.length = shot.attempts.length)
    (hattempts : Numbered { shot with attempts }) (new : AttemptRecord)
    (hnumber : new.attempt = shot.nextAttemptNumber) (selected : Option Nat) :
    Numbered { shot with attempts := attempts ++ [new], selectedAttempt := selected } := by
  intro k attempt hk
  simp only at hk
  by_cases hlt : k < attempts.length
  · rw [List.getElem?_append_left hlt] at hk
    exact hattempts k attempt hk
  · rw [List.getElem?_append_right (by omega)] at hk
    have hlast : k - attempts.length = 0 ∧ new = attempt := by
      cases hsub : k - attempts.length with
      | zero => simpa [hsub] using hk
      | succ m => simp [hsub] at hk
    obtain ⟨hzero, rfl⟩ := hlast
    rw [hnumber, h.next]
    congr 2
    omega

theorem Numbered.unique {shot : ShotRunRecord} (h : shot.Numbered)
    (hlength : shot.attempts.length ≤ maxAttemptNumber) {j k : Nat} {a b : AttemptRecord}
    (hj : shot.attempts[j]? = some a) (hk : shot.attempts[k]? = some b)
    (hab : a.attempt = b.attempt) : j = k := by
  have hjlt : j < shot.attempts.length := (List.getElem?_eq_some_iff.mp hj).1
  have hklt : k < shot.attempts.length := (List.getElem?_eq_some_iff.mp hk).1
  rw [h j a hj, h k b hk] at hab
  omega

end ShotRunRecord

open ShotRunRecord

section Steps

variable {runId : String} {cap : Nat} {shot shot' : ShotRunRecord}

theorem countP_set_of_eq {attempts : List AttemptRecord} {j : Nat} {old new : AttemptRecord}
    {p : AttemptRecord → Bool} (hold : attempts[j]? = some old) (hp : p new = p old) :
    (attempts.set j new).countP p = attempts.countP p := by
  induction attempts generalizing j with
  | nil => simp at hold
  | cons a attempts ih =>
      cases j with
      | zero =>
          obtain rfl : a = old := by simpa using hold
          simp [List.countP_cons, hp]
      | succ j =>
          have := ih (j := j) (by simpa using hold)
          simp [List.countP_cons, this]

theorem mem_set_cases {attempts : List AttemptRecord} {j : Nat} {new attempt : AttemptRecord}
    (h : attempt ∈ attempts.set j new) : attempt = new ∨ attempt ∈ attempts :=
  (List.mem_or_eq_of_mem_set h).symm

theorem ShotStep.regular (hcap : cap ≤ maxAttemptNumber) (h : ShotStep runId cap shot shot')
    (hregular : Regular runId cap shot) : Regular runId cap shot' := by
  cases h with
  | judge outcome =>
      exact ⟨hregular.numbered, hregular.keyed, hregular.capped, hregular.taken⟩
  | rewrite j old new selected hold hopen hsame htake hselected =>
      have hmem : old ∈ shot.attempts := List.mem_of_getElem? hold
      refine ⟨hregular.numbered.set hold hsame.attempt selected, ?_, ?_, ?_⟩
      · intro attempt hattempt
        obtain rfl | hattempt := mem_set_cases hattempt
        · rw [hsame.idempotencyKey, hsame.attempt]
          exact hregular.keyed old hmem
        · exact hregular.keyed attempt hattempt
      · rw [countP_set_of_eq hold (by rw [hsame.humanRequested])]
        exact hregular.capped
      · intro attempt hattempt
        obtain rfl | hattempt := mem_set_cases hattempt
        · exact htake
        · exact hregular.taken attempt hattempt
  | dispatch hroom =>
      refine ⟨hregular.numbered.append rfl hregular.numbered _ rfl _, ?_, ?_, ?_⟩
      · intro attempt hattempt
        obtain hattempt | hattempt := List.mem_append.mp hattempt
        · exact hregular.keyed attempt hattempt
        · rw [List.mem_singleton.mp hattempt]
          rfl
      · have hcount : (shot.attempts.countP fun attempt => !attempt.humanRequested) < cap := by
          simp only [automaticAttempts] at hroom
          omega
        simp only [List.countP_append, List.countP_singleton, freshAttempt, Bool.not_false,
          if_true]
        omega
      · intro attempt hattempt
        obtain hattempt | hattempt := List.mem_append.mp hattempt
        · exact hregular.taken attempt hattempt
        · rw [List.mem_singleton.mp hattempt]
          simp [freshAttempt]

/-- Automatic work never makes a rejected attempt a selected one: what it selects was
unfinished, so it carried no take and no rejection. -/
theorem ShotStep.choosing (h : ShotStep runId cap shot shot') (hregular : Regular runId cap shot)
    (hchoosing : Choosing shot) : Choosing shot' := by
  cases h with
  | judge outcome => exact ⟨hchoosing.rejected, hchoosing.selected⟩
  | dispatch hroom =>
      constructor
      · intro attempt hattempt
        obtain hattempt | hattempt := List.mem_append.mp hattempt
        · exact hchoosing.rejected attempt hattempt
        · rw [List.mem_singleton.mp hattempt]
          simp [freshAttempt]
      · intro number hnumber
        obtain ⟨attempt, hattempt, hfacts⟩ := hchoosing.selected number hnumber
        exact ⟨attempt, List.mem_append_left _ hattempt, hfacts⟩
  | rewrite j old new selected hold hopen hsame htake hselected =>
      have hmem : old ∈ shot.attempts := List.mem_of_getElem? hold
      have hnotake : old.take = none := hregular.take_of_unfinished hmem hopen
      have hlive : old.rejection = none := by
        cases hrejection : old.rejection with
        | none => rfl
        | some rejection =>
            have := hchoosing.rejected old hmem (by simp [hrejection])
            simp [hnotake] at this
      have hj : j < shot.attempts.length := (List.getElem?_eq_some_iff.mp hold).1
      constructor
      · intro attempt hattempt
        obtain rfl | hattempt := mem_set_cases hattempt
        · rw [hsame.rejection, hlive]
          simp
        · exact hchoosing.rejected attempt hattempt
      · intro number hnumber
        obtain hkept | ⟨-, hnew, hnow⟩ := hselected
        · obtain ⟨attempt, hattempt, hfacts⟩ := hchoosing.selected number (hkept ▸ hnumber)
          -- the selected attempt has a take, so it is not the one rewritten
          obtain ⟨k, hk⟩ := List.mem_iff_getElem?.mp hattempt
          have hkj : j ≠ k := by
            intro hjk
            rw [← hjk, hold] at hk
            obtain rfl := Option.some.inj hk
            simp [hnotake] at hfacts
          refine ⟨attempt, List.mem_of_getElem? (i := k) ?_, hfacts⟩
          simp only [List.getElem?_set, if_neg hkj]
          exact hk
        · refine ⟨new, List.mem_of_getElem? (i := j) ?_, ?_, hnew, ?_⟩
          · simp [hj]
          · have hold' : selected = some number := hnumber
            rw [hnow] at hold'
            rw [hsame.attempt]
            exact Option.some.inj hold'
          · rw [hsame.rejection]
            exact hlive

open Controller in
/-- The one attempt a replacement writes a rejection into has the number it looked for. -/
theorem rejectTake_cases (shot : ShotRunRecord) (reason : String) :
    rejectTake shot reason = shot.attempts ∨
      ∃ j old, shot.attempts[j]? = some old ∧ rejectedAttempt shot = some old.attempt ∧
        rejectTake shot reason =
          shot.attempts.set j { old with rejection := some { reason } } := by
  simp only [rejectTake]
  cases hfound : (rejectedAttempt shot).bind fun number =>
      shot.attempts.findIdx? fun attempt => attempt.attempt == number with
  | none => exact .inl rfl
  | some j =>
      obtain ⟨number, hnumber, hindex⟩ := Option.bind_eq_some_iff.mp hfound
      obtain ⟨hj, hattempt, -⟩ := List.findIdx?_eq_some_iff_getElem.mp hindex
      refine .inr ⟨j, shot.attempts[j], List.getElem?_eq_getElem hj, ?_, ?_⟩
      · have hsame : shot.attempts[j].attempt = number := by simpa using hattempt
        rw [hnumber, hsame]
      · exact modify_of_getElem? (List.getElem?_eq_getElem hj) _

open Controller in
theorem regular_replacedShot (hregular : Regular runId cap shot) (reason : String) :
    Regular runId cap (replacedShot runId shot reason) := by
  have hkey : ∀ attempt ∈ rejectTake shot reason, attempt.idempotencyKey =
      idempotencyKey runId shot.shotId attempt.attempt ∧
      (attempt.take.isSome → attempt.status = "completed") := by
    intro attempt hattempt
    obtain hkept | ⟨j, old, hold, -, hset⟩ := rejectTake_cases shot reason
    · rw [hkept] at hattempt
      exact ⟨hregular.keyed attempt hattempt, hregular.taken attempt hattempt⟩
    · rw [hset] at hattempt
      have hmem : old ∈ shot.attempts := List.mem_of_getElem? hold
      obtain rfl | hattempt := mem_set_cases hattempt
      · exact ⟨hregular.keyed old hmem, hregular.taken old hmem⟩
      · exact ⟨hregular.keyed attempt hattempt, hregular.taken attempt hattempt⟩
  have hnumbered : Numbered { shot with attempts := rejectTake shot reason } := by
    obtain hkept | ⟨j, old, hold, -, hset⟩ := rejectTake_cases shot reason
    · rw [hkept]
      exact hregular.numbered
    · rw [hset]
      refine hregular.numbered.set hold ?_ shot.selectedAttempt
      rfl
  have hlength : (rejectTake shot reason).length = shot.attempts.length := by
    obtain hkept | ⟨j, old, -, -, hset⟩ := rejectTake_cases shot reason
    · rw [hkept]
    · rw [hset, List.length_set]
  refine ⟨hregular.numbered.append hlength hnumbered _ rfl _, ?_, ?_, ?_⟩
  · intro attempt hattempt
    obtain hattempt | hattempt := List.mem_append.mp hattempt
    · exact (hkey attempt hattempt).1
    · rw [List.mem_singleton.mp hattempt]
      rfl
  · have hcount : ((rejectTake shot reason).countP fun attempt => !attempt.humanRequested) =
        shot.attempts.countP fun attempt => !attempt.humanRequested := by
      obtain hkept | ⟨j, old, hold, -, hset⟩ := rejectTake_cases shot reason
      · rw [hkept]
      · rw [hset]
        exact countP_set_of_eq hold rfl
    simp only [replacedShot, List.countP_append, List.countP_singleton, freshAttempt,
      Bool.not_true, hcount]
    simpa using hregular.capped
  · intro attempt hattempt
    obtain hattempt | hattempt := List.mem_append.mp hattempt
    · exact (hkey attempt hattempt).2
    · rw [List.mem_singleton.mp hattempt]
      simp [freshAttempt]

open Controller in
/-- The attempt whose number is looked for carries a take: the selected one does, and so does
a live one. -/
theorem rejectedAttempt_taken (hchoosing : Choosing shot) {number : Nat}
    (h : rejectedAttempt shot = some number) :
    ∃ attempt ∈ shot.attempts, attempt.attempt = number ∧ attempt.take.isSome := by
  simp only [rejectedAttempt, Option.or_eq_some_iff] at h
  obtain hselected | ⟨-, hlive⟩ := h
  · obtain ⟨attempt, hmem, hnumber, htake, -⟩ := hchoosing.selected number hselected
    exact ⟨attempt, hmem, hnumber, htake⟩
  · obtain ⟨attempt, hfound, hnumber⟩ := Option.map_eq_some_iff.mp hlive
    have hmem := List.mem_reverse.mp (List.mem_of_find?_eq_some hfound)
    have htake := List.find?_some hfound
    simp only [AttemptRecord.hasLiveTake, Bool.and_eq_true] at htake
    exact ⟨attempt, hmem, hnumber, htake.1⟩

open Controller in
theorem choosing_replacedShot (hregular : Regular runId cap shot) (hchoosing : Choosing shot)
    (hlength : shot.attempts.length ≤ maxAttemptNumber) (reason : String) :
    Choosing (replacedShot runId shot reason) := by
  constructor
  · intro attempt hattempt
    obtain hattempt | hattempt := List.mem_append.mp hattempt
    · obtain hkept | ⟨j, old, hold, hnumber, hset⟩ := rejectTake_cases shot reason
      · rw [hkept] at hattempt
        exact hchoosing.rejected attempt hattempt
      · rw [hset] at hattempt
        obtain rfl | hattempt := mem_set_cases hattempt
        · intro _
          obtain ⟨live, hlive, hsame, htake⟩ := rejectedAttempt_taken hchoosing hnumber
          obtain ⟨k, hk⟩ := List.mem_iff_getElem?.mp hlive
          have hjk : j = k := hregular.numbered.unique hlength hold hk hsame.symm
          rw [← hjk, hold] at hk
          obtain rfl := Option.some.inj hk
          exact htake
        · exact hchoosing.rejected attempt hattempt
    · rw [List.mem_singleton.mp hattempt]
      simp [freshAttempt]
  · intro number hnumber
    cases hnumber

/-- Attempts keep their place, what they are for, and a rejection once they have one. -/
structure Grows (shot shot' : ShotRunRecord) : Prop where
  shotId : shot'.shotId = shot.shotId
  attempts : ∀ (j : Nat) old, shot.attempts[j]? = some old → ∃ new, shot'.attempts[j]? = some new ∧
    new.attempt = old.attempt ∧ new.idempotencyKey = old.idempotencyKey ∧
    new.humanRequested = old.humanRequested ∧
    (old.rejection.isSome → new.rejection.isSome)

theorem Grows.refl (shot : ShotRunRecord) : Grows shot shot :=
  ⟨rfl, fun _ old hold => ⟨old, hold, rfl, rfl, rfl, id⟩⟩

theorem Grows.trans {a b c : ShotRunRecord} (hab : Grows a b) (hbc : Grows b c) : Grows a c := by
  refine ⟨hbc.shotId.trans hab.shotId, ?_⟩
  intro j old hold
  obtain ⟨mid, hmid, hmidFacts⟩ := hab.attempts j old hold
  obtain ⟨new, hnew, hnewFacts⟩ := hbc.attempts j mid hmid
  exact ⟨new, hnew, hnewFacts.1.trans hmidFacts.1, hnewFacts.2.1.trans hmidFacts.2.1,
    hnewFacts.2.2.1.trans hmidFacts.2.2.1, fun h => hnewFacts.2.2.2 (hmidFacts.2.2.2 h)⟩

theorem Grows.mem {a b : ShotRunRecord} (h : Grows a b) {attempt : AttemptRecord}
    (hmem : attempt ∈ a.attempts) :
    ∃ attempt' ∈ b.attempts, attempt'.attempt = attempt.attempt := by
  obtain ⟨j, hj⟩ := List.mem_iff_getElem?.mp hmem
  obtain ⟨attempt', hattempt', hnumber, -⟩ := h.attempts j attempt hj
  exact ⟨attempt', List.mem_of_getElem? hattempt', hnumber⟩

theorem ShotStep.grows (h : ShotStep runId cap shot shot') : Grows shot shot' := by
  cases h with
  | judge outcome => exact ⟨rfl, (Grows.refl shot).attempts⟩
  | dispatch hroom =>
      refine ⟨rfl, ?_⟩
      intro j old hold
      have hj : j < shot.attempts.length := (List.getElem?_eq_some_iff.mp hold).1
      exact ⟨old, by simp [List.getElem?_append_left hj, hold], rfl, rfl, rfl, id⟩
  | rewrite j old new selected hold hopen hsame htake hselected =>
      refine ⟨rfl, ?_⟩
      intro k before hbefore
      have hj : j < shot.attempts.length := (List.getElem?_eq_some_iff.mp hold).1
      by_cases hjk : j = k
      · subst hjk
        obtain rfl := Option.some.inj (hold.symm.trans hbefore)
        refine ⟨new, by simp [hj], hsame.attempt, hsame.idempotencyKey, hsame.humanRequested, ?_⟩
        rw [hsame.rejection]
        exact id
      · refine ⟨before, ?_, rfl, rfl, rfl, id⟩
        simp only [List.getElem?_set, if_neg hjk]
        exact hbefore

open Controller in
theorem grows_replacedShot (runId : String) (shot : ShotRunRecord) (reason : String) :
    Grows shot (replacedShot runId shot reason) := by
  refine ⟨rfl, ?_⟩
  intro j old hold
  have hj : j < shot.attempts.length := (List.getElem?_eq_some_iff.mp hold).1
  obtain hkept | ⟨k, rejected, hrejected, -, hset⟩ := rejectTake_cases shot reason
  · refine ⟨old, ?_, rfl, rfl, rfl, id⟩
    simp only [replacedShot, hkept, List.getElem?_append_left hj]
    exact hold
  · simp only [replacedShot, hset]
    rw [List.getElem?_append_left (by simpa using hj), List.getElem?_set]
    by_cases hjk : k = j
    · subst hjk
      obtain rfl := Option.some.inj (hold.symm.trans hrejected)
      exact ⟨{ old with rejection := some { reason } }, by simp [hj], rfl, rfl, rfl, fun _ => rfl⟩
    · rw [if_neg hjk]
      exact ⟨old, hold, rfl, rfl, rfl, id⟩

theorem ShotStep.selected (h : ShotStep runId cap shot shot') {number : Nat}
    (hnumber : shot.selectedAttempt = some number) : shot'.selectedAttempt = some number := by
  cases h with
  | judge outcome => exact hnumber
  | dispatch hroom => exact hnumber
  | rewrite j old new selected hold hopen hsame htake hselected =>
      obtain hkept | ⟨hnone, -, -⟩ := hselected
      · exact hkept.trans hnumber
      · rw [hnone] at hnumber
        cases hnumber

end Steps

/-- Any number of steps of automatic work on one shot. -/
abbrev ShotRun (runId : String) (cap : Nat) : ShotRunRecord → ShotRunRecord → Prop :=
  Relation.ReflTransGen (ShotStep runId cap)

section Runs

variable {runId : String} {cap : Nat} {shot shot' : ShotRunRecord}

theorem ShotRun.regular (hcap : cap ≤ maxAttemptNumber) (h : ShotRun runId cap shot shot')
    (hregular : Regular runId cap shot) : Regular runId cap shot' := by
  induction h with
  | refl => exact hregular
  | tail _ step ih => exact step.regular hcap ih

theorem ShotRun.choosing (hcap : cap ≤ maxAttemptNumber) (h : ShotRun runId cap shot shot')
    (hregular : Regular runId cap shot) (hchoosing : Choosing shot) : Choosing shot' := by
  induction h with
  | refl => exact hchoosing
  | tail before step ih => exact step.choosing (ShotRun.regular hcap before hregular) ih

theorem ShotRun.grows (h : ShotRun runId cap shot shot') : Grows shot shot' := by
  induction h with
  | refl => exact Grows.refl shot
  | tail _ step ih => exact ih.trans step.grows

theorem ShotRun.selected (h : ShotRun runId cap shot shot') {number : Nat}
    (hnumber : shot.selectedAttempt = some number) : shot'.selectedAttempt = some number := by
  induction h with
  | refl => exact hnumber
  | tail _ step ih => exact step.selected ih

end Runs

/-- Automatic work on the shots of a record, each on its own. -/
abbrev Evolves (runId : String) (cap : Nat) : List ShotRunRecord → List ShotRunRecord → Prop :=
  List.Forall₂ (ShotRun runId cap)

theorem Evolves.refl (runId : String) (cap : Nat) (shots : List ShotRunRecord) :
    Evolves runId cap shots shots :=
  List.forall₂_same.mpr fun _ _ => Relation.ReflTransGen.refl

theorem Evolves.trans {runId : String} {cap : Nat} {a b c : List ShotRunRecord}
    (hab : Evolves runId cap a b) (hbc : Evolves runId cap b c) : Evolves runId cap a c := by
  induction hab generalizing c with
  | nil => exact hbc
  | cons hhead _ ih =>
      cases hbc with
      | cons hhead' htail' => exact .cons (Relation.ReflTransGen.trans hhead hhead') (ih htail')

theorem Evolves.set {runId : String} {cap : Nat} {shots : List ShotRunRecord} {i : Nat}
    {shot shot' : ShotRunRecord} (hi : shots[i]? = some shot) (h : ShotRun runId cap shot shot') :
    Evolves runId cap shots (shots.set i shot') := by
  induction shots generalizing i with
  | nil => simp at hi
  | cons first shots ih =>
      cases i with
      | zero =>
          obtain rfl : first = shot := by simpa using hi
          exact .cons h (Evolves.refl runId cap shots)
      | succ i => exact .cons Relation.ReflTransGen.refl (ih (by simpa using hi))

theorem Evolves.map {runId : String} {cap : Nat} {f : ShotRunRecord → ShotRunRecord}
    (hf : ∀ shot, ShotRun runId cap shot (f shot)) (shots : List ShotRunRecord) :
    Evolves runId cap shots (shots.map f) := by
  induction shots with
  | nil => exact .nil
  | cons shot shots ih => exact .cons (hf shot) ih

theorem Evolves.mem {runId : String} {cap : Nat} {a b : List ShotRunRecord}
    (h : Evolves runId cap a b) {shot : ShotRunRecord} (hmem : shot ∈ a) :
    ∃ shot' ∈ b, ShotRun runId cap shot shot' := by
  induction h with
  | nil => cases hmem
  | cons hhead _ ih =>
      obtain rfl | hmem := List.mem_cons.mp hmem
      · exact ⟨_, List.mem_cons_self, hhead⟩
      · obtain ⟨shot', hmem', hrun⟩ := ih hmem
        exact ⟨shot', List.mem_cons_of_mem _ hmem', hrun⟩

theorem Evolves.mem_right {runId : String} {cap : Nat} {a b : List ShotRunRecord}
    (h : Evolves runId cap a b) {shot' : ShotRunRecord} (hmem : shot' ∈ b) :
    ∃ shot ∈ a, ShotRun runId cap shot shot' := by
  induction h with
  | nil => cases hmem
  | cons hhead _ ih =>
      obtain rfl | hmem := List.mem_cons.mp hmem
      · exact ⟨_, List.mem_cons_self, hhead⟩
      · obtain ⟨shot, hshot, hrun⟩ := ih hmem
        exact ⟨shot, List.mem_cons_of_mem _ hshot, hrun⟩

theorem Evolves.shotIds {runId : String} {cap : Nat} {a b : List ShotRunRecord}
    (h : Evolves runId cap a b) : b.map (·.shotId) = a.map (·.shotId) := by
  induction h with
  | nil => rfl
  | cons hhead _ ih => simp [ShotRun.grows hhead |>.shotId, ih]

end FilmRun
end SceneWorks
