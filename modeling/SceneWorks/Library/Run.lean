import Mathlib.Data.List.Basic

/-!
Runs of a deterministic machine. `Along ok` says that every operation of a run meets
a condition in the state it is applied to, `Throughout P` that every state the run
reaches satisfies `P`. The rules turn facts about one step into facts about a run;
`throughout_iff_along` is the one that makes a step condition exact for a property
of all states reached. The `Until` forms stop at the first operation that is `done`.
-/

namespace Run

variable {σ ο : Type} (step : σ → ο → σ)

def exec (s : σ) (ops : List ο) : σ :=
  ops.foldl step s

def Along (ok : σ → ο → Prop) : σ → List ο → Prop
  | _, [] => True
  | s, op :: ops => ok s op ∧ Along ok (step s op) ops

def Throughout (P : σ → Prop) : σ → List ο → Prop
  | s, [] => P s
  | s, op :: ops => P s ∧ Throughout P (step s op) ops

def AlongUntil (done : σ → ο → Prop) (ok : σ → ο → Prop) : σ → List ο → Prop
  | _, [] => True
  | s, op :: ops => ok s op ∧ (¬ done s op → AlongUntil done ok (step s op) ops)

def ThroughoutUntil (done : σ → ο → Prop) (P : σ → Prop) : σ → List ο → Prop
  | s, [] => P s
  | s, op :: ops => P s ∧ (¬ done s op → ThroughoutUntil done P (step s op) ops)

@[simp] theorem exec_nil (s : σ) : exec step s [] = s := rfl

@[simp] theorem exec_cons (s : σ) (op : ο) (ops : List ο) :
    exec step s (op :: ops) = exec step (step s op) ops := rfl

theorem exec_append (s : σ) (front back : List ο) :
    exec step s (front ++ back) = exec step (exec step s front) back := by
  simp [exec, List.foldl_append]

variable {step}

theorem throughout_iff_exec {P : σ → Prop} {s : σ} {ops : List ο} :
    Throughout step P s ops ↔ ∀ front back, ops = front ++ back → P (exec step s front) := by
  induction ops generalizing s with
  | nil =>
      constructor
      · intro h front back heq
        have hfront : front = [] := (List.append_eq_nil_iff.mp heq.symm).1
        subst hfront
        exact h
      · intro h
        exact h [] [] rfl
  | cons op ops ih =>
      constructor
      · rintro ⟨hs, hrest⟩ front back heq
        cases front with
        | nil => exact hs
        | cons op' front =>
            obtain ⟨rfl, hops⟩ : op = op' ∧ ops = front ++ back := by simpa using heq
            exact ih.mp hrest front back hops
      · intro h
        refine ⟨h [] (op :: ops) rfl, ih.mpr ?_⟩
        intro front back heq
        exact h (op :: front) back (by simp [heq])

theorem along_append {ok : σ → ο → Prop} {s : σ} {front back : List ο} :
    Along step ok s (front ++ back) ↔
      Along step ok s front ∧ Along step ok (exec step s front) back := by
  induction front generalizing s with
  | nil => simp [Along]
  | cons op front ih =>
      simp only [List.cons_append, Along, exec_cons]
      rw [ih, and_assoc]

theorem along_congr {ok ok' : σ → ο → Prop} (h : ∀ s op, ok s op ↔ ok' s op) {s : σ}
    {ops : List ο} : Along step ok s ops ↔ Along step ok' s ops := by
  induction ops generalizing s with
  | nil => exact Iff.rfl
  | cons op ops ih =>
      simp only [Along]
      rw [h, ih]

theorem along_of_forall {ok : σ → ο → Prop} (h : ∀ s op, ok s op) (s : σ) (ops : List ο) :
    Along step ok s ops := by
  induction ops generalizing s with
  | nil => trivial
  | cons op ops ih => exact ⟨h s op, ih (step s op)⟩

theorem Along.and_mem {ok : σ → ο → Prop} {P : ο → Prop} {s : σ} {ops : List ο}
    (h : Along step ok s ops) (hP : ∀ op ∈ ops, P op) :
    Along step (fun s op => ok s op ∧ P op) s ops := by
  induction ops generalizing s with
  | nil => trivial
  | cons op ops ih =>
      refine ⟨⟨h.1, hP op List.mem_cons_self⟩, ih h.2 ?_⟩
      intro other hother
      exact hP other (List.mem_cons_of_mem op hother)

theorem Along.imp {ok ok' : σ → ο → Prop} (himp : ∀ s op, ok s op → ok' s op) {s : σ}
    {ops : List ο} (h : Along step ok s ops) : Along step ok' s ops := by
  induction ops generalizing s with
  | nil => trivial
  | cons op ops ih => exact ⟨himp s op h.1, ih h.2⟩

/-- A condition that keeps the invariant at every step keeps it to the end. -/
theorem exec_invariant {Inv : σ → Prop} {ok : σ → ο → Prop}
    (hstep : ∀ s op, Inv s → ok s op → Inv (step s op)) {s : σ} {ops : List ο}
    (hs : Inv s) (hops : Along step ok s ops) : Inv (exec step s ops) := by
  induction ops generalizing s with
  | nil => exact hs
  | cons op ops ih => exact ih (hstep s op hs hops.1) hops.2

theorem throughout_of_invariant (Inv : σ → Prop) {P : σ → Prop} {ok : σ → ο → Prop}
    (hstep : ∀ s op, Inv s → ok s op → Inv (step s op)) (hP : ∀ s, Inv s → P s)
    {s : σ} {ops : List ο} (hs : Inv s) (hops : Along step ok s ops) :
    Throughout step P s ops := by
  induction ops generalizing s with
  | nil => exact hP s hs
  | cons op ops ih => exact ⟨hP s hs, ih (hstep s op hs hops.1) hops.2⟩

theorem Throughout.start {P : σ → Prop} {s : σ} {ops : List ο} (h : Throughout step P s ops) :
    P s := by
  cases ops with
  | nil => exact h
  | cons op ops => exact h.1

/-- The condition is exact: under the invariant, a step that breaks it leaves a state
without the property, and a step that meets it keeps the invariant. -/
theorem throughout_iff_along (Inv : σ → Prop) {P : σ → Prop} {ok : σ → ο → Prop}
    (hstep : ∀ s op, Inv s → ok s op → Inv (step s op)) (hP : ∀ s, Inv s → P s)
    (hbad : ∀ s op, Inv s → P (step s op) → ok s op)
    {s : σ} {ops : List ο} (hs : Inv s) :
    Throughout step P s ops ↔ Along step ok s ops := by
  constructor
  · intro h
    induction ops generalizing s with
    | nil => trivial
    | cons op ops ih =>
        have hok : ok s op := hbad s op hs h.2.start
        exact ⟨hok, ih (hstep s op hs hok) h.2⟩
  · exact throughout_of_invariant Inv hstep hP hs

theorem ThroughoutUntil.start {done : σ → ο → Prop} {P : σ → Prop} {s : σ} {ops : List ο}
    (h : ThroughoutUntil step done P s ops) : P s := by
  cases ops with
  | nil => exact h
  | cons op ops => exact h.1

/-- A condition that keeps the invariant up to the first `done` operation. -/
theorem throughoutUntil_of_invariant (Inv : σ → Prop) {P : σ → Prop} {done ok : σ → ο → Prop}
    (hstep : ∀ s op, Inv s → ok s op → ¬ done s op → Inv (step s op)) (hP : ∀ s, Inv s → P s)
    {s : σ} {ops : List ο} (hs : Inv s) (hops : AlongUntil step done ok s ops) :
    ThroughoutUntil step done P s ops := by
  induction ops generalizing s with
  | nil => exact hP s hs
  | cons op ops ih =>
      exact ⟨hP s hs, fun hd => ih (hstep s op hs hops.1 hd) (hops.2 hd)⟩

/-- The property holds in every state before the first `done` operation exactly when the
condition holds of every operation up to there. -/
theorem throughoutUntil_iff_alongUntil (Inv : σ → Prop) {P : σ → Prop} {done ok : σ → ο → Prop}
    (hstep : ∀ s op, Inv s → ok s op → ¬ done s op → Inv (step s op)) (hP : ∀ s, Inv s → P s)
    (hbad : ∀ s op, Inv s → ¬ done s op → P (step s op) → ok s op)
    (hdone : ∀ s op, done s op → ok s op) {s : σ} {ops : List ο} (hs : Inv s) :
    ThroughoutUntil step done P s ops ↔ AlongUntil step done ok s ops := by
  induction ops generalizing s with
  | nil => exact ⟨fun _ => trivial, fun _ => hP s hs⟩
  | cons op ops ih =>
      constructor
      · rintro ⟨-, hrest⟩
        have hok : ok s op := by
          by_cases hd : done s op
          · exact hdone s op hd
          · exact hbad s op hs hd (hrest hd).start
        exact ⟨hok, fun hd => (ih (hstep s op hs hok hd)).mp (hrest hd)⟩
      · rintro ⟨hok, hrest⟩
        exact ⟨hP s hs, fun hd => (ih (hstep s op hs hok hd)).mpr (hrest hd)⟩

section Records

variable {α : Type} {P : List α → α → Prop} {record : List α}

/-- Every entry of a record agrees with the entries before it. -/
def EachAfter (P : List α → α → Prop) (record : List α) : Prop :=
  ∀ earlier entry later, record = earlier ++ entry :: later → P earlier entry

theorem eachAfter_nil : EachAfter P [] := by
  intro earlier entry later h
  cases earlier with
  | nil => cases h
  | cons _ _ => cases h

theorem EachAfter.concat (h : EachAfter P record) {entry : α} (hlast : P record entry) :
    EachAfter P (record ++ [entry]) := by
  intro earlier other later hsplit
  cases hlater : later.reverse with
  | nil =>
      obtain rfl : later = [] := by simpa using hlater
      obtain ⟨rfl, hentry⟩ := List.append_inj' hsplit rfl
      obtain rfl : entry = other := by simpa using hentry
      exact hlast
  | cons last before =>
      obtain rfl : later = before.reverse ++ [last] := by
        rw [← List.reverse_reverse later, hlater, List.reverse_cons]
      rw [← List.cons_append, ← List.append_assoc] at hsplit
      exact h earlier other before.reverse (List.append_inj' hsplit rfl).1

end Records

end Run
