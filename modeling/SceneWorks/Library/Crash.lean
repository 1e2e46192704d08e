import Mathlib.Data.List.Basic

/-!
Programs that can be left at any call. A program returns a value or is left with a failure,
and either way stands in some state: what survives of that state is what a crash leaves
behind. `Triple` therefore has two postconditions, one for the value returned and one for
the failure. `Upholds I left` is the triple of a program that keeps `I`, `Keeps I L` that of
one that is left in `L` whatever the failure; `Within R` says that a program moves along `R`
wherever it is left. -/

namespace Crash

variable {ε σ α β : Type}

def Triple (pre : σ → Prop) (program : EStateM ε σ α) (post : α → σ → Prop)
    (left : ε → σ → Prop) : Prop :=
  ∀ s, pre s →
    match program s with
    | .ok a s' => post a s'
    | .error e s' => left e s'

/-- The triple of a program that keeps `I`, with what holds where it is left. -/
def Upholds (I : σ → Prop) (left : ε → σ → Prop) (program : EStateM ε σ α) : Prop :=
  Triple I program (fun _ => I) left

def Keeps (I L : σ → Prop) (program : EStateM ε σ α) : Prop :=
  Triple I program (fun _ => I) (fun _ => L)

/-- The state a program stands in when it is over. -/
def final : EStateM.Result ε σ α → σ
  | .ok _ s => s
  | .error _ s => s

/-- The value a program returned, if it did. -/
def value : EStateM.Result ε σ α → Option α
  | .ok a _ => some a
  | .error _ _ => none

def Within (R : σ → σ → Prop) (program : EStateM ε σ α) : Prop :=
  ∀ s, R s (final (program s))

variable {pre : σ → Prop} {program : EStateM ε σ α} {post : α → σ → Prop}
  {left : ε → σ → Prop}

theorem Triple.value (h : Triple pre program post left) {s : σ} {a : α} (hs : pre s)
    (hvalue : Crash.value (program s) = some a) : ∃ s', post a s' := by
  have := h s hs
  cases hrun : program s with
  | ok b s' =>
      rw [hrun] at this hvalue
      obtain rfl := Option.some.inj hvalue
      exact ⟨s', this⟩
  | error e s' =>
      rw [hrun] at hvalue
      cases hvalue

theorem Triple.weaken {pre' : σ → Prop} {post' : α → σ → Prop} {left' : ε → σ → Prop}
    (h : Triple pre' program post' left') (hpre : ∀ s, pre s → pre' s)
    (hpost : ∀ a s, post' a s → post a s) (hleft : ∀ e s, left' e s → left e s) :
    Triple pre program post left := by
  intro s hs
  have := h s (hpre s hs)
  cases hrun : program s with
  | ok a s' =>
      rw [hrun] at this
      exact hpost a s' this
  | error e s' =>
      rw [hrun] at this
      exact hleft e s' this

theorem Triple.mono {pre' : σ → Prop} (h : Triple pre' program post left)
    (hpre : ∀ s, pre s → pre' s) : Triple pre program post left :=
  h.weaken hpre (fun _ _ hs => hs) (fun _ _ hs => hs)

theorem Triple.and {pre' : σ → Prop} {post' : α → σ → Prop} {left' : ε → σ → Prop}
    (h : Triple pre program post left) (h' : Triple pre' program post' left') :
    Triple (fun s => pre s ∧ pre' s) program (fun a s => post a s ∧ post' a s)
      (fun e s => left e s ∧ left' e s) := by
  intro s hs
  have hfirst := h s hs.1
  have hsecond := h' s hs.2
  cases hrun : program s with
  | ok a s' =>
      rw [hrun] at hfirst hsecond
      exact ⟨hfirst, hsecond⟩
  | error e s' =>
      rw [hrun] at hfirst hsecond
      exact ⟨hfirst, hsecond⟩

/-- A precondition that is not about the state may be assumed. -/
theorem Triple.given {p : Prop} (h : p → Triple pre program post left) :
    Triple (fun s => pre s ∧ p) program post left :=
  fun s hs => h hs.2 s hs.1

theorem triple_pure {a : α} (h : ∀ s, pre s → post a s) :
    Triple pre (pure a : EStateM ε σ α) post left :=
  fun s hs => h s hs

theorem triple_throw {e : ε} (h : ∀ s, pre s → left e s) :
    Triple pre (throw e : EStateM ε σ α) post left :=
  fun s hs => h s hs

theorem triple_get {post : σ → σ → Prop} (h : ∀ s, pre s → post s s) :
    Triple pre (get : EStateM ε σ σ) post left :=
  fun s hs => h s hs

theorem triple_modify {f : σ → σ} {post : PUnit → σ → Prop} (h : ∀ s, pre s → post ⟨⟩ (f s)) :
    Triple pre (modify f : EStateM ε σ PUnit) post left :=
  fun s hs => h s hs

theorem Triple.bind (mid : α → σ → Prop) {next : α → EStateM ε σ β} {post : β → σ → Prop}
    (h : Triple pre program mid left)
    (hnext : ∀ a, Triple (mid a) (next a) post left) :
    Triple pre (program >>= next) post left := by
  intro s hs
  have hfirst := h s hs
  show match EStateM.bind program next s with
    | .ok a s' => post a s'
    | .error e s' => left e s'
  unfold EStateM.bind
  cases hrun : program s with
  | ok a s' =>
      rw [hrun] at hfirst
      exact hnext a s' hfirst
  | error e s' =>
      rw [hrun] at hfirst
      exact hfirst

theorem bind_of_ok {next : α → EStateM ε σ β} {s s' : σ} {a : α} (h : program s = .ok a s') :
    (program >>= next) s = next a s' := by
  show EStateM.bind program next s = next a s'
  rw [EStateM.bind, h]

theorem bind_of_error {next : α → EStateM ε σ β} {s s' : σ} {e : ε}
    (h : program s = .error e s') : (program >>= next) s = .error e s' := by
  show EStateM.bind program next s = .error e s'
  rw [EStateM.bind, h]

theorem bind_modify {f : σ → σ} {next : PUnit → EStateM ε σ β} {s : σ} :
    ((modify f : EStateM ε σ PUnit) >>= next) s = next ⟨⟩ (f s) := rfl

theorem Triple.ite {c : Prop} [Decidable c] {yes no : EStateM ε σ α}
    (hyes : c → Triple pre yes post left) (hno : ¬ c → Triple pre no post left) :
    Triple pre (if c then yes else no) post left := by
  by_cases h : c
  · rw [if_pos h]
    exact hyes h
  · rw [if_neg h]
    exact hno h

section Upholds

variable {I : σ → Prop}

theorem Upholds.pure (a : α) : Upholds I left (pure a : EStateM ε σ α) :=
  triple_pure fun _ hs => hs

theorem Upholds.throw {e : ε} (h : ∀ s, I s → left e s) :
    Upholds I left (throw e : EStateM ε σ α) :=
  triple_throw h

theorem Upholds.get : Upholds I left (get : EStateM ε σ σ) :=
  triple_get fun _ hs => hs

theorem Upholds.modify {f : σ → σ} (h : ∀ s, I s → I (f s)) :
    Upholds I left (modify f : EStateM ε σ PUnit) :=
  triple_modify h

theorem Upholds.bind {next : α → EStateM ε σ β} (h : Upholds I left program)
    (hnext : ∀ a, Upholds I left (next a)) : Upholds I left (program >>= next) :=
  Triple.bind (fun _ => I) h hnext

theorem Upholds.ite {c : Prop} [Decidable c] {yes no : EStateM ε σ α}
    (hyes : Upholds I left yes) (hno : Upholds I left no) :
    Upholds I left (if c then yes else no) :=
  Triple.ite (fun _ => hyes) (fun _ => hno)

/-- A body run on every member of a list upholds what each of its runs upholds. -/
theorem Upholds.forM {γ : Type} {body : γ → EStateM ε σ PUnit} {l : List γ}
    (h : ∀ x ∈ l, Upholds I left (body x)) : Upholds I left (l.forM body) := by
  induction l with
  | nil => exact Upholds.pure _
  | cons x l ih =>
      show Upholds I left (body x >>= fun _ => l.forM body)
      apply Upholds.bind (h x List.mem_cons_self)
      intro _
      exact ih fun y hy => h y (List.mem_cons_of_mem x hy)

end Upholds

section Keeps

variable {I L : σ → Prop}

theorem Keeps.pure (a : α) : Keeps I L (pure a : EStateM ε σ α) :=
  Upholds.pure a

theorem Keeps.throw (h : ∀ s, I s → L s) (e : ε) : Keeps I L (throw e : EStateM ε σ α) :=
  Upholds.throw h

theorem Keeps.get : Keeps I L (get : EStateM ε σ σ) :=
  Upholds.get

theorem Keeps.modify {f : σ → σ} (h : ∀ s, I s → I (f s)) :
    Keeps I L (modify f : EStateM ε σ PUnit) :=
  Upholds.modify h

theorem Keeps.bind {next : α → EStateM ε σ β} (h : Keeps I L program)
    (hnext : ∀ a, Keeps I L (next a)) : Keeps I L (program >>= next) :=
  Upholds.bind h hnext

theorem Keeps.ite {c : Prop} [Decidable c] {yes no : EStateM ε σ α}
    (hyes : Keeps I L yes) (hno : Keeps I L no) : Keeps I L (if c then yes else no) :=
  Upholds.ite hyes hno

theorem Keeps.forM {γ : Type} {body : γ → EStateM ε σ PUnit} {l : List γ}
    (h : ∀ x ∈ l, Keeps I L (body x)) : Keeps I L (l.forM body) :=
  Upholds.forM h

end Keeps

section Within

variable {R : σ → σ → Prop}

theorem Within.pure (hrefl : ∀ s, R s s) (a : α) : Within R (pure a : EStateM ε σ α) :=
  hrefl

theorem Within.throw (hrefl : ∀ s, R s s) (e : ε) : Within R (throw e : EStateM ε σ α) :=
  hrefl

theorem Within.get (hrefl : ∀ s, R s s) : Within R (get : EStateM ε σ σ) :=
  hrefl

theorem Within.bind (htrans : ∀ a b c, R a b → R b c → R a c) {next : α → EStateM ε σ β}
    (h : Within R program) (hnext : ∀ a, Within R (next a)) : Within R (program >>= next) := by
  intro s
  have hfirst := h s
  show R s (final (EStateM.bind program next s))
  unfold EStateM.bind
  cases hrun : program s with
  | ok a s' =>
      rw [hrun] at hfirst
      exact htrans _ _ _ hfirst (hnext a s')
  | error e s' =>
      rw [hrun] at hfirst
      exact hfirst

theorem Within.ite {c : Prop} [Decidable c] {yes no : EStateM ε σ α}
    (hyes : Within R yes) (hno : Within R no) : Within R (if c then yes else no) := by
  by_cases h : c
  · rw [if_pos h]
    exact hyes
  · rw [if_neg h]
    exact hno

/-- What is closed under `R` is kept by every program that moves along `R`. -/
theorem Within.keeps {I L : σ → Prop} (h : Within R program)
    (hclosed : ∀ s s', R s s' → I s → I s') (hleft : ∀ s, I s → L s) : Keeps I L program := by
  intro s hs
  have hfinal := h s
  cases hrun : program s with
  | ok a s' =>
      rw [hrun] at hfinal
      exact hclosed s s' hfinal hs
  | error e s' =>
      rw [hrun] at hfinal
      exact hleft s' (hclosed s s' hfinal hs)

end Within

end Crash
