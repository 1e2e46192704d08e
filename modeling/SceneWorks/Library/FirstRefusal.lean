import Mathlib.Data.List.Pairwise

/-!
A loop over keys that stops at the first one it is refused. Each key has a part of the state to
itself: a step on it succeeds or is refused by that part alone, and takes only that part away. What
the loop leaves is known from the first key that is refused.
-/

namespace FirstRefusal

variable {ε σ κ α : Type}

def each (step : κ → EStateM ε σ α) : List κ → EStateM ε σ (List α)
  | [] => pure []
  | key :: keys => do
      let first ← step key
      let others ← each step keys
      return first :: others

/-- The steps of a loop, key by key: which are let through, what they take away, what they are
refused with, what part of the state they go by, and which keys have different parts. -/
structure Apart (step : κ → EStateM ε σ α) (ready : κ → Prop) (drop : κ → σ → σ)
    (refusal : ε → Prop) (stands : κ → σ → Prop) (apart : κ → κ → Prop) : Prop where
  goes : ∀ {key s}, stands key s → ready key → ∃ a, step key s = .ok a (drop key s)
  refused : ∀ {key s}, stands key s → ¬ ready key → ∃ e, step key s = .error e s ∧ refusal e
  frame : ∀ {key other s}, apart key other → stands other s → stands other (drop key s)

variable {step : κ → EStateM ε σ α} {ready : κ → Prop} {drop : κ → σ → σ} {refusal : ε → Prop}
  {stands : κ → σ → Prop} {apart : κ → κ → Prop} {keys : List κ} {s : σ}

def dropped (drop : κ → σ → σ) (keys : List κ) (s : σ) : σ := keys.foldl (fun s key => drop key s) s

theorem each_cons_ok {key : κ} {a : α} {s' : σ} (h : step key s = .ok a s') :
    each step (key :: keys) s =
      match each step keys s' with
      | .ok others s'' => .ok (a :: others) s''
      | .error e s'' => .error e s'' := by
  change EStateM.bind (step key) _ s = _
  rw [EStateM.bind, h]
  change EStateM.bind (each step keys) _ s' = _
  rw [EStateM.bind]
  cases each step keys s' <;> rfl

theorem each_cons_error {key : κ} {e : ε} {s' : σ} (h : step key s = .error e s') :
    each step (key :: keys) s = .error e s' := by
  change EStateM.bind (step key) _ s = _
  rw [EStateM.bind, h]

theorem Apart.stands_others (h : Apart step ready drop refusal stands apart) {key : κ}
    (hapart : (key :: keys).Pairwise apart) (hstands : ∀ other ∈ key :: keys, stands other s) :
    ∀ other ∈ keys, stands other (drop key s) :=
  fun other hother => h.frame (List.rel_of_pairwise_cons hapart hother)
    (hstands other (List.mem_cons_of_mem _ hother))

/-- Where every key is let through, the loop takes them all away. -/
theorem Apart.each_ok (h : Apart step ready drop refusal stands apart)
    (hapart : keys.Pairwise apart)
    (hstands : ∀ key ∈ keys, stands key s) (hready : ∀ key ∈ keys, ready key) :
    ∃ as, each step keys s = .ok as (dropped drop keys s) := by
  induction keys generalizing s with
  | nil => exact ⟨[], rfl⟩
  | cons key keys ih =>
      obtain ⟨a, ha⟩ := h.goes (hstands key List.mem_cons_self) (hready key List.mem_cons_self)
      obtain ⟨as, has⟩ := ih hapart.of_cons (h.stands_others hapart hstands)
        fun other hother => hready other (List.mem_cons_of_mem _ hother)
      refine ⟨a :: as, ?_⟩
      rw [each_cons_ok ha, has]
      rfl

/-- Where one is refused, those before it are gone and the rest stands. -/
theorem Apart.each_error (h : Apart step ready drop refusal stands apart)
    {front back : List κ} {key : κ}
    (hapart : (front ++ key :: back).Pairwise apart)
    (hstands : ∀ other ∈ front ++ key :: back, stands other s)
    (hready : ∀ other ∈ front, ready other) (hheld : ¬ ready key) :
    ∃ e, each step (front ++ key :: back) s = .error e (dropped drop front s) ∧ refusal e := by
  induction front generalizing s with
  | nil =>
      obtain ⟨e, he, hrefusal⟩ := h.refused (hstands key List.mem_cons_self) hheld
      exact ⟨e, each_cons_error he, hrefusal⟩
  | cons first front ih =>
      obtain ⟨a, ha⟩ := h.goes (hstands first List.mem_cons_self)
        (hready first List.mem_cons_self)
      obtain ⟨e, he, hrefusal⟩ := ih hapart.of_cons (h.stands_others hapart hstands)
        fun other hother => hready other (List.mem_cons_of_mem _ hother)
      refine ⟨e, ?_, hrefusal⟩
      rw [List.cons_append, each_cons_ok ha, he]
      rfl

open Classical in
/-- A list of keys has a first one that is not ready, or none. -/
theorem ready_or_first (ready : κ → Prop) (keys : List κ) :
    (∀ key ∈ keys, ready key) ∨ ∃ front key back, keys = front ++ key :: back ∧
      (∀ other ∈ front, ready other) ∧ ¬ ready key := by
  induction keys with
  | nil => exact .inl nofun
  | cons key keys ih =>
      by_cases hkey : ready key
      · rcases ih with hall | ⟨front, other, back, rfl, hfront, hother⟩
        · exact .inl (List.forall_mem_cons.mpr ⟨hkey, hall⟩)
        · exact .inr ⟨key :: front, other, back, rfl, List.forall_mem_cons.mpr ⟨hkey, hfront⟩,
            hother⟩
      · exact .inr ⟨[], key, keys, rfl, nofun, hkey⟩

end FirstRefusal
