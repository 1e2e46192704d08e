import Mathlib.Algebra.Group.Nat.Defs
import Mathlib.Data.List.Forall2

/-!
Fallible steps taken apart: a sequence that succeeds is a first step that does and a rest
that does, and a list mapped through a fallible step is mapped member by member. With them
stand the fallible steps that many programs take: an error for a missing value, a product
of 64 bits, and a prefix of a given length.
-/

namespace Fallible

def okOr {ε α : Type} (value : Option α) (error : ε) : Except ε α :=
  match value with
  | some a => .ok a
  | none => .error error

theorem okOr_eq_ok {ε α : Type} {value : Option α} {error : ε} {a : α} :
    okOr value error = .ok a ↔ value = some a := by
  cases value with
  | none => simp [okOr]
  | some b => simp [okOr]

def checkedMul (a b : Nat) : Option Nat := if a * b < 2 ^ 64 then some (a * b) else none

theorem checkedMul_eq_some {a b c : Nat} :
    checkedMul a b = some c ↔ a * b < 2 ^ 64 ∧ c = a * b := by
  rw [checkedMul]
  split
  · next h => rw [and_iff_right h, Option.some.injEq, eq_comm]
  · next h => exact iff_of_false (fun heq => by cases heq) fun heq => h heq.1

/-- The first `n` members and what is left of them. -/
def readExact {α : Type} (n : Nat) (reader : List α) : Option (List α × List α) :=
  if n ≤ reader.length then some (reader.take n, reader.drop n) else none

theorem readExact_eq_some {α : Type} {n : Nat} {reader front rest : List α} :
    readExact n reader = some (front, rest) ↔
      n ≤ reader.length ∧ front = reader.take n ∧ rest = reader.drop n := by
  rw [readExact]
  split
  · next h =>
      rw [and_iff_right h, Option.some.injEq, Prod.mk.injEq, eq_comm, eq_comm (a := rest)]
  · next h => exact iff_of_false (fun heq => by cases heq) fun heq => h heq.1

theorem bind_eq_ok {ε α β : Type} {x : Except ε α} {next : α → Except ε β} {b : β} :
    x >>= next = .ok b ↔ ∃ a, x = .ok a ∧ next a = .ok b := by
  cases x with
  | error e => simp [bind, Except.bind]
  | ok a => simp [bind, Except.bind]

theorem ok_bind {ε α β : Type} {a : α} {next : α → Except ε β} :
    (.ok a : Except ε α) >>= next = next a := rfl

theorem toOption_eq_some {ε α : Type} {x : Except ε α} {a : α} :
    x.toOption = some a ↔ x = .ok a := by
  cases x with
  | error e => simp [Except.toOption]
  | ok b => simp [Except.toOption]

/-- A loop that may be refused is refused where the loop over what its steps give is. -/
theorem toOption_foldlM {ε α β : Type} {f : β → α → Except ε β} {l : List α} {b : β} :
    (l.foldlM f b).toOption = l.foldlM (fun b a => (f b a).toOption) b := by
  induction l generalizing b with
  | nil => rfl
  | cons a l ih =>
      rw [List.foldlM_cons, List.foldlM_cons]
      cases f b a with
      | error e => rfl
      | ok c => exact ih

theorem toOption_mapM {ε α β : Type} {f : α → Except ε β} {l : List α} :
    (l.mapM f).toOption = l.mapM fun a => (f a).toOption := by
  induction l with
  | nil => rfl
  | cons a l ih =>
      rw [List.mapM_cons, List.mapM_cons, ← ih]
      cases f a with
      | error e => rfl
      | ok c => cases l.mapM f <;> rfl

/-- What is mapped first and folded then may be mapped as it is folded. -/
theorem mapM_bind_foldlM {α β γ : Type} {f : α → Option β} {g : γ → β → Option γ} {l : List α}
    {c : γ} : (l.mapM f).bind (fun l => l.foldlM g c) =
      l.foldlM (fun c a => (f a).bind (g c)) c := by
  induction l generalizing c with
  | nil => rfl
  | cons a l ih =>
      rw [List.mapM_cons, List.foldlM_cons]
      cases f a with
      | none => rfl
      | some b =>
          change ((l.mapM f).bind fun l => some (b :: l)).bind _ = (g c b).bind _
          cases hg : g c b with
          | none =>
              cases l.mapM f with
              | none => rfl
              | some l' => exact (List.foldlM_cons).trans (by rw [hg]; rfl)
          | some c' =>
              rw [Option.bind_some, ← ih]
              cases l.mapM f with
              | none => rfl
              | some l' => exact (List.foldlM_cons).trans (by rw [hg]; rfl)

theorem mapM_eq_some {α β : Type} {f : α → Option β} {l : List α} {r : List β} :
    l.mapM f = some r ↔ List.Forall₂ (fun a b => f a = some b) l r := by
  induction l generalizing r with
  | nil => simp
  | cons a l ih =>
      rw [List.mapM_cons, List.forall₂_cons_left_iff]
      simp only [Option.bind_eq_bind, Option.bind_eq_some_iff, ih]
      constructor
      · rintro ⟨b, hb, rest, hrest, hr⟩
        exact ⟨b, rest, hb, hrest, (Option.some.inj hr).symm⟩
      · rintro ⟨b, rest, hb, hrest, rfl⟩
        exact ⟨b, hb, rest, hrest, rfl⟩

theorem exists_of_mem_mapM {α β : Type} {f : α → Option β} {l : List α} {r : List β}
    (h : l.mapM f = some r) {b : β} (hb : b ∈ r) : ∃ a ∈ l, f a = some b := by
  rw [mapM_eq_some] at h
  induction h with
  | nil => cases hb
  | @cons a c l r ha _ ih =>
      obtain rfl | hb := List.mem_cons.mp hb
      · exact ⟨a, List.mem_cons_self, ha⟩
      · obtain ⟨d, hd, hfound⟩ := ih hb
        exact ⟨d, List.mem_cons_of_mem _ hd, hfound⟩

theorem exists_image_of_mem_mapM {α β : Type} {f : α → Option β} {l : List α} {r : List β}
    (h : l.mapM f = some r) {a : α} (ha : a ∈ l) : ∃ b ∈ r, f a = some b := by
  rw [mapM_eq_some] at h
  induction h with
  | nil => cases ha
  | @cons c b l r hc _ ih =>
      obtain rfl | ha := List.mem_cons.mp ha
      · exact ⟨b, List.mem_cons_self, hc⟩
      · obtain ⟨d, hd, hfound⟩ := ih ha
        exact ⟨d, List.mem_cons_of_mem _ hd, hfound⟩

/-- A list mapped through a step that gives a known value wherever it gives one. -/
theorem mapM_eq_ok_iff_map {ε α β : Type} {f : α → Except ε β} {g : α → β}
    (hg : ∀ a b, f a = .ok b → b = g a) {l : List α} {r : List β} :
    l.mapM f = .ok r ↔ (∀ a ∈ l, f a = .ok (g a)) ∧ r = l.map g := by
  induction l generalizing r with
  | nil =>
      rw [List.mapM_nil]
      constructor
      · intro h
        exact ⟨fun a ha => absurd ha List.not_mem_nil, (Except.ok.inj h).symm⟩
      · rintro ⟨-, rfl⟩
        rfl
  | cons a l ih =>
      rw [List.mapM_cons, bind_eq_ok]
      constructor
      · rintro ⟨b, hb, hrest⟩
        obtain ⟨rest, hl, hr⟩ := bind_eq_ok.mp hrest
        obtain ⟨hall, rfl⟩ := ih.mp hl
        obtain rfl := hg a b hb
        exact ⟨List.forall_mem_cons.mpr ⟨hb, hall⟩, (Except.ok.inj hr).symm⟩
      · rintro ⟨hall, rfl⟩
        obtain ⟨ha, hl⟩ := List.forall_mem_cons.mp hall
        exact ⟨g a, ha, bind_eq_ok.mpr ⟨l.map g, ih.mpr ⟨hl, rfl⟩, rfl⟩⟩

theorem forM_eq_ok_iff {ε α : Type} {f : α → Except ε Unit} {l : List α} :
    l.forM f = .ok () ↔ ∀ a ∈ l, f a = .ok () := by
  induction l with
  | nil => exact iff_of_true rfl fun a ha => absurd ha List.not_mem_nil
  | cons a l ih =>
      have hcons : (a :: l).forM f = f a >>= fun _ => l.forM f := rfl
      rw [hcons, bind_eq_ok, List.forall_mem_cons, ← ih]
      constructor
      · rintro ⟨⟨⟩, ha, hl⟩
        exact ⟨ha, hl⟩
      · rintro ⟨ha, hl⟩
        exact ⟨(), ha, hl⟩

end Fallible
