import SceneWorks.Library.DepthFirst
import Mathlib.Data.Finite.Defs
import Mathlib.Data.Fintype.Card
import Mathlib.Data.Set.Finite.Basic

/-!
The tree a graph unfolds to from a node: its edges become branches, and what is reached twice stands
twice. A node has at most one unfolding, and it has none when it leads back to itself.
-/

namespace Unfolding

open DepthFirst

inductive Tree (α : Type) where
  | node (label : α) (kids : List (Tree α))

namespace Tree

variable {α : Type}

mutual

/-- What the nodes of a tree come to together. -/
def total (f : α → Nat) : Tree α → Nat
  | .node label kids => f label + totals f kids

def totals (f : α → Nat) : List (Tree α) → Nat
  | [] => 0
  | kid :: kids => total f kid + totals f kids

end

def size (tree : Tree α) : Nat := tree.total fun _ => 1

mutual

/-- The levels of a tree. -/
def depth : Tree α → Nat
  | .node _ kids => depths kids + 1

def depths : List (Tree α) → Nat
  | [] => 0
  | kid :: kids => max (depth kid) (depths kids)

end

theorem total_le_totals (f : α → Nat) {kid : Tree α} {kids : List (Tree α)} (h : kid ∈ kids) :
    kid.total f ≤ totals f kids := by
  induction kids with
  | nil => cases h
  | cons first kids ih =>
      rw [totals]
      rcases List.mem_cons.mp h with rfl | hlater
      · exact Nat.le_add_right _ _
      · exact Nat.le_add_left_of_le (ih hlater)

theorem size_lt {label : α} {kid : Tree α} {kids : List (Tree α)} (h : kid ∈ kids) :
    kid.size < (node label kids).size := by
  have hkid : kid.size ≤ totals (fun _ => 1) kids := total_le_totals _ h
  rw [size, size, total, ← size]
  omega

end Tree

open Unfolding.Tree

variable {α : Type} (edges : α → List α)

mutual

/-- The tree a node unfolds to. -/
inductive Unfolds : α → Tree α → Prop
  | node {label : α} {kids : List (Tree α)} (h : UnfoldsAll (edges label) kids) :
      Unfolds label (.node label kids)

inductive UnfoldsAll : List α → List (Tree α) → Prop
  | nil : UnfoldsAll [] []
  | cons {target : α} {targets : List α} {kid : Tree α} {kids : List (Tree α)}
      (hkid : Unfolds target kid) (hkids : UnfoldsAll targets kids) :
      UnfoldsAll (target :: targets) (kid :: kids)

end

variable {edges} {a b : α} {targets more : List α}

mutual

theorem Unfolds.unique : ∀ {a : α} {tree other : Tree α},
    Unfolds edges a tree → Unfolds edges a other → tree = other
  | _, _, _, .node h, .node h' => by rw [h.unique h']

theorem UnfoldsAll.unique : ∀ {targets : List α} {kids others : List (Tree α)},
    UnfoldsAll edges targets kids → UnfoldsAll edges targets others → kids = others
  | _, _, _, .nil, .nil => rfl
  | _, _, _, .cons hkid hkids, .cons hkid' hkids' => by rw [hkid.unique hkid', hkids.unique hkids']

end

theorem UnfoldsAll.exists_of_mem {kids : List (Tree α)} (h : UnfoldsAll edges targets kids)
    (hb : b ∈ targets) : ∃ kid ∈ kids, Unfolds edges b kid := by
  induction targets generalizing kids with
  | nil => cases hb
  | cons target targets ih =>
      cases h with
      | cons hkid hkids =>
          rcases List.mem_cons.mp hb with rfl | hlater
          · exact ⟨_, List.mem_cons_self, hkid⟩
          · obtain ⟨kid, hmem, hunfolds⟩ := ih hkids hlater
            exact ⟨kid, List.mem_cons_of_mem _ hmem, hunfolds⟩

theorem UnfoldsAll.append {kids others : List (Tree α)} (h : UnfoldsAll edges targets kids)
    (hmore : UnfoldsAll edges more others) :
    UnfoldsAll edges (targets ++ more) (kids ++ others) := by
  induction targets generalizing kids with
  | nil =>
      cases h
      exact hmore
  | cons target targets ih =>
      cases h with
      | cons hkid hkids => exact .cons hkid (ih hkids)

theorem UnfoldsAll.split {kids : List (Tree α)} (h : UnfoldsAll edges (targets ++ more) kids) :
    ∃ first last, kids = first ++ last ∧ UnfoldsAll edges targets first ∧
      UnfoldsAll edges more last := by
  induction targets generalizing kids with
  | nil => exact ⟨[], kids, rfl, .nil, h⟩
  | cons target targets ih =>
      cases h with
      | cons hkid hkids =>
          obtain ⟨first, last, rfl, hfirst, hlast⟩ := ih hkids
          exact ⟨_ :: first, last, rfl, .cons hkid hfirst, hlast⟩

/-- What a node leads to unfolds to a smaller tree. -/
theorem Unfolds.smaller {tree : Tree α} (h : Unfolds edges a tree) (hleads : Leads edges a b) :
    ∃ kid, Unfolds edges b kid ∧ kid.size < tree.size := by
  cases h with
  | node hkids =>
      obtain ⟨kid, hmem, hkid⟩ := hkids.exists_of_mem hleads
      exact ⟨kid, hkid, size_lt hmem⟩

theorem Unfolds.smaller_of_path {tree : Tree α} (h : Unfolds edges a tree)
    (hpath : Relation.TransGen (Leads edges) a b) :
    ∃ kid, Unfolds edges b kid ∧ kid.size < tree.size := by
  induction hpath with
  | single hleads => exact h.smaller hleads
  | tail _ hleads ih =>
      obtain ⟨middle, hmiddle, hlt⟩ := ih
      obtain ⟨kid, hkid, hlt'⟩ := hmiddle.smaller hleads
      exact ⟨kid, hkid, hlt'.trans hlt⟩

/-- A node that unfolds does not lead back to itself. -/
theorem Unfolds.acyclic {tree : Tree α} (h : Unfolds edges a tree) :
    ¬ Relation.TransGen (Leads edges) a a := by
  intro hcycle
  obtain ⟨again, hagain, hlt⟩ := h.smaller_of_path hcycle
  rw [h.unique hagain] at hlt
  exact Nat.lt_irrefl _ hlt

theorem Unfolds.acyclic_below {tree : Tree α} (h : Unfolds edges a tree)
    (hpath : Relation.ReflTransGen (Leads edges) a b) :
    ¬ Relation.TransGen (Leads edges) b b := by
  rcases Relation.reflTransGen_iff_eq_or_transGen.mp hpath with rfl | hpath
  · exact h.acyclic
  · obtain ⟨_, hkid, -⟩ := h.smaller_of_path hpath
    exact hkid.acyclic

theorem UnfoldsAll.of_forall (h : ∀ target ∈ targets, ∃ tree, Unfolds edges target tree) :
    ∃ kids, UnfoldsAll edges targets kids := by
  induction targets with
  | nil => exact ⟨[], .nil⟩
  | cons target targets ih =>
      obtain ⟨kid, hkid⟩ := h target List.mem_cons_self
      obtain ⟨kids, hkids⟩ := ih fun other hother => h other (List.mem_cons_of_mem _ hother)
      exact ⟨kid :: kids, .cons hkid hkids⟩

/-- A node that reaches finitely many nodes, none of which leads back to itself, unfolds. -/
theorem exists_unfolding (hfinite : {b | Relation.ReflTransGen (Leads edges) a b}.Finite)
    (hacyclic : ∀ b, Relation.ReflTransGen (Leads edges) a b →
      ¬ Relation.TransGen (Leads edges) b b) : ∃ tree, Unfolds edges a tree := by
  let Reached := {b // Relation.ReflTransGen (Leads edges) a b}
  let follows : Reached → Reached → Prop := fun b c => Relation.TransGen (Leads edges) c.1 b.1
  have : Finite Reached := hfinite
  have : IsTrans Reached follows := ⟨fun _ _ _ hab hbc => hbc.trans hab⟩
  have : Std.Irrefl follows := ⟨fun b => hacyclic b.1 b.2⟩
  have hwf : WellFounded follows := Finite.wellFounded_of_trans_of_irrefl follows
  have hall : ∀ b : Reached, ∃ tree, Unfolds edges b.1 tree := by
    intro b
    induction b using hwf.induction with
    | _ b ih =>
        have hkids : ∀ target ∈ edges b.1, ∃ tree, Unfolds edges target tree := by
          intro target htarget
          exact ih ⟨target, b.2.tail htarget⟩ (.single htarget)
        obtain ⟨kids, hkids⟩ := UnfoldsAll.of_forall hkids
        exact ⟨_, .node hkids⟩
  exact hall ⟨a, .refl⟩

end Unfolding
