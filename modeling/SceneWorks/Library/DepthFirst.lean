import Mathlib.Data.List.Perm.Subperm
import Mathlib.Logic.Relation

/-!
A depth-first walk that refuses a cycle. `visiting` holds the nodes on the way down, and what is
complete is a list in which every node stands before all it leads to; such a list has no cycle. The
fuel bounds the way down.
-/

namespace DepthFirst

variable {α : Type} (edges : α → List α)

def visit [DecidableEq α] : Nat → List α → List α → α → Option (List α)
  | 0, _, _, _ => none
  | fuel + 1, visiting, complete, node =>
      if node ∈ complete then some complete
      else if node ∈ visiting then none
      else ((edges node).foldlM (visit fuel (node :: visiting)) complete).map (node :: ·)

def Leads (a b : α) : Prop := b ∈ edges a

/-- Every node stands before all it leads to. -/
inductive Ordered : List α → Prop
  | nil : Ordered []
  | cons {node : α} {complete : List α} (hnew : node ∉ complete)
      (hedges : ∀ target ∈ edges node, target ∈ complete) (h : Ordered complete) :
      Ordered (node :: complete)

variable {edges} {fuel : Nat} {visiting complete complete' : List α} {node target : α}

theorem Ordered.closed (h : Ordered edges complete) (hnode : node ∈ complete)
    (htarget : target ∈ edges node) : target ∈ complete := by
  induction h with
  | nil => cases hnode
  | cons _ hedges _ ih =>
      rcases List.mem_cons.mp hnode with rfl | hlater
      · exact List.mem_cons_of_mem _ (hedges target htarget)
      · exact List.mem_cons_of_mem _ (ih hlater)

theorem Ordered.reaches (h : Ordered edges complete) (hnode : node ∈ complete)
    (hpath : Relation.ReflTransGen (Leads edges) node target) : target ∈ complete := by
  induction hpath with
  | refl => exact hnode
  | tail _ hedge ih => exact h.closed ih hedge

/-- No node of an ordered list leads back to itself. -/
theorem Ordered.acyclic (h : Ordered edges complete) (hnode : node ∈ complete) :
    ¬ Relation.TransGen (Leads edges) node node := by
  induction h with
  | nil => cases hnode
  | cons hnew hedges hrest ih =>
      rcases List.mem_cons.mp hnode with rfl | hlater
      · intro hcycle
        obtain ⟨next, hnext, hback⟩ := Relation.TransGen.head'_iff.mp hcycle
        exact hnew (hrest.reaches (hedges next hnext) hback)
      · exact ih hlater

/-- What a walk leaves behind: everything it saw, ordered, and nothing of the way down. -/
structure Walked (edges : α → List α) (visiting complete complete' : List α) (targets : List α) :
    Prop where
  ordered : Ordered edges complete'
  kept : ∀ node ∈ complete, node ∈ complete'
  seen : ∀ target ∈ targets, target ∈ complete'
  apart : ∀ node ∈ complete', node ∉ visiting

theorem walked_foldlM {step : List α → α → Option (List α)} {targets : List α}
    (hstep : ∀ complete complete' target, step complete target = some complete' →
      Ordered edges complete → (∀ node ∈ complete, node ∉ visiting) →
        Walked edges visiting complete complete' [target])
    (hordered : Ordered edges complete) (hapart : ∀ node ∈ complete, node ∉ visiting)
    (h : targets.foldlM step complete = some complete') :
    Walked edges visiting complete complete' targets := by
  induction targets generalizing complete with
  | nil =>
      cases h
      exact ⟨hordered, fun _ hnode => hnode, by simp, hapart⟩
  | cons target targets ih =>
      rw [List.foldlM_cons] at h
      obtain ⟨middle, hfirst, hrest⟩ := Option.bind_eq_some_iff.mp h
      have hmiddle := hstep complete middle target hfirst hordered hapart
      have hend := ih hmiddle.ordered hmiddle.apart hrest
      refine ⟨hend.ordered, ?_, ?_, hend.apart⟩
      · intro node hnode
        exact hend.kept node (hmiddle.kept node hnode)
      · intro other hother
        rcases List.mem_cons.mp hother with rfl | hlater
        · exact hend.kept other (hmiddle.seen other (by simp))
        · exact hend.seen other hlater

section Walk

variable [DecidableEq α]

theorem walked_visit (hordered : Ordered edges complete)
    (hapart : ∀ node ∈ complete, node ∉ visiting)
    (h : visit edges fuel visiting complete node = some complete') :
    Walked edges visiting complete complete' [node] := by
  induction fuel generalizing visiting complete complete' node with
  | zero => cases h
  | succ fuel ih =>
      unfold visit at h
      split at h
      · next hdone =>
          cases h
          exact ⟨hordered, fun _ hnode => hnode, by simpa using hdone, hapart⟩
      split at h
      · cases h
      next hnew hfree =>
      obtain ⟨below, hbelow, rfl⟩ := Option.map_eq_some_iff.mp h
      have hapart' : ∀ other ∈ complete, other ∉ node :: visiting := by
        intro other hother hway
        rcases List.mem_cons.mp hway with rfl | hway
        · exact hnew hother
        · exact hapart other hother hway
      have hwalked := walked_foldlM (fun _ _ _ hstep hordered hapart => ih hordered hapart hstep)
        hordered hapart' hbelow
      have hfresh : node ∉ below := fun hnode => hwalked.apart node hnode List.mem_cons_self
      refine ⟨.cons hfresh hwalked.seen hwalked.ordered, ?_, by simp, ?_⟩
      · intro other hother
        exact List.mem_cons_of_mem _ (hwalked.kept other hother)
      · intro other hother hway
        rcases List.mem_cons.mp hother with rfl | hother
        · exact hfree hway
        · exact hwalked.apart other hother (List.mem_cons_of_mem _ hway)

/-- A walk that goes through has met no cycle. -/
theorem acyclic_of_visit (h : visit edges fuel [] [] node = some complete')
    (hreached : Relation.ReflTransGen (Leads edges) node target) :
    ¬ Relation.TransGen (Leads edges) target target := by
  have hwalked := walked_visit .nil (by simp) h
  exact hwalked.ordered.acyclic (hwalked.ordered.reaches (hwalked.seen node (by simp)) hreached)

end Walk

end DepthFirst
