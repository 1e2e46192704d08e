import Mathlib.Data.List.Pairwise
import Mathlib.Data.List.Sort

/-!
A greedy choice: the items in order, each taken unless it conflicts with one taken before. No two
of what is taken conflict, and what is left is blocked by something taken earlier, so that where the
items come by falling weight nothing lighter blocks.
-/

namespace GreedyChoice

variable {α : Type} (conflicts : α → α → Prop) [DecidableRel conflicts]

/-- One item, after what was taken. -/
def step (taken : List α) (item : α) : List α :=
  if ∃ other ∈ taken, conflicts other item then taken else taken ++ [item]

def choose (taken items : List α) : List α := items.foldl (step conflicts) taken

variable {conflicts} {taken items : List α} {item : α}

theorem taken_subset : taken ⊆ choose conflicts taken items := by
  induction items generalizing taken with
  | nil => exact List.Subset.refl _
  | cons item items ih =>
      have hrest : step conflicts taken item ⊆ choose conflicts taken (item :: items) := ih
      refine List.Subset.trans ?_ hrest
      unfold step
      split
      · exact List.Subset.refl _
      · exact List.subset_append_left _ _

theorem mem_choose (h : item ∈ choose conflicts taken items) : item ∈ taken ∨ item ∈ items := by
  induction items generalizing taken with
  | nil => exact .inl h
  | cons first items ih =>
      have hcases : item ∈ step conflicts taken first ∨ item ∈ items := ih h
      rcases hcases with hstep | hrest
      · unfold step at hstep
        split at hstep
        · exact .inl hstep
        · rcases List.mem_append.mp hstep with htaken | hfirst
          · exact .inl htaken
          · exact .inr (List.mem_cons.mpr (.inl (List.mem_singleton.mp hfirst)))
      · exact .inr (List.mem_cons_of_mem _ hrest)

/-- Nothing taken conflicts with something taken before it. -/
theorem pairwise_choose (h : taken.Pairwise fun a b => ¬ conflicts a b) :
    (choose conflicts taken items).Pairwise fun a b => ¬ conflicts a b := by
  induction items generalizing taken with
  | nil => exact h
  | cons item items ih =>
      apply ih
      unfold step
      split
      · exact h
      · rename_i hfree
        refine List.pairwise_append.mpr ⟨h, List.pairwise_singleton _ _, ?_⟩
        rintro other hother _ hitem
        obtain rfl := List.mem_singleton.mp hitem
        exact fun hconflict => hfree ⟨other, hother, hconflict⟩

/-- An item is taken, or conflicts with one that is taken and does not come after it. -/
theorem taken_or_blocked {r : α → α → Prop} (hsorted : items.Pairwise r)
    (hbefore : ∀ other ∈ taken, ∀ item ∈ items, r other item) (hitem : item ∈ items) :
    item ∈ choose conflicts taken items ∨
      ∃ other ∈ choose conflicts taken items, conflicts other item ∧ r other item := by
  induction items generalizing taken with
  | nil => cases hitem
  | cons first items ih =>
      have hsubset : step conflicts taken first ⊆ choose conflicts taken (first :: items) :=
        taken_subset
      rcases List.mem_cons.mp hitem with rfl | hrest
      · by_cases hblocked : ∃ other ∈ taken, conflicts other item
        · obtain ⟨other, hother, hconflict⟩ := hblocked
          refine .inr ⟨other, taken_subset hother, hconflict, ?_⟩
          exact hbefore other hother item List.mem_cons_self
        · refine .inl (hsubset ?_)
          rw [step, if_neg hblocked]
          exact List.mem_append_right _ List.mem_cons_self
      · apply ih hsorted.of_cons ?_ hrest
        intro other hother item hitem'
        unfold step at hother
        split at hother
        · exact hbefore other hother item (List.mem_cons_of_mem _ hitem')
        · rcases List.mem_append.mp hother with htaken | hfirst
          · exact hbefore other htaken item (List.mem_cons_of_mem _ hitem')
          · obtain rfl := List.mem_singleton.mp hfirst
            exact List.rel_of_pairwise_cons hsorted hitem'

end GreedyChoice
