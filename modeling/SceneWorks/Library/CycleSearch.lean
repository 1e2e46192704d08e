import Mathlib.Algebra.BigOperators.Group.Finset.Basic
import Mathlib.Algebra.GroupWithZero.Nat
import Mathlib.Algebra.Order.BigOperators.Group.Finset
import Mathlib.Data.List.Chain
import SceneWorks.Library.DepthFirst

/-!
The depth-first walk with a stack of its own. A frame is a node and how many of its edges are
walked. The nodes on the stack are the open ones and form a path, and what is done is ordered as in
the recursive walk. An edge to an open node closes a cycle along the stack.
-/

namespace CycleSearch

open DepthFirst

inductive Mark where
  | opened
  | done
  deriving DecidableEq

/-- The newest frame of the stack stands first. -/
structure Search (α : Type) where
  marks : α → Option Mark
  stack : List (α × Nat)

inductive Step (α : Type) where
  | walking (s : Search α)
  | finished (marks : α → Option Mark)
  | closed (cycle : List α)

section Definitions

variable {α : Type} [DecidableEq α] (edges : α → List α)

/-- The stack from where `next` stands on it, closed with `next`. -/
def cycleFrom (stack : List (α × Nat)) (next : α) : List α :=
  let path := stack.reverse
  let start := (path.findIdx? fun frame => decide (frame.1 = next)).getD 0
  (path.drop start).map Prod.fst ++ [next]

def step (s : Search α) : Step α :=
  match s.stack with
  | [] => .finished s.marks
  | (node, index) :: rest =>
      match (edges node)[index]? with
      | none => .walking ⟨Function.update s.marks node (some .done), rest⟩
      | some next =>
          let stack := (node, index + 1) :: rest
          match s.marks next with
          | some .done => .walking ⟨s.marks, stack⟩
          | some .opened => .closed (cycleFrom stack next)
          | none => .walking ⟨Function.update s.marks next (some .opened), (next, 0) :: stack⟩

/-- `none` when the fuel runs out; otherwise the marks left behind, or a cycle. -/
def walk : Nat → Search α → Option ((α → Option Mark) ⊕ List α)
  | 0, _ => none
  | fuel + 1, s =>
      match step edges s with
      | .walking s' => walk fuel s'
      | .finished marks => some (.inl marks)
      | .closed cycle => some (.inr cycle)

def opening (marks : α → Option Mark) (root : α) : Search α :=
  ⟨Function.update marks root (some .opened), [(root, 0)]⟩

/-- One walk from every root that is not marked when its turn comes. -/
def search (fuel : Nat) : (α → Option Mark) → List α → Option (Option (List α))
  | _, [] => some none
  | marks, root :: roots =>
      if (marks root).isSome then search fuel marks roots
      else
        match walk edges fuel (opening marks root) with
        | none => none
        | some (.inl marks) => search fuel marks roots
        | some (.inr cycle) => some (some cycle)

end Definitions

section Invariant

variable {α : Type} (edges : α → List α)

/-- The nodes of a cycle in order, the first of them again at the end. -/
structure IsCycle (cycle : List α) : Prop where
  long : 2 ≤ cycle.length
  closed : cycle.head? = cycle.getLast?
  linked : cycle.IsChain (Leads edges)
  once : cycle.dropLast.Nodup

/-- What a frame has walked is finished, and each frame was pushed for the last edge that the frame
below it took. -/
inductive Path (finished : List α) : List (α × Nat) → Prop
  | nil : Path finished []
  | bottom {node : α} {index : Nat}
      (hwalked : ∀ target ∈ (edges node).take index, target ∈ finished) :
      Path finished [(node, index)]
  | down {node below : α} {index taken : Nat} {rest : List (α × Nat)}
      (hwalked : ∀ target ∈ (edges node).take index, target ∈ finished)
      (hedge : (edges below)[taken]? = some node) (h : Path finished ((below, taken) :: rest)) :
      Path finished ((node, index) :: (below, taken + 1) :: rest)

structure Searching (s : Search α) (finished : List α) : Prop where
  ordered : Ordered edges finished
  done : ∀ node, s.marks node = some .done ↔ node ∈ finished
  opened : ∀ node, s.marks node = some .opened ↔ node ∈ s.stack.map Prod.fst
  nodup : (s.stack.map Prod.fst).Nodup
  path : Path edges finished s.stack

variable {edges} {finished finished' : List α} {stack rest : List (α × Nat)} {node next : α}
  {index : Nat}

theorem Path.mono (hmore : ∀ node ∈ finished, node ∈ finished') (h : Path edges finished stack) :
    Path edges finished' stack := by
  induction h with
  | nil => exact .nil
  | bottom hwalked => exact .bottom fun target htarget => hmore target (hwalked target htarget)
  | down hwalked hedge _ ih =>
      exact .down (fun target htarget => hmore target (hwalked target htarget)) hedge ih

theorem Path.walked (h : Path edges finished ((node, index) :: rest)) :
    ∀ target ∈ (edges node).take index, target ∈ finished := by
  cases h with
  | bottom hwalked => exact hwalked
  | down hwalked _ _ => exact hwalked

theorem mem_take_succ {targets : List α} {target : α} (hnext : targets[index]? = some next)
    (h : target ∈ targets.take (index + 1)) : target ∈ targets.take index ∨ target = next := by
  rw [List.take_add_one, hnext] at h
  simpa using h

/-- The top frame walks an edge to a finished node. -/
theorem Path.advance (h : Path edges finished ((node, index) :: rest))
    (hnext : (edges node)[index]? = some next) (hdone : next ∈ finished) :
    Path edges finished ((node, index + 1) :: rest) := by
  have hmore : ∀ target ∈ (edges node).take (index + 1), target ∈ finished := by
    intro target htarget
    rcases mem_take_succ hnext htarget with hbefore | rfl
    · exact h.walked target hbefore
    · exact hdone
  cases h with
  | bottom _ => exact .bottom hmore
  | down _ hedge h => exact .down hmore hedge h

theorem Path.pop (h : Path edges finished ((node, index) :: rest)) (hdone : node ∈ finished) :
    Path edges finished rest := by
  cases h with
  | bottom _ => exact .nil
  | down _ hedge h => exact h.advance hedge hdone

theorem Path.chain (h : Path edges finished stack) :
    (stack.map Prod.fst).IsChain fun later earlier => Leads edges earlier later := by
  induction h with
  | nil => exact .nil
  | bottom _ => exact .singleton _
  | down _ hedge _ ih => exact .cons_cons (List.mem_of_getElem? hedge) ih

theorem searching_nothing (edges : α → List α) : Searching edges ⟨fun _ => none, []⟩ [] :=
  ⟨.nil, by simp, by simp, List.nodup_nil, .nil⟩

/-- With nothing on the stack, what is marked is finished. -/
theorem Searching.finished_of_marked {marks : α → Option Mark}
    (h : Searching edges ⟨marks, []⟩ finished) (hmarked : marks node ≠ none) : node ∈ finished := by
  refine (h.done node).mp ?_
  cases hmark : marks node with
  | none => exact absurd hmark hmarked
  | some mark =>
      cases mark with
      | done => exact hmark
      | opened => exact absurd ((h.opened node).mp hmark) List.not_mem_nil

theorem IsCycle.leads_back {cycle : List α} (h : IsCycle edges cycle) :
    ∃ node, Relation.TransGen (Leads edges) node node := by
  obtain ⟨hlong, hclosed, hlinked, -⟩ := h
  match cycle with
  | [] | [_] => simp at hlong
  | first :: second :: rest =>
      obtain ⟨hfirst, hrest⟩ := List.isChain_cons_cons.mp hlinked
      refine ⟨first, .head' hfirst ?_⟩
      have hreach := List.relationReflTransGen_of_exists_isChain_cons rest hrest rfl
      have hback : first = (second :: rest).getLast (by simp) := by
        rw [List.getLast?_cons_cons, List.getLast?_eq_some_getLast (by simp)] at hclosed
        exact Option.some.inj hclosed
      rwa [← hback] at hreach

variable [DecidableEq α]

theorem drop_position {nodes : List α} (h : next ∈ nodes) :
    ∃ after, nodes.drop ((nodes.findIdx? fun node => decide (node = next)).getD 0) =
      next :: after := by
  cases hstart : nodes.findIdx? fun node => decide (node = next) with
  | none =>
      have hnone := List.findIdx?_eq_none_iff.mp hstart next h
      simp at hnone
  | some start =>
      obtain ⟨hlt, hnext, -⟩ := List.findIdx?_eq_some_iff_getElem.mp hstart
      refine ⟨nodes.drop (start + 1), ?_⟩
      rw [Option.getD_some, List.drop_eq_getElem_cons hlt, of_decide_eq_true hnext]

theorem cycleFrom_eq (stack : List (α × Nat)) (next : α) :
    cycleFrom stack next =
      (stack.map Prod.fst).reverse.drop
        (((stack.map Prod.fst).reverse.findIdx? fun node => decide (node = next)).getD 0) ++
        [next] := by
  rw [cycleFrom, ← List.map_reverse, List.findIdx?_map, List.map_drop]
  rfl

theorem isCycle_cycleFrom (hnodup : (stack.map Prod.fst).Nodup)
    (hchain : (stack.map Prod.fst).IsChain fun later earlier => Leads edges earlier later)
    (hopened : next ∈ stack.map Prod.fst) (htop : (stack.map Prod.fst).head? = some node)
    (hedge : Leads edges node next) : IsCycle edges (cycleFrom stack next) := by
  rw [cycleFrom_eq]
  obtain ⟨after, hdrop⟩ := drop_position (List.mem_reverse.mpr hopened)
  have hlinked := (List.isChain_reverse.mpr hchain).drop
    (((stack.map Prod.fst).reverse.findIdx? fun node => decide (node = next)).getD 0)
  have honce := (List.nodup_reverse.mpr hnodup).sublist (List.drop_sublist
    (((stack.map Prod.fst).reverse.findIdx? fun node => decide (node = next)).getD 0) _)
  have hlast : (next :: after).getLast? = some node := by
    rw [← hdrop, List.getLast?_drop, List.getLast?_reverse, htop, if_neg]
    intro hlength
    have hnil := congrArg List.length hdrop
    rw [List.length_drop, List.length_cons] at hnil
    omega
  rw [hdrop] at hlinked honce ⊢
  refine ⟨by simp, by rw [List.getLast?_concat]; rfl, ?_, ?_⟩
  · refine List.isChain_append.mpr ⟨hlinked, .singleton _, ?_⟩
    intro last hlast' first hfirst
    have hlast' : some last = some node := by rw [← hlast]; exact hlast'.symm
    cases hfirst
    cases hlast'
    exact hedge
  · rw [List.dropLast_concat]
    exact honce

/-- No edges are left: the top frame is finished. -/
theorem Searching.leave {marks : α → Option Mark}
    (h : Searching edges ⟨marks, (node, index) :: rest⟩ finished)
    (hlast : (edges node)[index]? = none) :
    Searching edges ⟨Function.update marks node (some .done), rest⟩ (node :: finished) := by
  have hall : (edges node).take index = edges node :=
    List.take_of_length_le (List.getElem?_eq_none_iff.mp hlast)
  have hedges := hall ▸ h.path.walked
  have hdone : ∀ other, marks other = some .done ↔ other ∈ finished := h.done
  have hopened : ∀ other, marks other = some .opened ↔ other ∈ node :: rest.map Prod.fst := h.opened
  have hnew : node ∉ finished := by
    rw [← hdone, (hopened node).mpr List.mem_cons_self]
    nofun
  obtain ⟨hbelow, hnodup⟩ := List.nodup_cons.mp h.nodup
  refine ⟨.cons hnew hedges h.ordered, ?_, ?_, hnodup, ?_⟩
  · intro other
    dsimp only
    by_cases hother : other = node
    · simp [hother]
    · rw [Function.update_of_ne hother, List.mem_cons, or_iff_right hother]
      exact hdone other
  · intro other
    dsimp only
    by_cases hother : other = node
    · simpa [hother] using hbelow
    · rw [Function.update_of_ne hother, hopened, List.mem_cons, or_iff_right hother]
  · exact (h.path.mono fun _ => List.mem_cons_of_mem _).pop List.mem_cons_self

/-- An edge to a node not seen before: its frame is pushed. -/
theorem Searching.enter {marks : α → Option Mark}
    (h : Searching edges ⟨marks, (node, index) :: rest⟩ finished)
    (hedge : (edges node)[index]? = some next) (hnew : marks next = none) :
    Searching edges ⟨Function.update marks next (some .opened),
      (next, 0) :: (node, index + 1) :: rest⟩ finished := by
  have hdone : ∀ other, marks other = some .done ↔ other ∈ finished := h.done
  have hopened : ∀ other, marks other = some .opened ↔ other ∈ node :: rest.map Prod.fst := h.opened
  have hfree : next ∉ node :: rest.map Prod.fst := by
    rw [← hopened, hnew]
    nofun
  refine ⟨h.ordered, ?_, ?_, List.nodup_cons.mpr ⟨hfree, h.nodup⟩, .down (by simp) hedge h.path⟩
  · intro other
    dsimp only
    by_cases hother : other = next
    · have hunfinished : next ∉ finished := by
        rw [← hdone, hnew]
        nofun
      simpa [hother] using hunfinished
    · rw [Function.update_of_ne hother]
      exact hdone other
  · intro other
    dsimp only
    by_cases hother : other = next
    · simp [hother]
    · rw [Function.update_of_ne hother, hopened]
      exact (List.mem_cons.trans (or_iff_right hother)).symm

/-- What one step of a walk does: it goes on and forgets nothing, or it closes a cycle. -/
theorem searching_step {s s' : Search α} (h : Searching edges s finished)
    (hstep : step edges s = .walking s') :
    (∃ finished', Searching edges s' finished') ∧
      ∀ node, s.marks node ≠ none → s'.marks node ≠ none := by
  have hkept : ∀ (mark : Mark) (node other : α), s.marks other ≠ none →
      Function.update s.marks node (some mark) other ≠ none := by
    intro mark node other hother
    by_cases heq : other = node
    · simp [heq]
    · rwa [Function.update_of_ne heq]
  obtain ⟨marks, stack⟩ := s
  cases stack with
  | nil => cases hstep
  | cons frame rest =>
      obtain ⟨node, index⟩ := frame
      dsimp only [step] at hstep
      cases hedge : (edges node)[index]? with
      | none =>
          rw [hedge] at hstep
          cases hstep
          exact ⟨⟨_, h.leave hedge⟩, hkept _ _⟩
      | some next =>
          rw [hedge] at hstep
          cases hmark : marks next with
          | none =>
              simp only [hmark] at hstep
              cases hstep
              exact ⟨⟨_, h.enter hedge hmark⟩, hkept _ _⟩
          | some mark =>
              cases mark with
              | opened =>
                  simp only [hmark] at hstep
                  cases hstep
              | done =>
                  simp only [hmark] at hstep
                  cases hstep
                  have hfinished := (h.done next).mp hmark
                  exact ⟨⟨finished, h.ordered, h.done, h.opened, h.nodup,
                    h.path.advance hedge hfinished⟩, fun _ hother => hother⟩

theorem isCycle_of_step {s : Search α} {cycle : List α} (h : Searching edges s finished)
    (hstep : step edges s = .closed cycle) : IsCycle edges cycle := by
  obtain ⟨marks, stack⟩ := s
  cases stack with
  | nil => cases hstep
  | cons frame rest =>
      obtain ⟨node, index⟩ := frame
      dsimp only [step] at hstep
      cases hedge : (edges node)[index]? with
      | none => simp only [hedge] at hstep; cases hstep
      | some next =>
          rw [hedge] at hstep
          cases hmark : marks next with
          | none => simp only [hmark] at hstep; cases hstep
          | some mark =>
              cases mark with
              | done => simp only [hmark] at hstep; cases hstep
              | opened =>
                  simp only [hmark] at hstep
                  cases hstep
                  exact isCycle_cycleFrom h.nodup h.path.chain ((h.opened next).mp hmark) rfl
                    (List.mem_of_getElem? hedge)

theorem Searching.opening {marks : α → Option Mark} {root : α}
    (h : Searching edges ⟨marks, []⟩ finished) (hnew : marks root = none) :
    Searching edges (opening marks root) finished := by
  have hdone : ∀ other, marks other = some .done ↔ other ∈ finished := h.done
  have hopened : ∀ other, marks other = some .opened ↔ other ∈ [] := h.opened
  refine ⟨h.ordered, ?_, ?_, List.nodup_singleton _, .bottom (by simp)⟩
  · intro other
    dsimp only [CycleSearch.opening]
    by_cases hother : other = root
    · have hunfinished : root ∉ finished := by
        rw [← hdone, hnew]
        nofun
      simpa [hother] using hunfinished
    · rw [Function.update_of_ne hother]
      exact hdone other
  · intro other
    dsimp only [CycleSearch.opening]
    by_cases hother : other = root
    · simp [hother]
    · rw [Function.update_of_ne hother, hopened]
      simp [hother]

theorem step_finished {s : Search α} {marks : α → Option Mark}
    (h : step edges s = .finished marks) : s = ⟨marks, []⟩ := by
  obtain ⟨before, stack⟩ := s
  cases stack with
  | nil => cases h; rfl
  | cons frame rest =>
      dsimp only [step] at h
      split at h
      · cases h
      · split at h <;> cases h

theorem searching_walk {fuel : Nat} {s : Search α} {marks : α → Option Mark}
    (h : Searching edges s finished) (hwalk : walk edges fuel s = some (.inl marks)) :
    (∃ finished', Searching edges ⟨marks, []⟩ finished') ∧
      ∀ node, s.marks node ≠ none → marks node ≠ none := by
  induction fuel generalizing s finished with
  | zero => cases hwalk
  | succ fuel ih =>
      rw [walk] at hwalk
      cases hstep : step edges s with
      | walking s' =>
          rw [hstep] at hwalk
          obtain ⟨⟨finished', h'⟩, hkept⟩ := searching_step h hstep
          obtain ⟨hend, hkept'⟩ := ih h' hwalk
          exact ⟨hend, fun node hnode => hkept' node (hkept node hnode)⟩
      | finished marks' =>
          rw [hstep] at hwalk
          cases hwalk
          obtain rfl := step_finished hstep
          exact ⟨⟨finished, h⟩, fun _ hnode => hnode⟩
      | closed cycle =>
          rw [hstep] at hwalk
          cases hwalk

theorem isCycle_of_walk {fuel : Nat} {s : Search α} {cycle : List α}
    (h : Searching edges s finished) (hwalk : walk edges fuel s = some (.inr cycle)) :
    IsCycle edges cycle := by
  induction fuel generalizing s finished with
  | zero => cases hwalk
  | succ fuel ih =>
      rw [walk] at hwalk
      cases hstep : step edges s with
      | walking s' =>
          rw [hstep] at hwalk
          obtain ⟨⟨finished', h'⟩, -⟩ := searching_step h hstep
          exact ih h' hwalk
      | finished marks =>
          rw [hstep] at hwalk
          cases hwalk
      | closed cycle' =>
          rw [hstep] at hwalk
          cases hwalk
          exact isCycle_of_step h hstep

theorem isCycle_of_search {fuel : Nat} {marks : α → Option Mark} {roots cycle : List α}
    (h : Searching edges ⟨marks, []⟩ finished)
    (hsearch : search edges fuel marks roots = some (some cycle)) : IsCycle edges cycle := by
  induction roots generalizing marks finished with
  | nil => cases hsearch
  | cons root roots ih =>
      rw [search] at hsearch
      split at hsearch
      · exact ih h hsearch
      · next hnew =>
          have hopening := h.opening (Option.not_isSome_iff_eq_none.mp hnew)
          split at hsearch
          · cases hsearch
          · next hwalk =>
              obtain ⟨⟨finished', h'⟩, -⟩ := searching_walk hopening hwalk
              exact ih h' hsearch
          · next hwalk =>
              cases hsearch
              exact isCycle_of_walk hopening hwalk

/-- A search that goes through leaves every root in an ordered list. -/
theorem ordered_of_search {fuel : Nat} {marks : α → Option Mark} {roots : List α}
    (h : Searching edges ⟨marks, []⟩ finished)
    (hsearch : search edges fuel marks roots = some none) :
    ∃ finished', Ordered edges finished' ∧
      ∀ node, marks node ≠ none ∨ node ∈ roots → node ∈ finished' := by
  induction roots generalizing marks finished with
  | nil =>
      refine ⟨finished, h.ordered, ?_⟩
      rintro node (hmarked | hnode)
      · exact h.finished_of_marked hmarked
      · cases hnode
  | cons root roots ih =>
      rw [search] at hsearch
      split at hsearch
      · next hmarked =>
          obtain ⟨finished', hordered, hall⟩ := ih h hsearch
          refine ⟨finished', hordered, ?_⟩
          rintro node (hnode | hnode)
          · exact hall node (.inl hnode)
          · rcases List.mem_cons.mp hnode with rfl | hlater
            · exact hall node (.inl (Option.isSome_iff_ne_none.mp hmarked))
            · exact hall node (.inr hlater)
      · next hnew =>
          have hopening := h.opening (Option.not_isSome_iff_eq_none.mp hnew)
          split at hsearch
          · cases hsearch
          · next marks' hwalk =>
              obtain ⟨⟨below, h'⟩, hkept⟩ := searching_walk hopening hwalk
              obtain ⟨finished', hordered, hall⟩ := ih h' hsearch
              have hroot : marks' root ≠ none := hkept root (by simp [CycleSearch.opening])
              have hbefore : ∀ node, marks node ≠ none → marks' node ≠ none := by
                intro node hnode
                refine hkept node ?_
                by_cases heq : node = root
                · simp [CycleSearch.opening, heq]
                · simpa [CycleSearch.opening, Function.update_of_ne heq] using hnode
              refine ⟨finished', hordered, ?_⟩
              rintro node (hnode | hnode)
              · exact hall node (.inl (hbefore node hnode))
              · rcases List.mem_cons.mp hnode with rfl | hlater
                · exact hall node (.inl hroot)
                · exact hall node (.inr hlater)
          · cases hsearch

/-- A search from every node that has edges meets a cycle exactly when there is one. -/
theorem search_eq_none_iff {fuel : Nat} {roots : List α} {found : Option (List α)}
    (hroots : ∀ node target, Leads edges node target → node ∈ roots)
    (hsearch : search edges fuel (fun _ => none) roots = some found) :
    found = none ↔ ∀ node, ¬ Relation.TransGen (Leads edges) node node := by
  constructor
  · rintro rfl node hback
    obtain ⟨finished, hordered, hall⟩ := ordered_of_search (searching_nothing edges) hsearch
    obtain ⟨next, hnext, -⟩ := Relation.TransGen.head'_iff.mp hback
    exact hordered.acyclic (hall node (.inr (hroots node next hnext))) hback
  · intro hacyclic
    cases found with
    | none => rfl
    | some cycle =>
        obtain ⟨node, hback⟩ := (isCycle_of_search (searching_nothing edges) hsearch).leads_back
        exact absurd hback (hacyclic node)

end Invariant

section Fuel

variable {α : Type} [DecidableEq α] {edges : α → List α} {nodes : Finset α} {fuel : Nat}

def left (edges : α → List α) (frame : α × Nat) : Nat :=
  (edges frame.1).length - frame.2 + 1

/-- What is left of the frames on the stack and of the nodes not seen yet. -/
def remaining (edges : α → List α) (nodes : Finset α) (s : Search α) : Nat :=
  (s.stack.map (left edges)).sum + ∑ node ∈ nodes with s.marks node = none, left edges (node, 0)

theorem unseen_update (nodes : Finset α) (marks : α → Option Mark) (node : α) (mark : Mark) :
    nodes.filter (fun other => Function.update marks node (some mark) other = none) =
      (nodes.filter fun other => marks other = none).erase node := by
  ext other
  rw [Finset.mem_erase, Finset.mem_filter, Finset.mem_filter]
  by_cases hother : other = node
  · simp [hother]
  · simp [hother]

theorem remaining_step {s s' : Search α}
    (hclosed : ∀ node target, Leads edges node target → target ∈ nodes)
    (hstep : step edges s = .walking s') : remaining edges nodes s' < remaining edges nodes s := by
  obtain ⟨marks, stack⟩ := s
  cases stack with
  | nil => cases hstep
  | cons frame rest =>
      obtain ⟨node, index⟩ := frame
      dsimp only [step] at hstep
      cases hedge : (edges node)[index]? with
      | none =>
          rw [hedge] at hstep
          cases hstep
          have hless := Finset.sum_le_sum_of_subset (f := fun node => left edges (node, 0))
            (Finset.erase_subset node (nodes.filter fun other => marks other = none))
          simp only [remaining, unseen_update, List.map_cons, List.sum_cons, left] at hless ⊢
          omega
      | some next =>
          rw [hedge] at hstep
          have hindex := (List.getElem?_eq_some_iff.mp hedge).1
          cases hmark : marks next with
          | none =>
              simp only [hmark] at hstep
              cases hstep
              have hnext : next ∈ nodes.filter fun other => marks other = none :=
                Finset.mem_filter.mpr ⟨hclosed node next (List.mem_of_getElem? hedge), hmark⟩
              have hsum := Finset.add_sum_erase _ (fun node => left edges (node, 0)) hnext
              simp only [remaining, unseen_update, List.map_cons, List.sum_cons, left] at hsum ⊢
              omega
          | some mark =>
              cases mark with
              | opened =>
                  simp only [hmark] at hstep
                  cases hstep
              | done =>
                  simp only [hmark] at hstep
                  cases hstep
                  simp only [remaining, List.map_cons, List.sum_cons, left]
                  omega

theorem exists_walk {s : Search α}
    (hclosed : ∀ node target, Leads edges node target → target ∈ nodes)
    (hfuel : remaining edges nodes s < fuel) : ∃ last, walk edges fuel s = some last := by
  induction fuel generalizing s with
  | zero => omega
  | succ fuel ih =>
      rw [walk]
      cases hstep : step edges s with
      | walking s' =>
          have hless := remaining_step hclosed hstep
          exact ih (by omega)
      | finished marks => exact ⟨_, rfl⟩
      | closed cycle => exact ⟨_, rfl⟩

theorem remaining_opening_le (edges : α → List α) (marks : α → Option Mark) {root : α}
    (hroot : root ∈ nodes) (hnew : marks root = none) :
    remaining edges nodes (opening marks root) ≤ ∑ node ∈ nodes, left edges (node, 0) := by
  have hmem : root ∈ nodes.filter fun node => marks node = none :=
    Finset.mem_filter.mpr ⟨hroot, hnew⟩
  have hsum := Finset.add_sum_erase _ (fun node => left edges (node, 0)) hmem
  have hless := Finset.sum_le_sum_of_subset (f := fun node => left edges (node, 0))
    (Finset.filter_subset (fun node => marks node = none) nodes)
  have hremaining : remaining edges nodes (opening marks root) = left edges (root, 0) +
      ∑ node ∈ (nodes.filter fun node => marks node = none).erase root, left edges (node, 0) := by
    rw [← unseen_update nodes marks root .opened]
    rfl
  omega

/-- As much fuel as there are nodes and edges is enough for every walk. -/
theorem exists_search {roots : List α} (marks : α → Option Mark)
    (hclosed : ∀ node target, Leads edges node target → target ∈ nodes)
    (hroots : ∀ root ∈ roots, root ∈ nodes)
    (hfuel : ∑ node ∈ nodes, left edges (node, 0) < fuel) :
    ∃ found, search edges fuel marks roots = some found := by
  induction roots generalizing marks with
  | nil => exact ⟨_, rfl⟩
  | cons root roots ih =>
      have hlater : ∀ other ∈ roots, other ∈ nodes := fun other hother =>
        hroots other (List.mem_cons_of_mem _ hother)
      rw [search]
      split
      · exact ih _ hlater
      · next hnew =>
          have hopening := remaining_opening_le edges marks
            (hroots root List.mem_cons_self) (Option.not_isSome_iff_eq_none.mp hnew)
          obtain ⟨last, hwalk⟩ := exists_walk hclosed
            (lt_of_le_of_lt hopening hfuel)
          rw [hwalk]
          cases last with
          | inl marks' => exact ih _ hlater
          | inr cycle => exact ⟨_, rfl⟩

theorem walk_more {s : Search α} {last : (α → Option Mark) ⊕ List α}
    (h : walk edges fuel s = some last) (more : Nat) : walk edges (fuel + more) s = some last := by
  induction fuel generalizing s with
  | zero => cases h
  | succ fuel ih =>
      rw [Nat.succ_add, walk]
      rw [walk] at h
      cases hstep : step edges s with
      | walking s' =>
          rw [hstep] at h
          exact ih h
      | finished marks => rwa [hstep] at h
      | closed cycle => rwa [hstep] at h

/-- More fuel changes nothing. -/
theorem search_more {roots : List α} {marks : α → Option Mark} {found : Option (List α)}
    (h : search edges fuel marks roots = some found) (more : Nat) :
    search edges (fuel + more) marks roots = some found := by
  induction roots generalizing marks with
  | nil => exact h
  | cons root roots ih =>
      rw [search] at h ⊢
      split at h
      · next hmarked =>
          rw [if_pos hmarked]
          exact ih h
      · next hnew =>
          rw [if_neg hnew]
          split at h
          · cases h
          · next hwalk =>
              rw [walk_more hwalk]
              exact ih h
          · next hwalk =>
              rw [walk_more hwalk]
              exact h

end Fuel

end CycleSearch
