import SceneWorks.SvgSanitize.Expansion
import SceneWorks.SvgSanitize.ReferenceGraph

/-!
The expansion as a tree, and that its cost is found without building it: what is priced has a tree
of that cost within every budget, and a tree within the budgets is priced.
-/

namespace SceneWorks.SvgSanitize

open DepthFirst Unfolding Fallible

section Costs

namespace StaticSvgExpansionCost

structure Within (cost : StaticSvgExpansionCost) : Prop where
  elements : cost.elements ≤ maxSvgElements
  maxDepth : cost.maxDepth ≤ maxSvgDepth
  pathDataBytes : cost.pathDataBytes ≤ maxSvgPathDataBytes
  pathCommands : cost.pathCommands ≤ maxSvgPathCommands
  pathNumbers : cost.pathNumbers ≤ maxSvgPathNumbers

/-- The cost with one branch more. -/
def grow (cost kid : StaticSvgExpansionCost) : StaticSvgExpansionCost :=
  ⟨cost.elements + kid.elements, max cost.maxDepth (kid.maxDepth + 1),
    cost.pathDataBytes + kid.pathDataBytes, cost.pathCommands + kid.pathCommands,
    cost.pathNumbers + kid.pathNumbers⟩

variable {cost kid result : StaticSvgExpansionCost} {kids : List StaticSvgExpansionCost}

theorem Within.of_grow (h : (cost.grow kid).Within) : cost.Within ∧ kid.Within := by
  obtain ⟨helements, hdepth, hbytes, hcommands, hnumbers⟩ := h
  simp only [grow] at *
  refine ⟨⟨?_, ?_, ?_, ?_, ?_⟩, ⟨?_, ?_, ?_, ?_, ?_⟩⟩ <;> omega

theorem Within.of_foldl_grow (h : (kids.foldl grow cost).Within) : cost.Within := by
  induction kids generalizing cost with
  | nil => exact h
  | cons kid kids ih => exact (Within.of_grow (ih h)).1

theorem usizeAdd_of_lt {a b : Nat} {message : String} (h : a + b < 2 ^ 64) :
    usizeAdd a b message = .ok (a + b) := if_pos h

theorem nested_eq_ok (h : cost.Within) :
    cost.nested = .ok result ↔
      cost.maxDepth + 1 ≤ maxSvgDepth ∧ result = { cost with maxDepth := cost.maxDepth + 1 } := by
  have hdepth : cost.maxDepth ≤ 32 := h.maxDepth
  rw [nested, usizeAdd_of_lt (by omega)]
  simp only [bind, Except.bind]
  split
  · next hover =>
      constructor
      · nofun
      · rintro ⟨hle, -⟩
        omega
  · next hover =>
      constructor
      · rintro ⟨⟩
        exact ⟨by omega, rfl⟩
      · rintro ⟨-, rfl⟩
        rfl

theorem checkedAdd_eq_ok {other : StaticSvgExpansionCost} (hcost : cost.Within)
    (hother : other.Within) :
    cost.checkedAdd other = .ok result ↔
      (cost.elements + other.elements ≤ maxSvgElements ∧
        cost.pathDataBytes + other.pathDataBytes ≤ maxSvgPathDataBytes ∧
        cost.pathCommands + other.pathCommands ≤ maxSvgPathCommands ∧
        cost.pathNumbers + other.pathNumbers ≤ maxSvgPathNumbers) ∧
      result = ⟨cost.elements + other.elements, max cost.maxDepth other.maxDepth,
        cost.pathDataBytes + other.pathDataBytes, cost.pathCommands + other.pathCommands,
        cost.pathNumbers + other.pathNumbers⟩ := by
  have helements : cost.elements ≤ 2000 ∧ other.elements ≤ 2000 :=
    ⟨hcost.elements, hother.elements⟩
  have hbytes : cost.pathDataBytes ≤ 163840 ∧ other.pathDataBytes ≤ 163840 :=
    ⟨hcost.pathDataBytes, hother.pathDataBytes⟩
  have hcommands : cost.pathCommands ≤ 16384 ∧ other.pathCommands ≤ 16384 :=
    ⟨hcost.pathCommands, hother.pathCommands⟩
  have hnumbers : cost.pathNumbers ≤ 65536 ∧ other.pathNumbers ≤ 65536 :=
    ⟨hcost.pathNumbers, hother.pathNumbers⟩
  rw [checkedAdd, usizeAdd_of_lt (by omega), usizeAdd_of_lt (by omega), usizeAdd_of_lt (by omega),
    usizeAdd_of_lt (by omega)]
  simp only [bind, Except.bind]
  split
  · next hover =>
      constructor
      · nofun
      · rintro ⟨⟨hle, -⟩, -⟩
        omega
  split
  · next hover =>
      simp only [Bool.or_eq_true, decide_eq_true_eq] at hover
      constructor
      · nofun
      · rintro ⟨⟨-, hbytes, hcommands, hnumbers⟩, -⟩
        omega
  · next hpath =>
      simp only [Bool.or_eq_true, decide_eq_true_eq] at hpath
      constructor
      · rintro ⟨⟩
        exact ⟨by omega, rfl⟩
      · rintro ⟨-, rfl⟩
        rfl

/-- A branch is added when the cost stays within the budgets. -/
theorem add_nested_eq_ok (hcost : cost.Within) (hkid : kid.Within) :
    (kid.nested >>= cost.checkedAdd) = .ok result ↔
      (cost.grow kid).Within ∧ result = cost.grow kid := by
  simp only [bind_eq_ok, nested_eq_ok hkid]
  constructor
  · rintro ⟨_, ⟨hdepth, rfl⟩, hadd⟩
    have hdeeper : StaticSvgExpansionCost.Within { kid with maxDepth := kid.maxDepth + 1 } :=
      ⟨hkid.elements, hdepth, hkid.pathDataBytes, hkid.pathCommands, hkid.pathNumbers⟩
    obtain ⟨⟨helements, hbytes, hcommands, hnumbers⟩, rfl⟩ :=
      (checkedAdd_eq_ok hcost hdeeper).mp hadd
    exact ⟨⟨helements, Nat.max_le.mpr ⟨hcost.maxDepth, hdepth⟩, hbytes, hcommands, hnumbers⟩, rfl⟩
  · rintro ⟨⟨helements, hdepth, hbytes, hcommands, hnumbers⟩, rfl⟩
    have hdepth : kid.maxDepth + 1 ≤ maxSvgDepth := (Nat.max_le.mp hdepth).2
    have hdeeper : StaticSvgExpansionCost.Within { kid with maxDepth := kid.maxDepth + 1 } :=
      ⟨hkid.elements, hdepth, hkid.pathDataBytes, hkid.pathCommands, hkid.pathNumbers⟩
    exact ⟨_, ⟨hdepth, rfl⟩,
      (checkedAdd_eq_ok hcost hdeeper).mpr ⟨⟨helements, hbytes, hcommands, hnumbers⟩, rfl⟩⟩

end StaticSvgExpansionCost

end Costs

open StaticSvgExpansionCost

namespace MeasuredSvg

section Trees

variable (svg : MeasuredSvg)

def measure (work : MeasuredNode → Nat) (node : Nat) : Nat := (svg.nodes[node]?.map work).getD 0

/-- What the nodes of an expanded tree come to. -/
def treeCost (tree : Unfolding.Tree Nat) : StaticSvgExpansionCost :=
  ⟨tree.size, tree.depth, tree.total (svg.measure MeasuredNode.pathDataBytes),
    tree.total (svg.measure MeasuredNode.pathCommands),
    tree.total (svg.measure MeasuredNode.pathNumbers)⟩

/-- The kinds of element an href of a kind of element may name. -/
def supports (name target : String) : Prop :=
  if name = "use" then target ∈ useTargets else name ∈ gradients ∧ target ∈ gradients

/-- The href of a node, if it has one, names an element of a kind it may name. -/
def Supported (node : Nat) : Prop :=
  ∀ found target, svg.nodes[node]? = some found → found.hrefTarget = some target →
    ∃ targetNode named, svg.ids target = some targetNode ∧ svg.nodes[targetNode]? = some named ∧
      supports found.name named.name

def Reaches : Nat → Nat → Prop := Relation.ReflTransGen (Leads svg.expands)

structure Priced (node : Nat) (cost : StaticSvgExpansionCost) : Prop where
  unfolds : ∃ tree, Unfolds svg.expands node tree ∧ cost = svg.treeCost tree
  within : cost.Within
  supported : ∀ below, svg.Reaches node below → svg.Supported below

def MemoPriced (memo : CostMemo) : Prop :=
  ∀ node cost, memo.lookup node = some cost → svg.Priced node cost

variable {svg} {node : Nat} {found : MeasuredNode} {cost : StaticSvgExpansionCost}

theorem foldl_grow_treeCost (kids : List (Unfolding.Tree Nat)) (h : 1 ≤ cost.maxDepth) :
    (kids.map svg.treeCost).foldl grow cost =
      ⟨cost.elements + Tree.totals (fun _ => 1) kids, max cost.maxDepth (Tree.depths kids + 1),
        cost.pathDataBytes + Tree.totals (svg.measure MeasuredNode.pathDataBytes) kids,
        cost.pathCommands + Tree.totals (svg.measure MeasuredNode.pathCommands) kids,
        cost.pathNumbers + Tree.totals (svg.measure MeasuredNode.pathNumbers) kids⟩ := by
  induction kids generalizing cost with
  | nil =>
      simp only [List.map_nil, List.foldl_nil, Tree.totals, Tree.depths, Nat.add_zero]
      rw [Nat.max_eq_left (by omega)]
  | cons kid kids ih =>
      rw [List.map_cons, List.foldl_cons, ih (h.trans (Nat.le_max_left _ _))]
      simp only [grow, treeCost, Tree.size, Tree.totals, Tree.depths, Nat.add_assoc,
        StaticSvgExpansionCost.mk.injEq,
        true_and, and_true]
      omega

theorem treeCost_node (h : svg.nodes[node]? = some found) (kids : List (Unfolding.Tree Nat)) :
    svg.treeCost (.node node kids) = (kids.map svg.treeCost).foldl grow found.ownCost := by
  rw [foldl_grow_treeCost kids (Nat.le_refl 1)]
  simp only [treeCost, Tree.size, Tree.total, Tree.depth, MeasuredNode.ownCost, measure, h,
    Option.map_some, Option.getD_some, StaticSvgExpansionCost.mk.injEq, true_and, and_true]
  omega

theorem ownCost_within (h : svg.nodes[node]? = some found) : found.ownCost.Within := by
  obtain ⟨hbytes, hcommands, hnumbers⟩ := svg.budgeted found (List.mem_of_getElem? h)
  have hone : 1 ≤ maxSvgElements ∧ 1 ≤ maxSvgDepth := by decide
  exact ⟨hone.1, hone.2, hbytes, hcommands, hnumbers⟩

theorem expands_eq (h : svg.nodes[node]? = some found) :
    svg.expands node = found.children ++ (found.hrefTarget.bind svg.ids).toList := by
  rw [expands, h]

theorem expands_lt {target : Nat} (h : target ∈ svg.expands node) :
    target < svg.nodes.length := by
  cases hnode : svg.nodes[node]? with
  | none =>
      rw [expands, hnode] at h
      cases h
  | some found =>
      rw [expands_eq hnode] at h
      rcases List.mem_append.mp h with hchild | hhref
      · exact svg.children_lt found (List.mem_of_getElem? hnode) target hchild
      · obtain ⟨name, -, hid⟩ := Option.bind_eq_some_iff.mp (Option.mem_toList.mp hhref)
        exact svg.ids_lt name target hid

theorem element_eq_ok : svg.element node = .ok found ↔ svg.nodes[node]? = some found := by
  rw [element]
  cases svg.nodes[node]? with
  | none => simp
  | some other => simp

theorem refuse_else_eq_ok {α : Type} {p : Prop} [Decidable p] {a b : α} {fault : Fault} :
    (if p then pure a else .error fault : Except Fault α) = .ok b ↔ p ∧ b = a := by
  by_cases hp : p
  · simp [hp, pure, Except.pure, eq_comm]
  · simp [hp]

theorem refuse_if_eq_ok {α : Type} {p : Prop} [Decidable p] {a b : α} {fault : Fault} :
    (if p then .error fault else pure a : Except Fault α) = .ok b ↔ ¬ p ∧ b = a := by
  by_cases hp : p
  · simp [hp]
  · simp [hp, pure, Except.pure, eq_comm]

theorem hrefNode_eq_ok (h : svg.nodes[node]? = some found) {target : Option Nat} :
    svg.hrefNode found = .ok target ↔
      svg.Supported node ∧ target = found.hrefTarget.bind svg.ids := by
  have hsupported : svg.Supported node ↔ ∀ name, found.hrefTarget = some name →
      ∃ targetNode named, svg.ids name = some targetNode ∧
        svg.nodes[targetNode]? = some named ∧ supports found.name named.name := by
    constructor
    · intro hall name hname
      exact hall found name h hname
    · intro hall other name hother hname
      obtain rfl : found = other := Option.some.inj (h.symm.trans hother)
      exact hall name hname
  rw [hsupported, hrefNode]
  cases found.hrefTarget with
  | none =>
      rw [Except.ok.injEq]
      exact ⟨fun heq => ⟨nofun, heq.symm⟩, fun hall => hall.2.symm⟩
  | some name =>
      simp only [Option.some.injEq, forall_eq', Option.bind_some]
      cases hid : svg.ids name with
      | none => simp
      | some targetNode =>
          simp only [bind_eq_ok, element_eq_ok, Option.some.injEq]
          have hkinds : ∀ named : MeasuredNode,
              (if found.name = "use" then
                if useTargets.contains named.name then pure (some targetNode)
                else .error (.refused
                  ("provider SVG local use reference #" ++ name ++ " has an unsupported target"))
              else if !gradients.contains found.name || !gradients.contains named.name then
                .error (.refused
                  ("provider SVG local href reference #" ++ name ++ " has an unsupported target"))
              else pure (some targetNode) : Except Fault (Option Nat)) = .ok target ↔
                supports found.name named.name ∧ target = some targetNode := by
            intro named
            rw [supports]
            by_cases huse : found.name = "use"
            · rw [if_pos huse, if_pos huse, refuse_else_eq_ok, List.contains_iff_mem]
            · rw [if_neg huse, if_neg huse, refuse_if_eq_ok, Bool.not_eq_true, Bool.or_eq_false_iff,
                Bool.not_eq_false', Bool.not_eq_false', List.contains_iff_mem,
                List.contains_iff_mem]
          simp only [hkinds]
          constructor
          · rintro ⟨named, hfound, hkind, htarget⟩
            exact ⟨⟨targetNode, named, rfl, hfound, hkind⟩, htarget⟩
          · rintro ⟨⟨_, named, rfl, hfound, hkind⟩, htarget⟩
            exact ⟨named, hfound, hkind, htarget⟩

theorem Priced.of_tree {kids : List (Unfolding.Tree Nat)} {target : Option Nat}
    (h : svg.nodes[node]? = some found) (hhref : svg.hrefNode found = .ok target)
    (hkids : UnfoldsAll svg.expands (found.children ++ target.toList) kids)
    (hwithin : ((kids.map svg.treeCost).foldl grow found.ownCost).Within)
    (hsupported : ∀ next ∈ found.children ++ target.toList, ∀ below, svg.Reaches next below →
      svg.Supported below) :
    svg.Priced node ((kids.map svg.treeCost).foldl grow found.ownCost) := by
  obtain ⟨hown, rfl⟩ := (hrefNode_eq_ok h).mp hhref
  rw [← expands_eq h] at hkids hsupported
  refine ⟨⟨_, .node hkids, (treeCost_node h kids).symm⟩, hwithin, ?_⟩
  intro below hbelow
  rcases Relation.ReflTransGen.cases_head hbelow with rfl | ⟨next, hnext, hrest⟩
  · exact hown
  · exact hsupported next hnext below hrest

end Trees

section Walk

variable {svg : MeasuredSvg} {fuel node : Nat} {visiting targets : List Nat} {memo memo' : CostMemo}
  {cost : StaticSvgExpansionCost} {sum : StaticSvgExpansionCost × CostMemo}
  {price : CostMemo → Nat → Except Fault (StaticSvgExpansionCost × CostMemo)}

theorem MemoPriced.cons (hmemo : svg.MemoPriced memo) (hcost : svg.Priced node cost) :
    svg.MemoPriced ((node, cost) :: memo) := by
  intro other known hlookup
  rw [List.lookup_cons] at hlookup
  split at hlookup
  · next heq =>
      obtain rfl := Option.some.inj hlookup
      rw [beq_iff_eq.mp heq]
      exact hcost
  · exact hmemo other known hlookup

/-- What the targets of an element are added up to when each is priced. -/
theorem addTargets_priced
    (hprice : ∀ memo target cost memo', svg.MemoPriced memo →
      price memo target = .ok (cost, memo') → svg.Priced target cost ∧ svg.MemoPriced memo')
    (hmemo : svg.MemoPriced sum.2) (hsum : sum.1.Within)
    (h : targets.foldlM (addTarget price) sum = .ok (cost, memo')) :
    svg.MemoPriced memo' ∧ cost.Within ∧
      (∀ target ∈ targets, ∀ below, svg.Reaches target below → svg.Supported below) ∧
      ∃ kids, UnfoldsAll svg.expands targets kids ∧
        cost = (kids.map svg.treeCost).foldl grow sum.1 := by
  induction targets generalizing sum with
  | nil =>
      cases h
      exact ⟨hmemo, hsum, by simp, [], .nil, rfl⟩
  | cons target targets ih =>
      rw [List.foldlM_cons, bind_eq_ok] at h
      obtain ⟨next, hnext, hrest⟩ := h
      obtain ⟨⟨targetCost, memo₁⟩, htarget, hadd⟩ := bind_eq_ok.mp hnext
      obtain ⟨⟨⟨tree, htree, rfl⟩, hwithin, hbelow⟩, hmemo₁⟩ := hprice _ _ _ _ hmemo htarget
      obtain ⟨deeper, hdeeper, hadd⟩ := bind_eq_ok.mp hadd
      obtain ⟨grown, hgrown, hpair⟩ := bind_eq_ok.mp hadd
      obtain rfl := Except.ok.inj hpair
      obtain ⟨hfits, rfl⟩ :=
        (add_nested_eq_ok hsum hwithin).mp (bind_eq_ok.mpr ⟨deeper, hdeeper, hgrown⟩)
      obtain ⟨hmemo', hcost, hlater, kids, hkids, rfl⟩ := ih hmemo₁ hfits hrest
      refine ⟨hmemo', hcost, ?_, tree :: kids, .cons htree hkids, rfl⟩
      intro other hother
      rcases List.mem_cons.mp hother with rfl | hother
      · exact hbelow
      · exact hlater other hother

/-- What a walk prices has a tree of that cost. -/
theorem expansionCost_priced (hmemo : svg.MemoPriced memo)
    (h : svg.expansionCost fuel visiting memo node = .ok (cost, memo')) :
    svg.Priced node cost ∧ svg.MemoPriced memo' := by
  induction fuel generalizing visiting memo node cost memo' with
  | zero => cases h
  | succ fuel ih =>
      rw [expansionCost] at h
      split at h
      · next known hknown =>
          cases h
          exact ⟨hmemo _ _ hknown, hmemo⟩
      split at h
      · cases h
      have hprice : ∀ memo target cost memo', svg.MemoPriced memo →
          svg.expansionCost fuel (node :: visiting) memo target = .ok (cost, memo') →
            svg.Priced target cost ∧ svg.MemoPriced memo' := by
        intro memo target cost memo' hmemo hrun
        exact ih hmemo hrun
      obtain ⟨found, hfound, h⟩ := bind_eq_ok.mp h
      obtain ⟨⟨withChildren, memo₁⟩, hchildren, h⟩ := bind_eq_ok.mp h
      obtain ⟨target, htarget, h⟩ := bind_eq_ok.mp h
      obtain ⟨⟨total, memo₂⟩, hhref, h⟩ := bind_eq_ok.mp h
      cases h
      have hnode := element_eq_ok.mp hfound
      obtain ⟨hmemo₁, hwithin₁, hbelow₁, kids, hkids, rfl⟩ :=
        addTargets_priced hprice hmemo (ownCost_within hnode) hchildren
      obtain ⟨hmemo₂, hwithin₂, hbelow₂, last, hlast, rfl⟩ :=
        addTargets_priced hprice hmemo₁ hwithin₁ hhref
      rw [← List.foldl_append, ← List.map_append] at hwithin₂ ⊢
      have hpriced : svg.Priced node _ :=
        Priced.of_tree hnode htarget (hkids.append hlast) hwithin₂ ?_
      · exact ⟨hpriced, hmemo₂.cons hpriced⟩
      · intro next hnext
        rcases List.mem_append.mp hnext with hnext | hnext
        · exact hbelow₁ next hnext
        · exact hbelow₂ next hnext

/-- A walk stopped by its fuel, or the cost of a tree that is within the budgets. -/
def Prices (svg : MeasuredSvg)
    (run : Except Fault (StaticSvgExpansionCost × CostMemo)) (cost : StaticSvgExpansionCost) :
    Prop :=
  run = .error .outOfFuel ∨ ∃ memo, run = .ok (cost, memo) ∧ svg.MemoPriced memo

theorem addTargets_prices
    (hprice : ∀ memo, ∀ target ∈ targets, ∀ tree, svg.MemoPriced memo →
      Unfolds svg.expands target tree → (svg.treeCost tree).Within →
        svg.Prices (price memo target) (svg.treeCost tree))
    (hmemo : svg.MemoPriced sum.2) {kids : List (Unfolding.Tree Nat)}
    (hkids : UnfoldsAll svg.expands targets kids)
    (hwithin : ((kids.map svg.treeCost).foldl grow sum.1).Within) :
    svg.Prices (targets.foldlM (addTarget price) sum)
      ((kids.map svg.treeCost).foldl grow sum.1) := by
  induction targets generalizing sum kids with
  | nil =>
      cases hkids
      exact .inr ⟨sum.2, rfl, hmemo⟩
  | cons target targets ih =>
      cases hkids with
      | @cons _ _ tree kids htree hkids =>
          rw [List.map_cons, List.foldl_cons] at hwithin ⊢
          rw [List.foldlM_cons]
          have hgrown := Within.of_foldl_grow hwithin
          obtain ⟨hsum, htreeWithin⟩ := Within.of_grow hgrown
          rcases hprice sum.2 target List.mem_cons_self tree hmemo htree htreeWithin with
            hfuel | ⟨memo₁, hrun, hmemo₁⟩
          · left
            rw [addTarget, hfuel]
            rfl
          · obtain ⟨deeper, hdeeper, hadd⟩ :=
              bind_eq_ok.mp ((add_nested_eq_ok hsum htreeWithin).mpr ⟨hgrown, rfl⟩)
            have hnext : addTarget price sum target =
                .ok (sum.1.grow (svg.treeCost tree), memo₁) := by
              rw [addTarget, hrun]
              simp only [bind, Except.bind, hdeeper, hadd, pure, Except.pure]
            rw [hnext]
            exact ih (fun memo other hother => hprice memo other (List.mem_cons_of_mem _ hother))
              hmemo₁ hkids hwithin

/-- A tree within the budgets is priced, as long as it does not lead back to the way down. -/
theorem expansionCost_prices {tree : Unfolding.Tree Nat} (hmemo : svg.MemoPriced memo)
    (htree : Unfolds svg.expands node tree) (hwithin : (svg.treeCost tree).Within)
    (hnode : node < svg.nodes.length)
    (hsupported : ∀ below, svg.Reaches node below → svg.Supported below)
    (hway : ∀ above ∈ visiting, ¬ svg.Reaches node above) :
    svg.Prices (svg.expansionCost fuel visiting memo node) (svg.treeCost tree) := by
  induction fuel generalizing visiting memo node tree with
  | zero => exact .inl rfl
  | succ fuel ih =>
      rw [expansionCost]
      split
      · next known hknown =>
          obtain ⟨other, hother, rfl⟩ := (hmemo node known hknown).unfolds
          rw [hother.unique htree]
          exact .inr ⟨memo, rfl, hmemo⟩
      rw [if_neg fun habove => hway node habove .refl]
      obtain ⟨found, hfound⟩ : ∃ found, svg.nodes[node]? = some found :=
        ⟨_, List.getElem?_eq_getElem hnode⟩
      have hcyclic := htree.acyclic
      cases htree with
      | @node _ kids hkids =>
          have hedges := expands_eq hfound
          have hbelow : ∀ memo, ∀ target ∈ svg.expands node, ∀ tree, svg.MemoPriced memo →
              Unfolds svg.expands target tree → (svg.treeCost tree).Within →
                svg.Prices (svg.expansionCost fuel (node :: visiting) memo target)
                  (svg.treeCost tree) := by
            intro memo target htarget tree hmemo htree hwithin
            refine ih hmemo htree hwithin (expands_lt htarget) ?_ ?_
            · intro below hreach
              exact hsupported below (hreach.head htarget)
            · intro above habove hreach
              rcases List.mem_cons.mp habove with rfl | habove
              · exact hcyclic (Relation.TransGen.head' htarget hreach)
              · exact hway above habove (hreach.head htarget)
          rw [treeCost_node hfound] at hwithin ⊢
          rw [hedges] at hkids hbelow
          obtain ⟨first, last, rfl, hfirst, hlast⟩ := hkids.split
          rw [List.map_append, List.foldl_append] at hwithin ⊢
          have hhref := (hrefNode_eq_ok hfound).mpr ⟨hsupported node .refl, rfl⟩
          rw [element_eq_ok.mpr hfound]
          simp only [bind, Except.bind]
          have hstart : ((first.map svg.treeCost).foldl grow (found.ownCost, memo).1).Within :=
            Within.of_foldl_grow hwithin
          rcases addTargets_prices
            (fun memo target htarget => hbelow memo target (List.mem_append_left _ htarget)) hmemo
            hfirst hstart with hfuel | ⟨memo₁, hchildren, hmemo₁⟩
          · exact .inl (by rw [hfuel])
          rw [hchildren, hhref]
          dsimp only
          have hhrefs : ∀ sum : StaticSvgExpansionCost × CostMemo, svg.MemoPriced sum.2 →
              ((last.map svg.treeCost).foldl grow sum.1).Within →
                svg.Prices ((found.hrefTarget.bind svg.ids).toList.foldlM
                  (addTarget (svg.expansionCost fuel (node :: visiting))) sum)
                  ((last.map svg.treeCost).foldl grow sum.1) := by
            intro sum hmemo hwithin
            refine addTargets_prices ?_ hmemo hlast hwithin
            intro memo target htarget
            exact hbelow memo target (List.mem_append_right _ htarget)
          rcases hhrefs (_, memo₁) hmemo₁ hwithin with hfuel | ⟨memo₂, hrest, hmemo₂⟩
          · exact .inl (by rw [hfuel])
          rw [hrest]
          refine .inr ⟨_, rfl, hmemo₂.cons ?_⟩
          have hall := hfirst.append hlast
          rw [← hedges] at hall
          rw [← List.foldl_append, ← List.map_append] at hwithin ⊢
          exact ⟨⟨_, .node hall, (treeCost_node hfound _).symm⟩, hwithin, hsupported⟩

end Walk

section Exact

/-- It comes to a result, or the SVG is refused with a reason. -/
def Settled {α : Type} (run : Except Fault α) : Prop :=
  run ≠ .error .outOfFuel ∧ run ≠ .error .outOfRange

theorem Settled.bind {α β : Type} {run : Except Fault α} {next : α → Except Fault β}
    (hrun : Settled run) (hnext : ∀ a, run = .ok a → Settled (next a)) :
    Settled (run >>= next) := by
  cases run with
  | ok a => exact hnext a rfl
  | error fault =>
      refine ⟨?_, ?_⟩
      · rintro heq
        exact hrun.1 (congrArg _ (Except.error.inj heq))
      · rintro heq
        exact hrun.2 (congrArg _ (Except.error.inj heq))

theorem settled_ok {α : Type} (a : α) : Settled (.ok a : Except Fault α) := ⟨nofun, nofun⟩

theorem settled_refused {α : Type} (message : String) :
    Settled (.error (.refused message) : Except Fault α) := ⟨nofun, nofun⟩

theorem settled_usizeAdd (a b : Nat) (message : String) : Settled (usizeAdd a b message) := by
  rw [usizeAdd]
  split
  · exact settled_ok _
  · exact settled_refused _

variable {svg : MeasuredSvg} {fuel node : Nat} {visiting targets : List Nat} {memo : CostMemo}
  {sum : StaticSvgExpansionCost × CostMemo}
  {price : CostMemo → Nat → Except Fault (StaticSvgExpansionCost × CostMemo)}

theorem settled_nested (cost : StaticSvgExpansionCost) : Settled cost.nested := by
  refine (settled_usizeAdd _ _ _).bind fun maxDepth _ => ?_
  split
  · exact settled_refused _
  · exact settled_ok _

theorem settled_checkedAdd (cost other : StaticSvgExpansionCost) :
    Settled (cost.checkedAdd other) := by
  refine (settled_usizeAdd _ _ _).bind fun elements _ => ?_
  refine (settled_usizeAdd _ _ _).bind fun pathDataBytes _ => ?_
  refine (settled_usizeAdd _ _ _).bind fun pathCommands _ => ?_
  refine (settled_usizeAdd _ _ _).bind fun pathNumbers _ => ?_
  split
  · exact settled_refused _
  split
  · exact settled_refused _
  · exact settled_ok _

theorem settled_addTargets (hprice : ∀ memo, ∀ target ∈ targets, Settled (price memo target)) :
    Settled (targets.foldlM (addTarget price) sum) := by
  induction targets generalizing sum with
  | nil => exact settled_ok _
  | cons target targets ih =>
      rw [List.foldlM_cons]
      refine Settled.bind ?_ fun next _ =>
        ih fun memo other hother => hprice memo other (List.mem_cons_of_mem _ hother)
      refine (hprice _ target List.mem_cons_self).bind fun priced _ => ?_
      refine (settled_nested _).bind fun deeper _ => ?_
      exact (settled_checkedAdd _ _).bind fun cost _ => settled_ok _

theorem settled_element (hnode : node < svg.nodes.length) : Settled (svg.element node) := by
  rw [element, List.getElem?_eq_getElem hnode]
  exact settled_ok _

theorem settled_hrefNode (found : MeasuredNode) : Settled (svg.hrefNode found) := by
  rw [hrefNode]
  split
  · exact settled_ok _
  split
  · exact settled_refused _
  next targetNode hid =>
  refine (settled_element (svg.ids_lt _ _ hid)).bind fun named _ => ?_
  split
  · split
    · exact settled_ok _
    · exact settled_refused _
  · split
    · exact settled_refused _
    · exact settled_ok _

/-- The way down holds no node twice, so it comes to an end before the fuel does. -/
theorem settled_expansionCost (hway : visiting.Nodup)
    (hknown : ∀ above ∈ visiting, above < svg.nodes.length) (hnode : node < svg.nodes.length)
    (hfuel : svg.nodes.length < fuel + visiting.length) :
    Settled (svg.expansionCost fuel visiting memo node) := by
  induction fuel generalizing visiting memo node with
  | zero =>
      have hsubset : visiting ⊆ List.range svg.nodes.length := fun above habove =>
        List.mem_range.mpr (hknown above habove)
      have hlength := (List.subperm_of_subset hway hsubset).length_le
      rw [List.length_range] at hlength
      omega
  | succ fuel ih =>
      rw [expansionCost]
      split
      · exact settled_ok _
      split
      · exact settled_refused _
      next hfree =>
      have hbelow : ∀ memo, ∀ target < svg.nodes.length,
          Settled (svg.expansionCost fuel (node :: visiting) memo target) := by
        intro memo target htarget
        refine ih (List.nodup_cons.mpr ⟨hfree, hway⟩) ?_ htarget ?_
        · intro above habove
          rcases List.mem_cons.mp habove with rfl | habove
          · exact hnode
          · exact hknown above habove
        · simp only [List.length_cons]
          omega
      refine (settled_element hnode).bind fun found hfound => ?_
      have hat := element_eq_ok.mp hfound
      refine Settled.bind ?_ fun withChildren _ => ?_
      · refine settled_addTargets fun memo child hchild => hbelow memo child ?_
        exact svg.children_lt found (List.mem_of_getElem? hat) child hchild
      refine (settled_hrefNode found).bind fun target htarget => ?_
      refine Settled.bind ?_ fun total _ => settled_ok _
      refine settled_addTargets fun memo named hnamed => hbelow memo named ?_
      obtain ⟨-, rfl⟩ := (hrefNode_eq_ok hat).mp htarget
      have hedge : named ∈ svg.expands node := by
        rw [expands_eq hat]
        exact List.mem_append_right _ hnamed
      exact expands_lt hedge

variable (svg)

theorem reached_finite : {node | svg.Reaches svg.root node}.Finite := by
  refine (Set.finite_lt_nat svg.nodes.length).subset ?_
  intro node hnode
  rcases Relation.ReflTransGen.cases_tail hnode with heq | ⟨_, -, hedge⟩
  · rw [heq]
    exact svg.root_lt
  · exact expands_lt hedge

/-- Pricing comes to an end. It succeeds exactly when every href within reach names an element of a
kind it may name, nothing within reach leads back to itself, and the whole expansion is within the
budgets; and then it finds what the expansion comes to. -/
theorem staticSvgExpansionCost_exact :
    Settled svg.staticSvgExpansionCost ∧
      ((∃ cost, svg.staticSvgExpansionCost = .ok cost) ↔
        (∀ node, svg.Reaches svg.root node → svg.Supported node) ∧
        (∀ node, svg.Reaches svg.root node → ¬ Relation.TransGen (Leads svg.expands) node node) ∧
        ∀ tree, Unfolds svg.expands svg.root tree → (svg.treeCost tree).Within) ∧
      ∀ cost, svg.staticSvgExpansionCost = .ok cost →
        ∃ tree, Unfolds svg.expands svg.root tree ∧ cost = svg.treeCost tree := by
  have hmemo : svg.MemoPriced [] := by
    intro node cost hlookup
    cases hlookup
  have hsettled : Settled (svg.expansionCost (svg.nodes.length + 1) [] [] svg.root) :=
    settled_expansionCost .nil nofun svg.root_lt (by simp)
  have hpriced : ∀ cost, svg.staticSvgExpansionCost = .ok cost → svg.Priced svg.root cost := by
    intro cost hcost
    rw [staticSvgExpansionCost] at hcost
    cases hrun : svg.expansionCost (svg.nodes.length + 1) [] [] svg.root with
    | error fault =>
        rw [hrun] at hcost
        cases hcost
    | ok priced =>
        rw [hrun] at hcost
        cases hcost
        exact (expansionCost_priced hmemo hrun).1
  refine ⟨?_, ⟨?_, ?_⟩, ?_⟩
  · rw [staticSvgExpansionCost]
    cases hrun : svg.expansionCost (svg.nodes.length + 1) [] [] svg.root with
    | error fault =>
        rw [hrun] at hsettled
        exact ⟨fun heq => hsettled.1 (congrArg _ (Except.error.inj heq)),
          fun heq => hsettled.2 (congrArg _ (Except.error.inj heq))⟩
    | ok priced => exact settled_ok _
  · rintro ⟨cost, hcost⟩
    obtain ⟨⟨tree, htree, rfl⟩, hwithin, hsupported⟩ := hpriced cost hcost
    refine ⟨hsupported, fun node hnode => htree.acyclic_below hnode, ?_⟩
    intro other hother
    rw [hother.unique htree]
    exact hwithin
  · rintro ⟨hsupported, hacyclic, hwithin⟩
    obtain ⟨tree, htree⟩ := exists_unfolding svg.reached_finite hacyclic
    have hprices : svg.Prices (svg.expansionCost (svg.nodes.length + 1) [] [] svg.root) _ :=
      expansionCost_prices hmemo htree (hwithin tree htree) svg.root_lt hsupported nofun
    rcases hprices with hfuel | ⟨memo, hrun, -⟩
    · exact absurd hfuel hsettled.1
    · exact ⟨_, by rw [staticSvgExpansionCost, hrun]; rfl⟩
  · intro cost hcost
    exact (hpriced cost hcost).unfolds

end Exact

section Accepted

variable {Selector : Type} {libraries : Libraries Selector} {refuses : List Event → Event → Bool}
  {refusesTree : SourceState Selector → Bool} {events : List Event} {state : SourceState Selector}

/-- The tree of an accepted document, each element with the work of its path data. -/
def ofAccepted (work : StaticSvgSourceNode → Nat × Nat × Nat)
    (budgeted : ∀ node, (work node).1 ≤ maxSvgPathDataBytes ∧ (work node).2.1 ≤ maxSvgPathCommands ∧
      (work node).2.2 ≤ maxSvgPathNumbers)
    (h : validateStaticSvgSource libraries refuses refusesTree events = some state) :
    MeasuredSvg where
  nodes := state.nodes.map fun node => ⟨node, (work node).1, (work node).2.1, (work node).2.2⟩
  ids := state.ids
  root := state.root.getD 0
  root_lt := by
    obtain ⟨hbuilt, root, -, hroot, -⟩ := validateStaticSvgSource_eq_some h
    rw [hroot, List.length_map]
    exact hbuilt.grounded root hroot
  children_lt := by
    have hbuilt := (validateStaticSvgSource_eq_some h).1
    intro node hnode child hchild
    obtain ⟨source, hsource, rfl⟩ := List.mem_map.mp hnode
    obtain ⟨i, hi⟩ := List.mem_iff_getElem?.mp hsource
    rw [List.length_map]
    exact hbuilt.below i child ⟨source, hi, hchild⟩
  ids_lt := by
    intro id node hid
    rw [List.length_map]
    exact (validateStaticSvgSource_eq_some h).1.identified id node hid
  budgeted := by
    intro node hnode
    obtain ⟨source, -, rfl⟩ := List.mem_map.mp hnode
    exact budgeted source

/-- A group of one path that is used twice. -/
def groupDocument : List Event :=
  [.element "svg" [("xmlns", svgNamespace), ("width", "10"), ("height", "10")] false,
    .element "g" [("id", "a")] false, .element "path" [("d", "M 1 2")] true, .close "g",
    .element "use" [("href", "#a")] true, .element "use" [("href", "#a")] true, .close "svg"]

/-- A document without stylesheets asks nothing of the CSS libraries. -/
def plainLibraries : Libraries Unit := ⟨fun _ => [], fun _ => []⟩

def groupTree : SourceState Unit :=
  (readEvents plainLibraries (fun _ _ => false) [] .empty groupDocument).getD .empty

theorem groupDocument_accepted : validateStaticSvgSource plainLibraries (fun _ _ => false)
    (fun _ => false) groupDocument = some groupTree := rfl

/-- Only the path has work: five bytes, one command, two numbers. -/
def pathWork (node : StaticSvgSourceNode) : Nat × Nat × Nat :=
  if node.name = "path" then (5, 1, 2) else (0, 0, 0)

theorem pathWork_budgeted (node : StaticSvgSourceNode) :
    (pathWork node).1 ≤ maxSvgPathDataBytes ∧ (pathWork node).2.1 ≤ maxSvgPathCommands ∧
      (pathWork node).2.2 ≤ maxSvgPathNumbers := by
  rw [pathWork]
  split <;> decide

def groupSvg : MeasuredSvg := ofAccepted pathWork pathWork_budgeted groupDocument_accepted

/-- The path stands three times in the expansion of the group document. -/
theorem groupSvg_expansion : ∃ tree, Unfolds groupSvg.expands groupSvg.root tree ∧
    groupSvg.treeCost tree = ⟨9, 4, 15, 3, 6⟩ ∧ ∀ node, groupSvg.Reaches groupSvg.root node →
      groupSvg.Supported node ∧ ¬ Relation.TransGen (Leads groupSvg.expands) node node := by
  obtain ⟨-, hiff, hexact⟩ := staticSvgExpansionCost_exact groupSvg
  have hcost : groupSvg.staticSvgExpansionCost = .ok ⟨9, 4, 15, 3, 6⟩ := by decide +kernel
  obtain ⟨tree, htree, heq⟩ := hexact _ hcost
  obtain ⟨hsupported, hacyclic, -⟩ := hiff.mp ⟨_, hcost⟩
  exact ⟨tree, htree, heq.symm, fun node hnode => ⟨hsupported node hnode, hacyclic node hnode⟩⟩

end Accepted

end MeasuredSvg

end SceneWorks.SvgSanitize
