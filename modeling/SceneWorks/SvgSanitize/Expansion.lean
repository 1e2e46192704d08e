import SceneWorks.Library.Fallible
import SceneWorks.Library.Unfolding
import SceneWorks.SvgSanitize.StaticSource

/-!
What a provider's SVG expands to when each local reference is replaced by its target. The cost of an
element is priced once and kept, so that the expansion itself, which may be much larger than the
document, is never built. An SVG here is the tree and the identities as they were read, with the
path data of each element within the budget of the document.
-/

namespace SceneWorks.SvgSanitize

open DepthFirst Unfolding

def maxSvgPathDataBytes : Nat := 160 * 1024

def maxSvgPathCommands : Nat := 16384

def maxSvgPathNumbers : Nat := 65536

/-- An element with the work of its path data. -/
structure MeasuredNode extends StaticSvgSourceNode where
  pathDataBytes : Nat
  pathCommands : Nat
  pathNumbers : Nat

structure MeasuredSvg where
  nodes : List MeasuredNode
  ids : String → Option Nat
  root : Nat
  root_lt : root < nodes.length
  children_lt : ∀ node ∈ nodes, ∀ child ∈ node.children, child < nodes.length
  ids_lt : ∀ id node, ids id = some node → node < nodes.length
  budgeted : ∀ node ∈ nodes, node.pathDataBytes ≤ maxSvgPathDataBytes ∧
    node.pathCommands ≤ maxSvgPathCommands ∧ node.pathNumbers ≤ maxSvgPathNumbers

inductive Fault where
  | outOfFuel
  /-- An index that is not in the table of elements. -/
  | outOfRange
  | refused (message : String)
  deriving DecidableEq

structure StaticSvgExpansionCost where
  elements : Nat
  maxDepth : Nat
  pathDataBytes : Nat
  pathCommands : Nat
  pathNumbers : Nat
  deriving DecidableEq

/-- `usize::checked_add` -/
def usizeAdd (a b : Nat) (message : String) : Except Fault Nat :=
  if a + b < 2 ^ 64 then .ok (a + b) else .error (.refused message)

namespace StaticSvgExpansionCost

def nested (cost : StaticSvgExpansionCost) : Except Fault StaticSvgExpansionCost := do
  let maxDepth ← usizeAdd cost.maxDepth 1 "provider SVG expanded depth overflow"
  if maxSvgDepth < maxDepth then
    .error (.refused "provider SVG expansion exceeds the element nesting budget")
  else return { cost with maxDepth }

def checkedAdd (cost other : StaticSvgExpansionCost) : Except Fault StaticSvgExpansionCost := do
  let elements ← usizeAdd cost.elements other.elements "provider SVG expansion count overflow"
  let pathDataBytes ← usizeAdd cost.pathDataBytes other.pathDataBytes
    "provider SVG expanded path bytes overflow"
  let pathCommands ← usizeAdd cost.pathCommands other.pathCommands
    "provider SVG expanded path command count overflow"
  let pathNumbers ← usizeAdd cost.pathNumbers other.pathNumbers
    "provider SVG expanded path number count overflow"
  if maxSvgElements < elements then
    .error (.refused "provider SVG local-use expansion exceeds the element budget")
  else if maxSvgPathDataBytes < pathDataBytes || maxSvgPathCommands < pathCommands ||
      maxSvgPathNumbers < pathNumbers then
    .error (.refused "provider SVG local-use expansion exceeds the path-work budget")
  else
    return { elements, maxDepth := max cost.maxDepth other.maxDepth, pathDataBytes, pathCommands,
             pathNumbers }

end StaticSvgExpansionCost

def MeasuredNode.ownCost (node : MeasuredNode) : StaticSvgExpansionCost :=
  ⟨1, 1, node.pathDataBytes, node.pathCommands, node.pathNumbers⟩

abbrev CostMemo := List (Nat × StaticSvgExpansionCost)

/-- The cost so far with that of one target more, nested one level down. -/
def addTarget (price : CostMemo → Nat → Except Fault (StaticSvgExpansionCost × CostMemo))
    (sum : StaticSvgExpansionCost × CostMemo) (target : Nat) :
    Except Fault (StaticSvgExpansionCost × CostMemo) := do
  let (targetCost, memo) ← price sum.2 target
  let cost ← sum.1.checkedAdd (← targetCost.nested)
  return (cost, memo)

def useTargets : List String :=
  ["svg", "g", "symbol", "path", "rect", "circle", "ellipse", "line", "polyline", "polygon"]

def gradients : List String := ["linearGradient", "radialGradient"]

namespace MeasuredSvg

variable (svg : MeasuredSvg)

def element (node : Nat) : Except Fault MeasuredNode :=
  match svg.nodes[node]? with
  | some found => .ok found
  | none => .error .outOfRange

/-- The element an href is replaced by. -/
def hrefNode (node : MeasuredNode) : Except Fault (Option Nat) :=
  match node.hrefTarget with
  | none => .ok none
  | some target =>
      match svg.ids target with
      | none =>
          .error (.refused ("provider SVG local use reference #" ++ target ++ " is unresolved"))
      | some targetNode => do
          let found ← svg.element targetNode
          if node.name = "use" then
            if useTargets.contains found.name then return some targetNode
            else
              .error (.refused
                ("provider SVG local use reference #" ++ target ++ " has an unsupported target"))
          else if !gradients.contains node.name || !gradients.contains found.name then
            .error (.refused
              ("provider SVG local href reference #" ++ target ++ " has an unsupported target"))
          else return some targetNode

/-- The cost of a node below those being visited, and what is known afterwards. The fuel bounds the
way down. -/
def expansionCost :
    Nat → List Nat → CostMemo → Nat → Except Fault (StaticSvgExpansionCost × CostMemo)
  | 0, _, _, _ => .error .outOfFuel
  | fuel + 1, visiting, memo, node =>
      match memo.lookup node with
      | some cost => .ok (cost, memo)
      | none =>
          if node ∈ visiting then .error (.refused "provider SVG local-use graph is recursive")
          else do
            let found ← svg.element node
            let price := expansionCost fuel (node :: visiting)
            let withChildren ← found.children.foldlM (addTarget price) (found.ownCost, memo)
            let target ← svg.hrefNode found
            let (cost, memo) ← target.toList.foldlM (addTarget price) withChildren
            return (cost, (node, cost) :: memo)

/-- A way down holds no node twice, so it is never longer than the table. -/
def staticSvgExpansionCost : Except Fault StaticSvgExpansionCost :=
  (svg.expansionCost (svg.nodes.length + 1) [] [] svg.root).map Prod.fst

/-- The children of an element and the target of its href. -/
def expands (node : Nat) : List Nat :=
  match svg.nodes[node]? with
  | some found => found.children ++ (found.hrefTarget.bind svg.ids).toList
  | none => []

end MeasuredSvg

end SceneWorks.SvgSanitize
