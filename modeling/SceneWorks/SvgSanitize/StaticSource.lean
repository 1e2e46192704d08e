import SceneWorks.Library.DepthFirst
import SceneWorks.Library.Text
import Mathlib.Logic.Function.Basic

/-!
The static check of a provider's SVG. It reads the document event by event into a tree, writes down
every reference to a resource with the element it was found at, and walks the graph of children and
references for a cycle. The tokens and declarations of a stylesheet are those the CSS libraries
report. What only refuses, the budgets and the formats of single values, is left to `refuses`.
-/

namespace SceneWorks.SvgSanitize

abbrev Attributes := List (String × String)

inductive Event where
  | element (name : String) (attributes : Attributes) (empty : Bool)
  | close (name : String)
  | text (decoded : String)
  | cdata (decoded : String)
  | ignored
  | disallowed

inductive CssToken where
  | atKeyword (name : String)
  | ident (name : String)
  | unquotedUrl (value : String)
  | quotedString (value : String)
  | function (name : String) (body : List CssToken)
  | block (body : List CssToken)
  | space
  | parseError
  | other

structure Declaration where
  name : String
  value : String

structure Rule (Selector : Type) where
  selector : Selector
  declarations : List Declaration

structure Libraries (Selector : Type) where
  /-- `simplecss::StyleSheet::parse` -/
  styleSheet : String → List (Rule Selector)
  /-- The tokens of `cssparser`, blocks with what is nested in them. -/
  tokens : String → List CssToken

section Css

def validateStaticSvgId (value : String) : Bool :=
  value ≠ "" && value.utf8ByteSize ≤ 128 &&
    value.toList.all fun c => !Text.isControl c && !Text.isWhiteSpace c && c ≠ '#'

def localHrefTarget (value : String) : Option String :=
  ((Text.after ['#'] value.toList).map String.ofList).filter fun target => target ≠ ""

def localUrlTarget (value : String) : Option String :=
  ((Text.after "url(#".toList value.toList).bind (Text.before [')'])).map String.ofList
    |>.filter fun target => target ≠ ""

def validateStaticCssUrl (value : String) : Option (List String) :=
  ((localHrefTarget value).filter validateStaticSvgId).map fun target => [target]

/-- What stands in the parentheses of `url()`. -/
def urlArgument (body : List CssToken) : Option String :=
  match body.filter fun token => match token with | .space => false | _ => true with
  | [.quotedString value] | [.unquotedUrl value] => some value
  | _ => none

def isNamed (name : String) (token : String) : Bool := Text.eqIgnoreAsciiCase name token

mutual

def staticCssReferences : CssToken → Option (List String)
  | .atKeyword name => if isNamed "keyframes" name then some [] else none
  | .ident name => if "--".toList.isPrefixOf name.toList then none else some []
  | .unquotedUrl value => validateStaticCssUrl value
  | .function name body =>
      if isNamed "expression" name || isNamed "behavior" name then none
      else if isNamed "url" name then (urlArgument body).bind validateStaticCssUrl
      else validateStaticCssComponents body
  | .block body => validateStaticCssComponents body
  | .parseError => none
  | .quotedString _ | .space | .other => some []

/-- The local references of a run of tokens, in order; a token that is active or external refuses
them all. -/
def validateStaticCssComponents : List CssToken → Option (List String)
  | [] => some []
  | token :: tokens => do
      let here ← staticCssReferences token
      let later ← validateStaticCssComponents tokens
      return here ++ later

end

def staticCssProperties : List String :=
  ["fill", "fill-rule", "clip-rule", "fill-opacity", "stroke", "stroke-opacity", "stroke-width",
    "stroke-linecap", "stroke-linejoin", "stroke-miterlimit", "stroke-dasharray",
    "stroke-dashoffset", "opacity", "color", "color-interpolation", "color-interpolation-filters",
    "color-rendering", "display", "visibility", "shape-rendering", "paint-order", "vector-effect",
    "clip-path", "filter", "stop-color", "stop-opacity", "flood-color", "flood-opacity",
    "enable-background", "animation", "animation-name", "animation-duration", "animation-delay",
    "animation-direction", "animation-fill-mode", "animation-iteration-count",
    "animation-play-state", "animation-timing-function"]

def staticCssPropertyAllowed (name : String) : Bool := staticCssProperties.contains name

inductive StaticReferenceKind where
  | paint
  | clipPath
  | filter
  deriving DecidableEq

/-- A reference to a resource, before it is known where it was found. -/
structure ResourceReference where
  target : String
  kind : StaticReferenceKind
  deriving DecidableEq

def referenceKind (property : String) : Option StaticReferenceKind :=
  if property = "fill" || property = "stroke" then some .paint
  else if property = "clip-path" then some .clipPath
  else if property = "filter" then some .filter
  else none

/-- The reference a property carries, if any; a URL that is not a local resource is refused. -/
def recordStaticCssResourceReference (property value : String) : Option (List ResourceReference) :=
  if !Text.containsText "url" (Text.asciiLower value) then some []
  else do
    let target ← localUrlTarget (Text.trim value)
    let kind ← referenceKind property
    return [⟨target, kind⟩]

def recordDeclaration (declaration : Declaration) : Option (List ResourceReference) :=
  if !staticCssPropertyAllowed declaration.name || Text.trim declaration.value = "" then none
  else recordStaticCssResourceReference declaration.name declaration.value

variable {Selector : Type}

/-- All results in order, or none of them. -/
def collect {α β : Type} (f : α → Option (List β)) (items : List α) : Option (List β) :=
  (items.mapM f).map List.flatten

def recordRules (rules : List (Rule Selector)) : Option (List ResourceReference) :=
  collect (fun rule => collect recordDeclaration rule.declarations) rules

/-- An inline style is read as the declarations of a rule for everything. -/
def inlineRules (libraries : Libraries Selector) (css : String) : List (Rule Selector) :=
  libraries.styleSheet ("*\x7b" ++ css ++ "\x7d")

def validateInlineDeclarations (libraries : Libraries Selector) (css : String) :
    Option (List ResourceReference) :=
  let rules := inlineRules libraries css
  if Text.trim css ≠ "" && rules.all (fun rule => rule.declarations.isEmpty) then none
  else recordRules rules

end Css

section Attributes

def presentationAttributes : List String :=
  ["display", "visibility", "color", "color-interpolation", "color-interpolation-filters",
    "color-rendering", "fill", "fill-opacity", "fill-rule", "clip-rule", "clip-path", "filter",
    "opacity", "paint-order", "shape-rendering", "stroke", "stroke-opacity", "stroke-width",
    "stroke-linecap", "stroke-linejoin", "stroke-miterlimit", "stroke-dasharray",
    "stroke-dashoffset", "transform", "vector-effect"]

def presentedElements : List String :=
  ["svg", "g", "symbol", "use", "path", "rect", "circle", "ellipse", "line", "polyline", "polygon",
    "text", "tspan"]

/-- The attributes an element has of its own, beside the common and the presentation ones. -/
def ownAttributes (element : String) (hidden : Bool) : List String :=
  match element with
  | "svg" =>
      ["xmlns", "xmlns:xlink", "version", "baseProfile", "width", "height", "viewBox",
        "preserveAspectRatio", "overflow", "x", "y", "xml:space", "enable-background"]
  | "symbol" => ["viewBox", "preserveAspectRatio", "overflow", "x", "y", "width", "height"]
  | "use" => ["href", "xlink:href", "x", "y", "width", "height"]
  | "path" => ["d", "pathLength"]
  | "rect" => ["x", "y", "width", "height", "rx", "ry"]
  | "circle" => ["cx", "cy", "r", "pathLength"]
  | "ellipse" => ["cx", "cy", "rx", "ry", "pathLength"]
  | "line" => ["x1", "x2", "y1", "y2", "pathLength"]
  | "polyline" | "polygon" => ["points", "pathLength"]
  | "style" => ["type"]
  | "title" | "desc" | "metadata" => ["id"]
  | "linearGradient" =>
      ["x1", "y1", "x2", "y2", "gradientUnits", "gradientTransform", "spreadMethod", "href",
        "xlink:href"]
  | "radialGradient" =>
      ["cx", "cy", "r", "fx", "fy", "fr", "gradientUnits", "gradientTransform", "spreadMethod",
        "href", "xlink:href"]
  | "stop" => ["offset", "stop-color", "stop-opacity"]
  | "clipPath" => ["clipPathUnits"]
  | "filter" => ["x", "y", "width", "height", "filterUnits", "primitiveUnits"]
  | "feGaussianBlur" => ["in", "result", "stdDeviation"]
  | "feOffset" => ["in", "result", "dx", "dy"]
  | "feMergeNode" => ["in"]
  | "text" | "tspan" =>
      if hidden then
        ["x", "y", "dx", "dy", "font", "font-family", "font-size", "font-style", "font-weight",
          "text-anchor", "xml:space"]
      else []
  | _ => []

def staticSvgAttributeAllowed (element key : String) (hidden : Bool) : Bool :=
  ["id", "class", "style"].contains key ||
    (presentationAttributes.contains key && presentedElements.contains element) ||
    (ownAttributes element hidden).contains key

def externalSchemes : List String :=
  ["javascript:", "data:", "file:", "http:", "https:", "ftp:", "ws:", "wss:"]

def isAsciiWhitespace (c : Char) : Bool :=
  c = ' ' || c = '\t' || c = '\n' || c = '\r' || c = '\x0c'

def staticSvgObviousExternalValue (value : String) : Bool :=
  let compact := String.ofList ((Text.asciiLower value).toList.filter fun c => !isAsciiWhitespace c)
  externalSchemes.any (fun scheme => Text.containsText scheme compact) ||
    "//".toList.isPrefixOf compact.toList

def activeAttribute (key : String) : Bool :=
  let lower := Text.asciiLower key
  "on".toList.isPrefixOf lower.toList || lower = "src" || lower = "cursor"

/-- Whether an inline style hides its element. -/
def hidesElement (css : String) : Bool :=
  (Text.splitOn ';' css).any fun declaration =>
    match Text.splitOnce ':' declaration with
    | some (name, value) =>
        Text.eqIgnoreAsciiCase (Text.trim name) "display" &&
          Text.eqIgnoreAsciiCase (Text.trim value) "none"
    | none => false

/-- What the attributes of one element come to. -/
structure ElementState where
  id : Option String
  hrefTarget : Option String
  hidden : Bool
  references : List String
  resources : List ResourceReference

variable {Selector : Type} (libraries : Libraries Selector)

def resourceAttributes : List String :=
  ["fill", "stroke", "clip-path", "filter", "mask", "marker-start", "marker-mid", "marker-end"]

def svgNamespace : String := "http://www.w3.org/2000/svg"

def xlinkNamespace : String := "http://www.w3.org/1999/xlink"

def foreignNamespace (key : String) : Bool :=
  "xmlns:".toList.isPrefixOf key.toList || (key.toList.contains ':' && key ≠ "xml:space")

/-- The attributes that carry an identity, a reference or the end of visibility; the others are
only held against their formats. -/
def applyAttribute (element : String) (state : ElementState) (key value : String) :
    Option ElementState :=
  if key = "id" then
    if validateStaticSvgId value then some { state with id := some value } else none
  else if key = "display" then some { state with hidden := state.hidden || value = "none" }
  else if key = "paint-order" then do
    let references ← validateStaticCssComponents (libraries.tokens value)
    return { state with references := state.references ++ references }
  else if key = "style" then do
    let references ← validateStaticCssComponents (libraries.tokens value)
    let resources ← validateInlineDeclarations libraries value
    return { state with
      references := state.references ++ references
      resources := state.resources ++ resources
      hidden := state.hidden || hidesElement value }
  else if key = "href" || key = "xlink:href" then
    if ! ["use", "linearGradient", "radialGradient"].contains element then none
    else do
      let target ← localHrefTarget value
      if !validateStaticSvgId target || state.hrefTarget.isSome then none
      else
        return { state with
          references := state.references ++ [target]
          hrefTarget := some target }
  else if key = "xmlns" then
    if element = "svg" && value = svgNamespace then some state else none
  else if key = "xmlns:xlink" then
    if element = "svg" && value = xlinkNamespace then some state else none
  else if foreignNamespace key then none
  else if resourceAttributes.contains key then do
    let references ← validateStaticCssComponents (libraries.tokens value)
    let resources ← recordStaticCssResourceReference key value
    return { state with
      references := state.references ++ references
      resources := state.resources ++ resources }
  else some state

def validateAttribute (element : String) (state : ElementState) (entry : String × String) :
    Option ElementState :=
  let (key, value) := entry
  if activeAttribute key then none
  else if !"xmlns".toList.isPrefixOf key.toList && staticSvgObviousExternalValue value then none
  else if !staticSvgAttributeAllowed element key state.hidden then none
  else applyAttribute libraries element state key value

def validateStaticSvgAttributes (element : String) (attributes : Attributes) (hidden : Bool) :
    Option ElementState := do
  let state ← attributes.foldlM (validateAttribute libraries element) ⟨none, none, hidden, [], []⟩
  if element = "use" && state.hrefTarget.isNone then none else return state

end Attributes

section Tree

/-- An element of the tree. Its attributes are kept for what a renderer reads of them. -/
structure StaticSvgSourceNode where
  name : String
  attributes : Attributes
  children : List Nat
  hrefTarget : Option String

structure StaticSvgFrame where
  node : Nat
  name : String
  hidden : Bool
  styleText : String
  hiddenRoot : Bool

structure StaticTypedReference where
  source : Nat
  resource : ResourceReference

structure SourceState (Selector : Type) where
  nodes : List StaticSvgSourceNode
  frames : List StaticSvgFrame
  ids : String → Option Nat
  references : List String
  typedReferences : List StaticTypedReference
  /-- The rules of the stylesheets, which the check itself does not keep. -/
  rules : List (Rule Selector)
  root : Option Nat
  rootClosed : Bool
  hiddenRoots : List Nat
  xlinkBound : Bool
  xlinkSeen : Bool

def maxSvgDepth : Nat := 32

def maxSvgElements : Nat := 2000

def staticSvgElements : List String :=
  ["svg", "g", "defs", "symbol", "use", "path", "rect", "circle", "ellipse", "line", "polyline",
    "polygon", "style", "title", "desc", "metadata", "linearGradient", "radialGradient", "stop",
    "clipPath", "filter", "feGaussianBlur", "feOffset", "feMerge", "feMergeNode"]

def staticSvgElementAllowed (name : String) (hidden : Bool) : Bool :=
  staticSvgElements.contains name || (hidden && ["text", "tspan"].contains name)

variable {Selector : Type} (libraries : Libraries Selector)

namespace SourceState

def empty : SourceState Selector :=
  ⟨[], [], fun _ => none, [], [], [], none, false, [], false, false⟩

variable (state : SourceState Selector)

def parentHidden : Bool := state.frames.head?.any StaticSvgFrame.hidden

/-- Whether an element may stand where the document is. -/
def placeable (name : String) (attributes : Attributes) : Bool :=
  state.frames.length < maxSvgDepth &&
    !(state.frames.isEmpty && (state.root.isSome || state.rootClosed || name ≠ "svg")) &&
    state.nodes.length < maxSvgElements &&
    (name ≠ "style" ||
      state.frames.head?.any (fun frame => ["svg", "defs"].contains frame.name) &&
        attributes.all fun entry => entry.1 = "type" && entry.2 = "text/css")

def startsHiddenSubtree (hidden : Bool) : Bool :=
  hidden && !state.parentHidden && !state.frames.isEmpty &&
    !state.frames.any fun frame => ["defs", "symbol"].contains frame.name

/-- The tree with one element more, under the element that is open. -/
def addNode (name : String) (attributes : Attributes) (hrefTarget : Option String) :
    List StaticSvgSourceNode :=
  let nodes :=
    match state.frames with
    | [] => state.nodes
    | parent :: _ =>
        state.nodes.modify parent.node fun node =>
          { node with children := node.children ++ [state.nodes.length] }
  nodes ++ [⟨name, attributes, [], hrefTarget⟩]

def addElement (name : String) (attributes : Attributes) (empty : Bool) (element : ElementState) :
    SourceState Selector :=
  let node := state.nodes.length
  let isRoot := state.frames.isEmpty
  let hiddenRoot := state.startsHiddenSubtree element.hidden
  { state with
    nodes := state.addNode name attributes element.hrefTarget
    frames :=
      if empty then state.frames else ⟨node, name, element.hidden, "", hiddenRoot⟩ :: state.frames
    ids :=
      match element.id with
      | some id => Function.update state.ids id (some node)
      | none => state.ids
    references := state.references ++ element.references
    typedReferences :=
      state.typedReferences ++ element.resources.map fun resource => ⟨node, resource⟩
    root := if isRoot then some node else state.root
    rootClosed := state.rootClosed || (isRoot && empty)
    hiddenRoots := if empty && hiddenRoot then state.hiddenRoots ++ [node] else state.hiddenRoots
    xlinkBound :=
      if isRoot then attributes.contains ("xmlns:xlink", xlinkNamespace) else state.xlinkBound
    xlinkSeen := state.xlinkSeen || attributes.any fun entry => entry.1 = "xlink:href" }

def openElement (name : String) (attributes : Attributes) (empty : Bool) :
    Option (SourceState Selector) := do
  if !state.placeable name attributes then none
  else
    let element ← validateStaticSvgAttributes libraries name attributes state.parentHidden
    if !staticSvgElementAllowed name element.hidden then none
    else if state.frames.isEmpty && element.hidden then none
    else if (element.id.bind state.ids).isSome then none
    else return state.addElement name attributes empty element

/-- The references of a stylesheet are found at the element that holds it. -/
def readStyle (frame : StaticSvgFrame) : Option (SourceState Selector) :=
  if frame.name = "style" then do
    let references ← validateStaticCssComponents (libraries.tokens frame.styleText)
    let rules := libraries.styleSheet frame.styleText
    let resources ← recordRules rules
    return { state with
      references := state.references ++ references
      typedReferences :=
        state.typedReferences ++ resources.map fun resource => ⟨frame.node, resource⟩
      rules := state.rules ++ rules }
  else some state

def closeElement (name : String) : Option (SourceState Selector) :=
  match state.frames with
  | [] => none
  | frame :: frames =>
      if frame.name ≠ name then none
      else
        (state.readStyle libraries frame).map fun state =>
          { state with
            frames
            hiddenRoots :=
              if frame.hiddenRoot then state.hiddenRoots ++ [frame.node] else state.hiddenRoots
            rootClosed := state.rootClosed || frames.isEmpty }

def pushStyleText (decoded : String) : SourceState Selector :=
  { state with
    frames := state.frames.modify 0 fun frame =>
      { frame with styleText := frame.styleText ++ decoded } }

def readText (decoded : String) : Option (SourceState Selector) :=
  match state.frames with
  | [] => if Text.trim decoded = "" then some state else none
  | frame :: _ =>
      if frame.name = "style" then some (state.pushStyleText decoded)
      else if frame.hidden || ["title", "desc", "metadata"].contains frame.name ||
          Text.trim decoded = "" then some state
      else none

def readCdata (decoded : String) : Option (SourceState Selector) :=
  match state.frames with
  | [] => none
  | frame :: _ => if frame.name = "style" then some (state.pushStyleText decoded) else none

def read (event : Event) : Option (SourceState Selector) :=
  match event with
  | .element name attributes empty => state.openElement libraries name attributes empty
  | .close name => state.closeElement libraries name
  | .text decoded => state.readText decoded
  | .cdata decoded => state.readCdata decoded
  | .ignored => some state
  | .disallowed => none

end SourceState

/-- The whole document, each event held against what `refuses` it after those before it. -/
def readEvents (refuses : List Event → Event → Bool) :
    List Event → SourceState Selector → List Event → Option (SourceState Selector)
  | _, state, [] => some state
  | seen, state, event :: events =>
      if refuses seen event then none
      else (state.read libraries event).bind fun state =>
        readEvents refuses (seen ++ [event]) state events

end Tree

section Graph

variable {Selector : Type} (state : SourceState Selector)

def nodeName (node : Nat) : Option String := state.nodes[node]?.map StaticSvgSourceNode.name

def matchesKind (kind : StaticReferenceKind) (name : String) : Bool :=
  match kind with
  | .paint => ["linearGradient", "radialGradient"].contains name
  | .clipPath => name = "clipPath"
  | .filter => name = "filter"

def resolvesTyped (reference : StaticTypedReference) : Bool :=
  ((state.ids reference.resource.target).bind (nodeName state)).any
    (matchesKind reference.resource.kind)

/-- The children of an element, the target of its href and the resources found at it. -/
def referenceEdges (node : Nat) : List Nat :=
  (state.nodes[node]?.map StaticSvgSourceNode.children).getD [] ++
    ((state.nodes[node]?.bind StaticSvgSourceNode.hrefTarget).bind state.ids).toList ++
    (state.typedReferences.filter fun reference => reference.source = node).filterMap
        fun reference =>
      state.ids reference.resource.target

/-- Whether the subtree of a node holds another, down to the given depth. -/
def nodeContains : Nat → Nat → Nat → Bool
  | 0, _, _ => false
  | depth + 1, root, target =>
      root = target ||
        ((state.nodes[root]?.map StaticSvgSourceNode.children).getD []).any fun child =>
          nodeContains depth child target

def useHasChildren : Bool :=
  state.nodes.any fun node => node.name = "use" && !node.children.isEmpty

/-- The references resolve, each to a resource of its kind. -/
def resolves : Bool :=
  state.references.all (fun reference => (state.ids reference).isSome) &&
    state.nodes.all (fun node => node.hrefTarget.all fun target => (state.ids target).isSome) &&
    state.typedReferences.all (resolvesTyped state)

def hidesReferenced : Bool :=
  state.hiddenRoots.any fun hidden =>
    state.references.any fun reference =>
      (state.ids reference).any (nodeContains state state.nodes.length hidden)

end Graph

/-- The tree of a document that is accepted. -/
def validateStaticSvgSource {Selector : Type} (libraries : Libraries Selector)
    (refuses : List Event → Event → Bool) (refusesTree : SourceState Selector → Bool)
    (events : List Event) : Option (SourceState Selector) := do
  let state ← readEvents libraries refuses [] .empty events
  let root ← state.root
  if !state.frames.isEmpty || !state.rootClosed then none
  else if state.xlinkSeen && !state.xlinkBound then none
  else if useHasChildren state then none
  else if !resolves state then none
  else
    let _ ← DepthFirst.visit (referenceEdges state) (state.nodes.length + 1) [] [] root
    if refusesTree state || hidesReferenced state then none else return state

end SceneWorks.SvgSanitize
