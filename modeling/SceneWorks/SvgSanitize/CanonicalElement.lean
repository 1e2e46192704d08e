import Mathlib.Data.String.Basic
import SceneWorks.SvgSanitize.Expansion
import SceneWorks.SvgSanitize.Numbers

/-!
The attributes of an element that is kept. Each is stripped, resolved to a resource of the catalog,
or held against what its element allows and what is left of the budgets; an inline style stands for
the attributes it declares. What is left is sorted by name.
-/

namespace SceneWorks.SvgSanitize

def maxSvgAttributesPerElement : Nat := 12

def maxSvgPointNumbers : Nat := 32768

def maxSvgTransformNumbers : Nat := 4096

def maxSvgDashNumbers : Nat := 4096

structure SanitizerBudget where
  attributes : Nat
  attributeValueBytes : Nat
  pathDataBytes : Nat
  pathCommands : Nat
  pathNumbers : Nat
  pointNumbers : Nat
  transformNumbers : Nat
  dashNumbers : Nat
  deriving DecidableEq

inductive SvgResourceKind where
  | clipPath
  | linearGradient
  | filter
  | usePath
  deriving DecidableEq

/-- The resources of a document by their ids. -/
abbrev SvgResourceIds := String → Option SvgResourceKind

section Values

/-- The text without what ASCII counts as blank. -/
def compactText (value : String) : String :=
  String.ofList (value.toList.filter fun c => !isAsciiWhitespace c)

def unsafeCompactPatterns : List String := ["url(", "expression(", "/*", "*/", "@import"]

def unsafePatterns : List String :=
  ["\\", ";", "\x7b", "\x7d", "@", "javascript:", "data:", "file:", "http:", "https:", "ftp:",
    "ws:", "wss:", "//"]

def unsafeAttributeValue (value : String) : Bool :=
  let lower := Text.asciiLower value
  unsafeCompactPatterns.any (fun pattern => Text.containsText pattern (compactText lower)) ||
    unsafePatterns.any fun pattern => Text.containsText pattern lower

def allowedPresentationProperty (key : String) : Bool :=
  ["fill", "fill-rule", "clip-rule", "fill-opacity", "stroke", "stroke-opacity", "stroke-width",
    "stroke-linecap", "stroke-linejoin", "stroke-miterlimit", "stroke-dasharray",
    "stroke-dashoffset", "opacity"].contains key

def elementAttributes (element : String) : List String :=
  match element with
  | "svg" => ["xmlns", "width", "height", "viewBox", "preserveAspectRatio", "overflow"]
  | "path" => ["d"]
  | "rect" => ["x", "y", "width", "height", "rx", "ry"]
  | "circle" => ["cx", "cy", "r"]
  | "ellipse" => ["cx", "cy", "rx", "ry"]
  | "line" => ["x1", "x2", "y1", "y2"]
  | "polyline" | "polygon" => ["points"]
  | _ => []

def allowedAttribute (element attr : String) : Bool :=
  ["fill", "fill-rule", "clip-rule", "fill-opacity", "stroke", "stroke-opacity", "stroke-width",
    "stroke-linecap", "stroke-linejoin", "stroke-miterlimit", "stroke-dasharray",
    "stroke-dashoffset", "opacity", "transform"].contains attr ||
    (elementAttributes element).contains attr

def coordinateAttribute (element key : String) : Bool :=
  key = "stroke-width" ||
    match element with
    | "svg" => ["width", "height"].contains key
    | "rect" => ["x", "y", "width", "height", "rx", "ry"].contains key
    | "circle" => ["cx", "cy", "r"].contains key
    | "ellipse" => ["cx", "cy", "rx", "ry"].contains key
    | "line" => ["x1", "x2", "y1", "y2"].contains key
    | _ => false

end Values

section Budgets

/-- `usize::checked_add`, where it is only the limits that count. -/
def addUsed (used amount : Nat) (overflow : String) : Except String Nat :=
  if used + amount < 2 ^ 64 then .ok (used + amount) else refuse overflow

def within (used limit : Nat) (budget : String) : Except String Unit :=
  if limit < used then refuse ("exceeds the " ++ budget ++ " budget") else .ok ()

def spendPath (value : String) (budget : SanitizerBudget) : Except String SanitizerBudget := do
  let pathDataBytes ← addUsed budget.pathDataBytes value.utf8ByteSize "path bytes overflow"
  within pathDataBytes maxSvgPathDataBytes "path-data byte"
  let (commands, numbers) ← scanPathData value
  let pathCommands ← addUsed budget.pathCommands commands "path command overflow"
  let pathNumbers ← addUsed budget.pathNumbers numbers "path number overflow"
  within pathCommands maxSvgPathCommands "path-command"
  within pathNumbers maxSvgPathNumbers "path-number"
  return { budget with pathDataBytes, pathCommands, pathNumbers }

def spendPoints (value : String) (budget : SanitizerBudget) : Except String SanitizerBudget := do
  let values ← parseNumberList false "points" true value.toList
  if values.length < 2 || values.length % 2 ≠ 0 then
    refuse "points must contain coordinate pairs"
  else
    let pointNumbers ← addUsed budget.pointNumbers values.length "point count overflow"
    within pointNumbers maxSvgPointNumbers "point-number"
    return { budget with pointNumbers }

def spendTransform (value : String) (budget : SanitizerBudget) :
    Except String SanitizerBudget := do
  let numbers ← validateTransformList value
  let transformNumbers ← addUsed budget.transformNumbers numbers "transform number overflow"
  within transformNumbers maxSvgTransformNumbers "transform-number"
  return { budget with transformNumbers }

def spendDashes (key value : String) (budget : SanitizerBudget) :
    Except String SanitizerBudget := do
  let values ← parseNumberList true key true value.toList
  if values.any (fun value => F64.lt value F64.zero) ||
      values.all (fun value => F64.eq value F64.zero) then
    refuse ("stroke-dasharray must be none or non-negative finite numbers with a positive sum")
  else
    let dashNumbers ← addUsed budget.dashNumbers values.length "dash number overflow"
    within dashNumbers maxSvgDashNumbers "dash-number"
    return { budget with dashNumbers }

/-- The values that are held against a format only. -/
def validateFormat (element key value : String) : Except String Unit :=
  if key = "viewBox" then do
    let _ ← parseViewboxValues value
    return ()
  else if key = "preserveAspectRatio" then validatePreserveAspectRatio value
  else if key = "overflow" && value ≠ "hidden" then refuse "root overflow must be hidden"
  else if key = "stroke-miterlimit" then do
    match ← parseNumberList false key true value.toList with
    | [limit] =>
        if F64.lt limit (F64.ofInt 1) then
          refuse "stroke-miterlimit must be one finite number at least one"
        else return ()
    | _ => refuse "stroke-miterlimit must be one finite number at least one"
  else if key = "stroke-dashoffset" then do
    let values ← parseNumberList true key true value.toList
    if values.length ≠ 1 then refuse "stroke-dashoffset must be one finite number" else return ()
  else if key = "stroke-linecap" && ! ["butt", "round", "square"].contains value then
    refuse "stroke-linecap is not recognized"
  else if key = "stroke-linejoin" && ! ["miter", "round", "bevel"].contains value then
    refuse "stroke-linejoin is not recognized"
  else if coordinateAttribute element key then do
    let values ← parseNumberList true key true value.toList
    if values.length ≠ 1 then
      refuse ("attribute " ++ key ++ " must contain exactly one finite number")
    else return ()
  else return ()

def validateAttributeResourceBudget (element key value : String) (budget : SanitizerBudget) :
    Except String SanitizerBudget :=
  if (key = "fill-rule" || key = "clip-rule") && ! ["nonzero", "evenodd"].contains value then
    refuse ("attribute " ++ key ++ " must be nonzero or evenodd")
  else if key = "d" then spendPath value budget
  else if key = "points" then spendPoints value budget
  else if key = "transform" then spendTransform value budget
  else if key = "stroke-dasharray" && value ≠ "none" then spendDashes key value budget
  else (validateFormat element key value).map fun _ => budget

end Budgets

section Stripped

def knownNamespace (key : String) : Option String :=
  match key with
  | "xmlns:dc" => some "http://purl.org/dc/elements/1.1/"
  | "xmlns:rdf" => some "http://www.w3.org/1999/02/22-rdf-syntax-ns#"
  | "xmlns:svg" => some svgNamespace
  | "xmlns:sodipodi" => some "http://sodipodi.sourceforge.net/DTD/sodipodi-0.dtd"
  | "xmlns:inkscape" => some "http://www.inkscape.org/namespaces/inkscape"
  | "xmlns:xlink" => some "http://www.w3.org/1999/xlink"
  | "xmlns:ev" => some "http://www.w3.org/2001/xml-events"
  | "xmlns:ns1" => some "http://sozi.baierouge.fr"
  | _ => none

def attributeNotAllowed {α : Type} (key : String) : Except String α :=
  refuse ("attribute " ++ key ++ " is not allowed")

/-- The attributes an element may have and loses. -/
def strippedAttributes (element : String) (isRoot : Bool) : List String :=
  match element with
  | "svg" =>
      if isRoot then
        ["id", "version", "inkscape:version", "sodipodi:docname", "sodipodi:version", "class",
          "data-z", "data-slots", "data-tags"]
      else []
  | "g" => ["inkscape:label", "inkscape:groupmode", "id", "class", "data-name"]
  | "path" =>
      ["id", "class", "data-name", "inkscape:connector-curvature", "inkscape:flatsided",
        "inkscape:randomized", "inkscape:rounded", "inkscape:transform-center-y", "sodipodi:arg1",
        "sodipodi:arg2", "sodipodi:cx", "sodipodi:cy", "sodipodi:nodetypes", "sodipodi:r1",
        "sodipodi:r2", "sodipodi:sides", "sodipodi:type"]
  | "rect" | "circle" | "ellipse" | "line" | "polyline" | "polygon" => ["id", "class", "data-name"]
  | _ => []

def strippedEditorAttribute (element key value : String) (isRoot : Bool) : Except String Bool :=
  if (strippedAttributes element isRoot).contains key then
    if unsafeAttributeValue value then attributeNotAllowed key else .ok true
  else .ok false

def strippedRetainedAttribute (element key value : String) (isRoot : Bool) : Except String Bool :=
  let outer := isRoot && element = "svg"
  if key = "xmlns:cc" then
    if outer &&
        ["http://creativecommons.org/ns#", "http://web.resource.org/cc/"].contains value then
      .ok true
    else attributeNotAllowed key
  else
    match knownNamespace key with
    | some expected => if !outer || value ≠ expected then attributeNotAllowed key else .ok true
    | none =>
        if outer && (key = "x" || key = "y") then do
          match ← parseNumberList true key true value.toList with
          | [number] =>
              if F64.eq number F64.zero then return true
              else refuse ("outer " ++ key ++ " must be zero")
          | _ => refuse ("outer " ++ key ++ " must be zero")
        else if outer && key = "xml:space" && ["default", "preserve"].contains value then .ok true
        else if outer && key = "baseProfile" && value = "full" then .ok true
        else if outer && key = "enable-background" then
          (validateInertEnableBackground value).map fun _ => true
        else if outer && key = "sodipodi:docbase" then .ok true
        else strippedEditorAttribute element key value isRoot

end Stripped

section Style

variable (element style : String) (ids : SvgResourceIds)

structure StyleState where
  attrs : Attributes
  seenProperties : List String
  budget : SanitizerBudget

/-- The declarations that say what a renderer does anyway. -/
def inertDeclarations : List (String × String) :=
  [("display", "inline"), ("stroke-miterlimit", "4"), ("stroke-dasharray", "none"),
    ("vector-effect", "none")]

def malformedDeclaration {α : Type} : Except String α :=
  refuse "style declaration is malformed"

def applyProperty (key value : String) (attrs : Attributes) (budget : SanitizerBudget) :
    Except String (Attributes × SanitizerBudget) :=
  if inertDeclarations.contains (key, value) then .ok (attrs, budget)
  else if key = "enable-background" && element = "svg" then
    (validateInertEnableBackground value).map fun _ => (attrs, budget)
  else
    match (if key = "fill" then localUrlTarget value else none) with
    | some target =>
        if ids target = some .linearGradient then .ok (attrs ++ [(key, value)], budget)
        else refuse "fill has an unresolved or mistyped resource"
    | none =>
        if !allowedPresentationProperty key || value = "" || unsafeAttributeValue value then
          refuse ("style property " ++ key ++ " is not allowed")
        else do
          let budget ← validateAttributeResourceBudget element key value budget
          return (attrs ++ [(key, value)], budget)

/-- A declaration of a property that is new. -/
def readProperty (state : StyleState) (declaration : String) : Except String StyleState :=
  match Text.splitOnce ':' declaration with
  | none => malformedDeclaration
  | some (key, value) =>
      let key := Text.trim key
      let value := Text.trim value
      if key = "" || value.toList.contains ':' || state.seenProperties.contains key then
        malformedDeclaration
      else do
        let (attrs, budget) ← applyProperty element ids key value state.attrs state.budget
        return ⟨attrs, state.seenProperties ++ [key], budget⟩

/-- A style may end with a semicolon, and is not blank between two. -/
def readDeclarations : StyleState → List String → Except String StyleState
  | state, [] => .ok state
  | state, declaration :: rest =>
      if Text.trim declaration = "" then
        if rest.isEmpty && style.toList.getLast? = some ';' then .ok state
        else malformedDeclaration
      else do
        let state ← readProperty element ids state declaration
        readDeclarations state rest

def styleAllowed : Bool :=
  let compact := compactText (Text.asciiLower style)
  !(Text.trim style = "" || style.toList.any (fun c => ['\\', '\x7b', '\x7d', '@'].contains c) ||
    Text.containsText "/*" compact || Text.containsText "*/" compact ||
      Text.containsText "expression(" compact)

def canonicalPresentationStyle (budget : SanitizerBudget) :
    Except String (Attributes × SanitizerBudget) :=
  if !styleAllowed style then refuse "style is not allowed"
  else do
    let state ← readDeclarations element style ids ⟨[], [], budget⟩ (Text.splitOn ';' style)
    return (state.attrs, state.budget)

end Style

section Element

def retainedElements : List String :=
  ["svg", "g", "path", "rect", "circle", "ellipse", "line", "polyline", "polygon"]

/-- A side of the root in pixels. -/
def normalizeDimension (viewbox : Option ViewBox) (attr : String × String) :
    Except String (String × String) :=
  let (key, value) := attr
  if key ≠ "width" && key ≠ "height" then .ok (key, value)
  else if value.toList.contains '%' then
    if value ≠ "100%" then refuse (key ++ " percentage must be exactly 100%")
    else
      match viewbox with
      | none => refuse "percentage dimensions require viewBox"
      | some box => .ok (key, (if key = "width" then box.width else box.height).display)
  else do
    match ← physicalLengthInPixels value with
    | some pixels => return (key, pixels.display)
    | none => return (key, value)

def normalizeRootDimensions (attrs : Attributes) : Except String Attributes := do
  let viewbox ← match attrs.find? fun attr => attr.1 = "viewBox" with
    | some attr => (parseViewboxValues attr.2).map some
    | none => .ok none
  attrs.mapM (normalizeDimension viewbox)

/-- The resource an attribute has to name. -/
def referenceKindOf (key value : String) : Option SvgResourceKind :=
  if key = "fill" && (localUrlTarget value).isSome then some .linearGradient
  else if key = "clip-path" then some .clipPath
  else if key = "filter" then some .filter
  else none

def referencingElements : List String :=
  ["g", "path", "rect", "circle", "ellipse", "line", "polyline", "polygon"]

variable (name : String) (isRoot : Bool) (ids : SvgResourceIds)

def resolveReference (key value : String) (expected : SvgResourceKind) : Except String Unit :=
  if (key = "clip-path" || key = "filter") && !referencingElements.contains name then
    refuse ("attribute " ++ key ++ " is not allowed on <" ++ name ++ ">")
  else
    match localUrlTarget value with
    | none => refuse ("attribute " ++ key ++ " must be an exact local resource reference")
    | some target =>
        if ids target = some expected then .ok ()
        else refuse ("attribute " ++ key ++ " has an unresolved or mistyped resource")

/-- The attributes so far and what is used of the budgets. -/
abbrev ElementAttributes := Attributes × SanitizerBudget

def holdsKey (attrs : Attributes) (key : String) : Bool := attrs.any fun known => known.1 = key

def applyStyle (state : ElementAttributes) (value : String) : Except String ElementAttributes := do
  let (styleAttrs, budget) ← canonicalPresentationStyle name value ids state.2
  if styleAttrs.any fun attr => holdsKey state.1 attr.1 then
    refuse "style duplicates an attribute"
  else return (state.1 ++ styleAttrs, budget)

def applyPlain (state : ElementAttributes) (key value : String) :
    Except String ElementAttributes :=
  let namespaceOk := key = "xmlns" && isRoot && name = "svg" && value = svgNamespace
  if !allowedAttribute name key || (key = "xmlns" && !namespaceOk) ||
      (!namespaceOk && unsafeAttributeValue value) then attributeNotAllowed key
  else do
    let budget ← validateAttributeResourceBudget name key value state.2
    if holdsKey state.1 key then refuse ("attribute " ++ key ++ " is duplicated")
    else return (state.1 ++ [(key, value)], budget)

def canonicalAttribute (state : ElementAttributes) (attr : String × String) :
    Except String ElementAttributes := do
  let (key, value) := attr
  if ← strippedRetainedAttribute name key value isRoot then return state
  else if key = "style" then applyStyle name ids state value
  else
    match referenceKindOf key value with
    | some expected => do
        resolveReference name ids key value expected
        -- the only way out of the loop that does not ask whether the name is there already
        return (state.1 ++ [(key, value)], state.2)
    | none => applyPlain name isRoot state key value

/-- The order of `sort_unstable` on pairs. -/
def attributeLe (a b : String × String) : Prop := a.1 < b.1 ∨ a.1 = b.1 ∧ a.2 ≤ b.2

instance : DecidableRel attributeLe := fun a b =>
  inferInstanceAs (Decidable (a.1 < b.1 ∨ a.1 = b.1 ∧ a.2 ≤ b.2))

def canonicalElement (sourceAttrs : Attributes) (budget : SanitizerBudget) :
    Except String ((String × Attributes) × SanitizerBudget) := do
  if !retainedElements.contains name then refuse ("element <" ++ name ++ "> is not allowed")
  else
    let sourceAttrs ← if isRoot then normalizeRootDimensions sourceAttrs else .ok sourceAttrs
    let (attrs, budget) ← sourceAttrs.foldlM (canonicalAttribute name isRoot ids) ([], budget)
    if maxSvgAttributesPerElement < attrs.length then
      refuse ("element <" ++ name ++ "> exceeds the per-element attribute budget")
    else return ((name, attrs.insertionSort attributeLe), budget)

end Element

end SceneWorks.SvgSanitize
