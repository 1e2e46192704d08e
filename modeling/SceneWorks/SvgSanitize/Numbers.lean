import SceneWorks.Library.FloatReading
import SceneWorks.SvgSanitize.StaticSource

/-!
The numbers of an attribute: what a path, a list of coordinates, a transform and a view box are held
against. A scan goes through the text once and skips what a number or a function took, so a place
in the text is the rest of it. Only ASCII is told apart, and the texts are scanned by characters.
-/

namespace SceneWorks.SvgSanitize

def maxPreviewDimension : Nat := 2048

def maxSvgCoordinateMagnitude : F64 := F64.ofInt 1000000

def maxSvgViewboxOriginMagnitude : F64 := F64.ofInt 1000000

def refuse {α : Type} (message : String) : Except String α := .error ("provider SVG " ++ message)

def isSeparator (c : Char) : Bool := isAsciiWhitespace c || c = ','

/-- A sign, and what is behind it. -/
def takeSign : List Char → List Char × List Char
  | '+' :: rest => (['+'], rest)
  | '-' :: rest => (['-'], rest)
  | rest => ([], rest)

/-- The exponent at the front, if there is one; none when it has no digits. -/
def takeExponent : List Char → Option (List Char)
  | [] => some []
  | mark :: rest =>
      if mark = 'e' || mark = 'E' then
        let (sign, digits) := takeSign rest
        let digits := digits.takeWhile Char.isDigit
        if digits.isEmpty then none else some (mark :: sign ++ digits)
      else some []

/-- The finite number at the front of a text, and how many characters it takes. -/
def parseSvgNumber (text : List Char) : Option (F64 × Nat) := do
  let (sign, unsigned) := takeSign text
  let whole := unsigned.takeWhile Char.isDigit
  let rest := unsigned.dropWhile Char.isDigit
  let (point, fraction) := match rest with
    | '.' :: rest => (['.'], rest.takeWhile Char.isDigit)
    | _ => ([], [])
  if (whole ++ fraction).isEmpty then none
  else
    let exponent ← takeExponent (rest.drop (point ++ fraction).length)
    let taken := sign ++ whole ++ point ++ fraction ++ exponent
    let number ← F64.parse (String.ofList taken)
    if number.isFinite then some (number, taken.length) else none

def validateCoordinate (number : F64) (label : String) : Except String Unit :=
  if !number.isFinite || F64.lt maxSvgCoordinateMagnitude number.abs then
    refuse (label ++ " exceeds the coordinate-magnitude budget")
  else .ok ()

section Lists

variable (allowPx : Bool) (label : String) (enforceCoordinateBudget : Bool)

/-- How far a number with its unit goes, where a separator or a sign follows it. -/
def numberEnd (text : List Char) (used : Nat) : Option Nat :=
  let used := if allowPx && (text.drop used).take 2 = ['p', 'x'] then used + 2 else used
  match (text.drop used).head? with
  | some c => if isSeparator c || c = '+' || c = '-' then some used else none
  | none => some used

/-- The numbers from here on, after the characters still to be skipped. -/
def scanNumbers : Nat → List Char → Except String (List F64)
  | _, [] => .ok []
  | skip + 1, _ :: rest => scanNumbers skip rest
  | 0, c :: rest =>
      if isSeparator c then scanNumbers 0 rest
      else
        match parseSvgNumber (c :: rest) with
        | none => refuse (label ++ " must contain only finite numbers")
        | some (number, used) =>
            match numberEnd allowPx (c :: rest) used with
            | none => refuse (label ++ " uses an unsupported unit or token")
            | some used => do
                if enforceCoordinateBudget then validateCoordinate number label
                let numbers ← scanNumbers (used - 1) rest
                return number :: numbers

def parseNumberList (value : List Char) : Except String (List F64) := do
  let numbers ← scanNumbers allowPx label enforceCoordinateBudget 0 value
  if numbers.isEmpty then refuse (label ++ " contains no numbers") else return numbers

end Lists

def pathCommandLetters : List Char :=
  ['M', 'm', 'Z', 'z', 'L', 'l', 'H', 'h', 'V', 'v', 'C', 'c', 'S', 's', 'Q', 'q', 'T', 't',
    'A', 'a']

/-- The commands and the numbers from here on. -/
def scanPath : Nat → List Char → Except String (Nat × Nat)
  | _, [] => .ok (0, 0)
  | skip + 1, _ :: rest => scanPath skip rest
  | 0, c :: rest =>
      if isSeparator c then scanPath 0 rest
      else if pathCommandLetters.contains c then do
        let (commands, numbers) ← scanPath 0 rest
        return (commands + 1, numbers)
      else
        match parseSvgNumber (c :: rest) with
        | none => refuse "path data is malformed"
        | some (number, used) => do
            validateCoordinate number "path"
            let (commands, numbers) ← scanPath (used - 1) rest
            return (commands, numbers + 1)

def scanPathData (value : String) : Except String (Nat × Nat) := do
  let (commands, numbers) ← scanPath 0 value.toList
  if commands = 0 then refuse "path data contains no commands" else return (commands, numbers)

section Transforms

def transformFunctions : List String := ["matrix", "translate", "scale", "rotate", "skewX", "skewY"]

def validArity (name : String) (count : Nat) : Bool :=
  match name with
  | "matrix" => count = 6
  | "translate" | "scale" => count = 1 || count = 2
  | "rotate" => count = 1 || count = 3
  | "skewX" | "skewY" => count = 1
  | _ => false

/-- The function at the front of a text: its numbers, and how many characters it takes. -/
def takeTransform (text : List Char) : Except String (Nat × Nat) :=
  let name := text.takeWhile Char.isAlpha
  if !transformFunctions.contains (String.ofList name) then
    refuse "transform function is not allowed"
  else
    let behind := text.drop name.length
    let blank := behind.takeWhile isAsciiWhitespace
    match behind.drop blank.length with
    | '(' :: rest =>
        let arguments := rest.takeWhile (· ≠ ')')
        if (rest.drop arguments.length).isEmpty then refuse "transform is incomplete"
        else do
          let numbers ← parseNumberList false "transform" true arguments
          if validArity (String.ofList name) numbers.length then
            return (numbers.length, name.length + blank.length + arguments.length + 2)
          else
            refuse ("transform " ++ String.ofList name ++ " has an invalid argument count")
    | _ => refuse "transform is malformed"

def scanTransforms : Nat → List Char → Except String Nat
  | _, [] => .ok 0
  | skip + 1, _ :: rest => scanTransforms skip rest
  | 0, c :: rest =>
      if isSeparator c then scanTransforms 0 rest
      else do
        let (count, used) ← takeTransform (c :: rest)
        let total ← scanTransforms (used - 1) rest
        return count + total

def validateTransformList (value : String) : Except String Nat := do
  let total ← scanTransforms 0 value.toList
  if total = 0 then refuse "transform contains no numbers" else return total

end Transforms

structure ViewBox where
  x : F64
  y : F64
  width : F64
  height : F64

def parseViewboxValues (value : String) : Except String ViewBox := do
  match ← parseNumberList false "viewBox" false value.toList with
  | [x, y, width, height] =>
      if F64.lt maxSvgViewboxOriginMagnitude x.abs || F64.lt maxSvgViewboxOriginMagnitude y.abs then
        refuse "viewBox origin exceeds the origin-magnitude budget"
      else if F64.le width F64.zero || F64.le height F64.zero ||
          F64.lt (F64.ofInt maxPreviewDimension) width ||
          F64.lt (F64.ofInt maxPreviewDimension) height then
        refuse ("viewBox dimensions must be 1..=" ++ toString maxPreviewDimension)
      else return ⟨x, y, width, height⟩
  | _ => refuse "viewBox must contain four finite numbers"

def viewAlignments : List String :=
  ["xMinYMin", "xMidYMin", "xMaxYMin", "xMinYMid", "xMidYMid", "xMaxYMid", "xMinYMax", "xMidYMax",
    "xMaxYMax"]

/-- `str::split_ascii_whitespace`. -/
def splitAsciiWhitespace (value : String) : List String :=
  ((value.toList.splitOnP isAsciiWhitespace).filter fun word => !word.isEmpty).map String.ofList

def validateAlignment : List String → Bool
  | ["none"] => true
  | [align] => viewAlignments.contains align
  | [align, "meet"] | [align, "slice"] => viewAlignments.contains align
  | _ => false

def validatePreserveAspectRatio (value : String) : Except String Unit :=
  let grammar : Except String Unit :=
    refuse "preserveAspectRatio must use the SVG alignment grammar"
  match splitAsciiWhitespace value with
  | [] => refuse "preserveAspectRatio is empty"
  | ["defer"] => refuse "preserveAspectRatio defer requires an alignment"
  | "defer" :: tokens | tokens => if validateAlignment tokens then .ok () else grammar

def validateInertEnableBackground (value : String) : Except String Unit :=
  match Text.after "new ".toList value.toList with
  | none => refuse "enable-background is not recognized"
  | some numbers => do
      match ← parseNumberList false "enable-background" true numbers with
      | [_, _, width, height] =>
          if F64.le width F64.zero || F64.le height F64.zero then
            refuse "enable-background must be new plus four bounded viewport numbers"
          else return ()
      | _ => refuse "enable-background must be new plus four bounded viewport numbers"

/-- The pixels of a unit of length. -/
def lengthFactor (unit : String) : Option F64 :=
  if Text.eqIgnoreAsciiCase unit "in" then some (F64.ofInt 96)
  else if Text.eqIgnoreAsciiCase unit "cm" then some (F64.div (F64.ofInt 96) (F64.ofRatio 254 100))
  else if Text.eqIgnoreAsciiCase unit "mm" then some (F64.div (F64.ofInt 96) (F64.ofRatio 254 10))
  else if Text.eqIgnoreAsciiCase unit "q" then some (F64.div (F64.ofInt 96) (F64.ofRatio 1016 10))
  else if Text.eqIgnoreAsciiCase unit "pt" then some (F64.div (F64.ofInt 96) (F64.ofInt 72))
  else if Text.eqIgnoreAsciiCase unit "pc" then some (F64.ofInt 16)
  else none

def physicalLengthInPixels (value : String) : Except String (Option F64) :=
  match parseSvgNumber value.toList with
  | none => .ok none
  | some (number, used) =>
      match lengthFactor (String.ofList (value.toList.drop used)) with
      | none => .ok none
      | some factor => do
          let pixels := F64.mul number factor
          if !pixels.isFinite || F64.le pixels F64.zero then
            refuse "dimensions must be finite positive numbers"
          else
            validateCoordinate pixels "dimension"
            return some pixels

end SceneWorks.SvgSanitize
