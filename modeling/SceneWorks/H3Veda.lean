import SceneWorks.Library.JsonRecord
import SceneWorks.Library.Text
import Mathlib.Data.List.Sort

/-!
The check of the MiniMax-H3 Veda controls: two budgets, each a percentage or a count of key
tiles, and two lists of zero-based indices and ranges.
-/

namespace SceneWorks.H3Veda

open JsonObject (get)

inductive H3VedaBudget where
  | percent (value : F64)
  | keyTiles (count : Nat)

structure H3VedaSettings where
  enabled : Bool
  generated : H3VedaBudget
  reference : H3VedaBudget
  fullAttentionLayers : List Nat
  fullAttentionSteps : List Nat

def isDigits (chars : List Char) : Bool := chars ≠ [] && chars.all Char.isDigit

/-- The chars before a percent sign at the end. -/
def stripPercent (chars : List Char) : Option (List Char) :=
  match chars.reverse with
  | '%' :: rest | '％' :: rest => some rest.reverse
  | _ => none

/-- A decimal number rounded once; `whole` and `fraction` are digits. -/
def percentage (whole fraction : List Char) : F64 :=
  F64.ofRatio ((Text.parseDigits (whole ++ fraction)).getD 0) (10 ^ fraction.length)

def budget (text : String) : Except String H3VedaBudget :=
  let value := Text.trim text
  let refused : Except String H3VedaBudget :=
    .error "expected a percentage in [0, 100) or a positive u32 key-tile count"
  let malformed : Except String H3VedaBudget :=
    .error "expected a percentage in [0, 100) or a positive integer key-tile count"
  let within (p : F64) : Except String H3VedaBudget :=
    if p.isFinite && F64.le F64.zero p && F64.lt p (F64.ofInt 100) then .ok (.percent p)
    else refused
  match stripPercent value.toList with
  | some percent =>
      match (Text.trim (String.ofList percent)).toList.splitOn '.' with
      | [whole] => if isDigits whole then within (percentage whole []) else malformed
      | [whole, fraction] =>
          if isDigits whole && isDigits fraction then within (percentage whole fraction)
          else malformed
      | _ => malformed
  | none =>
      match (Text.parseDigits value.toList).filter fun n => 0 < n && n < 2 ^ 32 with
      | some n => .ok (.keyTiles n)
      | none => refused

def isSeparator (c : Char) : Bool := Text.isWhiteSpace c || [',', ';', '，', '；', '、'].contains c

def isDash (c : Char) : Bool := ['-', '~', '–', '—'].contains c

/-- The number at the front and what follows it. -/
def frontNumber (chars : List Char) : Except String (Nat × List Char) :=
  match Text.parseDigits (chars.takeWhile Char.isDigit) with
  | none => .error "expected zero-based indices or ranges"
  | some n => if n < 2 ^ 64 then .ok (n, chars.dropWhile Char.isDigit)
      else .error "index exceeds usize"

/-- The end of the range that a number opens; a number alone is its own end. -/
def rangeEnd (first : Nat) (chars : List Char) : Except String (Nat × List Char) :=
  match chars.dropWhile Text.isWhiteSpace with
  | c :: rest => if isDash c then frontNumber (rest.dropWhile Text.isWhiteSpace)
      else .ok (first, chars)
  | [] => .ok (first, chars)

/-- One round of the loop for each unit of fuel; every round takes at least one character. -/
def indicesLoop (domain : Nat) : Nat → List Char → List Nat → Except String (List Nat)
  | _, [], found => .ok found
  | 0, _ :: _, found => .ok found
  | fuel + 1, c :: rest, found => do
      if isSeparator c then indicesLoop domain fuel rest found
      else
        let (first, afterFirst) ← frontNumber (c :: rest)
        let (last, afterLast) ← rangeEnd first afterFirst
        if afterLast.head?.any fun next => !(isSeparator next) then
          .error "expected zero-based indices or ranges"
        else if domain ≤ max first last then
          .error ("zero-based index " ++ toString (max first last) ++ " outside 0.." ++
            toString domain)
        else
          indicesLoop domain fuel afterLast
            (found ++ (List.range (max first last + 1)).drop (min first last))

def indices (text : String) (domain : Nat) : Except String (List Nat) := do
  let found ← indicesLoop domain text.length text.toList []
  .ok ((found.insertionSort (· ≤ ·)).dedup)

def wireFields : List String :=
  ["enabled", "generated", "reference", "fullAttentionLayers", "fullAttentionSteps"]

structure Wire where
  enabled : Bool
  generated : String
  reference : String
  fullAttentionLayers : String
  fullAttentionSteps : String

def Wire.ofValue (value : Json) : Option Wire := do
  let fields ← value.asClosedStruct wireFields
  let enabled ← Json.orDefault Json.asBool false (get fields "enabled")
  let generated ← Json.orDefault Json.asStr "90%" (get fields "generated")
  let reference ← Json.orDefault Json.asStr "90%" (get fields "reference")
  let fullAttentionLayers ← Json.orDefault Json.asStr "" (get fields "fullAttentionLayers")
  let fullAttentionSteps ← Json.orDefault Json.asStr "" (get fields "fullAttentionSteps")
  some { enabled, generated, reference, fullAttentionLayers, fullAttentionSteps }

/-- An error of a field, under its path. -/
def inField {α : Type} (name : String) : Except String α → Except String α
  | .ok a => .ok a
  | .error e => .error ("advanced.veda." ++ name ++ ": " ++ e)

/-- What is refused when a value does not decode is spelled by the decoder. -/
def requestedH3Veda (decodeError : Json → String) (model : String) (advanced : JsonObject)
    (effectiveSteps : Nat) : Except String (Option H3VedaSettings) := do
  match get advanced "veda" with
  | none => .ok none
  | some value =>
      if !(model = "minimax_h3" || model = "minimax_h3_ref") then
        .error "advanced.veda is only supported by MiniMax-H3"
      else if !(1 ≤ effectiveSteps && effectiveSteps ≤ 200) then
        .error "advanced.veda: H3 sampling steps must be in 1..=200"
      else
        match Wire.ofValue value with
        | none => .error ("advanced.veda: " ++ decodeError value)
        | some wire =>
            let generated ← inField "generated" (budget wire.generated)
            let reference ← inField "reference" (budget wire.reference)
            let fullAttentionLayers ← inField "fullAttentionLayers"
              (indices wire.fullAttentionLayers 50)
            let fullAttentionSteps ←
              inField "fullAttentionSteps" (indices wire.fullAttentionSteps effectiveSteps)
            .ok (some ⟨wire.enabled, generated, reference, fullAttentionLayers, fullAttentionSteps⟩)

end SceneWorks.H3Veda
