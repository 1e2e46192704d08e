import SceneWorks.Library.Text

/-!
The eight rewriting passes over a captured line. A pass walks the line from an offset
`search_from`; here it returns the rewritten rest of the line, and the character before
that offset is the only thing it remembers. The lower-cased buffer of the source runs in
parallel to the line, so a search in it is a search up to ASCII case.
-/

namespace SceneWorks.SessionLog

def valueTerminators : List Char := ['&', '"', '\'', ' ', '\t', '<', '>', ',', '}']

def redacted : List Char := "[REDACTED]".toList

def isBlank (c : Char) : Bool := c = ' ' || c = '\t'

/-- What stands before the first occurrence of a lower-case needle, the occurrence as it
is written, and what follows it. -/
def findLowered (needle : List Char) : List Char → Option (List Char × List Char × List Char)
  | [] => none
  | c :: text =>
      if needle.isPrefixOf ((c :: text).map Char.toLower) then
        some ([], (c :: text).take needle.length, (c :: text).drop needle.length)
      else
        (findLowered needle text).map fun (front, found, back) => (c :: front, found, back)

/-- Split off one leading character of a kind. -/
def splitHead (p : Char → Bool) : List Char → List Char × List Char
  | [] => ([], [])
  | c :: text => if p c then ([c], text) else ([], c :: text)

def boundaryBefore (previous : Option Char) : Bool :=
  match previous with
  | none => true
  | some c => !c.isAlphanum && c ≠ '_'

/-- What follows a key up to its value: an optional closing quote, blanks, the delimiter,
blanks, and the value's opening quote. `none` when no delimiter stands there. -/
def keyHeader (text : List Char) : Option (List Char × List Char × List Char) :=
  let (close, text) := splitHead (· = '"') text
  let (gap, text) := text.span isBlank
  match text with
  | [] => none
  | delimiter :: text =>
      if delimiter = '=' ∨ delimiter = ':' then
        let (space, text) := text.span isBlank
        let (quote, text) := splitHead (fun c => c = '"' || c = '\'') text
        some (close ++ gap ++ delimiter :: space ++ quote, quote, text)
      else none

def endsKeyValue (quote : List Char) (c : Char) : Bool :=
  match quote with
  | [] => valueTerminators.contains c
  | q :: _ => c = q

/-- The loop of `redact_key_value` on `output[search_from..]`. -/
def redactKeyValue (key : List Char) : Nat → Option Char → List Char → List Char
  | 0, _, text => text
  | fuel + 1, previous, text =>
      match findLowered key text with
      | none => text
      | some (front, found, back) =>
          let before := if front = [] then previous else front.getLast?
          match if boundaryBefore before then keyHeader back else none with
          | none => front ++ found ++ redactKeyValue key fuel found.getLast? back
          | some (header, quote, rest) =>
              let (value, rest) := rest.span fun c => !endsKeyValue quote c
              if value = [] then
                front ++ found ++ header ++ redactKeyValue key fuel header.getLast? rest
              else
                front ++ found ++ header ++ redacted ++ redactKeyValue key fuel (some ']') rest

/-- The loop of `redact_marker_value` with `VALUE_TERMINATORS`. -/
def redactMarkerValue (marker : List Char) : Nat → List Char → List Char
  | 0, text => text
  | fuel + 1, text =>
      match findLowered marker text with
      | none => text
      | some (front, found, back) =>
          let (value, rest) := back.span fun c => !valueTerminators.contains c
          if value = [] then
            front ++ found ++ redactMarkerValue marker fuel rest
          else
            front ++ found ++ redacted ++ redactMarkerValue marker fuel rest

/-- Blanks and the opening quote of an authorization value. -/
def authorizationHeader (text : List Char) : List Char × List Char × List Char :=
  let (space, text) := text.span isBlank
  let (quote, text) := splitHead (· = '"') text
  (space ++ quote, quote, text)

def endsAuthorization (quote : List Char) (c : Char) : Bool :=
  match quote with
  | [] => c = '"' || c = ',' || c = '}'
  | _ :: _ => c = '"'

def redactAuthorizationHeader : Nat → List Char → List Char
  | 0, text => text
  | fuel + 1, text =>
      match findLowered "authorization:".toList text with
      | none => text
      | some (front, found, back) =>
          let (header, quote, rest) := authorizationHeader back
          let (value, rest) := rest.span fun c => !endsAuthorization quote c
          if value = [] then
            -- The search goes on right after the colon.
            front ++ found ++ redactAuthorizationHeader fuel back
          else
            front ++ found ++ header ++ redacted ++ redactAuthorizationHeader fuel rest

def secretKeys : List String :=
  ["token", "access_token", "api_key", "apikey", "secret", "password"]

def redactSecrets (line : List Char) : List Char :=
  let line := secretKeys.foldl
    (fun line key => redactKeyValue key.toList line.length none line) line
  let line := redactMarkerValue "bearer ".toList line.length line
  redactAuthorizationHeader line.length line

example : redactSecrets "x?token=&next token : real-secret&x=1".toList =
    "x?token=&next token : [REDACTED]&x=1".toList := by decide

end SceneWorks.SessionLog
