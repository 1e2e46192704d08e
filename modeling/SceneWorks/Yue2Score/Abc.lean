import Mathlib.Algebra.Order.Field.Rat
import Mathlib.Data.List.Basic
import SceneWorks.Library.Text

/-!
The vocabulary of the two-voice score dialect: meters, keys, chord symbols, and the tokens of
a measure. Texts are lists of characters, and times are exact fractions of a quarter note.
-/

namespace SceneWorks.Yue2Score

inductive Voice where
  | vocal
  | ins
  deriving DecidableEq

/-- `VOICE_NAMES`. -/
def Voice.name : Voice → List Char
  | .vocal => "Vocal".toList
  | .ins => "Ins".toList

def durations : List Nat := [1, 2, 3, 4, 6, 8, 12, 16, 24, 32, 48]

def maxMeterNumerator : Nat := 64

def chordQualities : List (List Char) :=
  ["", "m", "dim", "aug", "7", "maj7", "m7", "dim7", "m7b5", "sus4", "sus2", "6", "m6", "7sus4",
    "m(maj7)"].map String.toList

def voiceDefinitions : List (List Char) :=
  ["V: Vocal clef=treble name=\"Vocal Melody\" snm=\"Vocal\"",
    "V: Ins clef=treble name=\"Ins Melody\" snm=\"Inst.\""].map String.toList

/-- Where a message points: a group, a voice of it, and a bar of the voice. -/
structure Context where
  group : Nat
  voice : Voice
  bar : Option Nat
  deriving DecidableEq

/-- Notation outside the dialect, with what its message shows. -/
inductive AbcError where
  | incomplete
  | expectedHeader
  | missingMeter
  | unsupportedMeter (text : List Char)
  | unsupportedMeterDenominator (denominator : Nat)
  | unsupportedMeterNumerator (numerator : Nat)
  | expectedUnit
  | unsupportedUnit
  | expectedTempo
  | voiceDefinitions
  | missingKey
  | unsupportedKey (key : List Char)
  | danglingComment
  | expectedVoice (context : Context)
  | duplicateField (context : Context) (field : Char)
  | missingMusicLine (context : Context)
  | musicLineEnd (context : Context)
  | emptyMeasure (context : Context)
  | measureCount (context : Context)
  | tieEntersFullRest (context : Context)
  | unsupportedToken (context : Context) (preview : List Char)
  | afterMeasureEnd (context : Context)
  | unsupportedChord (context : Context) (symbol : List Char)
  | unsupportedDuration (context : Context) (duration : List Char)
  | exceedsMeter (context : Context)
  | mixedOctaveMarks (context : Context)
  | markedRest (context : Context)
  | tieEntersRest (context : Context)
  | tieChangesPitch (context : Context) (old pitch : Int)
  | pitchOutsideRange (context : Context) (pitch : Int)
  | durationMismatch (context : Context) (offset length : ℚ)
  | differentMeasureCounts (group : Nat)
  | unresolvedTie (voice : Voice)
  | chordsOutsideVocal
  | gridsDiffer
  | keysDiffer

def fail (condition : Bool) (error : AbcError) : Except AbcError Unit :=
  if condition then .error error else .ok ()

/-- `Option::ok_or_else`. -/
def required {α : Type} (value : Option α) (error : AbcError) : Except AbcError α :=
  match value with
  | some a => .ok a
  | none => .error error

section Keys

def majorKeys : List (List Char) :=
  ["Cb", "Gb", "Db", "Ab", "Eb", "Bb", "F", "C", "G", "D", "A", "E", "B", "F#",
  "C#"].map String.toList

def minorKeys : List (List Char) :=
  ["Abm", "Ebm", "Bbm", "Fm", "Cm", "Gm", "Dm", "Am", "Em", "Bm", "F#m", "C#m", "G#m", "D#m",
    "A#m"].map String.toList

/-- `natural_semitone` of a note letter. -/
def naturalSemitone : Char → Int
  | 'C' => 0
  | 'D' => 2
  | 'E' => 4
  | 'F' => 5
  | 'G' => 7
  | 'A' => 9
  | _ => 11

def letterIndex : Char → Fin 7
  | 'C' => 0
  | 'D' => 1
  | 'E' => 2
  | 'F' => 3
  | 'G' => 4
  | 'A' => 5
  | _ => 6

/-- The letters that a signature of so many sharps, or flats, alters. -/
def alterations (count : Int) (index : Fin 7) : Int :=
  let order := if 0 < count then "FCGDAEB".toList else "BEADGCF".toList
  if ((order.take count.natAbs).map letterIndex).contains index then
    if 0 < count then 1 else -1
  else 0

def keyAccidentals (key : List Char) : Except AbcError (Fin 7 → Int) := do
  let index ← required ((majorKeys.idxOf? key).or (minorKeys.idxOf? key)) (.unsupportedKey key)
  .ok (alterations ((index : Int) - 7))

end Keys

section Meters

structure Meter where
  numerator : Nat
  denominator : Nat
  deriving DecidableEq

/-- Bar length in quarter notes. -/
def Meter.length (meter : Meter) : ℚ := 4 * meter.numerator / meter.denominator

def positiveDecimal (text : List Char) : Option Nat :=
  if text.head? = some '0' || !text.all Char.isDigit then none
  else (Text.parseDigits text).filter (· < 2 ^ 32)

def isPowerOfTwoUpto1024 (value : Nat) : Bool :=
    (List.range 11).any fun exponent => value = 2 ^ exponent

def meterValue (text : List Char) : Except AbcError Meter := do
  let parsed := (Text.cut (· = '/') text).bind fun (n, d) =>
    (positiveDecimal n).bind fun numerator => (positiveDecimal d).map fun denominator =>
      (numerator, denominator)
  let (numerator, denominator) ← required parsed (.unsupportedMeter text)
  fail (!isPowerOfTwoUpto1024 denominator) (.unsupportedMeterDenominator denominator)
  fail (maxMeterNumerator < numerator) (.unsupportedMeterNumerator numerator)
  .ok { numerator, denominator }

end Meters

section Chords

/-- The pitch name a text starts with is cut off. -/
def pitchName : List Char → Option (List Char)
  | [] => none
  | letter :: rest =>
      if 'A' ≤ letter ∧ letter ≤ 'G' then
        some (["bb", "##", "b", "#"].map String.toList |>.findSome? (Text.after · rest)
          |>.getD rest)
      else none

def isNativeChord (symbol : List Char) : Bool :=
  match pitchName symbol with
  | none => false
  | some rest =>
      match Text.cut (· = '/') rest with
      | none => chordQualities.contains rest
      | some (quality, bass) => chordQualities.contains quality && pitchName bass = some []

end Chords

section Tokens

inductive Accidental where
  | doubleSharp
  | doubleFlat
  | sharp
  | flat
  | natural
  deriving DecidableEq

def Accidental.alteration : Accidental → Int
  | .doubleSharp => 2
  | .doubleFlat => -2
  | .sharp => 1
  | .flat => -1
  | .natural => 0

def Accidental.text : Accidental → List Char
  | .doubleSharp => ['^', '^']
  | .doubleFlat => ['_', '_']
  | .sharp => ['^']
  | .flat => ['_']
  | .natural => ['=']

/-- A note, or a rest when the letter is `z`. -/
structure NoteToken where
  accidental : Option Accidental
  note : Char
  octave : List Char
  duration : List Char
  tie : Bool
  deriving DecidableEq

inductive Token where
  | chord (symbol : List Char)
  | key (key : List Char)
  | note (note : NoteToken)
  deriving DecidableEq

def NoteToken.render (note : NoteToken) : List Char :=
  (note.accidental.map Accidental.text).getD [] ++
    note.note :: (note.octave ++ (note.duration ++ if note.tie then ['-'] else []))

def Token.render : Token → List Char
  | .chord symbol => '"' :: (symbol ++ ['"'])
  | .key name => '[' :: 'K' :: ':' :: (name ++ [']'])
  | .note token => token.render

def isNote (c : Char) : Bool := ('A' ≤ c && c ≤ 'G') || ('a' ≤ c && c ≤ 'g') || c = 'z'

def isOctaveMark (c : Char) : Bool := c = ',' || c = '\''

def splitAccidental : List Char → Option Accidental × List Char
  | '^' :: '^' :: rest => (some .doubleSharp, rest)
  | '_' :: '_' :: rest => (some .doubleFlat, rest)
  | '^' :: rest => (some .sharp, rest)
  | '_' :: rest => (some .flat, rest)
  | '=' :: rest => (some .natural, rest)
  | rest => (none, rest)

def splitTie : List Char → Bool × List Char
  | '-' :: rest => (true, rest)
  | rest => (false, rest)

def lexChord (inner : List Char) : Option (Token × List Char) :=
  match inner.span fun c => c ≠ '"' && c ≠ '\n' with
  | (symbol, '"' :: next) => some (.chord symbol, next)
  | _ => none

def lexKey (inner : List Char) : Option (Token × List Char) :=
  match inner.span fun c => c ≠ ']' && c ≠ '\n' with
  | (name, ']' :: next) => if name = [] then none else some (.key name, next)
  | _ => none

def lexNote (rest : List Char) : Option (Token × List Char) :=
  let (accidental, rest) := splitAccidental rest
  match rest with
  | [] => none
  | note :: rest =>
      if isNote note then
        let (octave, rest) := rest.span isOctaveMark
        let (duration, rest) := rest.span Char.isDigit
        let (tie, rest) := splitTie rest
        some (.note { accidental, note, octave, duration, tie }, rest)
      else none

/-- One token, and what follows it. -/
def lexToken : List Char → Option (Token × List Char)
  | '"' :: inner => lexChord inner
  | '[' :: 'K' :: ':' :: inner => lexKey inner
  | rest => lexNote rest

def tokenUnits (duration : List Char) : Option Nat :=
  if duration = [] then some 1
  else if 9 < duration.length then none
  else (Text.parseDigits duration).filter durations.contains

end Tokens

example :
    lexToken "^c,2-d".toList = some (.note ⟨some .sharp, 'c', [','], ['2'], true⟩, ['d']) := by
  decide

end SceneWorks.Yue2Score
