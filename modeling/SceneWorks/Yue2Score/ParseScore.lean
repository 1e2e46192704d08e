import SceneWorks.Yue2Score.Abc

/-!
The parser of the dialect. A voice is read bar by bar with its meter, its key, its time and
the tie that is still open; a group is a block of each voice over the same bars, and the
groups between two comments are a section.
-/

namespace SceneWorks.Yue2Score

structure Note where
  onset : ℚ
  pitch : Int
  duration : ℚ
  deriving DecidableEq

structure Bar where
  start : ℚ
  length : ℚ
  meter : Meter
  deriving DecidableEq

structure ChordEvent where
  onset : ℚ
  chord : List Char
  deriving DecidableEq

structure KeyEvent where
  onset : ℚ
  key : List Char
  deriving DecidableEq

structure VoiceTrack where
  notes : List Note
  bars : List Bar
  chords : List ChordEvent
  keys : List KeyEvent
  deriving DecidableEq

def VoiceTrack.duration (track : VoiceTrack) : ℚ :=
  match track.bars.getLast? with
  | some bar => bar.start + bar.length
  | none => 0

structure GroupVoiceBlock where
  fields : List (Char × List Char)
  lineIndex : Nat
  line : List Char
  deriving DecidableEq

structure Group where
  comments : List (List Char)
  vocal : GroupVoiceBlock
  ins : GroupVoiceBlock
  firstBar : Nat
  barCount : Nat
  deriving DecidableEq

structure Section where
  label : Option (List Char)
  groupsStart : Nat
  groupsEnd : Nat
  firstBar : Nat
  barCount : Nat
  start : ℚ
  length : ℚ
  inheritedMeter : Meter
  inheritedKey : List Char
  endsWithOpenTie : Bool
  deriving DecidableEq

structure Score where
  text : List Char
  unit : ℚ
  bpm : Nat
  headerMeter : Meter
  headerKey : List Char
  vocal : VoiceTrack
  ins : VoiceTrack
  groups : List Group
  sections : List Section
  deriving DecidableEq

/-- The interpretation of one voice so far; an open tie is a sounding and a written pitch. -/
structure VoiceState where
  meter : Meter
  key : List Char
  time : ℚ
  pending : Option (Int × Int)
  track : VoiceTrack

section ParseBar

/-- The interpretation within a bar: accidentals hold for their letter until its end. -/
structure BarState where
  voice : VoiceState
  offset : ℚ
  accidentals : Fin 7 → Option Int

def addChord (context : Context) (symbol : List Char) (state : BarState) :
    Except AbcError BarState := do
  fail (!isNativeChord symbol) (.unsupportedChord context symbol)
  let event : ChordEvent := { onset := state.voice.time + state.offset, chord := symbol }
  .ok { state with
    voice := { state.voice with
      track := { state.voice.track with chords := state.voice.track.chords ++ [event] } } }

def addKey (key : List Char) (state : BarState) : Except AbcError BarState := do
  let _ ← keyAccidentals key
  let event : KeyEvent := { onset := state.voice.time + state.offset, key := key }
  .ok { state with
    voice := { state.voice with
      key := key
      track := { state.voice.track with keys := state.voice.track.keys ++ [event] } }
    accidentals := fun _ => none }

/-- `note.to_ascii_uppercase()` and the octave marks around middle C. -/
def writtenPitch (note : NoteToken) : Int :=
  60 + naturalSemitone note.note.toUpper + (if note.note.isLower then 12 else 0) +
    12 * ((note.octave.count '\'' : Int) - note.octave.count ',')

/-- The last note lasts longer. -/
def extendLast (notes : List Note) (length : ℚ) : List Note :=
  match notes.getLast? with
  | some last => notes.dropLast ++ [{ last with duration := last.duration + length }]
  | none => notes

def addRest (context : Context) (note : NoteToken) (length : ℚ) (state : BarState) :
    Except AbcError BarState := do
  fail (note.accidental.isSome || !note.octave.isEmpty || note.tie) (.markedRest context)
  fail state.voice.pending.isSome (.tieEntersRest context)
  .ok { state with offset := state.offset + length }

/-- The alteration of a note: its own mark, the one of its letter, or that of the key. -/
def noteAlteration (note : NoteToken) (state : BarState) : Except AbcError Int := do
  let inherited ←
    match state.accidentals (letterIndex note.note.toUpper) with
    | some value => .ok value
    | none =>
        (keyAccidentals state.voice.key).map fun table => table (letterIndex note.note.toUpper)
  .ok ((note.accidental.map Accidental.alteration).getD inherited)

def markLetter (note : NoteToken) (accidentals : Fin 7 → Option Int) (index : Fin 7) : Option Int :=
  match note.accidental with
  | some mark =>
      if index = letterIndex note.note.toUpper then some mark.alteration else accidentals index
  | none => accidentals index

/-- A note without a mark that continues a tie on its written pitch keeps its pitch. -/
def soundingPitch (note : NoteToken) (alteration : Int) (pending : Option (Int × Int)) : Int :=
  match pending with
  | some (old, written) =>
      if note.accidental.isNone && writtenPitch note = written then old
      else writtenPitch note + alteration
  | none => writtenPitch note + alteration

def addPitch (context : Context) (pitch : Int) (length : ℚ) (state : BarState) :
    Except AbcError (List Note) :=
  match state.voice.pending with
  | some (old, _) => do
      fail (pitch ≠ old) (.tieChangesPitch context old pitch)
      .ok (extendLast state.voice.track.notes length)
  | none => do
      fail (pitch < 0 || 127 < pitch) (.pitchOutsideRange context pitch)
      let note : Note :=
        { onset := state.voice.time + state.offset, pitch := pitch, duration := length }
      .ok (state.voice.track.notes ++ [note])

def addNote (context : Context) (note : NoteToken) (length : ℚ) (state : BarState) :
    Except AbcError BarState := do
  let alteration ← noteAlteration note state
  let pitch := soundingPitch note alteration state.voice.pending
  let notes ← addPitch context pitch length state
  .ok
    { voice := { state.voice with
        pending := if note.tie then some (pitch, writtenPitch note) else none
        track := { state.voice.track with notes := notes } }
      offset := state.offset + length
      accidentals := markLetter note state.accidentals }

/-- A token of a bar of the given length. -/
def addToken (context : Context) (unit length : ℚ) (state : BarState) (token : Token) :
    Except AbcError BarState := do
  fail (length ≤ state.offset) (.afterMeasureEnd context)
  match token with
  | .chord symbol => addChord context symbol state
  | .key key => addKey key state
  | .note note =>
      let units ← required (tokenUnits note.duration) (.unsupportedDuration context note.duration)
      let lengthOf : ℚ := units * unit * 4
      fail (length < state.offset + lengthOf) (.exceedsMeter context)
      fail (note.octave.contains ',' && note.octave.contains '\'') (.mixedOctaveMarks context)
      if note.note = 'z' then addRest context note lengthOf state
      else addNote context note lengthOf state

/-- The tokens of a bar, with blanks between them. -/
def readTokens (context : Context) (unit length : ℚ) :
    Nat → List Char → BarState → Except AbcError BarState
  | 0, _, state => .ok state
  | _ + 1, [], state => .ok state
  | fuel + 1, c :: rest, state =>
      if Text.isWhiteSpace c then readTokens context unit length fuel rest state
      else
        match lexToken (c :: rest) with
        | none => .error (.unsupportedToken context ((c :: rest).take 24))
        | some (token, next) => do
            let state ← addToken context unit length state token
            readTokens context unit length fuel next state

def readBody (context : Context) (unit : ℚ) (body : List Char) (voice : VoiceState) :
    Except AbcError BarState :=
  let start : BarState := { voice := voice, offset := 0, accidentals := fun _ => none }
  if body = ['Z'] then do
    fail voice.pending.isSome (.tieEntersFullRest context)
    .ok { start with offset := voice.meter.length }
  else readTokens context unit voice.meter.length body.length body start

def parseBar (context : Context) (unit : ℚ) (body : List Char) (voice : VoiceState) :
    Except AbcError VoiceState := do
  let state ← readBody context unit body voice
  let length := voice.meter.length
  fail (state.offset ≠ length) (.durationMismatch context state.offset length)
  let bar : Bar := { start := voice.time, length := length, meter := voice.meter }
  .ok { state.voice with
    track := { state.voice.track with bars := state.voice.track.bars ++ [bar] }
    time := voice.time + length }

end ParseBar

section Groups

/-- Trimmed by the characters of white space. -/
def trimmed (text : List Char) : List Char :=
  (text.dropWhile Text.isWhiteSpace).rdropWhile Text.isWhiteSpace

/-- A full-measure rest stands for up to four bars. -/
def expandBar (bar : List Char) : List (List Char) :=
  match bar with
  | ['Z', '2'] => List.replicate 2 ['Z']
  | ['Z', '3'] => List.replicate 3 ['Z']
  | ['Z', '4'] => List.replicate 4 ['Z']
  | _ => [bar]

def readSegments (context : Context) :
    Nat → List (List Char) → Except AbcError (List (List Char × Nat))
  | _, [] => .ok []
  | index, segment :: segments => do
      fail (trimmed segment).isEmpty (.emptyMeasure context)
      let bars ← readSegments context (index + 1) segments
      .ok ((expandBar (trimmed segment)).map (fun bar => (bar, index)) ++ bars)

/-- The bars of a music line, each with the segment that it comes from. -/
def splitMusicLine (context : Context) (line : List Char) :
    Except AbcError (List (List Char × Nat)) := do
  fail (line.getLast? ≠ some '|') (.musicLineEnd context)
  readSegments context 0 (line.dropLast.splitOn '|')

def barContext (context : Context) (voice : VoiceState) : Context :=
  { context with bar := some (voice.track.bars.length + 1) }

def parseBars (context : Context) (unit : ℚ) :
    List (List Char × Nat) → VoiceState → Except AbcError VoiceState
  | [], voice => .ok voice
  | bar :: bars, voice => do
      let voice ← parseBar (barContext context voice) unit bar.1 voice
      parseBars context unit bars voice

/-- A field line of a block: its letter and its value. -/
def fieldOf : List Char → Option (Char × List Char)
  | 'M' :: ':' :: value => some ('M', value)
  | 'K' :: ':' :: value => some ('K', value)
  | _ => none

def applyField (field : Char) (value : List Char) (voice : VoiceState) :
    Except AbcError VoiceState :=
  if field = 'M' then do
    let meter ← meterValue value
    .ok { voice with meter := meter }
  else do
    let _ ← keyAccidentals value
    let event : KeyEvent := { onset := voice.time, key := value }
    .ok { voice with
      key := value
      track := { voice.track with keys := voice.track.keys ++ [event] } }

/-- The fields of a block, and the lines after them. -/
def readFields (context : Context) (voice : VoiceState) (fields : List (Char × List Char)) :
    List (List Char) → Except AbcError (VoiceState × List (Char × List Char) × List (List Char))
  | [] => .ok (voice, fields, [])
  | line :: lines =>
      match fieldOf line with
      | none => .ok (voice, fields, line :: lines)
      | some (field, value) => do
          fail (fields.any fun existing => existing.1 = field) (.duplicateField context field)
          let voice ← applyField field value voice
          readFields context voice (fields ++ [(field, value)]) lines

def voiceLine (voice : Voice) : List Char := "V: ".toList ++ voice.name

/-- A voice with the block that was read for it and the number of its bars. -/
structure ReadBlock where
  voice : VoiceState
  block : GroupVoiceBlock
  bars : Nat

/-- The block of a voice, and the lines after it. The index is that of the first line. -/
def readBlock (context : Context) (unit : ℚ) (index : Nat) (voice : VoiceState) :
    List (List Char) → Except AbcError (ReadBlock × List (List Char))
  | [] => .error (.expectedVoice context)
  | head :: lines => do
      fail (head ≠ voiceLine context.voice) (.expectedVoice context)
      let (voice, fields, rest) ← readFields context voice [] lines
      match rest with
      | [] => .error (.missingMusicLine context)
      | line :: rest => do
          let bars ← splitMusicLine context line
          fail (bars.length < 1 || 4 < bars.length) (.measureCount context)
          let voice ← parseBars context unit bars voice
          let block : GroupVoiceBlock :=
            { fields := fields, lineIndex := index + 1 + fields.length, line := line }
          .ok ({ voice := voice, block := block, bars := bars.length }, rest)

structure ParseState where
  vocal : VoiceState
  ins : VoiceState
  groups : List Group
  sections : List Section
  /-- The number of lines that are read. -/
  cursor : Nat

def isComment (line : List Char) : Bool := ['%', ' '].isPrefixOf line

def sectionLabel (comments : List (List Char)) : Option (List Char) :=
  if comments = [] then none
  else some ([' ', '/', ' '].intercalate (comments.map fun line => trimmed (line.drop 2)))

/-- A section that begins with the next group. -/
def newSection (comments : List (List Char)) (state : ParseState) : Section :=
  { label := sectionLabel comments
    groupsStart := state.groups.length
    groupsEnd := state.groups.length
    firstBar := state.vocal.track.bars.length
    barCount := 0
    start := state.vocal.time
    length := 0
    inheritedMeter := state.vocal.meter
    inheritedKey := state.vocal.key
    endsWithOpenTie := false }

/-- The sections with the one that the next group belongs to at the end. -/
def openSections (comments : List (List Char)) (state : ParseState) : List Section :=
  if !comments.isEmpty || state.sections.isEmpty then state.sections ++ [newSection comments state]
  else state.sections

/-- The last section takes in a group. -/
def growLast (sections : List Section) (groups bars : Nat) (time : ℚ) (openTie : Bool) :
    List Section :=
  match sections.getLast? with
  | some last =>
      sections.dropLast ++
        [{ last with
            groupsEnd := groups
            barCount := last.barCount + bars
            length := time - last.start
            endsWithOpenTie := openTie }]
  | none => sections

def parseGroup (unit : ℚ) (state : ParseState) (lines : List (List Char)) :
    Except AbcError (ParseState × List (List Char)) := do
  let comments := lines.takeWhile isComment
  let lines := lines.dropWhile isComment
  fail lines.isEmpty .danglingComment
  let number := state.groups.length + 1
  let index := state.cursor + comments.length
  let (vocal, lines) ← readBlock ⟨number, .vocal, none⟩ unit index state.vocal lines
  let (ins, lines) ← readBlock ⟨number, .ins, none⟩ unit (vocal.block.lineIndex + 1) state.ins lines
  fail (vocal.bars ≠ ins.bars) (.differentMeasureCounts number)
  let group : Group :=
    { comments := comments
      vocal := vocal.block
      ins := ins.block
      firstBar := state.vocal.track.bars.length
      barCount := vocal.bars }
  let openTie := vocal.voice.pending.isSome || ins.voice.pending.isSome
  .ok
    ({ vocal := vocal.voice
       ins := ins.voice
       groups := state.groups ++ [group]
       sections := growLast (openSections comments state) (state.groups.length + 1) vocal.bars
         vocal.voice.time openTie
       cursor := ins.block.lineIndex + 1 }, lines)

def parseGroups (unit : ℚ) : Nat → ParseState → List (List Char) → Except AbcError ParseState
  | 0, state, _ => .ok state
  | _ + 1, state, [] => .ok state
  | fuel + 1, state, line :: lines => do
      let (state, rest) ← parseGroup unit state (line :: lines)
      parseGroups unit fuel state rest

end Groups

section Score

/-- What the first eight lines say. -/
structure Header where
  meter : Meter
  unit : ℚ
  bpm : Nat
  key : List Char

def parseHeader (lines : List (List Char)) : Except AbcError Header := do
  fail (lines.take 2 ≠ ["X:1", "T:"].map String.toList) .expectedHeader
  let meterText ← required ((lines[2]?).bind (Text.after "M:".toList)) .missingMeter
  let meter ← meterValue meterText
  let denominator ← required
    (((lines[3]?).bind (Text.after "L:1/".toList)).bind positiveDecimal) .expectedUnit
  fail (!isPowerOfTwoUpto1024 denominator) .unsupportedUnit
  let bpm ← required (((lines[4]?).bind (Text.after "Q:1/4=".toList)).bind positiveDecimal)
    .expectedTempo
  fail ((lines.drop 5).take 2 ≠ Yue2Score.voiceDefinitions) .voiceDefinitions
  let key ← required ((lines[7]?).bind (Text.after "K:".toList)) .missingKey
  let _ ← keyAccidentals key
  .ok { meter := meter, unit := 1 / denominator, bpm := bpm, key := key }

def newVoice (header : Header) : VoiceState :=
  { meter := header.meter
    key := header.key
    time := 0
    pending := none
    track := { notes := [], bars := [], chords := [], keys := [⟨0, header.key⟩] } }

def newParse (header : Header) : ParseState :=
  { vocal := newVoice header, ins := newVoice header, groups := [], sections := [], cursor := 8 }

def finishScore (text : List Char) (header : Header) (state : ParseState) :
    Except AbcError Score := do
  fail state.vocal.pending.isSome (.unresolvedTie .vocal)
  fail state.ins.pending.isSome (.unresolvedTie .ins)
  fail (!state.ins.track.chords.isEmpty) .chordsOutsideVocal
  fail (state.vocal.track.bars ≠ state.ins.track.bars) .gridsDiffer
  fail (state.vocal.track.keys ≠ state.ins.track.keys) .keysDiffer
  .ok
    { text := text
      unit := header.unit
      bpm := header.bpm
      headerMeter := header.meter
      headerKey := header.key
      vocal := state.vocal.track
      ins := state.ins.track
      groups := state.groups
      sections := state.sections }

def parseScore (text : List Char) : Except AbcError Score := do
  let lines := Text.lines text
  fail (lines.length < 12) .incomplete
  let header ← parseHeader lines
  let state ← parseGroups header.unit lines.length (newParse header) (lines.drop 8)
  finishScore text header state

end Score

end SceneWorks.Yue2Score
