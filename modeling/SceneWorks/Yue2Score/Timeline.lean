import Mathlib.Algebra.BigOperators.Group.List.Basic
import Mathlib.Tactic.Linarith
import Mathlib.Tactic.Positivity
import Mathlib.Tactic.Ring
import SceneWorks.Library.Covering
import SceneWorks.Library.Fallible
import SceneWorks.Yue2Score.ParseScore

/-!
What the parser accepts is a consistent timeline. The bars of a voice cover its time, nothing
sounds outside of it, and the sections and the groups cover the bars.
-/

namespace SceneWorks.Yue2Score

open Covering (Covers)

theorem fail_eq_ok {condition : Bool} {error : AbcError} {result : Unit} :
    fail condition error = .ok result ↔ condition = false := by
  cases condition with
  | true => exact ⟨fun h => (nomatch h), fun h => (nomatch h)⟩
  | false => exact ⟨fun _ => rfl, fun _ => rfl⟩

theorem required_eq_ok {α : Type} {value : Option α} {error : AbcError} {a : α} :
    required value error = .ok a ↔ value = some a := by
  cases value with
  | none => exact ⟨fun h => (nomatch h), fun h => (nomatch h)⟩
  | some b => exact ⟨fun h => congrArg some (Except.ok.inj h), fun h =>
      congrArg _ (Option.some.inj h)⟩

section Sound

def Note.finish (note : Note) : ℚ := note.onset + note.duration

def Bar.finish (bar : Bar) : ℚ := bar.start + bar.length

/-- The events of a voice up to a time, and the open tie. -/
structure Heard (track : VoiceTrack) (openTie : Bool) (now : ℚ) : Prop where
  order : track.notes.Pairwise fun a b => a.finish ≤ b.onset
  note : ∀ note ∈ track.notes, 0 ≤ note.onset ∧ 0 < note.duration ∧ note.finish ≤ now ∧
    0 ≤ note.pitch ∧ note.pitch ≤ 127
  tie : openTie = true → ∃ last, track.notes.getLast? = some last ∧ last.finish = now
  chordOrder : track.chords.Pairwise fun a b => a.onset ≤ b.onset
  chord : ∀ chord ∈ track.chords, 0 ≤ chord.onset ∧ chord.onset ≤ now
  keyOrder : track.keys.Pairwise fun a b => a.onset ≤ b.onset
  key : ∀ key ∈ track.keys, 0 ≤ key.onset ∧ key.onset ≤ now

/-- Chords and keys before a time. -/
structure Before (track : VoiceTrack) (limit : ℚ) : Prop where
  chord : ∀ chord ∈ track.chords, chord.onset < limit
  key : ∀ key ∈ track.keys, key.onset < limit

theorem pairwise_concat {α : Type} {R : α → α → Prop} {items : List α} {a : α}
    (h : items.Pairwise R) (ha : ∀ b ∈ items, R b a) : (items ++ [a]).Pairwise R := by
  refine List.pairwise_append.mpr ⟨h, List.pairwise_singleton R a, fun b hb c hc => ?_⟩
  rw [List.mem_singleton.mp hc]
  exact ha b hb

theorem forall_mem_concat {α : Type} {p : α → Prop} {items : List α} {a : α}
    (h : ∀ b ∈ items, p b) (ha : p a) : ∀ b ∈ items ++ [a], p b := by
  intro b hb
  cases List.mem_append.mp hb with
  | inl hmem => exact h b hmem
  | inr hlast => exact List.mem_singleton.mp hlast ▸ ha

end Sound

section Bars

variable {context : Context} {unit length : ℚ} {state state' : BarState}

/-- The interpretation within a bar of the given length. -/
structure BarInv (length : ℚ) (state : BarState) : Prop where
  heard : Heard state.voice.track state.voice.pending.isSome (state.voice.time + state.offset)
  before : Before state.voice.track (state.voice.time + length)
  time : 0 ≤ state.voice.time
  offset : 0 ≤ state.offset

/-- What a token leaves alone. -/
structure SameGrid (voice voice' : VoiceState) : Prop where
  time : voice'.time = voice.time
  meter : voice'.meter = voice.meter
  bars : voice'.track.bars = voice.track.bars

theorem SameGrid.trans {a b c : VoiceState} (h : SameGrid a b) (h' : SameGrid b c) : SameGrid a c :=
  ⟨h'.time.trans h.time, h'.meter.trans h.meter, h'.bars.trans h.bars⟩

theorem addChord_inv {symbol : List Char} (h : BarInv length state) (hopen : state.offset < length)
    (hadd : addChord context symbol state = .ok state') :
    BarInv length state' ∧ SameGrid state.voice state'.voice := by
  obtain ⟨_, -, hadd⟩ := Fallible.bind_eq_ok.mp hadd
  obtain rfl := Except.ok.inj hadd
  have hnow := add_nonneg h.time h.offset
  refine ⟨⟨?_, ?_, h.time, h.offset⟩, rfl, rfl, rfl⟩
  · exact
      { order := h.heard.order
        note := h.heard.note
        tie := h.heard.tie
        chordOrder :=
          pairwise_concat h.heard.chordOrder fun chord hchord => (h.heard.chord chord hchord).2
        chord := forall_mem_concat h.heard.chord ⟨hnow, le_rfl⟩
        keyOrder := h.heard.keyOrder
        key := h.heard.key }
  · exact
      { chord := forall_mem_concat h.before.chord (by dsimp only; linarith)
        key := h.before.key }

theorem addKey_inv {key : List Char} (h : BarInv length state) (hopen : state.offset < length)
    (hadd : addKey key state = .ok state') :
    BarInv length state' ∧ SameGrid state.voice state'.voice := by
  obtain ⟨_, -, hadd⟩ := Fallible.bind_eq_ok.mp hadd
  obtain rfl := Except.ok.inj hadd
  have hnow := add_nonneg h.time h.offset
  refine ⟨⟨?_, ?_, h.time, h.offset⟩, rfl, rfl, rfl⟩
  · exact
      { order := h.heard.order
        note := h.heard.note
        tie := h.heard.tie
        chordOrder := h.heard.chordOrder
        chord := h.heard.chord
        keyOrder := pairwise_concat h.heard.keyOrder fun key hkey => (h.heard.key key hkey).2
        key := forall_mem_concat h.heard.key ⟨hnow, le_rfl⟩ }
  · exact
      { chord := h.before.chord
        key := forall_mem_concat h.before.key (by dsimp only; linarith) }

/-- Time passes and nothing else. -/
theorem Heard.later {track : VoiceTrack} {openTie : Bool} {now later : ℚ}
    (h : Heard track openTie now) (hle : now ≤ later) : Heard track false later where
  order := h.order
  note note hnote := by
    obtain ⟨honset, hduration, hfinish, hpitch⟩ := h.note note hnote
    exact ⟨honset, hduration, hfinish.trans hle, hpitch⟩
  tie := fun htie => (nomatch htie)
  chordOrder := h.chordOrder
  chord chord hchord := ⟨(h.chord chord hchord).1, (h.chord chord hchord).2.trans hle⟩
  keyOrder := h.keyOrder
  key key hkey := ⟨(h.key key hkey).1, (h.key key hkey).2.trans hle⟩

theorem addRest_inv {note : NoteToken} {lengthOf : ℚ} (h : BarInv length state)
    (hpos : 0 < lengthOf) (hadd : addRest context note lengthOf state = .ok state') :
    BarInv length state' ∧ SameGrid state.voice state'.voice := by
  obtain ⟨_, -, hadd⟩ := Fallible.bind_eq_ok.mp hadd
  obtain ⟨_, hpending, hadd⟩ := Fallible.bind_eq_ok.mp hadd
  obtain rfl := Except.ok.inj hadd
  have hnone : state.voice.pending.isSome = false := fail_eq_ok.mp hpending
  refine ⟨⟨?_, h.before, h.time, add_nonneg h.offset hpos.le⟩, rfl, rfl, rfl⟩
  dsimp only
  rw [hnone]
  exact h.heard.later (by linarith)

/-- The notes after one more: the last one is longer, or a new one follows it. -/
theorem addPitch_inv {pitch : Int} {lengthOf : ℚ} {notes : List Note} (h : BarInv length state)
    (hpos : 0 < lengthOf) (hadd : addPitch context pitch lengthOf state = .ok notes) :
    (notes.Pairwise fun a b => a.finish ≤ b.onset) ∧
      (∀ note ∈ notes, 0 ≤ note.onset ∧ 0 < note.duration ∧
        note.finish ≤ state.voice.time + (state.offset + lengthOf) ∧ 0 ≤ note.pitch ∧
        note.pitch ≤ 127) ∧
      ∃ last, notes.getLast? = some last ∧
        last.finish = state.voice.time + (state.offset + lengthOf) := by
  have hnow := add_nonneg h.time h.offset
  have hlater : ∀ note ∈ state.voice.track.notes, 0 ≤ note.onset ∧ 0 < note.duration ∧
      note.finish ≤ state.voice.time + (state.offset + lengthOf) ∧ 0 ≤ note.pitch ∧
        note.pitch ≤ 127 := by
    intro note hnote
    obtain ⟨honset, hduration, hfinish, hpitch⟩ := h.heard.note note hnote
    exact ⟨honset, hduration, by linarith, hpitch⟩
  unfold addPitch at hadd
  split at hadd
  · next old written hpending =>
      obtain ⟨_, -, hadd⟩ := Fallible.bind_eq_ok.mp hadd
      obtain rfl := Except.ok.inj hadd
      obtain ⟨last, hlast, hfinish⟩ := h.heard.tie (by rw [hpending]; rfl)
      obtain ⟨front, hfront⟩ := List.getLast?_eq_some_iff.mp hlast
      have hextended : extendLast state.voice.track.notes lengthOf =
          front ++ [{ last with duration := last.duration + lengthOf }] := by
        rw [extendLast, hlast, hfront, List.dropLast_concat]
      have horder := h.heard.order
      rw [hfront] at horder hlater
      obtain ⟨horder, -, hcross⟩ := List.pairwise_append.mp horder
      obtain ⟨honset, hduration, -, hpitch⟩ := hlater last (by simp)
      have hend : ({ last with duration := last.duration + lengthOf } : Note).finish =
          state.voice.time + (state.offset + lengthOf) := by
        unfold Note.finish at hfinish ⊢
        dsimp only
        linarith
      rw [hextended]
      refine ⟨pairwise_concat horder fun note hnote => hcross note hnote last (by simp), ?_, ?_⟩
      · refine forall_mem_concat (fun note hnote => hlater note (List.mem_append_left _ hnote)) ?_
        exact ⟨honset, add_pos hduration hpos, hend.le, hpitch⟩
      · exact ⟨_, List.getLast?_concat, hend⟩
  · obtain ⟨_, hrange, hadd⟩ := Fallible.bind_eq_ok.mp hadd
    obtain rfl := Except.ok.inj hadd
    have hpitch := fail_eq_ok.mp hrange
    rw [Bool.or_eq_false_iff, decide_eq_false_iff_not, decide_eq_false_iff_not] at hpitch
    have hend : (Note.mk (state.voice.time + state.offset) pitch lengthOf).finish =
        state.voice.time + (state.offset + lengthOf) := add_assoc _ _ _
    refine ⟨pairwise_concat h.heard.order fun note hnote => (h.heard.note note hnote).2.2.1, ?_, ?_⟩
    · refine forall_mem_concat hlater ⟨hnow, hpos, hend.le, ?_, ?_⟩
      · exact not_lt.mp hpitch.1
      · exact not_lt.mp hpitch.2
    · exact ⟨_, List.getLast?_concat, hend⟩

theorem addNote_inv {note : NoteToken} {lengthOf : ℚ} (h : BarInv length state)
    (hpos : 0 < lengthOf) (hadd : addNote context note lengthOf state = .ok state') :
    BarInv length state' ∧ SameGrid state.voice state'.voice := by
  obtain ⟨alteration, -, hadd⟩ := Fallible.bind_eq_ok.mp hadd
  obtain ⟨notes, hnotes, hadd⟩ := Fallible.bind_eq_ok.mp hadd
  obtain rfl := Except.ok.inj hadd
  obtain ⟨horder, hnote, htie⟩ := addPitch_inv h hpos hnotes
  have hlater := h.heard.later (by linarith :
    state.voice.time + state.offset ≤ state.voice.time + (state.offset + lengthOf))
  refine ⟨⟨?_, ⟨h.before.chord, h.before.key⟩, h.time, add_nonneg h.offset hpos.le⟩, rfl, rfl, rfl⟩
  exact
    { order := horder
      note := hnote
      tie := fun _ => htie
      chordOrder := hlater.chordOrder
      chord := hlater.chord
      keyOrder := hlater.keyOrder
      key := hlater.key }

theorem tokenUnits_pos {duration : List Char} {units : Nat} (h : tokenUnits duration = some units) :
    0 < units := by
  have hall : ∀ n ∈ durations, 0 < n := by decide
  unfold tokenUnits at h
  split at h
  · obtain rfl := Option.some.inj h
    decide
  · split at h
    · cases h
    · have hmem := (Option.filter_eq_some_iff.mp h).2
      exact hall units (List.contains_iff_mem.mp hmem)

/-- One token keeps the invariant of the bar. -/
theorem addToken_inv {token : Token} (hunit : 0 < unit) (h : BarInv length state)
    (hadd : addToken context unit length state token = .ok state') :
    BarInv length state' ∧ SameGrid state.voice state'.voice := by
  obtain ⟨_, hopen, hadd⟩ := Fallible.bind_eq_ok.mp hadd
  have hopen' : state.offset < length := by
    have hfalse := fail_eq_ok.mp hopen
    rw [decide_eq_false_iff_not] at hfalse
    exact not_le.mp hfalse
  cases token with
  | chord symbol => exact addChord_inv h hopen' hadd
  | key name => exact addKey_inv h hopen' hadd
  | note note =>
      obtain ⟨units, hunits, hadd⟩ := Fallible.bind_eq_ok.mp hadd
      have hcount : (0 : ℚ) < units := by
        exact_mod_cast tokenUnits_pos (required_eq_ok.mp hunits)
      have hpos : (0 : ℚ) < units * unit * 4 := by positivity
      obtain ⟨_, -, hadd⟩ := Fallible.bind_eq_ok.mp hadd
      obtain ⟨_, -, hadd⟩ := Fallible.bind_eq_ok.mp hadd
      split at hadd
      · exact addRest_inv h hpos hadd
      · exact addNote_inv h hpos hadd

/-- The tokens of a bar. -/
theorem readTokens_inv {fuel : Nat} {text : List Char} (hunit : 0 < unit) (h : BarInv length state)
    (hread : readTokens context unit length fuel text state = .ok state') :
    BarInv length state' ∧ SameGrid state.voice state'.voice := by
  induction fuel generalizing text state with
  | zero =>
      obtain rfl := Except.ok.inj hread
      exact ⟨h, rfl, rfl, rfl⟩
  | succ fuel ih =>
      cases text with
      | nil =>
          obtain rfl := Except.ok.inj hread
          exact ⟨h, rfl, rfl, rfl⟩
      | cons c rest =>
          unfold readTokens at hread
          split at hread
          · exact ih h hread
          · split at hread
            · cases hread
            · obtain ⟨next, hadd, hread⟩ := Fallible.bind_eq_ok.mp hread
              obtain ⟨hnext, hsame⟩ := addToken_inv hunit h hadd
              obtain ⟨hfinal, hrest⟩ := ih hnext hread
              exact ⟨hfinal, hsame.trans hrest⟩

end Bars

section Voices

variable {context : Context} {unit : ℚ} {voice voice' : VoiceState}

/-- A voice between two bars. -/
structure VoiceInv (voice : VoiceState) : Prop where
  bars : Covers Bar.start Bar.finish 0 voice.track.bars voice.time
  lengths : ∀ bar ∈ voice.track.bars, bar.length = bar.meter.length
  heard : Heard voice.track voice.pending.isSome voice.time
  chords : ∀ chord ∈ voice.track.chords, chord.onset < voice.time
  meter : 0 < voice.meter.length

theorem VoiceInv.time_nonneg (h : VoiceInv voice) : 0 ≤ voice.time := h.bars.le

/-- What a bar adds to a voice. -/
structure OneBar (voice voice' : VoiceState) : Prop where
  inv : VoiceInv voice'
  before : Before voice'.track voice'.time
  later : voice.time < voice'.time
  bars : ∃ bar, voice'.track.bars = voice.track.bars ++ [bar]

theorem readBody_inv {body : List Char} {state : BarState} (hunit : 0 < unit) (h : VoiceInv voice)
    (hread : readBody context unit body voice = .ok state) :
    BarInv voice.meter.length state ∧ SameGrid voice state.voice := by
  have hstart : BarInv voice.meter.length
      { voice := voice, offset := 0, accidentals := fun _ => none } :=
    { heard := by
        dsimp only
        rw [add_zero]
        exact h.heard
      before :=
        { chord := fun chord hchord => (h.chords chord hchord).trans (by linarith [h.meter])
          key := fun key hkey => by
            have hle := (h.heard.key key hkey).2
            have hmeter := h.meter
            dsimp only
            linarith }
      time := h.time_nonneg
      offset := le_rfl }
  unfold readBody at hread
  dsimp only at hread
  split at hread
  · obtain ⟨_, hpending, hread⟩ := Fallible.bind_eq_ok.mp hread
    obtain rfl := Except.ok.inj hread
    have hnone : voice.pending.isSome = false := fail_eq_ok.mp hpending
    refine ⟨⟨?_, hstart.before, h.time_nonneg, h.meter.le⟩, rfl, rfl, rfl⟩
    dsimp only
    rw [hnone]
    exact h.heard.later (by linarith [h.meter])
  · exact readTokens_inv hunit hstart hread

/-- One bar. -/
theorem parseBar_inv {body : List Char} (hunit : 0 < unit) (h : VoiceInv voice)
    (hparse : parseBar context unit body voice = .ok voice') : OneBar voice voice' := by
  obtain ⟨state, hread, hparse⟩ := Fallible.bind_eq_ok.mp hparse
  obtain ⟨_, hoffset, hparse⟩ := Fallible.bind_eq_ok.mp hparse
  obtain rfl := Except.ok.inj hparse
  obtain ⟨hbar, hsame⟩ := readBody_inv hunit h hread
  have hfull : state.offset = voice.meter.length := by
    have hfalse := fail_eq_ok.mp hoffset
    rw [decide_eq_false_iff_not, not_not] at hfalse
    exact hfalse
  have hmeter := h.meter
  have hheard := hbar.heard
  have hbefore := hbar.before
  rw [hfull, hsame.time] at hheard
  rw [hsame.time] at hbefore
  have hcover : Covers Bar.start Bar.finish 0
      (state.voice.track.bars ++ [⟨voice.time, voice.meter.length, voice.meter⟩])
      (voice.time + voice.meter.length) := by
    refine Covering.covers_concat.mpr ⟨?_, ?_, rfl⟩
    · rw [hsame.bars]
      exact h.bars
    · change voice.time < voice.time + voice.meter.length
      linarith
  refine ⟨⟨hcover, ?_, ?_, hbefore.chord, ?_⟩, ⟨hbefore.chord, hbefore.key⟩, ?_, ?_⟩
  · refine forall_mem_concat ?_ rfl
    rw [hsame.bars]
    exact h.lengths
  · exact
      { order := hheard.order
        note := hheard.note
        tie := hheard.tie
        chordOrder := hheard.chordOrder
        chord := hheard.chord
        keyOrder := hheard.keyOrder
        key := hheard.key }
  · dsimp only
    rw [hsame.meter]
    exact hmeter
  · change voice.time < voice.time + voice.meter.length
    linarith
  · exact ⟨_, by rw [hsame.bars]⟩

/-- What a row of bars adds to a voice. -/
structure ManyBars (count : Nat) (voice voice' : VoiceState) : Prop where
  inv : VoiceInv voice'
  bars : ∃ more, more.length = count ∧ voice'.track.bars = voice.track.bars ++ more ∧
    Covers Bar.start Bar.finish voice.time more voice'.time
  before : 0 < count → Before voice'.track voice'.time

theorem parseBars_inv {bars : List (List Char × Nat)} (hunit : 0 < unit) (h : VoiceInv voice)
    (hparse : parseBars context unit bars voice = .ok voice') :
    ManyBars bars.length voice voice' := by
  induction bars generalizing voice with
  | nil =>
      obtain rfl := Except.ok.inj hparse
      exact ⟨h, ⟨[], rfl, (List.append_nil _).symm, rfl⟩, fun hpos => absurd hpos (by decide)⟩
  | cons bar bars ih =>
      obtain ⟨next, hbar, hparse⟩ := Fallible.bind_eq_ok.mp hparse
      have hone := parseBar_inv hunit h hbar
      obtain ⟨first, hfirst⟩ := hone.bars
      have hrest := ih hone.inv hparse
      obtain ⟨more, hlength, hmore, hcover⟩ := hrest.bars
      obtain ⟨-, hlt, hfinish⟩ := Covering.covers_concat.mp (hfirst ▸ hone.inv.bars)
      have hfront := Covering.covers_concat.mp (hfirst ▸ hone.inv.bars)
      have hstart : first.start = voice.time := by
        have hleft := h.bars.finish_getLast
        have hright := hfront.1.finish_getLast
        exact hright.symm.trans hleft
      refine ⟨hrest.inv, ⟨first :: more, ?_, ?_, ?_⟩, fun _ => ?_⟩
      · rw [List.length_cons, List.length_cons, hlength]
      · rw [hmore, hfirst, List.append_assoc]
        rfl
      · exact ⟨hstart, hlt, hfinish.symm ▸ hcover⟩
      · cases bars with
        | nil =>
            obtain rfl := Except.ok.inj hparse
            exact hone.before
        | cons bar bars => exact hrest.before (Nat.succ_pos _)

end Voices

section Meters

theorem foldlM_digits_pos {digits : List Char} {acc n : Nat} (hacc : 0 < acc)
    (h : digits.foldlM (fun acc c => (Text.digitValue c).map fun d => acc * 10 + d) acc = some n) :
    0 < n := by
  induction digits generalizing acc with
  | nil =>
      obtain rfl := Option.some.inj h
      exact hacc
  | cons c digits ih =>
      rw [List.foldlM_cons] at h
      obtain ⟨next, hnext, h⟩ := Option.bind_eq_some_iff.mp h
      obtain ⟨d, -, rfl⟩ := Option.map_eq_some_iff.mp hnext
      exact ih (by omega) h

theorem positiveDecimal_pos {text : List Char} {n : Nat} (h : positiveDecimal text = some n) :
    0 < n := by
  unfold positiveDecimal at h
  split at h
  · cases h
  · next hdigits =>
      have hparse := (Option.filter_eq_some_iff.mp h).1
      cases text with
      | nil => cases hparse
      | cons c text =>
          rw [Text.parseDigits, List.foldlM_cons] at hparse
          · obtain ⟨next, hnext, hparse⟩ := Option.bind_eq_some_iff.mp hparse
            obtain ⟨d, hd, rfl⟩ := Option.map_eq_some_iff.mp hnext
            refine foldlM_digits_pos ?_ hparse
            unfold Text.digitValue at hd
            split at hd
            · next hrange =>
                obtain rfl := Option.some.inj hd
                have hlow : '0'.toNat ≤ c.toNat := hrange.1
                have hne : c.toNat ≠ '0'.toNat := fun heq =>
                  hdigits (by rw [Char.toNat_inj.mp heq]; rfl)
                omega
            · cases hd
          · exact List.cons_ne_nil c text

theorem power_pos {value : Nat} (h : isPowerOfTwoUpto1024 value = true) : 0 < value := by
  obtain ⟨exponent, -, hvalue⟩ := List.any_eq_true.mp h
  rw [of_decide_eq_true hvalue]
  exact Nat.two_pow_pos exponent

theorem meterValue_length_pos {text : List Char} {meter : Meter} (h : meterValue text = .ok meter) :
    0 < meter.length := by
  obtain ⟨⟨numerator, denominator⟩, hparsed, h⟩ := Fallible.bind_eq_ok.mp h
  obtain ⟨_, hpower, h⟩ := Fallible.bind_eq_ok.mp h
  obtain ⟨_, -, h⟩ := Fallible.bind_eq_ok.mp h
  obtain rfl := Except.ok.inj h
  obtain ⟨⟨n, d⟩, -, hparsed⟩ := Option.bind_eq_some_iff.mp (required_eq_ok.mp hparsed)
  obtain ⟨top, hnumerator, hparsed⟩ := Option.bind_eq_some_iff.mp hparsed
  obtain ⟨bottom, -, hpair⟩ := Option.map_eq_some_iff.mp hparsed
  obtain ⟨rfl, -⟩ := Prod.mk.inj hpair
  have htop : (0 : ℚ) < top := by exact_mod_cast positiveDecimal_pos hnumerator
  have hbottom : (0 : ℚ) < denominator := by
    exact_mod_cast power_pos (by simpa using fail_eq_ok.mp hpower)
  unfold Meter.length
  positivity

end Meters

section Blocks

variable {context : Context} {unit : ℚ} {voice voice' : VoiceState} {lines rest : List (List Char)}

theorem applyField_inv {field : Char} {value : List Char} (h : VoiceInv voice)
    (happly : applyField field value voice = .ok voice') :
    VoiceInv voice' ∧ voice'.track.bars = voice.track.bars ∧ voice'.time = voice.time := by
  unfold applyField at happly
  split at happly
  · obtain ⟨meter, hmeter, happly⟩ := Fallible.bind_eq_ok.mp happly
    obtain rfl := Except.ok.inj happly
    exact ⟨⟨h.bars, h.lengths, h.heard, h.chords, meterValue_length_pos hmeter⟩, rfl, rfl⟩
  · obtain ⟨_, -, happly⟩ := Fallible.bind_eq_ok.mp happly
    obtain rfl := Except.ok.inj happly
    refine ⟨⟨h.bars, h.lengths, ?_, h.chords, h.meter⟩, rfl, rfl⟩
    exact
      { order := h.heard.order
        note := h.heard.note
        tie := h.heard.tie
        chordOrder := h.heard.chordOrder
        chord := h.heard.chord
        keyOrder := pairwise_concat h.heard.keyOrder fun key hkey => (h.heard.key key hkey).2
        key := forall_mem_concat h.heard.key ⟨h.time_nonneg, le_rfl⟩ }

theorem readFields_inv {fields fields' : List (Char × List Char)} (h : VoiceInv voice)
    (hread : readFields context voice fields lines = .ok (voice', fields', rest)) :
    VoiceInv voice' ∧ voice'.track.bars = voice.track.bars ∧ voice'.time = voice.time := by
  induction lines generalizing voice fields with
  | nil =>
      obtain ⟨rfl, -⟩ := Prod.mk.inj (Except.ok.inj hread)
      exact ⟨h, rfl, rfl⟩
  | cons line lines ih =>
      unfold readFields at hread
      split at hread
      · obtain ⟨rfl, -⟩ := Prod.mk.inj (Except.ok.inj hread)
        exact ⟨h, rfl, rfl⟩
      · obtain ⟨_, -, hread⟩ := Fallible.bind_eq_ok.mp hread
        obtain ⟨next, happly, hread⟩ := Fallible.bind_eq_ok.mp hread
        obtain ⟨hnext, hbars, htime⟩ := applyField_inv h happly
        obtain ⟨hfinal, hbars', htime'⟩ := ih hnext hread
        exact ⟨hfinal, hbars'.trans hbars, htime'.trans htime⟩

/-- What a block adds to its voice: between one and four bars. -/
structure BlockBars (voice : VoiceState) (read : ReadBlock) : Prop where
  inv : VoiceInv read.voice
  count : 1 ≤ read.bars ∧ read.bars ≤ 4
  before : Before read.voice.track read.voice.time
  bars : ∃ more, more.length = read.bars ∧ read.voice.track.bars = voice.track.bars ++ more ∧
    Covers Bar.start Bar.finish voice.time more read.voice.time

theorem readBlock_inv {index : Nat} {read : ReadBlock} (hunit : 0 < unit) (h : VoiceInv voice)
    (hread : readBlock context unit index voice lines = .ok (read, rest)) :
    BlockBars voice read := by
  cases lines with
  | nil => cases hread
  | cons head lines =>
      obtain ⟨_, -, hread⟩ := Fallible.bind_eq_ok.mp hread
      obtain ⟨⟨next, fields, after⟩, hfields, hread⟩ := Fallible.bind_eq_ok.mp hread
      obtain ⟨hnext, hbars, htime⟩ := readFields_inv h hfields
      dsimp only at hread
      cases after with
      | nil => cases hread
      | cons line after =>
          obtain ⟨bars, -, hread⟩ := Fallible.bind_eq_ok.mp hread
          obtain ⟨_, hcount, hread⟩ := Fallible.bind_eq_ok.mp hread
          obtain ⟨final, hparse, hread⟩ := Fallible.bind_eq_ok.mp hread
          obtain ⟨rfl, -⟩ := Prod.mk.inj (Except.ok.inj hread)
          have hmany := parseBars_inv hunit hnext hparse
          have hrange := fail_eq_ok.mp hcount
          rw [Bool.or_eq_false_iff, decide_eq_false_iff_not, decide_eq_false_iff_not] at hrange
          have hone : 1 ≤ bars.length := not_lt.mp hrange.1
          refine ⟨hmany.inv, ⟨hone, not_lt.mp hrange.2⟩, hmany.before hone, ?_⟩
          obtain ⟨more, hlength, hmore, hcover⟩ := hmany.bars
          exact ⟨more, hlength, by rw [hmore, hbars], htime ▸ hcover⟩

end Blocks

section Groups

variable {unit : ℚ} {state state' : ParseState} {lines rest : List (List Char)}

def Group.lastBar (group : Group) : Nat := group.firstBar + group.barCount

def Section.lastBar (part : Section) : Nat := part.firstBar + part.barCount

def Section.finish (part : Section) : ℚ := part.start + part.length

/-- The groups and the sections that are read so far. -/
structure ParseInv (state : ParseState) : Prop where
  vocal : VoiceInv state.vocal
  ins : VoiceInv state.ins
  before : state.groups ≠ [] →
    Before state.vocal.track state.vocal.time ∧ Before state.ins.track state.ins.time
  groups : Covers Group.firstBar Group.lastBar 0 state.groups state.vocal.track.bars.length
  groupSize : ∀ group ∈ state.groups, 1 ≤ group.barCount ∧ group.barCount ≤ 4
  sectionGroups : Covers Section.groupsStart Section.groupsEnd 0 state.sections state.groups.length
  sectionBars :
    Covers Section.firstBar Section.lastBar 0 state.sections state.vocal.track.bars.length
  sectionTimes : Covers Section.start Section.finish 0 state.sections state.vocal.time
  sectionStart : ∀ part ∈ state.sections,
    (state.vocal.track.bars[part.firstBar]?).map Bar.start = some part.start
  sectionFirst : ∀ part ∈ state.sections,
    (state.groups[part.groupsStart]?).map Group.firstBar = some part.firstBar

/-- A section that is open: it begins where the sections before it end. -/
structure OpenSection (state : ParseState) (front : List Section) (part : Section) : Prop where
  groups : Covers Section.groupsStart Section.groupsEnd 0 front part.groupsStart
  bars : Covers Section.firstBar Section.lastBar 0 front part.firstBar
  times : Covers Section.start Section.finish 0 front part.start
  started : part.groupsStart ≤ state.groups.length ∧ part.lastBar = state.vocal.track.bars.length ∧
    part.start ≤ state.vocal.time
  earlier : ∀ other ∈ front,
    (state.vocal.track.bars[other.firstBar]?).map Bar.start = some other.start ∧
      (state.groups[other.groupsStart]?).map Group.firstBar = some other.firstBar
  here : (part.firstBar = state.vocal.track.bars.length ∧ part.start = state.vocal.time ∧
      part.groupsStart = state.groups.length) ∨
    (state.vocal.track.bars[part.firstBar]?).map Bar.start = some part.start ∧
      (state.groups[part.groupsStart]?).map Group.firstBar = some part.firstBar

/-- The section that the next group belongs to. -/
theorem openSections_inv (h : ParseInv state) (comments : List (List Char)) :
    ∃ front part, openSections comments state = front ++ [part] ∧ OpenSection state front part := by
  have hall : ∀ other ∈ state.sections,
      (state.vocal.track.bars[other.firstBar]?).map Bar.start = some other.start ∧
        (state.groups[other.groupsStart]?).map Group.firstBar = some other.firstBar :=
    fun other hother => ⟨h.sectionStart other hother, h.sectionFirst other hother⟩
  unfold openSections
  split
  · refine ⟨state.sections, newSection comments state, rfl, h.sectionGroups, h.sectionBars,
      h.sectionTimes, ⟨le_rfl, rfl, le_rfl⟩, hall, Or.inl ⟨rfl, rfl, rfl⟩⟩
  · next hold =>
      rw [Bool.or_eq_true, not_or] at hold
      cases hlast : state.sections.getLast? with
      | none =>
          rw [List.getLast?_eq_none_iff.mp hlast] at hold
          exact absurd rfl hold.2
      | some part =>
          obtain ⟨front, hfront⟩ := List.getLast?_eq_some_iff.mp hlast
          have hgroups := h.sectionGroups
          have hbars := h.sectionBars
          have htimes := h.sectionTimes
          rw [hfront] at hgroups hbars htimes hall
          obtain ⟨hgroups, hgroupsLt, hgroupsEnd⟩ := Covering.covers_concat.mp hgroups
          obtain ⟨hbars, -, hbarsEnd⟩ := Covering.covers_concat.mp hbars
          obtain ⟨htimes, htimesLt, htimesEnd⟩ := Covering.covers_concat.mp htimes
          refine ⟨front, part, hfront, hgroups, hbars, htimes, ⟨?_, hbarsEnd, ?_⟩,
            fun other hother => hall other (List.mem_append_left _ hother),
            Or.inr (hall part (by simp))⟩
          · exact hgroupsEnd ▸ hgroupsLt.le
          · exact htimesEnd ▸ htimesLt.le

theorem getElem?_append_of_some {α β : Type} {items : List α} {i : Nat} {f : α → β} {b : β}
    (h : (items[i]?).map f = some b) (more : List α) : ((items ++ more)[i]?).map f = some b := by
  obtain ⟨a, ha, hb⟩ := Option.map_eq_some_iff.mp h
  obtain ⟨hlt, -⟩ := List.getElem?_eq_some_iff.mp ha
  rw [List.getElem?_append_left hlt, ha, Option.map_some, hb]

/-- One group. -/
theorem parseGroup_inv (hunit : 0 < unit) (h : ParseInv state)
    (hparse : parseGroup unit state lines = .ok (state', rest)) :
    ParseInv state' ∧ state'.groups ≠ [] := by
  obtain ⟨_, -, hparse⟩ := Fallible.bind_eq_ok.mp hparse
  obtain ⟨⟨vocal, linesVocal⟩, hvocal, hparse⟩ := Fallible.bind_eq_ok.mp hparse
  obtain ⟨⟨ins, linesIns⟩, hins, hparse⟩ := Fallible.bind_eq_ok.mp hparse
  obtain ⟨_, hcounts, hparse⟩ := Fallible.bind_eq_ok.mp hparse
  obtain ⟨rfl, -⟩ := Prod.mk.inj (Except.ok.inj hparse)
  have hblock := readBlock_inv hunit h.vocal hvocal
  have hother := readBlock_inv hunit h.ins hins
  obtain ⟨more, hlength, hmore, hcover⟩ := hblock.bars
  obtain ⟨front, part, hopen, hpart⟩ := openSections_inv h (lines.takeWhile isComment)
  obtain ⟨hgroupsLe, hbarsEnd, htimeLe⟩ := hpart.started
  have hone := hblock.count.1
  have hfirst : ∃ bar bars, more = bar :: bars := by
    cases more with
    | nil => rw [← hlength] at hone; exact absurd hone (by decide)
    | cons bar bars => exact ⟨bar, bars, rfl⟩
  obtain ⟨bar, bars, rfl⟩ := hfirst
  have hlater := hcover.lt (List.cons_ne_nil bar bars)
  have hbarStart : bar.start = state.vocal.time := hcover.1
  have htotal : vocal.voice.track.bars.length = state.vocal.track.bars.length + vocal.bars := by
    rw [hmore, List.length_append, hlength]
  have hgrown : growLast (openSections (lines.takeWhile isComment) state) (state.groups.length + 1)
      vocal.bars vocal.voice.time (vocal.voice.pending.isSome || ins.voice.pending.isSome) =
        front ++ [{ part with
          groupsEnd := state.groups.length + 1
          barCount := part.barCount + vocal.bars
          length := vocal.voice.time - part.start
          endsWithOpenTie := vocal.voice.pending.isSome || ins.voice.pending.isSome }] := by
    rw [hopen, growLast, List.getLast?_concat, List.dropLast_concat]
  refine ⟨?_, by simp⟩
  exact
    { vocal := hblock.inv
      ins := hother.inv
      before := fun _ => ⟨hblock.before, hother.before⟩
      groups := by
        refine Covering.covers_concat.mpr ⟨h.groups, ?_, htotal.symm⟩
        change state.vocal.track.bars.length < state.vocal.track.bars.length + vocal.bars
        omega
      groupSize := forall_mem_concat h.groupSize hblock.count
      sectionGroups := by
        dsimp only
        rw [hgrown, List.length_append]
        exact Covering.covers_concat.mpr ⟨hpart.groups, Nat.lt_succ_of_le hgroupsLe, rfl⟩
      sectionBars := by
        dsimp only
        rw [hgrown]
        refine Covering.covers_concat.mpr ⟨hpart.bars, ?_, ?_⟩
        · change part.firstBar < part.firstBar + (part.barCount + vocal.bars)
          omega
        · rw [htotal, ← hbarsEnd]
          exact (Nat.add_assoc _ _ _).symm
      sectionTimes := by
        dsimp only
        rw [hgrown]
        refine Covering.covers_concat.mpr ⟨hpart.times, ?_, add_sub_cancel _ _⟩
        change part.start < part.start + (vocal.voice.time - part.start)
        linarith
      sectionStart := by
        dsimp only
        rw [hgrown, hmore]
        refine forall_mem_concat (fun other hmem =>
          getElem?_append_of_some (hpart.earlier other hmem).1 _) ?_
        obtain ⟨hbar, hstart, -⟩ | ⟨hbar, -⟩ := hpart.here
        · dsimp only
          rw [hbar, hstart, List.getElem?_append_right le_rfl, Nat.sub_self,
            List.getElem?_cons_zero, Option.map_some, hbarStart]
        · exact getElem?_append_of_some hbar _
      sectionFirst := by
        dsimp only
        rw [hgrown]
        refine forall_mem_concat (fun other hmem =>
          getElem?_append_of_some (hpart.earlier other hmem).2 _) ?_
        obtain ⟨hbar, -, hgroup⟩ | ⟨-, hgroup⟩ := hpart.here
        · dsimp only
          rw [hgroup, hbar, List.getElem?_concat_length, Option.map_some]
        · exact getElem?_append_of_some hgroup _ }

theorem parseGroups_inv {fuel : Nat} (hunit : 0 < unit) (h : ParseInv state)
    (hparse : parseGroups unit fuel state lines = .ok state') :
    ParseInv state' ∧ (0 < fuel → lines ≠ [] ∨ state.groups ≠ [] → state'.groups ≠ []) := by
  induction fuel generalizing state lines with
  | zero =>
      obtain rfl := Except.ok.inj hparse
      exact ⟨h, fun hfuel => absurd hfuel (by decide)⟩
  | succ fuel ih =>
      cases lines with
      | nil =>
          obtain rfl := Except.ok.inj hparse
          exact ⟨h, fun _ hsome => hsome.resolve_left fun hne => hne rfl⟩
      | cons line lines =>
          obtain ⟨⟨next, rest⟩, hgroup, hparse⟩ := Fallible.bind_eq_ok.mp hparse
          obtain ⟨hnext, hsome⟩ := parseGroup_inv hunit h hgroup
          obtain ⟨hfinal, hkept⟩ := ih hnext hparse
          refine ⟨hfinal, fun _ _ => ?_⟩
          cases fuel with
          | zero =>
              obtain rfl := Except.ok.inj hparse
              exact hsome
          | succ fuel => exact hkept (Nat.succ_pos fuel) (Or.inr hsome)

end Groups

section Consistency

/-- A voice in which everything lies within the time that its bars cover. -/
structure VoiceConsistent (track : VoiceTrack) : Prop where
  bars : Covers Bar.start Bar.finish 0 track.bars track.duration
  lengths : ∀ bar ∈ track.bars, bar.length = bar.meter.length
  order : track.notes.Pairwise fun a b => a.onset < b.onset ∧ a.finish ≤ b.onset
  note : ∀ note ∈ track.notes, 0 ≤ note.onset ∧ 0 < note.duration ∧ note.finish ≤ track.duration ∧
    0 ≤ note.pitch ∧ note.pitch ≤ 127
  chordOrder : track.chords.Pairwise fun a b => a.onset ≤ b.onset
  chord : ∀ chord ∈ track.chords, 0 ≤ chord.onset ∧ chord.onset < track.duration
  keyOrder : track.keys.Pairwise fun a b => a.onset ≤ b.onset
  key : ∀ key ∈ track.keys, 0 ≤ key.onset ∧ key.onset < track.duration

/-- Two voices over the same bars, which the groups and the sections cover in order. -/
structure Consistent (score : Score) : Prop where
  vocal : VoiceConsistent score.vocal
  ins : VoiceConsistent score.ins
  sameBars : score.vocal.bars = score.ins.bars
  groups : Covers Group.firstBar Group.lastBar 0 score.groups score.vocal.bars.length
  groupSize : ∀ group ∈ score.groups, 1 ≤ group.barCount ∧ group.barCount ≤ 4
  sectionGroups : Covers Section.groupsStart Section.groupsEnd 0 score.sections score.groups.length
  sectionBars : Covers Section.firstBar Section.lastBar 0 score.sections score.vocal.bars.length
  sectionFirst : ∀ part ∈ score.sections,
    (score.groups[part.groupsStart]?).map Group.firstBar = some part.firstBar
  sectionTimes : Covers Section.start Section.finish 0 score.sections score.vocal.duration
  sectionLengths : (score.sections.map Section.length).sum = score.vocal.duration
  sectionStart : ∀ part ∈ score.sections,
    (score.vocal.bars[part.firstBar]?).map Bar.start = some part.start

theorem VoiceInv.duration_eq {voice : VoiceState} (h : VoiceInv voice) :
    voice.track.duration = voice.time := by
  have hfinish := h.bars.finish_getLast
  rw [VoiceTrack.duration]
  cases hlast : voice.track.bars.getLast? with
  | none =>
      rw [hlast] at hfinish
      exact hfinish
  | some bar =>
      rw [hlast] at hfinish
      exact hfinish

theorem VoiceInv.consistent {voice : VoiceState} (h : VoiceInv voice)
    (hbefore : Before voice.track voice.time) : VoiceConsistent voice.track where
  bars := h.duration_eq ▸ h.bars
  lengths := h.lengths
  order := by
    refine h.heard.order.imp_of_mem fun ha _ hle => ⟨?_, hle⟩
    have hpos := (h.heard.note _ ha).2.1
    unfold Note.finish at hle
    linarith
  note := h.duration_eq.symm ▸ h.heard.note
  chordOrder := h.heard.chordOrder
  chord chord hchord := ⟨(h.heard.chord chord hchord).1, h.duration_eq.symm ▸ h.chords chord hchord⟩
  keyOrder := h.heard.keyOrder
  key key hkey := ⟨(h.heard.key key hkey).1, h.duration_eq.symm ▸ hbefore.key key hkey⟩

theorem sum_lengths {sections : List Section} {a c : ℚ}
    (h : Covers Section.start Section.finish a sections c) :
    (sections.map Section.length).sum = c - a := by
  induction sections generalizing a with
  | nil =>
      obtain rfl : a = c := h
      exact (sub_self a).symm
  | cons part sections ih =>
      obtain ⟨hstart, -, hrest⟩ := h
      rw [List.map_cons, List.sum_cons, ih hrest]
      unfold Section.finish
      rw [hstart]
      ring

theorem newVoice_inv {header : Header} (h : 0 < header.meter.length) :
    VoiceInv (newVoice header) where
  bars := rfl
  lengths := fun _ hbar => absurd hbar List.not_mem_nil
  heard :=
    { order := List.Pairwise.nil
      note := fun _ hnote => absurd hnote List.not_mem_nil
      tie := fun htie => (nomatch htie)
      chordOrder := List.Pairwise.nil
      chord := fun _ hchord => absurd hchord List.not_mem_nil
      keyOrder := List.pairwise_singleton _ _
      key := fun key hkey => by
        rw [List.mem_singleton.mp hkey]
        exact ⟨le_rfl, le_rfl⟩ }
  chords := fun _ hchord => absurd hchord List.not_mem_nil
  meter := h

theorem newParse_inv {header : Header} (h : 0 < header.meter.length) :
    ParseInv (newParse header) where
  vocal := newVoice_inv h
  ins := newVoice_inv h
  before := fun hne => absurd rfl hne
  groups := rfl
  groupSize := fun _ hgroup => absurd hgroup List.not_mem_nil
  sectionGroups := rfl
  sectionBars := rfl
  sectionTimes := rfl
  sectionStart := fun _ hpart => absurd hpart List.not_mem_nil
  sectionFirst := fun _ hpart => absurd hpart List.not_mem_nil

theorem parseHeader_inv {lines : List (List Char)} {header : Header}
    (h : parseHeader lines = .ok header) : 0 < header.meter.length ∧ 0 < header.unit := by
  obtain ⟨_, -, h⟩ := Fallible.bind_eq_ok.mp h
  obtain ⟨_, -, h⟩ := Fallible.bind_eq_ok.mp h
  obtain ⟨meter, hmeter, h⟩ := Fallible.bind_eq_ok.mp h
  obtain ⟨denominator, -, h⟩ := Fallible.bind_eq_ok.mp h
  obtain ⟨_, hpower, h⟩ := Fallible.bind_eq_ok.mp h
  obtain ⟨_, -, h⟩ := Fallible.bind_eq_ok.mp h
  obtain ⟨_, -, h⟩ := Fallible.bind_eq_ok.mp h
  obtain ⟨_, -, h⟩ := Fallible.bind_eq_ok.mp h
  obtain ⟨_, -, h⟩ := Fallible.bind_eq_ok.mp h
  obtain rfl := Except.ok.inj h
  have hdenominator : (0 : ℚ) < denominator := by
    exact_mod_cast power_pos (by simpa using fail_eq_ok.mp hpower)
  exact ⟨meterValue_length_pos hmeter, one_div_pos.mpr hdenominator⟩

/-- What is accepted is consistent. -/
theorem parseScore_consistent {text : List Char} {score : Score} (h : parseScore text = .ok score) :
    Consistent score := by
  obtain ⟨_, hlines, h⟩ := Fallible.bind_eq_ok.mp h
  obtain ⟨header, hheader, h⟩ := Fallible.bind_eq_ok.mp h
  obtain ⟨state, hgroups, h⟩ := Fallible.bind_eq_ok.mp h
  obtain ⟨_, -, h⟩ := Fallible.bind_eq_ok.mp h
  obtain ⟨_, -, h⟩ := Fallible.bind_eq_ok.mp h
  obtain ⟨_, -, h⟩ := Fallible.bind_eq_ok.mp h
  obtain ⟨_, hbars, h⟩ := Fallible.bind_eq_ok.mp h
  obtain ⟨_, -, h⟩ := Fallible.bind_eq_ok.mp h
  obtain rfl := Except.ok.inj h
  obtain ⟨hmeter, hunit⟩ := parseHeader_inv hheader
  have hlength : 12 ≤ (Text.lines text).length := by
    have hfalse := fail_eq_ok.mp hlines
    rw [decide_eq_false_iff_not] at hfalse
    exact not_lt.mp hfalse
  have hrest : (Text.lines text).drop 8 ≠ [] := by
    intro hnil
    have hshort := List.drop_eq_nil_iff.mp hnil
    omega
  obtain ⟨hinv, hsome⟩ := parseGroups_inv hunit (newParse_inv hmeter) hgroups
  obtain ⟨hvocal, hins⟩ := hinv.before (hsome (by omega) (Or.inl hrest))
  have hsame : state.vocal.track.bars = state.ins.track.bars := by
    have hfalse := fail_eq_ok.mp hbars
    rw [decide_eq_false_iff_not, not_not] at hfalse
    exact hfalse
  have hduration := hinv.vocal.duration_eq
  exact
    { vocal := hinv.vocal.consistent hvocal
      ins := hinv.ins.consistent hins
      sameBars := hsame
      groups := hinv.groups
      groupSize := hinv.groupSize
      sectionGroups := hinv.sectionGroups
      sectionBars := hinv.sectionBars
      sectionFirst := hinv.sectionFirst
      sectionTimes := hduration.symm ▸ hinv.sectionTimes
      sectionLengths := by
        rw [sum_lengths hinv.sectionTimes, sub_zero, hduration]
      sectionStart := hinv.sectionStart }

/-- Two sections: a tie across a barline, a rest over two bars, and a key of its own for the second
section. -/
def verseAndChorus : List Char :=
  ["X:1", "T:", "M:4/4", "L:1/8", "Q:1/4=88",
    "V: Vocal clef=treble name=\"Vocal Melody\" snm=\"Vocal\"",
    "V: Ins clef=treble name=\"Ins Melody\" snm=\"Inst.\"", "K:C",
    "% verse", "V: Vocal", "\"C\"E2G2^A4-|A4 \"G\"B4|", "V: Ins", "Z2|",
    "% chorus", "V: Vocal", "K:G", "\"Em\"g4 f4|", "V: Ins", "K:G", "z8|"].flatMap fun line =>
      line.toList ++ ['\n']

theorem verseAndChorus_consistent :
    ∃ score, parseScore verseAndChorus = .ok score ∧ Consistent score := by
  have hsome : (parseScore verseAndChorus).toOption.isSome = true := by decide +kernel
  obtain ⟨score, hscore⟩ := Option.isSome_iff_exists.mp hsome
  have hparse := Fallible.toOption_eq_some.mp hscore
  exact ⟨score, hparse, parseScore_consistent hparse⟩

end Consistency

end SceneWorks.Yue2Score
