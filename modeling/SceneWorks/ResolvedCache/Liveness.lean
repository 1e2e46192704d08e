import Mathlib.Logic.Function.Basic
import SceneWorks.Library.Run

/-!
The liveness lock of one cache session. `open` creates and locks the session's lock
file and then makes its record directory; every other process may probe the lock, or
clean the session up when the lock can be had. A lock belongs to the inode that was
opened, the path is what an unlink takes away, and a process that finds no file makes a
new one.
-/

namespace SceneWorks.ResolvedCache.Liveness

/-- How far `ResolvedCacheStore::open` has come; `over` is a refused or dropped session. -/
inductive Session where
  | absent
  | opened (inode : Nat)
  | locked (inode : Nat)
  | alive (inode : Nat)
  | over
  deriving DecidableEq

/-- Where another process stands in `session_lock_is_acquirable` or in the turn of
`clean_stale_sessions` that found this session's lock file. -/
inductive Party where
  | idle
  | probeOpened (inode : Nat)
  | probeLocked (inode : Nat)
  | listed
  | cleanOpened (inode : Nat)
  | cleanLocked (inode : Nat)
  | cleanRemoved (inode : Nat)
  | cleanUnlocked
  deriving DecidableEq

inductive Owner (ι : Type) where
  | session
  | party (p : ι)
  deriving DecidableEq

structure State (ι : Type) where
  path : Option Nat
  nextInode : Nat
  holder : Nat → Option (Owner ι)
  records : Bool
  session : Session
  parties : ι → Party
  /-- A probe took the lock while the session was alive. -/
  judgedStale : Bool

inductive Op (ι : Type) where
  | openLockFile
  | tryLock
  | createRecords
  | close
  | probeOpen (p : ι)
  | probeTry (p : ι)
  | probeRelease (p : ι)
  | cleanList (p : ι)
  | cleanOpen (p : ι)
  | cleanTry (p : ι)
  | cleanRemove (p : ι)
  | cleanUnlock (p : ι)
  | cleanUnlink (p : ι)
  deriving DecidableEq

variable {ι : Type}

/-- Nobody has heard of the session yet: its id was drawn a moment ago. -/
def start : State ι :=
  { path := none
    nextInode := 0
    holder := fun _ => none
    records := false
    session := .absent
    parties := fun _ => .idle
    judgedStale := false }

def Session.isAlive : Session → Bool
  | .alive _ => true
  | _ => false

/-- `open_regular_lock_file`: the inode the path names, or a new one. -/
def State.lockFile (s : State ι) : Nat := s.path.getD s.nextInode

def State.openFile (s : State ι) : State ι :=
  match s.path with
  | some _ => s
  | none => { s with path := some s.nextInode, nextInode := s.nextInode + 1 }

section Step

variable [DecidableEq ι]

def State.move (s : State ι) (p : ι) (party : Party) : State ι :=
  { s with parties := Function.update s.parties p party }

def State.hold (s : State ι) (inode : Nat) (owner : Option (Owner ι)) : State ι :=
  { s with holder := Function.update s.holder inode owner }

def step (s : State ι) : Op ι → State ι
  | .openLockFile =>
      match s.session with
      | .absent => { s.openFile with session := .opened s.lockFile }
      | _ => s
  | .tryLock =>
      match s.session with
      | .opened inode =>
          if s.holder inode = none then
            { s.hold inode (some .session) with session := .locked inode }
          else { s with session := .over }
      | _ => s
  | .createRecords =>
      match s.session with
      | .locked inode => { s with session := .alive inode, records := true }
      | _ => s
  | .close =>
      match s.session with
      | .alive inode => { s.hold inode none with session := .over }
      | _ => s
  | .probeOpen p =>
      match s.parties p with
      | .idle => s.openFile.move p (.probeOpened s.lockFile)
      | _ => s
  | .probeTry p =>
      match s.parties p with
      | .probeOpened inode =>
          if s.holder inode = none then
            { (s.hold inode (some (.party p))).move p (.probeLocked inode) with
              judgedStale := s.judgedStale || s.session.isAlive }
          else s.move p .idle
      | _ => s
  | .probeRelease p =>
      match s.parties p with
      | .probeLocked inode => (s.hold inode none).move p .idle
      | _ => s
  | .cleanList p =>
      match s.parties p with
      | .idle => if s.path.isSome then s.move p .listed else s
      | _ => s
  | .cleanOpen p =>
      match s.parties p with
      | .listed => s.openFile.move p (.cleanOpened s.lockFile)
      | _ => s
  | .cleanTry p =>
      match s.parties p with
      | .cleanOpened inode =>
          if s.holder inode = none then
            (s.hold inode (some (.party p))).move p (.cleanLocked inode)
          else s.move p .idle
      | _ => s
  | .cleanRemove p =>
      match s.parties p with
      | .cleanLocked inode => { s.move p (.cleanRemoved inode) with records := false }
      | _ => s
  | .cleanUnlock p =>
      match s.parties p with
      | .cleanRemoved inode => (s.hold inode none).move p .cleanUnlocked
      | _ => s
  | .cleanUnlink p =>
      match s.parties p with
      | .cleanUnlocked => { s.move p .idle with path := none }
      | _ => s

end Step

/-- While the session is alive no probe has called it stale and its records are there. -/
def Sound (s : State ι) : Prop :=
  s.session.isAlive = true → s.records = true ∧ s.judgedStale = false

def Session.file : Session → Option Nat
  | .opened inode | .locked inode | .alive inode => some inode
  | _ => none

def Session.lock : Session → Option Nat
  | .locked inode | .alive inode => some inode
  | _ => none

/-- The file a process will still try to lock, or holds with the records not yet removed. -/
def Party.pending : Party → Option Nat
  | .probeOpened inode | .cleanOpened inode | .cleanLocked inode => some inode
  | _ => none

def Party.lock : Party → Option Nat
  | .probeLocked inode | .cleanLocked inode | .cleanRemoved inode => some inode
  | _ => none

/-- A cleaner that unlinks the path of a session that is not over takes no file away that
the session has open, or that another process opened and has yet to act on. -/
def UnlinksUnused (s : State ι) : Op ι → Prop
  | .cleanUnlink p =>
      s.parties p = .cleanUnlocked → s.session ≠ .over → ∀ inode, s.path = some inode →
        s.session.file ≠ some inode ∧ ∀ q, (s.parties q).pending ≠ some inode
  | _ => True

/-- Everybody who can still do harm has the file open that the path names. -/
structure Inv (s : State ι) : Prop where
  pending : s.session ≠ .over → ∀ p inode, (s.parties p).pending = some inode →
    s.path = some inode
  file : ∀ inode, s.session.file = some inode → s.path = some inode
  sessionLock : ∀ inode, s.session.lock = some inode → s.holder inode = some .session
  partyLock : ∀ p inode, (s.parties p).lock = some inode → s.holder inode = some (.party p)
  records : s.session.isAlive = true → s.records = true
  judgedStale : s.judgedStale = false

variable {s : State ι} {p : ι} {inode : Nat}

theorem inv_start : Inv (start : State ι) where
  pending := nofun
  file := nofun
  sessionLock := nofun
  partyLock := nofun
  records := nofun
  judgedStale := rfl

theorem Inv.sound (h : Inv s) : Sound s := fun halive => ⟨h.records halive, h.judgedStale⟩

theorem path_openFile (s : State ι) : s.openFile.path = some s.lockFile := by
  unfold State.openFile State.lockFile
  cases hpath : s.path with
  | none => rfl
  | some inode => exact hpath

theorem openFile_path_of_some (h : s.path = some inode) : s.openFile = s := by
  rw [State.openFile, h]

theorem Inv.openFile (h : Inv s) : Inv s.openFile := by
  cases hpath : s.path with
  | some inode => rwa [openFile_path_of_some hpath]
  | none =>
      have heq :
          s.openFile = { s with path := some s.nextInode, nextInode := s.nextInode + 1 } := by
        rw [State.openFile, hpath]
      rw [heq]
      exact
        { pending := fun hover p inode hp => by
            rw [h.pending hover p inode hp] at hpath
            cases hpath
          file := fun inode hfile => by
            rw [h.file inode hfile] at hpath
            cases hpath
          sessionLock := h.sessionLock
          partyLock := h.partyLock
          records := h.records
          judgedStale := h.judgedStale }

section Preservation

variable [DecidableEq ι]

theorem parties_move_self (s : State ι) (p : ι) (party : Party) :
    (s.move p party).parties p = party := Function.update_self ..

theorem parties_move_of_ne {q : ι} (h : q ≠ p) (s : State ι) (party : Party) :
    (s.move p party).parties q = s.parties q := Function.update_of_ne h ..

omit [DecidableEq ι] in
theorem holder_hold_of_ne {other : Nat} (h : other ≠ inode) (s : State ι)
    (owner : Option (Owner ι)) : (s.hold inode owner).holder other = s.holder other :=
  Function.update_of_ne h ..

/-- A process may go on to a place that needs no more than it has. -/
theorem Inv.move (h : Inv s) (p : ι) (party : Party)
    (hpending : s.session ≠ .over → ∀ inode, party.pending = some inode → s.path = some inode)
    (hlock : ∀ inode, party.lock = some inode → s.holder inode = some (.party p)) :
    Inv (s.move p party) where
  pending hover q inode hq := by
    by_cases hqp : q = p
    · rw [hqp, parties_move_self] at hq
      exact hpending hover inode hq
    · rw [parties_move_of_ne hqp] at hq
      exact h.pending hover q inode hq
  file := h.file
  sessionLock := h.sessionLock
  partyLock q inode hq := by
    by_cases hqp : q = p
    · rw [hqp, parties_move_self] at hq
      rw [hqp]
      exact hlock inode hq
    · rw [parties_move_of_ne hqp] at hq
      exact h.partyLock q inode hq
  records := h.records
  judgedStale := h.judgedStale

omit [DecidableEq ι] in
/-- A lock nobody holds may be taken. -/
theorem Inv.acquire (h : Inv s) (hfree : s.holder inode = none) (owner : Owner ι) :
    Inv (s.hold inode (some owner)) where
  pending := h.pending
  file := h.file
  sessionLock other hother := by
    have hheld := h.sessionLock other hother
    have hne : other ≠ inode := fun heq => by rw [heq, hfree] at hheld; cases hheld
    rw [holder_hold_of_ne hne, hheld]
  partyLock q other hother := by
    have hheld := h.partyLock q other hother
    have hne : other ≠ inode := fun heq => by rw [heq, hfree] at hheld; cases hheld
    rw [holder_hold_of_ne hne, hheld]
  records := h.records
  judgedStale := h.judgedStale

/-- A process that holds the lock gives it back and goes on to `party`. -/
theorem Inv.release (h : Inv s) {party : Party} (hlock : (s.parties p).lock = some inode)
    (hpending : party.pending = none) (hnone : party.lock = none) :
    Inv ((s.hold inode none).move p party) where
  pending := (h.move p party (by simp [hpending]) (by simp [hnone])).pending
  file := h.file
  sessionLock other hother := by
    have hheld := h.sessionLock other hother
    have hne : other ≠ inode := fun heq => by
      rw [heq, h.partyLock p inode hlock] at hheld
      cases hheld
    exact (holder_hold_of_ne hne s none).trans hheld
  partyLock q other hother := by
    by_cases hqp : q = p
    · rw [hqp, parties_move_self, hnone] at hother
      cases hother
    · rw [parties_move_of_ne hqp] at hother
      have hheld := h.partyLock q other hother
      have hne : other ≠ inode := fun heq => by
        rw [heq, h.partyLock p inode hlock] at hheld
        cases hheld
        exact hqp rfl
      exact (holder_hold_of_ne hne s none).trans hheld
  records := h.records
  judgedStale := h.judgedStale

omit [DecidableEq ι] in
/-- The lock of a live session cannot be had through the file its path names. -/
theorem Inv.not_free_of_alive (h : Inv s) (halive : s.session.isAlive = true)
    (hpending : (s.parties p).pending = some inode) : s.holder inode = some .session := by
  cases hsession : s.session with
  | alive own =>
      have hover : s.session ≠ .over := by simp [hsession]
      have hpath := h.pending hover p inode hpending
      have hown := h.file own (by rw [hsession]; rfl)
      rw [hown] at hpath
      have hheld := h.sessionLock own (by rw [hsession]; rfl)
      rwa [Option.some.inj hpath] at hheld
  | absent | opened _ | locked _ | «over» => rw [hsession] at halive; cases halive

theorem inv_openLockFile (h : Inv s) : Inv (step s .openLockFile) := by
  dsimp only [step]
  cases hsession : s.session with
  | absent =>
      have hopen := h.openFile
      have hover : s.openFile.session ≠ .over := by
        have hsame : s.openFile.session = s.session := by
          unfold State.openFile
          split <;> rfl
        rw [hsame, hsession]
        nofun
      exact
        { pending := fun _ => hopen.pending hover
          file := fun inode hfile => by
            rw [← Option.some.inj hfile]
            exact path_openFile s
          sessionLock := nofun
          partyLock := hopen.partyLock
          records := nofun
          judgedStale := hopen.judgedStale }
  | opened _ | locked _ | alive _ | «over» => exact h

theorem inv_tryLock (h : Inv s) : Inv (step s .tryLock) := by
  dsimp only [step]
  cases hsession : s.session with
  | opened inode =>
      have hover : s.session ≠ .over := by simp [hsession]
      by_cases hfree : s.holder inode = none
      · have htaken := h.acquire hfree .session
        dsimp only
        rw [if_pos hfree]
        exact
          { pending := fun _ => h.pending hover
            file := fun other hfile => h.file other (by rw [hsession]; exact hfile)
            sessionLock := fun other hlock => by
              rw [← Option.some.inj hlock]
              exact Function.update_self ..
            partyLock := htaken.partyLock
            records := nofun
            judgedStale := h.judgedStale }
      · dsimp only
        rw [if_neg hfree]
        exact
          { pending := fun hover' => absurd rfl hover'
            file := nofun
            sessionLock := nofun
            partyLock := h.partyLock
            records := nofun
            judgedStale := h.judgedStale }
  | absent | locked _ | alive _ | «over» => exact h

theorem inv_createRecords (h : Inv s) : Inv (step s .createRecords) := by
  dsimp only [step]
  cases hsession : s.session with
  | locked inode =>
      have hover : s.session ≠ .over := by simp [hsession]
      exact
        { pending := fun _ => h.pending hover
          file := fun other hfile => h.file other (by rw [hsession]; exact hfile)
          sessionLock := fun other hlock => h.sessionLock other (by rw [hsession]; exact hlock)
          partyLock := h.partyLock
          records := fun _ => rfl
          judgedStale := h.judgedStale }
  | absent | opened _ | alive _ | «over» => exact h

theorem inv_close (h : Inv s) : Inv (step s .close) := by
  dsimp only [step]
  cases hsession : s.session with
  | alive inode =>
      exact
        { pending := fun hover => absurd rfl hover
          file := nofun
          sessionLock := nofun
          partyLock := fun q other hq => by
            have hheld := h.partyLock q other hq
            have hne : other ≠ inode := fun heq => by
              rw [heq, h.sessionLock inode (by rw [hsession]; rfl)] at hheld
              cases hheld
            exact (holder_hold_of_ne hne s none).trans hheld
          records := nofun
          judgedStale := h.judgedStale }
  | absent | opened _ | locked _ | «over» => exact h

/-- Opening the lock file gives the file the path then names. -/
theorem Inv.opens (h : Inv s) (p : ι) {party : Party} (hpending : party.pending = some s.lockFile)
    (hlock : party.lock = none) : Inv (s.openFile.move p party) := by
  refine h.openFile.move p party ?_ ?_
  · intro _ inode hinode
    rw [← hinode, hpending]
    exact path_openFile s
  · intro inode hinode
    rw [hlock] at hinode
    cases hinode

/-- A process takes the lock of a file that it opened before. -/
theorem Inv.locks (h : Inv s) {party : Party} (hfree : s.holder inode = none)
    (hopened : (s.parties p).pending = some inode) (hlock : party.lock = some inode)
    (hpending : party.pending = none ∨ party.pending = some inode) :
    Inv ((s.hold inode (some (.party p))).move p party) := by
  refine (h.acquire hfree (.party p)).move p party ?_ ?_
  · intro hover other hother
    cases hpending with
    | inl hnone =>
        rw [hnone] at hother
        cases hother
    | inr hsame =>
        rw [← hother, hsame]
        exact h.pending hover p inode hopened
  · intro other hother
    rw [hlock] at hother
    rw [← Option.some.inj hother]
    exact Function.update_self ..

theorem inv_probe_open (h : Inv s) (p : ι) : Inv (step s (.probeOpen p)) := by
  dsimp only [step]
  cases hparty : s.parties p with
  | idle => exact h.opens p rfl rfl
  | _ => exact h

theorem inv_probe_try (h : Inv s) (p : ι) : Inv (step s (.probeTry p)) := by
  dsimp only [step]
  cases hparty : s.parties p with
  | probeOpened inode =>
      have hpending : (s.parties p).pending = some inode := by
        rw [hparty]
        rfl
      by_cases hfree : s.holder inode = none
      · have hdead : s.session.isAlive = false := by
          cases halive : s.session.isAlive with
          | false => rfl
          | true =>
              rw [h.not_free_of_alive halive hpending] at hfree
              cases hfree
        have hlocked : Inv ((s.hold inode (some (.party p))).move p (.probeLocked inode)) :=
          h.locks hfree hpending rfl (Or.inl rfl)
        dsimp only
        rw [if_pos hfree, h.judgedStale, hdead]
        exact { hlocked with judgedStale := rfl }
      · dsimp only
        rw [if_neg hfree]
        exact h.move p _ nofun nofun
  | _ => exact h

theorem inv_probe_release (h : Inv s) (p : ι) : Inv (step s (.probeRelease p)) := by
  dsimp only [step]
  cases hparty : s.parties p with
  | probeLocked inode => exact h.release (by rw [hparty]; rfl) rfl rfl
  | _ => exact h

theorem inv_clean_list (h : Inv s) (p : ι) : Inv (step s (.cleanList p)) := by
  dsimp only [step]
  cases hparty : s.parties p with
  | idle =>
      dsimp only
      split
      · exact h.move p _ nofun nofun
      · exact h
  | _ => exact h

theorem inv_clean_open (h : Inv s) (p : ι) : Inv (step s (.cleanOpen p)) := by
  dsimp only [step]
  cases hparty : s.parties p with
  | listed => exact h.opens p rfl rfl
  | _ => exact h

theorem inv_clean_try (h : Inv s) (p : ι) : Inv (step s (.cleanTry p)) := by
  dsimp only [step]
  cases hparty : s.parties p with
  | cleanOpened inode =>
      by_cases hfree : s.holder inode = none
      · dsimp only
        rw [if_pos hfree]
        exact h.locks hfree (by rw [hparty]; rfl) rfl (Or.inr rfl)
      · dsimp only
        rw [if_neg hfree]
        exact h.move p _ nofun nofun
  | _ => exact h

/-- The cleaner that has the lock removes the records of a session that is not alive. -/
theorem inv_clean_remove (h : Inv s) (p : ι) : Inv (step s (.cleanRemove p)) := by
  dsimp only [step]
  cases hparty : s.parties p with
  | cleanLocked inode =>
      have hheld : s.holder inode = some (.party p) := h.partyLock p inode (by rw [hparty]; rfl)
      have hmoved := h.move p (.cleanRemoved inode) nofun fun other hother => by
        rw [← Option.some.inj hother]
        exact hheld
      have hdead : s.session.isAlive = true → (false : Bool) = true := fun halive => by
        have hpending : (s.parties p).pending = some inode := by
          rw [hparty]
          rfl
        rw [h.not_free_of_alive halive hpending] at hheld
        cases hheld
      exact { hmoved with records := hdead }
  | _ => exact h

theorem inv_clean_unlock (h : Inv s) (p : ι) : Inv (step s (.cleanUnlock p)) := by
  dsimp only [step]
  cases hparty : s.parties p with
  | cleanRemoved inode => exact h.release (by rw [hparty]; rfl) rfl rfl
  | _ => exact h

theorem inv_clean_unlink (h : Inv s) (hunused : UnlinksUnused s (.cleanUnlink p)) :
    Inv (step s (.cleanUnlink p)) := by
  dsimp only [step]
  cases hparty : s.parties p with
  | cleanUnlocked =>
      have hmoved := h.move p .idle nofun nofun
      exact
        { hmoved with
          pending := fun hover q inode hq => by
            have hpath := hmoved.pending hover q inode hq
            have hother : (s.parties q).pending = some inode := by
              by_cases hqp : q = p
              · rw [hqp, parties_move_self] at hq
                cases hq
              · rwa [parties_move_of_ne hqp] at hq
            exact absurd hother ((hunused hparty hover inode hpath).2 q)
          file := fun inode hfile => by
            have hover : s.session ≠ .over := fun heq => by
              rw [State.move, heq] at hfile
              cases hfile
            exact absurd hfile (hunused hparty hover inode (h.file inode hfile)).1 }
  | _ => exact h

theorem inv_step (h : Inv s) (op : Op ι) (hop : UnlinksUnused s op) : Inv (step s op) := by
  cases op with
  | openLockFile => exact inv_openLockFile h
  | tryLock => exact inv_tryLock h
  | createRecords => exact inv_createRecords h
  | close => exact inv_close h
  | probeOpen p => exact inv_probe_open h p
  | probeTry p => exact inv_probe_try h p
  | probeRelease p => exact inv_probe_release h p
  | cleanList p => exact inv_clean_list h p
  | cleanOpen p => exact inv_clean_open h p
  | cleanTry p => exact inv_clean_try h p
  | cleanRemove p => exact inv_clean_remove h p
  | cleanUnlock p => exact inv_clean_unlock h p
  | cleanUnlink p => exact inv_clean_unlink h hop

/-- In a run whose cleaners unlink unused files only, a live session is never judged stale
and keeps its records. -/
theorem live_session_kept (ops : List (Op ι))
    (hops : Run.Along step UnlinksUnused (start : State ι) ops) :
    Run.Throughout step Sound (start : State ι) ops :=
  Run.throughout_of_invariant Inv (fun _ op h hop => inv_step h op hop) (fun _ => Inv.sound)
    inv_start hops

end Preservation

section Race

/-- A session is probed while it lives and cleaned up by another process once it is dropped. -/
def cleanedUp : List (Op Bool) :=
  [.openLockFile, .tryLock, .createRecords, .probeOpen false, .probeTry false, .close,
    .cleanList true, .cleanOpen true, .cleanTry true, .cleanRemove true, .cleanUnlock true,
    .cleanUnlink true]

theorem live_session_kept_until_cleaned_up :
    Run.Throughout step Sound (start : State Bool) cleanedUp := by
  refine live_session_kept cleanedUp ?_
  have hover : ∀ s : State Bool, s.session = .over → UnlinksUnused s (.cleanUnlink true) :=
    fun s hover _ hnot => absurd hover hnot
  exact ⟨trivial, trivial, trivial, trivial, trivial, trivial, trivial, trivial, trivial, trivial,
    trivial, hover _ (by decide), trivial⟩

/-- A cleaner has the lock between the two steps of `open` and unlinks the path after the
second; the next probe makes a new file, and the next cleaner removes the records. -/
def race : List (Op Bool) :=
  [.openLockFile, .cleanList true, .cleanOpen true, .cleanTry true, .cleanRemove true,
    .cleanUnlock true, .tryLock, .cleanUnlink true, .createRecords, .probeOpen false,
    .probeTry false, .probeRelease false, .cleanList true, .cleanOpen true, .cleanTry true,
    .cleanRemove true]

theorem live_session_judged_stale :
    ¬ Run.Throughout step Sound (start : State Bool) race ∧
      (Run.exec step (start : State Bool) race).session = .alive 0 ∧
      (Run.exec step (start : State Bool) race).judgedStale = true ∧
      (Run.exec step (start : State Bool) race).records = false := by
  have hend : (Run.exec step (start : State Bool) race).session = .alive 0 ∧
      (Run.exec step (start : State Bool) race).judgedStale = true ∧
      (Run.exec step (start : State Bool) race).records = false := by decide
  refine ⟨fun h => ?_, hend⟩
  have hsound := Run.throughout_iff_exec.mp h race [] (List.append_nil race).symm
  have hlost := (hsound (by rw [hend.1]; rfl)).1
  rw [hend.2.2] at hlost
  cases hlost

end Race

end SceneWorks.ResolvedCache.Liveness
