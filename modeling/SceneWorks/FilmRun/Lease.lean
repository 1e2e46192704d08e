import SceneWorks.FilmRun.Record
import SceneWorks.Library.Text
import SceneWorks.Library.Run
import Mathlib.Logic.Function.Basic

/-!
The controller lease of a run directory. Ownership is an advisory lock and, written apart
from it, the owner's name in the lock file: a release empties the file, a crash only frees the
lock. Controllers take the file operations of the lease one at a time, in any order among
them, and can be killed between any two.
-/

namespace SceneWorks.FilmRun.Lease

abbrev Controller := Nat

/-- What callers name as the owner: every one of them starts with a word. -/
structure Owner where
  first : Char
  rest : List Char
  visible : first ≠ '\n' ∧ first ≠ '\r'

def Owner.text (owner : Owner) : List Char := owner.first :: owner.rest

def ownerKey : List Char := "owner=".toList

/-- The text `claim` writes. -/
def claimText (owner : Owner) (pid acquiredAt : String) : List Char :=
  ownerKey ++ owner.text ++ "\npid=".toList ++ pid.toList ++ "\nacquiredAt=".toList ++
    acquiredAt.toList ++ "\n".toList

/-- Some line of the metadata names an owner. -/
def interrupted (metadata : List Char) : Bool :=
  (Text.lines metadata).any fun line => match line.dropPrefix? ownerKey with
    | some owner => owner ≠ []
    | none => false

inductive Intent where
  | acquire
  | interrupted
  | probe
deriving DecidableEq

/-- Where a controller stands in the code of the lease. -/
inductive Phase where
  | idle
  | locked (intent : Intent)
  | claiming
  | truncated
  | leased
  | releasing
  | closing
deriving DecidableEq

/-- What became of leases, and what `acquire_interrupted` answered. -/
inductive Occurrence where
  | claimed (controller : Controller)
  | crashed (controller : Controller)
  | preserved (controller : Controller)
  | erased (controller : Controller)
  | answered (controller : Controller) (found : Bool)
deriving DecidableEq

structure RunDirectory where
  holder : Option Controller
  metadata : List Char
  phase : Controller → Phase
  history : List Occurrence

def RunDirectory.fresh : RunDirectory := ⟨none, [], fun _ => .idle, []⟩

inductive Act where
  | lock (controller : Controller) (intent : Intent)
  | read (controller : Controller)
  | truncate (controller : Controller)
  | write (controller : Controller) (owner : Owner) (pid acquiredAt : String)
  | drop (controller : Controller) (apiShutdown : Option Bool) (record : Option RunState)
  | erase (controller : Controller)
  | unlock (controller : Controller)
  | crash (controller : Controller)

namespace RunDirectory

def enter (dir : RunDirectory) (controller : Controller) (phase : Phase) : RunDirectory :=
  { dir with phase := Function.update dir.phase controller phase }

def record (dir : RunDirectory) (occurrence : Occurrence) : RunDirectory :=
  { dir with history := dir.history ++ [occurrence] }

end RunDirectory

def preserveForRestart (apiShutdown : Option Bool) (record : Option RunState) : Bool :=
  apiShutdown = some true && record = some .running

/-- A lease is in force from the write of its owner to the erasure. -/
def Phase.claimed : Phase → Bool
  | .leased | .releasing => true
  | _ => false

/-- One operation of one controller; an operation its code is not at changes nothing. -/
def step (dir : RunDirectory) : Act → RunDirectory
  | .lock controller intent =>
      if dir.phase controller = .idle ∧ dir.holder = none then
        { dir.enter controller (.locked intent) with holder := some controller }
      else dir
  | .read controller =>
      if dir.phase controller = .locked .interrupted then
        if interrupted dir.metadata then
          (dir.enter controller .claiming).record (.answered controller true)
        else (dir.enter controller .closing).record (.answered controller false)
      else dir
  | .truncate controller =>
      if dir.phase controller = .locked .acquire ∨ dir.phase controller = .claiming then
        { dir.enter controller .truncated with metadata := [] }
      else dir
  | .write controller owner pid acquiredAt =>
      if dir.phase controller = .truncated then
        { (dir.enter controller .leased).record (.claimed controller) with
          metadata := claimText owner pid acquiredAt }
      else dir
  | .drop controller apiShutdown record =>
      if dir.phase controller = .leased then
        if preserveForRestart apiShutdown record then
          (dir.enter controller .closing).record (.preserved controller)
        else dir.enter controller .releasing
      else dir
  | .erase controller =>
      if dir.phase controller = .releasing then
        { (dir.enter controller .closing).record (.erased controller) with metadata := [] }
      else dir
  | .unlock controller =>
      if dir.phase controller = .closing ∨ dir.phase controller = .locked .probe then
        { dir.enter controller .idle with holder := none }
      else dir
  | .crash controller =>
      let history := if (dir.phase controller).claimed then
        dir.history ++ [Occurrence.crashed controller] else dir.history
      if dir.holder = some controller then
        { dir.enter controller .idle with holder := none, history }
      else dir

section Metadata

/-- A line that has begun with the key and a visible owner keeps naming it to its end. -/
theorem exists_line_of_begun {first : Char} (hfirst : first ≠ '\r') (rest text : List Char) :
    ∃ line ∈ Text.linesFrom (ownerKey ++ first :: rest).reverse text, ∃ more,
      line = ownerKey ++ first :: more := by
  induction text generalizing rest with
  | nil =>
      refine ⟨ownerKey ++ first :: rest, ?_, rest, rfl⟩
      simp [Text.linesFrom]
  | cons c text ih =>
      by_cases hc : c = '\n'
      · subst hc
        refine ⟨(Text.stripReturn (ownerKey ++ first :: rest).reverse).reverse, ?_, ?_⟩
        · simp [Text.linesFrom]
        · cases hrest : rest.reverse with
          | nil =>
              obtain rfl : rest = [] := by simpa using hrest
              refine ⟨[], ?_⟩
              simp [Text.stripReturn_cons, hfirst]
          | cons last before =>
              obtain rfl : rest = before.reverse ++ [last] := by
                rw [← List.reverse_reverse rest, hrest, List.reverse_cons]
              by_cases hlast : last = '\r'
              · exact ⟨before.reverse, by simp [Text.stripReturn_cons, hlast]⟩
              · exact ⟨before.reverse ++ [last], by simp [Text.stripReturn_cons, hlast]⟩
      · obtain ⟨line, hmem, hline⟩ := ih (rest ++ [c])
        refine ⟨line, ?_, hline⟩
        simpa [Text.linesFrom, hc] using hmem

theorem interrupted_claimText (owner : Owner) (pid acquiredAt : String) :
    interrupted (claimText owner pid acquiredAt) = true := by
  have htext : Text.lines (claimText owner pid acquiredAt) =
      Text.linesFrom (ownerKey ++ [owner.first]).reverse (owner.rest ++ "\npid=".toList ++
        pid.toList ++ "\nacquiredAt=".toList ++ acquiredAt.toList ++ "\n".toList) := by
    have hkey : ownerKey = ['o', 'w', 'n', 'e', 'r', '='] := by decide
    simp [Text.lines, claimText, Owner.text, hkey, Text.linesFrom, owner.visible.1]
  obtain ⟨line, hmem, more, rfl⟩ := exists_line_of_begun owner.visible.2 [] (owner.rest ++
    "\npid=".toList ++ pid.toList ++ "\nacquiredAt=".toList ++ acquiredAt.toList ++ "\n".toList)
  rw [interrupted, htext]
  refine List.any_eq_true.mpr ⟨_, hmem, ?_⟩
  have hdrop : (ownerKey ++ owner.first :: more).dropPrefix? ownerKey =
      some (owner.first :: more) := rfl
  rw [hdrop]
  simp

theorem interrupted_nil : interrupted [] = false := rfl

end Metadata

section Ledger

/-- Some lease ended in a crash or was kept for a restart, and none was released since. -/
def owed (history : List Occurrence) : Bool :=
  history.foldl (fun owed occurrence => match occurrence with
    | .crashed _ | .preserved _ => true
    | .erased _ => false
    | .claimed _ | .answered _ _ => owed) false

/-- The last lease was released. -/
def settled (history : List Occurrence) : Bool :=
  history.foldl (fun settled occurrence => match occurrence with
    | .claimed _ => false
    | .erased _ => true
    | .crashed _ | .preserved _ | .answered _ _ => settled) false

/-- `acquire_interrupted` answers as the history before it asks. -/
def AnswersRight (earlier : List Occurrence) : Occurrence → Prop
  | .answered _ found => (settled earlier = true → found = false) ∧
      (owed earlier = true → found = true)
  | _ => True

def RightAnswers (history : List Occurrence) : Prop := Run.EachAfter AnswersRight history

end Ledger

section Held

@[simp] theorem owed_append (history : List Occurrence) (occurrence : Occurrence) :
    owed (history ++ [occurrence]) = match occurrence with
      | .crashed _ | .preserved _ => true
      | .erased _ => false
      | .claimed _ | .answered _ _ => owed history := by
  simp only [owed, List.foldl_append, List.foldl_cons, List.foldl_nil]

@[simp] theorem settled_append (history : List Occurrence) (occurrence : Occurrence) :
    settled (history ++ [occurrence]) = match occurrence with
      | .claimed _ => false
      | .erased _ => true
      | .crashed _ | .preserved _ | .answered _ _ => settled history := by
  simp only [settled, List.foldl_append, List.foldl_cons, List.foldl_nil]

/-- The lock belongs to the one controller that is at work, and the file names an owner when a
lease is in force or owed; only a takeover between its two writes leaves it without. -/
structure Held (dir : RunDirectory) : Prop where
  holds : ∀ controller, dir.phase controller ≠ .idle ↔ dir.holder = some controller
  claimed : ∀ controller, (dir.phase controller).claimed = true →
    interrupted dir.metadata = true ∧ settled dir.history = false
  settled : settled dir.history = true → interrupted dir.metadata = false
  owed : owed dir.history = true →
    interrupted dir.metadata = true ∨ ∃ controller, dir.phase controller = .truncated
  answers : RightAnswers dir.history

theorem held_fresh : Held .fresh where
  holds _ := by simp [RunDirectory.fresh]
  claimed _ h := by cases h
  settled h := by cases h
  owed h := by cases h
  answers := Run.eachAfter_nil

/-- No controller is killed between the two writes of a takeover while a lease is owed. -/
def Sheltered (dir : RunDirectory) (act : Act) : Prop :=
  ∀ controller, act = .crash controller → dir.phase controller = .truncated →
    Lease.owed dir.history = false

namespace Held

variable {dir : RunDirectory} {controller : Controller}

theorem sole (h : Held dir) (hat : dir.phase controller ≠ .idle) {other : Controller}
    (hother : dir.phase other ≠ .idle) : other = controller :=
  Option.some.inj (((h.holds other).mp hother).symm.trans ((h.holds controller).mp hat))

/-- The controller that is at work, and only it, has come to `phase`. -/
theorem reach {metadata : List Char} {history : List Occurrence} {phase : Phase}
    (hothers : ∀ other, other ≠ controller → dir.phase other = .idle) (hphase : phase ≠ .idle)
    (hclaimed : phase.claimed = true → interrupted metadata = true ∧ Lease.settled history = false)
    (hsettled : Lease.settled history = true → interrupted metadata = false)
    (howed : Lease.owed history = true → interrupted metadata = true ∨ phase = .truncated)
    (hanswers : RightAnswers history) :
    Held ⟨some controller, metadata, Function.update dir.phase controller phase, history⟩ where
  holds other := by
    by_cases hother : other = controller
    · simp [hother, hphase]
    · simp [hother, hothers other hother, Ne.symm hother]
  claimed other h := by
    by_cases hother : other = controller
    · subst hother
      simp only [Function.update_self] at h
      exact hclaimed h
    · simp only [Function.update_of_ne hother, hothers other hother] at h
      cases h
  settled := hsettled
  owed h := by
    rcases howed h with hmarked | htruncated
    · exact .inl hmarked
    · exact .inr ⟨controller, by simp [htruncated]⟩
  answers := hanswers

/-- The lock is free, nobody is at work. -/
theorem leave {metadata : List Char} {history : List Occurrence}
    (hothers : ∀ other, other ≠ controller → dir.phase other = .idle)
    (hsettled : Lease.settled history = true → interrupted metadata = false)
    (howed : Lease.owed history = true → interrupted metadata = true)
    (hanswers : RightAnswers history) :
    Held ⟨none, metadata, Function.update dir.phase controller .idle, history⟩ := by
  have hidle : ∀ other, Function.update dir.phase controller .idle other = .idle := by
    intro other
    by_cases hother : other = controller
    · simp [hother]
    · simp [hother, hothers other hother]
  refine ⟨?_, ?_, hsettled, fun h => .inl (howed h), hanswers⟩
  · intro other
    simp [hidle other]
  · intro other h
    simp only [hidle other] at h
    cases h

theorem others_idle (h : Held dir) (hat : dir.phase controller ≠ .idle) (other : Controller)
    (hother : other ≠ controller) : dir.phase other = .idle := by
  by_contra hne
  exact hother (h.sole hat hne)

/-- Away from the two writes, a lease that is owed is named in the file. -/
theorem marked_of_owed (h : Held dir) (howed : Lease.owed dir.history = true)
    (hother : ∀ other, dir.phase other ≠ .truncated) : interrupted dir.metadata = true := by
  rcases h.owed howed with hmarked | ⟨other, htruncated⟩
  · exact hmarked
  · exact absurd htruncated (hother other)

theorem not_truncated (h : Held dir) (hat : dir.phase controller ≠ .idle)
    (hphase : dir.phase controller ≠ .truncated) (other : Controller) :
    dir.phase other ≠ .truncated := by
  intro htruncated
  have hsame : other = controller := h.sole hat (by rw [htruncated]; decide)
  exact hphase (hsame ▸ htruncated)

theorem lock (h : Held dir) (intent : Intent) (hfree : dir.holder = none) :
    Held { dir.enter controller (.locked intent) with holder := some controller } := by
  have hidle : ∀ other, dir.phase other = .idle := by
    intro other
    by_contra hne
    have hholds := (h.holds other).mp hne
    rw [hfree] at hholds
    cases hholds
  apply reach (fun other _ => hidle other) (by simp) (fun hclaimed => by cases hclaimed) h.settled
  · intro howed
    refine .inl (h.marked_of_owed howed ?_)
    intro other
    rw [hidle other]
    decide
  · exact h.answers

theorem read (h : Held dir) (hat : dir.phase controller = .locked .interrupted) :
    Held (Lease.step dir (.read controller)) := by
  have hidle : dir.phase controller ≠ .idle := by rw [hat]; decide
  have hholder := (h.holds controller).mp hidle
  have howes : Lease.owed dir.history = true → interrupted dir.metadata = true := fun howed =>
    h.marked_of_owed howed (h.not_truncated hidle (by rw [hat]; decide))
  simp only [Lease.step, if_pos hat]
  split
  · next hmarked =>
      simp only [RunDirectory.enter, RunDirectory.record, hholder]
      apply reach (h.others_idle hidle) (by decide)
      · intro hclaimed
        cases hclaimed
      · simpa using h.settled
      · exact fun _ => .inl hmarked
      · apply h.answers.concat
        refine ⟨?_, fun _ => rfl⟩
        intro hsettled
        rw [h.settled hsettled] at hmarked
        cases hmarked
  · next hempty =>
      simp only [RunDirectory.enter, RunDirectory.record, hholder]
      apply reach (h.others_idle hidle) (by decide)
      · intro hclaimed
        cases hclaimed
      · simpa using h.settled
      · intro howed
        exact absurd (howes (by simpa using howed)) hempty
      · apply h.answers.concat
        exact ⟨fun _ => rfl, fun howed => absurd (howes howed) hempty⟩

theorem truncate (h : Held dir) (hat : dir.phase controller ≠ .idle) :
    Held { dir.enter controller .truncated with metadata := [] } := by
  simp only [RunDirectory.enter, (h.holds controller).mp hat]
  exact reach (h.others_idle hat) (by decide) (fun hclaimed => by cases hclaimed)
    (fun _ => interrupted_nil) (fun _ => .inr rfl) h.answers

theorem write (h : Held dir) (hat : dir.phase controller = .truncated) (owner : Owner)
    (pid acquiredAt : String) :
    Held { (dir.enter controller .leased).record (.claimed controller) with
      metadata := claimText owner pid acquiredAt } := by
  have hidle : dir.phase controller ≠ .idle := by rw [hat]; decide
  have hmarked := interrupted_claimText owner pid acquiredAt
  simp only [RunDirectory.enter, RunDirectory.record, (h.holds controller).mp hidle]
  apply reach (h.others_idle hidle) (by decide)
  · exact fun _ => ⟨hmarked, by simp⟩
  · intro hsettled
    simp at hsettled
  · exact fun _ => .inl hmarked
  · exact h.answers.concat trivial

theorem drop (h : Held dir) (hat : dir.phase controller = .leased) (apiShutdown : Option Bool)
    (record : Option RunState) : Held (Lease.step dir (.drop controller apiShutdown record)) := by
  have hidle : dir.phase controller ≠ .idle := by rw [hat]; decide
  have hclaimed : (dir.phase controller).claimed = true := by rw [hat]; rfl
  obtain ⟨hmarked, hunsettled⟩ := h.claimed controller hclaimed
  simp only [Lease.step, if_pos hat]
  split
  · simp only [RunDirectory.enter, RunDirectory.record, (h.holds controller).mp hidle]
    apply reach (h.others_idle hidle) (by decide)
    · intro hclosing
      cases hclosing
    · simpa using h.settled
    · exact fun _ => .inl hmarked
    · exact h.answers.concat trivial
  · simp only [RunDirectory.enter, (h.holds controller).mp hidle]
    exact reach (h.others_idle hidle) (by decide) (fun _ => ⟨hmarked, hunsettled⟩) h.settled
      (fun _ => .inl hmarked) h.answers

theorem erase (h : Held dir) (hat : dir.phase controller = .releasing) :
    Held { (dir.enter controller .closing).record (.erased controller) with metadata := [] } := by
  have hidle : dir.phase controller ≠ .idle := by rw [hat]; decide
  simp only [RunDirectory.enter, RunDirectory.record, (h.holds controller).mp hidle]
  apply reach (h.others_idle hidle) (by decide)
  · intro hclosing
    cases hclosing
  · exact fun _ => interrupted_nil
  · intro howed
    simp at howed
  · exact h.answers.concat trivial

theorem unlock (h : Held dir) (hat : dir.phase controller ≠ .idle)
    (hphase : dir.phase controller ≠ .truncated) :
    Held { dir.enter controller .idle with holder := none } := by
  apply leave (h.others_idle hat) h.settled
  · exact fun howed => h.marked_of_owed howed (h.not_truncated hat hphase)
  · exact h.answers

theorem crash (h : Held dir) (hsheltered : Sheltered dir (.crash controller)) :
    Held (Lease.step dir (.crash controller)) := by
  simp only [Lease.step]
  split
  · next hholder =>
      have hidle : dir.phase controller ≠ .idle := (h.holds controller).mpr hholder
      split
      · next hclaimed =>
          obtain ⟨hmarked, -⟩ := h.claimed controller hclaimed
          apply leave (h.others_idle hidle)
          · intro hsettled
            exact h.settled (by simpa using hsettled)
          · exact fun _ => hmarked
          · exact h.answers.concat trivial
      · apply leave (h.others_idle hidle) h.settled
        · intro howed
          apply h.marked_of_owed howed
          apply h.not_truncated hidle
          intro htruncated
          rw [hsheltered controller rfl htruncated] at howed
          cases howed
        · exact h.answers
  · exact h

theorem step (h : Held dir) (act : Act) (hsheltered : Sheltered dir act) :
    Held (Lease.step dir act) := by
  cases act with
  | lock controller intent =>
      simp only [Lease.step]
      split
      · next hfree => exact h.lock intent hfree.2
      · exact h
  | read controller =>
      by_cases hat : dir.phase controller = .locked .interrupted
      · exact h.read hat
      · simp only [Lease.step, if_neg hat]
        exact h
  | truncate controller =>
      simp only [Lease.step]
      split
      · next hat =>
          apply h.truncate
          rcases hat with hlocked | hclaiming
          · rw [hlocked]; decide
          · rw [hclaiming]; decide
      · exact h
  | write controller owner pid acquiredAt =>
      simp only [Lease.step]
      split
      · next hat => exact h.write hat owner pid acquiredAt
      · exact h
  | drop controller apiShutdown record =>
      by_cases hat : dir.phase controller = .leased
      · exact h.drop hat apiShutdown record
      · simp only [Lease.step, if_neg hat]
        exact h
  | erase controller =>
      simp only [Lease.step]
      split
      · next hat => exact h.erase hat
      · exact h
  | unlock controller =>
      simp only [Lease.step]
      split
      · next hat =>
          rcases hat with hclosing | hprobe
          · exact h.unlock (by rw [hclosing]; decide) (by rw [hclosing]; decide)
          · exact h.unlock (by rw [hprobe]; decide) (by rw [hprobe]; decide)
      · exact h
  | crash controller => exact h.crash hsheltered

end Held

/-- One lease at a time; a finished run is not adopted, an interrupted one is. -/
structure Adopted (dir : RunDirectory) : Prop where
  exclusive : ∀ controller other, (dir.phase controller).claimed = true →
    (dir.phase other).claimed = true → controller = other
  answers : RightAnswers dir.history

theorem Held.adopted {dir : RunDirectory} (h : Held dir) : Adopted dir where
  exclusive controller other hclaimed hother := by
    have hne : ∀ held, (dir.phase held).claimed = true → dir.phase held ≠ .idle := by
      intro held hheld hidle
      rw [hidle] at hheld
      cases hheld
    exact h.sole (hne other hother) (hne controller hclaimed)
  answers := h.answers

/-- In every interleaving in which no takeover is killed between its two writes while a lease is
owed, leases exclude each other and startup adopts exactly what was interrupted. -/
theorem interrupted_adopted (acts : List Act) (hsheltered : Run.Along step Sheltered .fresh acts) :
    Run.Throughout step Adopted .fresh acts := by
  apply Run.throughout_of_invariant Held
  · exact fun dir act hheld hact => hheld.step act hact
  · exact fun dir hheld => hheld.adopted
  · exact held_fresh
  · exact hsheltered

def api : Owner := ⟨'a', "pi".toList, by decide⟩

/-- A controller dies in the middle of a run, and startup takes the run over. -/
def adoption : List Act :=
  [.lock 0 .acquire, .truncate 0, .write 0 api "1" "t0", .crash 0, .lock 1 .interrupted, .read 1]

theorem interrupted_adopted_adoption :
    Run.Along step Sheltered .fresh adoption ∧ Run.Throughout step Adopted .fresh adoption ∧
      (Run.exec step .fresh adoption).history =
        [.claimed 0, .crashed 0, .answered 1 true] := by
  have hsheltered : Run.Along step Sheltered .fresh adoption := by
    refine ⟨?_, ?_, ?_, ?_, ?_, ?_, trivial⟩
    · rintro controller hcrash
      cases hcrash
    · rintro controller hcrash
      cases hcrash
    · rintro controller hcrash
      cases hcrash
    · rintro controller hcrash htruncated
      cases hcrash
      revert htruncated
      decide
    · rintro controller hcrash
      cases hcrash
    · rintro controller hcrash
      cases hcrash
  exact ⟨hsheltered, interrupted_adopted adoption hsheltered, by decide⟩

/-- The takeover is killed after it emptied the file, and the next startup looks again. -/
def lostMarker : List Act :=
  adoption ++ [Act.truncate 1, .crash 1, .lock 2 .interrupted, .read 2]

/-- The run was interrupted and never released, yet the second startup does not adopt it. -/
theorem lostMarker_not_adopted : ¬ Adopted (Run.exec step .fresh lostMarker) := by
  intro h
  have hhistory : (Run.exec step .fresh lostMarker).history =
      [Occurrence.claimed 0, .crashed 0, .answered 1 true] ++ .answered 2 false :: [] := by decide
  have hanswer : false = true := (h.answers _ (.answered 2 false) [] hhistory).2 (by decide)
  cases hanswer

end Held

end SceneWorks.FilmRun.Lease
