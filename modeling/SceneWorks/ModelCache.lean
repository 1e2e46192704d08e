import SceneWorks.Library.Crash
import SceneWorks.Library.Run
import Mathlib.Data.List.Induction

/-!
The single-resident model cache. One thread owns one slot and serves jobs in turn; a job's
closures answer, fail or panic, and the slot is dropped after a panic or when idle. The
thread records what it does, the job it serves now apart from the ones before.
-/

namespace SceneWorks.ModelCache

inductive WorkerError where
  | engine (message : String)
  | canceled (message : String)
  | other (message : String)

/-- How a closure of a job ends; a panic carries a text if its payload was one. -/
inductive Outcome (α : Type) where
  | ok (value : α)
  | err (error : WorkerError)
  | panic (payload : Option String)

inductive Abort where
  | error (error : WorkerError)
  | panic (payload : Option String)

inductive CacheAccess where
  | cold
  | warm
deriving DecidableEq

structure Entry (K M : Type) where
  key : K
  model : M

inductive Event (K M : Type) where
  | admitting
  | loading (key : K)
  | loaded (key : K) (model : M)
  | dropped (model : M)
  | released
  | ran (key : K) (model : M) (access : CacheAccess)
  | panicked
  | idled

structure CacheThread (K M : Type) where
  entry : Option (Entry K M)
  evictBeforeLoad : Bool
  past : List (Event K M)
  own : List (Event K M)

variable {K M R α : Type}

def CacheThread.new (evictBeforeLoad : Bool) : CacheThread K M := ⟨none, evictBeforeLoad, [], []⟩

def CacheThread.trace (cache : CacheThread K M) : List (Event K M) := cache.past ++ cache.own

abbrev Work (K M : Type) := EStateM Abort (CacheThread K M)

def note (event : Event K M) : Work K M Unit :=
  modify fun cache => { cache with own := cache.own ++ [event] }

def call : Outcome α → Work K M α
  | .ok value => pure value
  | .err error => throw (.error error)
  | .panic payload => do
      note .panicked
      throw (.panic payload)

/-- The assignment of `None` to the slot. -/
def clear : Work K M Unit :=
  modify fun cache => { cache with
    entry := none
    own := cache.own ++ (cache.entry.map fun entry => .dropped entry.model).toList }

def releaseBackendCacheAfterEvict : Work K M Unit := note .released

def releaseBeforeLoad : Work K M Unit := do
  if (← get).evictBeforeLoad then releaseBackendCacheAfterEvict

def install (key : K) (model : M) : Work K M Unit :=
  modify fun cache => { cache with entry := some ⟨key, model⟩ }

def runEntry (key : K) (access : CacheAccess) (run : M → CacheAccess → Outcome R)
    (entryMissingMsg : String) : Work K M R := do
  match (← get).entry with
  | none => throw (.error (.engine entryMissingMsg))
  | some entry => do
      note (.ran key entry.model access)
      call (run entry.model access)

def hits [BEq K] (cache : CacheThread K M) (key : K) : Bool :=
  cache.entry.any fun entry => entry.key == key

section Ordinary

/-- A miss of the ordinary run: the resident is dropped once its replacement is admitted. -/
def loadAdmitted (key : K) (coldAdmission : Option (K × M) → Outcome Unit) (load : Outcome M) :
    Work K M Unit := do
  note .admitting
  call (coldAdmission ((← get).entry.map fun entry => (entry.key, entry.model)))
  clear
  releaseBeforeLoad
  note (.loading key)
  let model ← call load
  note (.loaded key model)
  install key model

def withModelAccessAfterColdAdmission [BEq K] (key : K)
    (coldAdmission : Option (K × M) → Outcome Unit) (load : Outcome M)
    (run : M → CacheAccess → Outcome R) (entryMissingMsg : String) : Work K M R := do
  if hits (← get) key then runEntry key .warm run entryMissingMsg
  else do
    loadAdmitted key coldAdmission load
    runEntry key .cold run entryMissingMsg

end Ordinary

section ColdEvict

/-- The places where a cold-evict run looks whether its request is still wanted. -/
inductive Check where
  | queued
  | beforeEvict
  | afterEvict
  | afterAdmission
  | afterLoad
  | beforeRun
deriving DecidableEq

/-- The check after the load: a model nobody waits for is dropped, by hand or by unwinding. -/
def keepLoaded (model : M) : Outcome Unit → Work K M Unit
  | .ok _ => pure ()
  | .err error => do
      note (.dropped model)
      releaseBackendCacheAfterEvict
      throw (.error error)
  | .panic payload => do
      note .panicked
      note (.dropped model)
      throw (.panic payload)

def loadEvicted (key : K) (cancelCheck : Check → Outcome Unit) (coldAdmission : Outcome Unit)
    (load : Outcome M) : Work K M Unit := do
  call (cancelCheck .beforeEvict)
  clear
  releaseBeforeLoad
  call (cancelCheck .afterEvict)
  note .admitting
  call coldAdmission
  call (cancelCheck .afterAdmission)
  note (.loading key)
  let model ← call load
  note (.loaded key model)
  keepLoaded model (cancelCheck .afterLoad)
  install key model

def dropResident : Work K M Unit := do
  if (← get).entry.isSome then do
    clear
    releaseBackendCacheAfterEvict

/-- The check at the run boundary: a canceled cold run takes its model with it. -/
def keepResident (access : CacheAccess) : Outcome Unit → Work K M Unit
  | .ok _ => pure ()
  | .err error => do
      if access = .cold then dropResident
      throw (.error error)
  | .panic payload => do
      note .panicked
      throw (.panic payload)

def withModelAccessAfterColdEvict [BEq K] (key : K) (cancelCheck : Check → Outcome Unit)
    (coldAdmission : Outcome Unit) (load : Outcome M) (run : M → CacheAccess → Outcome R)
    (entryMissingMsg : String) : Work K M R := do
  call (cancelCheck .queued)
  if hits (← get) key then do
    keepResident .warm (cancelCheck .beforeRun)
    runEntry key .warm run entryMissingMsg
  else do
    loadEvicted key cancelCheck coldAdmission load
    keepResident .cold (cancelCheck .beforeRun)
    runEntry key .cold run entryMissingMsg

end ColdEvict

section Worker

structure SeamMessages where
  entryMissing : String
  panicReset : String

inductive Request (K M R : Type) where
  | ordinary (key : K) (coldAdmission : Option (K × M) → Outcome Unit) (load : Outcome M)
      (run : M → CacheAccess → Outcome R)
  | coldEvict (key : K) (abandoned : Check → Bool) (cancelCheck : Check → Outcome Unit)
      (coldAdmission : Outcome Unit) (load : Outcome M) (run : M → CacheAccess → Outcome R)

def Request.key : Request K M R → K
  | .ordinary key _ _ _ | .coldEvict key _ _ _ _ _ => key

/-- A job may also panic outside the guard around its request: before it, or when it replies. -/
structure CacheJob (K M R : Type) where
  request : Request K M R
  msgs : SeamMessages
  installPanics : Bool
  replyPanics : Bool

def requestActive (abandoned : Check → Bool) (cancelCheck : Check → Outcome Unit) (place : Check) :
    Outcome Unit :=
  if abandoned place then .err (.canceled "Model cache request was abandoned.")
  else cancelCheck place

def serve [BEq K] (msgs : SeamMessages) : Request K M R → Work K M R
  | .ordinary key coldAdmission load run =>
      withModelAccessAfterColdAdmission key coldAdmission load run msgs.entryMissing
  | .coldEvict key abandoned cancelCheck coldAdmission load run =>
      withModelAccessAfterColdEvict key (requestActive abandoned cancelCheck) coldAdmission load run
        msgs.entryMissing

def panicMessage (payload : Option String) : String := payload.getD "unknown panic payload"

namespace CacheThread

def noted (cache : CacheThread K M) (event : Event K M) : CacheThread K M :=
  { cache with own := cache.own ++ [event] }

/-- Drop the resident, if there is one, and release the backend's cache with it. -/
def evict (cache : CacheThread K M) : CacheThread K M :=
  match cache.entry with
  | some entry =>
      { cache with entry := none, own := cache.own ++ [Event.dropped entry.model, .released] }
  | none => cache

def begun (cache : CacheThread K M) : CacheThread K M :=
  { cache with past := cache.trace, own := [] }

end CacheThread

def guard (msgs : SeamMessages) :
    EStateM.Result Abort (CacheThread K M) R → Except WorkerError R × CacheThread K M
  | .ok value cache => (.ok value, cache)
  | .error (.error error) cache => (.error error, cache)
  | .error (.panic payload) cache =>
      (.error (.engine (msgs.panicReset ++ ": " ++ panicMessage payload)), cache.evict)

/-- One job under both guards, with the reply its caller gets. -/
def runJob [BEq K] (job : CacheJob K M R) (cache : CacheThread K M) :
    Option (Except WorkerError R) × CacheThread K M :=
  if job.installPanics then (none, (cache.noted .panicked).evict)
  else
    let (reply, cache) := guard job.msgs (serve job.msgs job.request cache)
    if job.replyPanics then (none, (cache.noted .panicked).evict) else (some reply, cache)

inductive WorkerEvent (K M R : Type) where
  | job (job : CacheJob K M R)
  | idleTimeout

/-- One turn of `run_cache_worker`. -/
def turn [BEq K] (cache : CacheThread K M) : WorkerEvent K M R → CacheThread K M
  | .job job => (runJob job cache.begun).2
  | .idleTimeout => (cache.begun.noted .idled).evict

end Worker

/-- What dropping a resident and the optional release before the load record. -/
def clearing (evictBeforeLoad : Bool) (entry : Option (Entry K M)) : List (Event K M) :=
  (entry.map fun entry => Event.dropped entry.model).toList ++
  if evictBeforeLoad then [Event.released] else []

/-- What comes before a load: the ordinary run admits before it drops, the cold-evict run after. -/
def leading (evicts evictBeforeLoad : Bool) (entry : Option (Entry K M)) : List (Event K M) :=
  if evicts then clearing evictBeforeLoad entry ++ [Event.admitting]
  else .admitting :: clearing evictBeforeLoad entry

section Steps

variable {reached : CacheThread K M}

theorem runEntry_of_some {entry : Entry K M} (hentry : reached.entry = some entry) (key : K)
    (access : CacheAccess) (run : M → CacheAccess → Outcome R) (entryMissingMsg : String) :
    runEntry key access run entryMissingMsg reached =
      call (run entry.model access) (reached.noted (.ran key entry.model access)) := by
  obtain ⟨held, evictBeforeLoad, past, own⟩ := reached
  obtain rfl : held = some entry := hentry
  rfl

theorem releaseBeforeLoad_eq : releaseBeforeLoad reached = .ok ()
    { reached with
      own := reached.own ++ if reached.evictBeforeLoad then [Event.released] else [] } := by
  obtain ⟨entry, evictBeforeLoad, past, own⟩ := reached
  cases evictBeforeLoad with
  | false =>
      show EStateM.Result.ok () _ = _
      simp
  | true => rfl

/-- Dropping the resident before a load, wherever in the run it stands. -/
def CacheThread.cleared (cache : CacheThread K M) : CacheThread K M :=
  { cache with entry := none, own := cache.own ++ clearing cache.evictBeforeLoad cache.entry }

theorem bind_clear {next : Unit → Work K M R} :
    (clear >>= fun _ => releaseBeforeLoad >>= next) reached = next () reached.cleared := by
  show (releaseBeforeLoad >>= next) { reached with
    entry := none
    own := reached.own ++ (reached.entry.map fun entry => .dropped entry.model).toList } = _
  rw [Crash.bind_of_ok releaseBeforeLoad_eq]
  simp only [CacheThread.cleared, clearing, List.append_assoc]

/-- The load's answer is in the slot and goes to the run. -/
theorem bind_install {next : Unit → Work K M R} (key : K) (model : M) :
    (note (.loaded key model) >>= fun _ => install key model >>= next) reached =
      next () { reached.noted (.loaded key model) with entry := some ⟨key, model⟩ } := rfl

end Steps

section Does

variable [BEq K]

/-- How far a run for `key` can get, with what it recorded and the slot it leaves. -/
inductive Does (evicts evictBeforeLoad : Bool) (key : K) (entry : Option (Entry K M)) :
    List (Event K M) → Option (Entry K M) → Prop
  | untouched : Does evicts evictBeforeLoad key entry [] entry
  | unadmitted (hmiss : entry.any (·.key == key) = false) (hordinary : evicts = false) :
      Does evicts evictBeforeLoad key entry [.admitting] entry
  | evicted (hmiss : entry.any (·.key == key) = false) (hevicts : evicts = true) :
      Does evicts evictBeforeLoad key entry (clearing evictBeforeLoad entry) none
  | refused (hmiss : entry.any (·.key == key) = false) (hevicts : evicts = true) :
      Does evicts evictBeforeLoad key entry (leading evicts evictBeforeLoad entry) none
  | unloaded (hmiss : entry.any (·.key == key) = false) :
      Does evicts evictBeforeLoad key entry
        (leading evicts evictBeforeLoad entry ++ [Event.loading key]) none
  | discarded (model : M) (hmiss : entry.any (·.key == key) = false) :
      Does evicts evictBeforeLoad key entry (leading evicts evictBeforeLoad entry ++
        [Event.loading key, .loaded key model, .dropped model, .released]) none
  | cold (model : M) (hmiss : entry.any (·.key == key) = false) :
      Does evicts evictBeforeLoad key entry (leading evicts evictBeforeLoad entry ++
        [Event.loading key, .loaded key model, .ran key model .cold]) (some ⟨key, model⟩)
  | warm (resident : Entry K M) (hentry : entry = some resident)
      (hhit : (resident.key == key) = true) :
      Does evicts evictBeforeLoad key entry [.ran key resident.model .warm] entry

/-- How a run ends: it returns, or it panics where it got to. -/
inductive Ends (evicts evictBeforeLoad : Bool) (key : K) (entry : Option (Entry K M)) :
    Bool → List (Event K M) → Option (Entry K M) → Prop
  | returned {own : List (Event K M)} {entry' : Option (Entry K M)}
      (h : Does evicts evictBeforeLoad key entry own entry') :
      Ends evicts evictBeforeLoad key entry false own entry'
  | panicked {own : List (Event K M)} {entry' : Option (Entry K M)}
      (h : Does evicts evictBeforeLoad key entry own entry') :
      Ends evicts evictBeforeLoad key entry true (own ++ [Event.panicked]) entry'
  | unwound (model : M) (hmiss : entry.any (·.key == key) = false) :
      Ends evicts evictBeforeLoad key entry true (leading evicts evictBeforeLoad entry ++
        [Event.loading key, .loaded key model, .panicked, .dropped model]) none
  | boundary (model : M) (hmiss : entry.any (·.key == key) = false) :
      Ends evicts evictBeforeLoad key entry true (leading evicts evictBeforeLoad entry ++
        [Event.loading key, .loaded key model, .panicked]) (some ⟨key, model⟩)

def panics : EStateM.Result Abort (CacheThread K M) R → Bool
  | .error (.panic _) _ => true
  | _ => false

structure Ended (evicts : Bool) (key : K) (cache : CacheThread K M)
    (result : EStateM.Result Abort (CacheThread K M) R) : Prop where
  past : (Crash.final result).past = cache.past
  evictBeforeLoad : (Crash.final result).evictBeforeLoad = cache.evictBeforeLoad
  own : ∃ own, (Crash.final result).own = cache.own ++ own ∧
    Ends evicts cache.evictBeforeLoad key cache.entry (panics result) own (Crash.final result).entry

/-- The run for `key` on `cache` has got to `reached`, with `own` to show for it. -/
structure Reached (evicts : Bool) (key : K) (cache : CacheThread K M) (own : List (Event K M))
    (reached : CacheThread K M) : Prop where
  past : reached.past = cache.past
  evictBeforeLoad : reached.evictBeforeLoad = cache.evictBeforeLoad
  recorded : reached.own = cache.own ++ own
  does : Does evicts cache.evictBeforeLoad key cache.entry own reached.entry

section Ended

variable {evicts : Bool} {key : K} {cache reached : CacheThread K M} {own : List (Event K M)}

theorem Reached.call (h : Reached evicts key cache own reached) (outcome : Outcome R) :
    Ended evicts key cache (ModelCache.call outcome reached) := by
  cases outcome with
  | ok value => exact ⟨h.past, h.evictBeforeLoad, own, h.recorded, .returned h.does⟩
  | err error => exact ⟨h.past, h.evictBeforeLoad, own, h.recorded, .returned h.does⟩
  | panic payload =>
      have hpanicked : Ends evicts cache.evictBeforeLoad key cache.entry true
          (own ++ [Event.panicked]) reached.entry := .panicked h.does
      refine ⟨h.past, h.evictBeforeLoad, _, ?_, hpanicked⟩
      show reached.own ++ [Event.panicked] = cache.own ++ (own ++ [Event.panicked])
      rw [h.recorded, List.append_assoc]

theorem Reached.bind_call (h : Reached evicts key cache own reached) {outcome : Outcome α}
    {next : α → Work K M R}
    (hnext : ∀ value, outcome = .ok value → Ended evicts key cache (next value reached)) :
    Ended evicts key cache ((ModelCache.call outcome >>= next) reached) := by
  cases outcome with
  | ok value => exact hnext value rfl
  | err error => exact h.call (.err error : Outcome R)
  | panic payload => exact h.call (.panic payload : Outcome R)

/-- The resident found under the key is run. -/
theorem ended_warm {resident : Entry K M} (hentry : cache.entry = some resident)
    (hkey : (resident.key == key) = true) (run : M → CacheAccess → Outcome R)
    (entryMissingMsg : String) :
    Ended evicts key cache (runEntry key .warm run entryMissingMsg cache) := by
  rw [runEntry_of_some hentry]
  have hwarm : Reached evicts key cache [.ran key resident.model .warm]
      (cache.noted (.ran key resident.model .warm)) :=
    ⟨rfl, rfl, rfl, .warm resident hentry hkey⟩
  exact hwarm.call _

/-- The load has been called for, and what it answers goes to `next`. -/
theorem ended_load {load : Outcome M} {next : M → Work K M R}
    (hmiss : cache.entry.any (·.key == key) = false) (hpast : reached.past = cache.past)
    (hflag : reached.evictBeforeLoad = cache.evictBeforeLoad) (hentry : reached.entry = none)
    (hown : reached.own = cache.own ++ leading evicts cache.evictBeforeLoad cache.entry)
    (hnext : ∀ model, Ended evicts key cache (next model (reached.noted (.loading key)))) :
    Ended evicts key cache ((note (.loading key) >>= fun _ => ModelCache.call load >>= next)
        reached) := by
  have hloading : Reached evicts key cache
      (leading evicts cache.evictBeforeLoad cache.entry ++ [Event.loading key])
      (reached.noted (.loading key)) := by
    refine ⟨hpast, hflag, ?_, ?_⟩
    · simp [CacheThread.noted, hown]
    · show Does _ _ _ _ _ reached.entry
      rw [hentry]
      exact .unloaded hmiss
  exact hloading.bind_call fun model _ => hnext model

/-- What was loaded is in the slot and is run. -/
theorem ended_cold {model : M} (hmiss : cache.entry.any (·.key == key) = false)
    (hpast : reached.past = cache.past) (hflag : reached.evictBeforeLoad = cache.evictBeforeLoad)
    (hentry : reached.entry = some ⟨key, model⟩)
    (hown : reached.own = cache.own ++ (leading evicts cache.evictBeforeLoad cache.entry ++
      [Event.loading key, .loaded key model])) {run : M → CacheAccess → Outcome R}
    {entryMissingMsg : String} :
    Ended evicts key cache (runEntry key .cold run entryMissingMsg reached) := by
  rw [runEntry_of_some hentry]
  have hcold : Reached evicts key cache (leading evicts cache.evictBeforeLoad cache.entry ++
      [Event.loading key, .loaded key model, .ran key model .cold])
      (reached.noted (.ran key model .cold)) := by
    refine ⟨hpast, hflag, ?_, ?_⟩
    · simp [CacheThread.noted, hown]
    · show Does _ _ _ _ _ reached.entry
      rw [hentry]
      exact .cold model hmiss
  exact hcold.call _

end Ended

theorem ended_ordinary (key : K) (coldAdmission : Option (K × M) → Outcome Unit) (load : Outcome M)
    (run : M → CacheAccess → Outcome R) (entryMissingMsg : String) (cache : CacheThread K M) :
    Ended false key cache
      (withModelAccessAfterColdAdmission key coldAdmission load run entryMissingMsg cache) := by
  show Ended false key cache ((if hits cache key then _ else _ : Work K M R) cache)
  cases hhit : hits cache key with
  | true =>
      obtain ⟨resident, hentry, hkey⟩ := (Option.any_eq_true _ _).mp hhit
      exact ended_warm hentry hkey run entryMissingMsg
  | false =>
      simp only [Bool.false_eq_true, if_false, loadAdmitted, bind_assoc]
      have hasked : Reached false key cache [.admitting] (cache.noted .admitting) :=
        ⟨rfl, rfl, rfl, .unadmitted hhit rfl⟩
      apply hasked.bind_call
      intro _ _
      rw [bind_clear]
      refine ended_load hhit ?_ ?_ ?_ ?_ ?_
      · rfl
      · rfl
      · rfl
      · simp [leading, CacheThread.noted, CacheThread.cleared]
      · intro model
        rw [bind_install]
        apply ended_cold hhit
        · rfl
        · rfl
        · rfl
        · simp [leading, CacheThread.noted, CacheThread.cleared]

/-- The check after the load, on a model that is in nobody's slot yet. -/
theorem ended_keepLoaded {key : K} {cache reached : CacheThread K M} {model : M}
    {outcome : Outcome Unit} {next : Unit → Work K M R}
    (hmiss : cache.entry.any (·.key == key) = false) (hpast : reached.past = cache.past)
    (hflag : reached.evictBeforeLoad = cache.evictBeforeLoad) (hentry : reached.entry = none)
    (hown : reached.own = cache.own ++ (leading true cache.evictBeforeLoad cache.entry ++
      [Event.loading key, .loaded key model]))
    (hnext : outcome = .ok () → Ended true key cache (next () reached)) :
    Ended true key cache ((keepLoaded model outcome >>= next) reached) := by
  cases outcome with
  | ok value => exact hnext rfl
  | err error =>
      have hdiscarded : Reached true key cache (leading true cache.evictBeforeLoad cache.entry ++
          [Event.loading key, .loaded key model, .dropped model, .released])
          ((reached.noted (.dropped model)).noted .released) := by
        refine ⟨hpast, hflag, ?_, ?_⟩
        · simp [CacheThread.noted, hown]
        · show Does _ _ _ _ _ reached.entry
          rw [hentry]
          exact .discarded model hmiss
      exact hdiscarded.call (.err error : Outcome R)
  | panic payload =>
      have hunwound : Ends true cache.evictBeforeLoad key cache.entry true
          (leading true cache.evictBeforeLoad cache.entry ++
            [Event.loading key, .loaded key model, .panicked, .dropped model]) reached.entry := by
        rw [hentry]
        exact .unwound model hmiss
      refine ⟨hpast, hflag, _, ?_, hunwound⟩
      show reached.own ++ [Event.panicked] ++ [Event.dropped model] = _
      simp [hown]

/-- The check at the run boundary of a cold run, then the run. -/
theorem ended_keepResident_cold {key : K} {cache reached : CacheThread K M} {model : M}
    {outcome : Outcome Unit} {run : M → CacheAccess → Outcome R} {entryMissingMsg : String}
    (hmiss : cache.entry.any (·.key == key) = false) (hpast : reached.past = cache.past)
    (hflag : reached.evictBeforeLoad = cache.evictBeforeLoad)
    (hentry : reached.entry = some ⟨key, model⟩)
    (hown : reached.own = cache.own ++ (leading true cache.evictBeforeLoad cache.entry ++
      [Event.loading key, .loaded key model])) :
    Ended true key cache ((keepResident .cold outcome >>= fun _ =>
      runEntry key .cold run entryMissingMsg) reached) := by
  cases outcome with
  | ok value => exact ended_cold hmiss hpast hflag hentry hown
  | err error =>
      obtain ⟨entry, evictBeforeLoad, past, own⟩ := reached
      obtain rfl : entry = some ⟨key, model⟩ := hentry
      have hdiscarded : Reached true key cache (leading true cache.evictBeforeLoad cache.entry ++
          [Event.loading key, .loaded key model, .dropped model, .released])
          ⟨none, evictBeforeLoad, past, own ++ [Event.dropped model] ++ [Event.released]⟩ := by
        refine ⟨hpast, hflag, ?_, .discarded model hmiss⟩
        have hrecorded : own = cache.own ++ (leading true cache.evictBeforeLoad cache.entry ++
          [Event.loading key, .loaded key model]) := hown
        simp [hrecorded]
      exact hdiscarded.call (.err error : Outcome R)
  | panic payload =>
      have hboundary : Ends true cache.evictBeforeLoad key cache.entry true
          (leading true cache.evictBeforeLoad cache.entry ++
            [Event.loading key, .loaded key model, .panicked]) reached.entry := by
        rw [hentry]
        exact .boundary model hmiss
      refine ⟨hpast, hflag, _, ?_, hboundary⟩
      show reached.own ++ [Event.panicked] = _
      simp [hown]

theorem ended_coldEvict (key : K) (cancelCheck : Check → Outcome Unit)
    (coldAdmission : Outcome Unit) (load : Outcome M) (run : M → CacheAccess → Outcome R)
    (entryMissingMsg : String) (cache : CacheThread K M) :
    Ended true key cache
      (withModelAccessAfterColdEvict key cancelCheck coldAdmission load run entryMissingMsg
        cache) := by
  have hqueued : Reached true key cache [] cache := ⟨rfl, rfl, by simp, .untouched⟩
  apply hqueued.bind_call
  intro _ _
  show Ended true key cache ((if hits cache key then _ else _ : Work K M R) cache)
  cases hhit : hits cache key with
  | true =>
      obtain ⟨resident, hentry, hkey⟩ := (Option.any_eq_true _ _).mp hhit
      cases houtcome : cancelCheck .beforeRun with
      | ok value => exact ended_warm hentry hkey run entryMissingMsg
      | err error => exact hqueued.call (.err error : Outcome R)
      | panic payload => exact hqueued.call (.panic payload : Outcome R)
  | false =>
      simp only [Bool.false_eq_true, if_false, loadEvicted, bind_assoc]
      apply hqueued.bind_call
      intro _ _
      rw [bind_clear]
      have hevicted : Reached true key cache (clearing cache.evictBeforeLoad cache.entry)
          cache.cleared := ⟨rfl, rfl, rfl, .evicted hhit rfl⟩
      apply hevicted.bind_call
      intro _ _
      have hasked : Reached true key cache (leading true cache.evictBeforeLoad cache.entry)
          (cache.cleared.noted .admitting) :=
        ⟨rfl, rfl, by simp [leading, CacheThread.noted, CacheThread.cleared], .refused hhit rfl⟩
      apply hasked.bind_call
      intro _ _
      apply hasked.bind_call
      intro _ _
      refine ended_load hhit ?_ ?_ ?_ ?_ ?_
      · rfl
      · rfl
      · rfl
      · exact hasked.recorded
      · intro model
        refine ended_keepLoaded hhit ?_ ?_ ?_ ?_ ?_
        · rfl
        · rfl
        · rfl
        · simp [leading, CacheThread.noted, CacheThread.cleared]
        · intro _
          apply ended_keepResident_cold hhit
          · rfl
          · rfl
          · rfl
          · simp [leading, CacheThread.noted, CacheThread.cleared]

def Request.evicts : Request K M R → Bool
  | .ordinary _ _ _ _ => false
  | .coldEvict _ _ _ _ _ _ => true

theorem ended_serve (msgs : SeamMessages) (request : Request K M R) (cache : CacheThread K M) :
    Ended request.evicts request.key cache (serve msgs request cache) := by
  cases request with
  | ordinary key coldAdmission load run => exact ended_ordinary key coldAdmission load run _ cache
  | coldEvict key abandoned cancelCheck coldAdmission load run =>
      exact ended_coldEvict key _ coldAdmission load run _ cache

end Does

section Monitor

/-- What the record says of the resident: the model that may be run with the key it was loaded
for, and how many models are alive. -/
structure Monitor (K M : Type) where
  trusted : Option (K × M)
  live : Nat

def watch (monitor : Monitor K M) : Event K M → Monitor K M
  | .loaded key model => ⟨some (key, model), monitor.live + 1⟩
  | .dropped _ => ⟨none, monitor.live - 1⟩
  | .loading _ | .panicked | .idled => ⟨none, monitor.live⟩
  | .admitting | .released | .ran _ _ _ => monitor

variable [BEq K]

/-- A warm run compares keys with the key's own equality; a cold one runs under its own key. -/
def SameKey (loaded key : K) : Prop := loaded = key ∨ (loaded == key) = true

def Allowed (monitor : Monitor K M) : Event K M → Prop
  | .ran key model _ => ∃ loaded, monitor.trusted = some (loaded, model) ∧ SameKey loaded key
  | .loaded _ _ => monitor.live = 0
  | .dropped _ => monitor.live = 1
  | _ => True

def Monitor.of (entry : Option (Entry K M)) : Monitor K M :=
  ⟨entry.map fun entry => (entry.key, entry.model), if entry.isSome then 1 else 0⟩

/-- The events are allowed from a slot `entry` on, and leave `entry'` in it. -/
structure Moves (entry : Option (Entry K M)) (events : List (Event K M))
    (entry' : Option (Entry K M)) : Prop where
  allowed : Run.Along watch Allowed (.of entry) events
  exec : Run.exec watch (.of entry) events = .of entry'

variable {entry entry' entry'' : Option (Entry K M)} {events events' : List (Event K M)}

theorem Moves.nil (entry : Option (Entry K M)) : Moves entry [] entry := ⟨trivial, rfl⟩

theorem Moves.append (h : Moves entry events entry') (h' : Moves entry' events' entry'') :
    Moves entry (events ++ events') entry'' := by
  constructor
  · rw [Run.along_append, h.exec]
    exact ⟨h.allowed, h'.allowed⟩
  · rw [Run.exec_append, h.exec]
    exact h'.exec

theorem moves_clearing (evictBeforeLoad : Bool) (entry : Option (Entry K M)) :
    Moves entry (clearing evictBeforeLoad entry) none := by
  have hdrop : Moves entry (entry.map fun entry => Event.dropped entry.model).toList none := by
    cases entry with
    | none => exact .nil none
    | some resident => exact ⟨⟨rfl, trivial⟩, rfl⟩
  apply hdrop.append
  cases evictBeforeLoad with
  | false => exact .nil none
  | true => exact ⟨⟨trivial, trivial⟩, rfl⟩

theorem moves_leading (evicts evictBeforeLoad : Bool) (entry : Option (Entry K M)) :
    Moves entry (leading evicts evictBeforeLoad entry) none := by
  have hadmitting (slot : Option (Entry K M)) : Moves slot [.admitting] slot :=
    ⟨⟨trivial, trivial⟩, rfl⟩
  cases evicts with
  | true => exact (moves_clearing evictBeforeLoad entry).append (hadmitting none)
  | false => exact (hadmitting entry).append (moves_clearing evictBeforeLoad entry)

theorem Does.moves {evicts evictBeforeLoad : Bool} {key : K}
    (h : Does evicts evictBeforeLoad key entry events entry') : Moves entry events entry' := by
  have hlead := moves_leading evicts evictBeforeLoad entry
  cases h with
  | untouched => exact .nil entry
  | unadmitted => exact ⟨⟨trivial, trivial⟩, rfl⟩
  | evicted => exact moves_clearing evictBeforeLoad entry
  | refused => exact hlead
  | unloaded => exact hlead.append ⟨⟨trivial, trivial⟩, rfl⟩
  | discarded model =>
      exact hlead.append ⟨⟨trivial, rfl, rfl, trivial, trivial⟩, rfl⟩
  | cold model =>
      exact hlead.append ⟨⟨trivial, rfl, ⟨key, rfl, .inl rfl⟩, trivial⟩, rfl⟩
  | warm resident hentry hhit =>
      subst hentry
      exact ⟨⟨⟨resident.key, rfl, .inr hhit⟩, trivial⟩, rfl⟩

/-- What dropping a resident with its backend cache records. -/
def evicting (entry : Option (Entry K M)) : List (Event K M) :=
  match entry with
  | some entry => [.dropped entry.model, .released]
  | none => []

omit [BEq K] in
theorem CacheThread.evict_eq (cache : CacheThread K M) :
    cache.evict = { cache with entry := none, own := cache.own ++ evicting cache.entry } := by
  obtain ⟨entry, evictBeforeLoad, past, own⟩ := cache
  cases entry with
  | none => simp [CacheThread.evict, evicting]
  | some resident => rfl

theorem moves_evicting (suspect : Event K M) (h : suspect = .panicked ∨ suspect = .idled)
    (entry : Option (Entry K M)) : Moves entry (suspect :: evicting entry) none := by
  rcases h with rfl | rfl
  · cases entry with
    | none => exact ⟨⟨trivial, trivial⟩, rfl⟩
    | some resident => exact ⟨⟨trivial, rfl, trivial, trivial⟩, rfl⟩
  · cases entry with
    | none => exact ⟨⟨trivial, trivial⟩, rfl⟩
    | some resident => exact ⟨⟨trivial, rfl, trivial, trivial⟩, rfl⟩

theorem Ends.moves {evicts evictBeforeLoad : Bool} {key : K}
    (h : Ends evicts evictBeforeLoad key entry true events entry') :
    Moves entry (events ++ evicting entry') none := by
  have hlead := moves_leading evicts evictBeforeLoad entry
  cases h with
  | panicked h =>
      rw [List.append_assoc]
      exact h.moves.append (moves_evicting .panicked (.inl rfl) entry')
  | unwound model =>
      rw [List.append_assoc]
      exact hlead.append ⟨⟨trivial, rfl, trivial, rfl, trivial⟩, rfl⟩
  | boundary model =>
      rw [List.append_assoc]
      exact hlead.append ⟨⟨trivial, rfl, trivial, rfl, trivial, trivial⟩, rfl⟩

end Monitor

section Jobs

variable [BEq K]

/-- What a job records and leaves, under both guards. -/
inductive Turned (evicts evictBeforeLoad : Bool) (key : K) (entry : Option (Entry K M)) :
    List (Event K M) → Option (Entry K M) → Prop
  | served {own : List (Event K M)} {entry' : Option (Entry K M)}
      (h : Does evicts evictBeforeLoad key entry own entry') :
      Turned evicts evictBeforeLoad key entry own entry'
  | crashed {own : List (Event K M)} {entry' : Option (Entry K M)}
      (h : Ends evicts evictBeforeLoad key entry true own entry') :
      Turned evicts evictBeforeLoad key entry (own ++ evicting entry') none
  | escaped {own : List (Event K M)} {entry' : Option (Entry K M)}
      (h : Turned evicts evictBeforeLoad key entry own entry') :
      Turned evicts evictBeforeLoad key entry (own ++ .panicked :: evicting entry') none

omit [BEq K] in
theorem evict_noted_own (cache : CacheThread K M) (event : Event K M) :
    (cache.noted event).evict.own = cache.own ++ event :: evicting cache.entry := by
  rw [CacheThread.evict_eq]
  simp [CacheThread.noted]

omit [BEq K] in
theorem evict_noted_entry (cache : CacheThread K M) (event : Event K M) :
    (cache.noted event).evict.entry = none := by
  rw [CacheThread.evict_eq]

omit [BEq K] in
theorem evict_noted_past (cache : CacheThread K M) (event : Event K M) :
    (cache.noted event).evict.past = cache.past := by
  rw [CacheThread.evict_eq]
  rfl

theorem turned_guard {evicts : Bool} {key : K} {cache : CacheThread K M}
    {result : EStateM.Result Abort (CacheThread K M) R} (h : Ended evicts key cache result)
    (hown : cache.own = []) (msgs : SeamMessages) :
    (guard msgs result).2.past = cache.past ∧
      Turned evicts cache.evictBeforeLoad key cache.entry (guard msgs result).2.own
        (guard msgs result).2.entry := by
  obtain ⟨own, hrecorded, hends⟩ := h.own
  rw [hown, List.nil_append] at hrecorded
  subst hrecorded
  have hpast := h.past
  cases result with
  | ok value cache' =>
      cases hends with
      | returned hdoes => exact ⟨hpast, .served hdoes⟩
  | error abort cache' =>
      cases abort with
      | error error =>
          cases hends with
          | returned hdoes => exact ⟨hpast, .served hdoes⟩
      | panic payload =>
          simp only [guard, CacheThread.evict_eq]
          exact ⟨hpast, .crashed hends⟩

theorem turned_runJob (job : CacheJob K M R) (cache : CacheThread K M) :
    (turn cache (.job job)).past = cache.trace ∧
      Turned job.request.evicts cache.evictBeforeLoad job.request.key cache.entry
        (turn cache (.job job)).own (turn cache (.job job)).entry := by
  have hguard := turned_guard (ended_serve job.msgs job.request cache.begun) rfl job.msgs
  simp only [turn, runJob]
  split
  · rw [evict_noted_past, evict_noted_own, evict_noted_entry]
    exact ⟨rfl, .escaped (.served .untouched)⟩
  · split
    · rw [evict_noted_past, evict_noted_own, evict_noted_entry]
      exact ⟨hguard.1, .escaped hguard.2⟩
    · exact hguard

section Turned

variable {evicts evictBeforeLoad : Bool} {key : K} {entry entry' : Option (Entry K M)}
  {own : List (Event K M)}

omit [BEq K] in
@[simp] theorem mem_evicting {event : Event K M} :
    event ∈ evicting entry ↔
      ∃ resident, entry = some resident ∧
        (event = .dropped resident.model ∨ event = .released) := by
  cases entry with
  | none => simp [evicting]
  | some resident => simp [evicting]

omit [BEq K] in
@[simp] theorem mem_clearing {event : Event K M} :
    event ∈ clearing evictBeforeLoad entry ↔
      (∃ resident, entry = some resident ∧ event = .dropped resident.model) ∨
        (evictBeforeLoad = true ∧ event = .released) := by
  cases entry with
  | none =>
      cases evictBeforeLoad with
      | false => simp [clearing]
      | true => simp [clearing]
  | some resident =>
      cases evictBeforeLoad with
      | false => simp [clearing]
      | true => simp [clearing]

omit [BEq K] in
@[simp] theorem mem_leading {event : Event K M} :
    event ∈ leading evicts evictBeforeLoad entry ↔
      event = .admitting ∨ event ∈ clearing evictBeforeLoad entry := by
  cases evicts with
  | false => simp [leading]
  | true => simp [leading, or_comm]

/-- A run is told that its model was warm exactly when its own job called no load. -/
theorem Does.access (h : Does evicts evictBeforeLoad key entry own entry') {key' : K} {model : M}
    {access : CacheAccess} (hran : .ran key' model access ∈ own) :
    access = .warm ↔ ∀ loading, .loading loading ∉ own := by
  cases h with
  | untouched | unadmitted | evicted | refused | unloaded | discarded =>
      simp at hran
  | cold model' =>
      obtain ⟨-, -, rfl⟩ : key' = key ∧ model = model' ∧ access = .cold := by
        simpa using hran
      simp
  | warm resident =>
      obtain ⟨-, -, rfl⟩ : key' = key ∧ model = resident.model ∧ access = .warm := by
        simpa using hran
      simp

/-- A hit is run or left alone. -/
theorem Does.of_hit (h : Does evicts evictBeforeLoad key entry own entry')
    (hhit : entry.any (·.key == key) = true) :
    entry' = entry ∧ .admitting ∉ own ∧ ∀ loading, .loading loading ∉ own := by
  cases h with
  | untouched => simp
  | warm resident => simp
  | unadmitted hmiss | evicted hmiss | refused hmiss | unloaded hmiss | discarded _ hmiss
    | cold _ hmiss =>
      rw [hhit] at hmiss
      cases hmiss

theorem Does.not_panicked (h : Does evicts evictBeforeLoad key entry own entry') :
    .panicked ∉ own := by
  cases h with
  | untouched | unadmitted | evicted | refused | unloaded | discarded | cold | warm =>
      simp

/-- A load that did not come to a run leaves nothing. -/
theorem Does.unserved (h : Does evicts evictBeforeLoad key entry own entry') {loading : K}
    (hload : .loading loading ∈ own) (hran : ∀ key model access, .ran key model access ∉ own) :
    entry' = none := by
  cases h with
  | untouched | unadmitted | warm => simp at hload
  | evicted | refused | unloaded | discarded => rfl
  | cold model => exact absurd (by simp) (hran key model .cold)

theorem Ends.access (h : Ends evicts evictBeforeLoad key entry true own entry') {key' : K}
    {model : M} {access : CacheAccess} (hran : .ran key' model access ∈ own) :
    access = .warm ↔ ∀ loading, .loading loading ∉ own := by
  cases h with
  | panicked h =>
      have hdoes := h.access (by simpa using hran)
      simpa using hdoes
  | unwound | boundary => simp at hran

theorem Ends.of_hit (h : Ends evicts evictBeforeLoad key entry true own entry')
    (hhit : entry.any (·.key == key) = true) :
    .admitting ∉ own ∧ ∀ loading, .loading loading ∉ own := by
  cases h with
  | panicked h =>
      obtain ⟨-, hdoes⟩ := h.of_hit hhit
      simpa using hdoes
  | unwound _ hmiss | boundary _ hmiss =>
      rw [hhit] at hmiss
      cases hmiss

theorem Turned.access (h : Turned evicts evictBeforeLoad key entry own entry') {key' : K}
    {model : M} {access : CacheAccess} (hran : .ran key' model access ∈ own) :
    access = .warm ↔ ∀ loading, .loading loading ∉ own := by
  induction h with
  | served h => exact h.access hran
  | crashed h =>
      have hends := h.access (by simpa using hran)
      simpa using hends
  | escaped _ ih =>
      have hturned := ih (by simpa using hran)
      simpa using hturned

theorem Turned.of_hit (h : Turned evicts evictBeforeLoad key entry own entry')
    (hhit : entry.any (·.key == key) = true) :
    .admitting ∉ own ∧ ∀ loading, .loading loading ∉ own := by
  induction h with
  | served h => exact (h.of_hit hhit).2
  | crashed h => simpa using h.of_hit hhit
  | escaped _ ih => simpa using ih

theorem Turned.entry_of_panicked (h : Turned evicts evictBeforeLoad key entry own entry')
    (hpanicked : .panicked ∈ own) : entry' = none := by
  cases h with
  | served h => exact absurd hpanicked h.not_panicked
  | crashed | escaped => rfl

theorem Turned.entry_of_unserved (h : Turned evicts evictBeforeLoad key entry own entry')
    {loading : K} (hload : .loading loading ∈ own)
    (hran : ∀ key model access, .ran key model access ∉ own) : entry' = none := by
  cases h with
  | served h => exact h.unserved hload hran
  | crashed | escaped => rfl

theorem Ends.panicked_mem (h : Ends evicts evictBeforeLoad key entry true own entry') :
    .panicked ∈ own := by
  cases h with
  | panicked | unwound | boundary => simp

theorem Turned.does (h : Turned evicts evictBeforeLoad key entry own entry')
    (hcalm : .panicked ∉ own) : Does evicts evictBeforeLoad key entry own entry' := by
  cases h with
  | served h => exact h
  | crashed h => exact absurd (List.mem_append_left _ h.panicked_mem) hcalm
  | escaped => simp at hcalm

theorem Turned.moves (h : Turned evicts evictBeforeLoad key entry own entry') :
    Moves entry own entry' := by
  induction h with
  | served h => exact h.moves
  | crashed h => exact h.moves
  | escaped _ ih => exact ih.append (moves_evicting .panicked (.inl rfl) _)

end Turned

end Jobs

section Traces

def Event.isLoaded : Event K M → Bool
  | .loaded _ _ => true
  | _ => false

def Event.isDropped : Event K M → Bool
  | .dropped _ => true
  | _ => false

def loads (trace : List (Event K M)) : Nat := trace.countP Event.isLoaded

def drops (trace : List (Event K M)) : Nat := trace.countP Event.isDropped

/-- Nothing that makes a resident suspect or replaces it. -/
def Calm (events : List (Event K M)) : Prop :=
  ∀ event ∈ events, event ≠ .panicked ∧ event ≠ .idled ∧ ∀ key, event ≠ .loading key

/-- A trusted model was loaded at some point, and since then all was calm. -/
theorem loaded_of_trusted {trace : List (Event K M)} {live : Nat} {key : K} {model : M}
    (h : (Run.exec watch ⟨none, live⟩ trace).trusted = some (key, model)) :
    ∃ front between, trace = front ++ .loaded key model :: between ∧ Calm between := by
  induction trace using List.reverseRecOn with
  | nil => cases h
  | append_singleton trace event ih =>
      rw [Run.exec_append] at h
      -- an event that keeps what was trusted before it
      have hkept (hbefore : (Run.exec watch ⟨none, live⟩ trace).trusted = some (key, model))
          (hcalm : Calm [event]) : ∃ front between, trace ++ [event] =
            front ++ .loaded key model :: between ∧ Calm between := by
        obtain ⟨front, between, rfl, hbetween⟩ := ih hbefore
        refine ⟨front, between ++ [event], by simp, ?_⟩
        intro other hother
        rcases List.mem_append.mp hother with hold | hnew
        · exact hbetween other hold
        · exact hcalm other hnew
      cases event with
      | loaded key' model' =>
          obtain ⟨rfl, rfl⟩ : key' = key ∧ model' = model := by simpa [watch] using h
          exact ⟨trace, [], rfl, by simp [Calm]⟩
      | admitting | released | ran _ _ _ => exact hkept h (by simp [Calm])
      | loading _ | dropped _ | panicked | idled => cases h

variable [BEq K]

/-- Loads and drops take turns. -/
theorem loads_eq {trace : List (Event K M)} (h : Run.Along watch Allowed (.of none) trace) :
    loads trace = drops trace + (Run.exec watch (.of none) trace).live ∧
      (Run.exec watch (.of none) trace).live ≤ 1 := by
  induction trace using List.reverseRecOn with
  | nil => exact ⟨rfl, Nat.zero_le _⟩
  | append_singleton trace event ih =>
      obtain ⟨hbefore, hallowed, -⟩ := Run.along_append.mp h
      obtain ⟨hcount, hlive⟩ := ih hbefore
      simp only [Run.exec_append, Run.exec_cons, Run.exec_nil, loads, drops, List.countP_append,
        List.countP_singleton] at hcount ⊢
      cases event with
      | loaded key model =>
          have hnone : (Run.exec watch (.of none) trace).live = 0 := hallowed
          simp only [watch, Event.isLoaded, Event.isDropped]
          simp
          omega
      | dropped model =>
          have hone : (Run.exec watch (.of none) trace).live = 1 := hallowed
          simp only [watch, Event.isLoaded, Event.isDropped]
          simp
          omega
      | admitting | released | ran _ _ _ | loading _ | panicked | idled =>
          simp only [watch, Event.isLoaded, Event.isDropped]
          simp
          omega

/-- Every model that was run was loaded for an equal key and not made suspect since, and no
two models were ever alive at once. -/
structure Trusted (cache : CacheThread K M) : Prop where
  served : ∀ earlier key model access later,
    cache.trace = earlier ++ .ran key model access :: later →
      ∃ front loaded between, earlier = front ++ .loaded loaded model :: between ∧
        SameKey loaded key ∧ Calm between
  single : ∀ front back, cache.trace = front ++ back → loads front ≤ drops front + 1

def Sound (cache : CacheThread K M) : Prop := Moves none cache.trace cache.entry

theorem Sound.trusted {cache : CacheThread K M} (h : Sound cache) : Trusted cache where
  served earlier key model access later htrace := by
    have hallowed := h.allowed
    rw [htrace, Run.along_append] at hallowed
    obtain ⟨loaded, htrusted, hsame⟩ := hallowed.2.1
    obtain ⟨front, between, heq, hcalm⟩ := loaded_of_trusted htrusted
    exact ⟨front, loaded, between, heq, hsame, hcalm⟩
  single front back htrace := by
    have hallowed := h.allowed
    rw [htrace, Run.along_append] at hallowed
    have hcount := loads_eq hallowed.1
    omega

theorem Sound.turn {cache : CacheThread K M} (h : Sound cache) (event : WorkerEvent K M R) :
    Sound (turn cache event) := by
  cases event with
  | job job =>
      obtain ⟨hpast, hturned⟩ := turned_runJob job cache
      have hmoves : Moves none ((ModelCache.turn cache (.job job)).past ++
          (ModelCache.turn cache (.job job)).own) (ModelCache.turn cache (.job job)).entry := by
        rw [hpast]
        exact Moves.append h hturned.moves
      exact hmoves
  | idleTimeout =>
      show Moves none ((cache.begun.noted .idled).evict.past ++
        (cache.begun.noted .idled).evict.own) (cache.begun.noted .idled).evict.entry
      rw [evict_noted_past, evict_noted_own, evict_noted_entry]
      exact Moves.append h (moves_evicting .idled (.inr rfl) cache.entry)

end Traces

section Runs

variable [BEq K]

/-- What one job does to the slot it found. -/
structure Tidy (cache : CacheThread K M) (job : CacheJob K M R) (after : CacheThread K M) :
    Prop where
  access : ∀ key model access, .ran key model access ∈ after.own →
    (access = .warm ↔ ∀ loading, .loading loading ∉ after.own)
  warm : hits cache job.request.key = true →
    .admitting ∉ after.own ∧ ∀ loading, .loading loading ∉ after.own
  kept : hits cache job.request.key = true → .panicked ∉ after.own → after.entry = cache.entry
  unserved : ∀ loading, .loading loading ∈ after.own →
    (∀ key model access, .ran key model access ∉ after.own) → after.entry = none
  suspect : .panicked ∈ after.own → after.entry = none
  refused : ∀ key coldAdmission load run error,
    job.request = .ordinary key coldAdmission load run → hits cache key = false →
    coldAdmission (cache.entry.map fun entry => (entry.key, entry.model)) = .err error →
    .panicked ∉ after.own → after.entry = cache.entry
  canceled : ∀ key abandoned cancelCheck coldAdmission load run error,
    job.request = .coldEvict key abandoned cancelCheck coldAdmission load run →
    requestActive abandoned cancelCheck .queued = .err error →
    .panicked ∉ after.own → after.entry = cache.entry

/-- A request that failed without a panic is all its job did. -/
theorem turn_of_error {cache cache' : CacheThread K M} {job : CacheJob K M R} {error : WorkerError}
    (hserve : serve job.msgs job.request cache.begun = .error (.error error) cache')
    (hcalm : .panicked ∉ (turn cache (.job job)).own) : turn cache (.job job) = cache' := by
  simp only [turn, runJob, hserve, guard] at hcalm ⊢
  split at hcalm
  · rw [evict_noted_own] at hcalm
    simp at hcalm
  · split at hcalm
    · rw [evict_noted_own] at hcalm
      simp at hcalm
    · simp_all

theorem tidy_turn (cache : CacheThread K M) (job : CacheJob K M R) :
    Tidy cache job (turn cache (.job job)) := by
  obtain ⟨-, hturned⟩ := turned_runJob job cache
  refine ⟨?_, ?_, ?_, ?_, ?_, ?_, ?_⟩
  · exact fun key model access hran => hturned.access hran
  · exact fun hhit => hturned.of_hit hhit
  · exact fun hhit hcalm => ((hturned.does hcalm).of_hit hhit).1
  · exact fun loading hload hran => hturned.entry_of_unserved hload hran
  · exact fun hpanicked => hturned.entry_of_panicked hpanicked
  · intro key coldAdmission load run error hrequest hmiss hadmission hcalm
    have hserve : serve job.msgs job.request cache.begun =
        .error (.error error) (cache.begun.noted .admitting) := by
      rw [hrequest]
      show (if hits cache key then _ else _ : Work K M R) cache.begun = _
      rw [if_neg (by simp [hmiss])]
      simp only [loadAdmitted, bind_assoc]
      show (call (coldAdmission (cache.entry.map fun entry => (entry.key, entry.model))) >>= _)
        (cache.begun.noted .admitting) = _
      rw [hadmission]
      rfl
    rw [turn_of_error hserve hcalm]
    rfl
  · intro key abandoned cancelCheck coldAdmission load run error hrequest hcheck hcalm
    have hserve : serve job.msgs job.request cache.begun = .error (.error error) cache.begun := by
      rw [hrequest]
      show (call (requestActive abandoned cancelCheck .queued) >>= _) cache.begun = _
      rw [hcheck]
      rfl
    rw [turn_of_error hserve hcalm]
    rfl

/-- Over every history of jobs, panics and idle timeouts of a cache worker: what is run is
trusted, and every job leaves the slot tidy. -/
theorem cache_serves_trusted (evictBeforeLoad : Bool) (events : List (WorkerEvent K M R)) :
    Run.Throughout turn Trusted (CacheThread.new evictBeforeLoad) events ∧
      Run.Along turn (fun cache event => ∀ job, event = .job job →
        Tidy cache job (turn cache event)) (CacheThread.new evictBeforeLoad) events := by
  constructor
  · apply Run.throughout_of_invariant Sound
    · exact fun cache event hsound _ => hsound.turn event
    · exact fun cache hsound => hsound.trusted
    · exact Moves.nil none
    · exact Run.along_of_forall (fun _ _ => trivial) _ _
  · apply Run.along_of_forall
    rintro cache event job rfl
    exact tidy_turn cache job

end Runs

end SceneWorks.ModelCache
