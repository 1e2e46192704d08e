import SceneWorks.LoadProgress.Session

/-!
What a cancellation holds back. The ledger says, from what can be seen of a session, whether it
is closed and which cancellation counts; the session's own flags agree with it after every
half-step of every party, so that what is sent after a cancellation says what it said.
-/

namespace SceneWorks.LoadProgress

variable {Activity : Type}

structure Ledger where
  closed : Bool
  latch : Option ProgressRequest

def Ledger.note (ledger : Ledger) : Occurrence Activity → Ledger
  | .prepared _ payload cancelling =>
      ⟨ledger.closed || terminal payload.status,
        if cancelling && !ledger.closed && ledger.latch.isNone then some payload else ledger.latch⟩
  | .answered _ sent answer =>
      if terminal sent.status && answer = .ok then { ledger with latch := none } else ledger
  | .heard _ | .sent _ _ _ | .published _ => ledger

/-- The first cancellation prepared before the session closed counts until a terminal POST is
answered. -/
def ledger (history : List (Occurrence Activity)) : Ledger :=
  history.foldl Ledger.note ⟨false, none⟩

@[simp] theorem ledger_concat (history : List (Occurrence Activity))
    (occurrence : Occurrence Activity) :
    ledger (history ++ [occurrence]) = (ledger history).note occurrence := by
  simp only [ledger, List.foldl_append, List.foldl_cons, List.foldl_nil]

section Order

def PostPhase.atNetwork : PostPhase → Bool
  | .ordered _ | .sending _ => true
  | .idle | .waiting _ | .done => false

def PublisherPhase.atNetwork : PublisherPhase → Bool
  | .ordered | .sending _ => true
  | .asleep | .sleeping | .waiting | .stopped => false

/-- The party is between taking the order lock and giving it back. -/
def Session.atNetwork (session : Session Activity) : Party → Bool
  | .post id => (session.posts id).atNetwork
  | .publisher => session.publisher.atNetwork

/-- The payload a party is sending. -/
def Session.sending (session : Session Activity) : Party → Option ProgressRequest
  | .post id => match session.posts id with
      | .sending payload => some payload
      | _ => none
  | .publisher => match session.publisher with
      | .sending payload => some payload
      | _ => none

end Order

/-- Everything one half-step can do; what is prepared or published says which step it was. -/
inductive Moves (describe : Activity → String) (session : Session Activity) :
    Step Activity → Session Activity → Prop
  | stays (op : Step Activity) : Moves describe session op session
  | hears (op : Step Activity) (callback : Callback Activity)
      (h : session.latest.hears callback = true) :
      Moves describe session op { session.record (.heard callback) with
        latest := session.latest.heard callback
        changed := true }
  | ignores (op : Step Activity) (callback : Callback Activity)
      (h : session.latest.hears callback = false) :
      Moves describe session op (session.record (.heard callback))
  | prepares (id : Nat) (payload : ProgressRequest) (cancelling : Bool)
      (h : session.posts id = .idle) :
      Moves describe session (.prepare id payload cancelling)
        { (session.enter id (.waiting payload)).record (.prepared id payload cancelling) with
          latest := session.latest.prepare payload cancelling
          queue := session.queue ++ [Party.post id] }
  | acquires (op : Step Activity) (id : Nat) (payload : ProgressRequest)
      (h : session.posts id = .waiting payload)
      (hfree : session.holder = none) :
      Moves describe session op ((session.enter id (.ordered payload)).take (.post id))
  | rereads (op : Step Activity) (id : Nat) (payload : ProgressRequest)
      (h : session.posts id = .ordered payload) :
      Moves describe session op
        ((session.enter id (.sending (session.latest.reread describe payload))).record
          (.sent id payload (session.latest.reread describe payload)))
  | answers (op : Step Activity) (id : Nat) (sent : ProgressRequest) (answer : Answer)
      (h : session.posts id = .sending sent) :
      Moves describe session op (answerPost session id sent answer)
  | dozes (op : Step Activity) (phase : PublisherPhase) (changed : Bool) (queue : List Party)
      (h : session.publisher.atNetwork = false) (hphase : phase.atNetwork = false) :
      Moves describe session op { session with changed, queue, publisher := phase }
  | takes (op : Step Activity) (h : session.publisher = .waiting) (hfree : session.holder = none) :
      Moves describe session op { session.take .publisher with publisher := .ordered }
  | yields (op : Step Activity) (phase : PublisherPhase) (h : session.publisher = .ordered)
      (hphase : phase.atNetwork = false) :
      Moves describe session op { session.release with publisher := phase }
  | publishes (h : session.publisher = .ordered) (hopen : session.latest.deaf = false)
      (hpending : session.latest.pending = true) :
      Moves describe session .publisherRead
        { session.record (.published (session.latest.published describe)) with
          latest := { session.latest with pending := false }
          publisher := .sending (session.latest.published describe) }
  | lands (op : Step Activity) (sent : ProgressRequest) (answer : Answer)
      (h : session.publisher = .sending sent) : Moves describe session op
        { (session.record (.answered .publisher sent answer)).release with publisher := .asleep }

variable {describe : Activity → String} {op : Step Activity}

theorem turn_free {session : Session Activity} {party : Party} (h : session.turn party = true) :
    session.holder = none := by
  simp only [Session.turn, Bool.and_eq_true] at h
  simpa using h.1

theorem moves_readPublisher {session : Session Activity} (h : session.publisher = .ordered) :
    Moves describe session .publisherRead (readPublisher describe session) := by
  unfold readPublisher
  split
  · exact .yields _ .stopped h rfl
  · next hopen =>
      split
      · exact .yields _ .asleep h rfl
      · next hpending => exact .publishes h (by simpa using hopen) (by simpa using hpending)

theorem moves_hear (session : Session Activity) (callback : Callback Activity) :
    Moves describe session op (session.hear callback) := by
  unfold Session.hear
  split
  · next h => exact .hears op callback h
  · next h => exact .ignores op callback (by simpa using h)

theorem moves_step (session : Session Activity) (op : Step Activity) :
    Moves describe session op (step describe session op) := by
  cases op with
  | observe activity => exact moves_hear session _
  | noteCompute message stage => exact moves_hear session _
  | generatorProgress progress => exact moves_hear session _
  | prepare id payload cancelling =>
      simp only [step]
      split
      · next h => exact .prepares id payload cancelling h
      · exact .stays _
  | acquire id =>
      simp only [step]
      split
      · next payload h =>
          split
          · next hturn => exact .acquires _ id payload h (turn_free hturn)
          · exact .stays _
      · exact .stays _
  | reread id =>
      simp only [step]
      split
      · next payload h => exact .rereads _ id payload h
      · exact .stays _
  | answer id answer =>
      simp only [step]
      split
      · next sent h => exact .answers _ id sent answer h
      · exact .stays _
  | publisherWake =>
      simp only [step]
      split
      · next h =>
          split
          · exact .dozes _ .sleeping false session.queue (by rw [h]; rfl) rfl
          · exact .stays _
      · exact .stays _
  | publisherQueue =>
      simp only [step]
      split
      · next h => exact .dozes _ .waiting session.changed _ (by rw [h]; rfl) rfl
      · exact .stays _
  | publisherAcquire =>
      simp only [step]
      split
      · next h =>
          split
          · next hturn => exact .takes _ h (turn_free hturn)
          · exact .stays _
      · exact .stays _
  | publisherRead =>
      simp only [step]
      split
      · next h => exact moves_readPublisher h
      · exact .stays _
  | publisherAnswer answer =>
      simp only [step]
      split
      · next sent h => exact .lands _ sent answer h
      · exact .stays _

section AnswerPost

variable (session : Session Activity) (id : Nat) (sent : ProgressRequest) (answer : Answer)

@[simp] theorem answerPost_posts :
    (answerPost session id sent answer).posts = Function.update session.posts id .done := by
  unfold answerPost
  split
  · rfl
  · rfl

@[simp] theorem answerPost_holder : (answerPost session id sent answer).holder = none := by
  unfold answerPost
  split
  · rfl
  · rfl

@[simp] theorem answerPost_publisher :
    (answerPost session id sent answer).publisher = session.publisher := by
  unfold answerPost
  split
  · rfl
  · rfl

@[simp] theorem answerPost_history : (answerPost session id sent answer).history =
    session.history ++ [Occurrence.answered (.post id) sent answer] := by
  unfold answerPost
  split
  · rfl
  · rfl

@[simp] theorem answerPost_latest : (answerPost session id sent answer).latest =
    if terminal sent.status && answer = .ok then { session.latest with cancellation := none }
    else session.latest := by
  unfold answerPost
  split
  · rfl
  · rfl

end AnswerPost

section Order

/-- The order lock is with the party that is at the network. -/
def Ordered (session : Session Activity) : Prop :=
  ∀ party, session.atNetwork party = true ↔ session.holder = some party

variable {session session' : Session Activity}

theorem Ordered.sole (h : Ordered session) {party other : Party}
    (hparty : session.atNetwork party = true) (hother : session.atNetwork other = true) :
    party = other :=
  Option.some.inj (((h party).mp hparty).symm.trans ((h other).mp hother))

theorem Ordered.of_same (h : Ordered session) (hholder : session'.holder = session.holder)
    (hsame : ∀ party, session'.atNetwork party = session.atNetwork party) : Ordered session' := by
  intro party
  rw [hsame party, hholder]
  exact h party

theorem Ordered.of_taken (h : Ordered session) (party : Party) (hfree : session.holder = none)
    (hholder : session'.holder = some party) (hparty : session'.atNetwork party = true)
    (hothers : ∀ other, other ≠ party → session'.atNetwork other = session.atNetwork other) :
    Ordered session' := by
  intro other
  rw [hholder, Option.some.injEq]
  by_cases hother : other = party
  · subst hother
    simp [hparty]
  · have haway := h other
    rw [hfree] at haway
    rw [hothers other hother, haway]
    simp [Ne.symm hother]

theorem Ordered.of_released (h : Ordered session) (party : Party)
    (hbefore : session.atNetwork party = true) (hholder : session'.holder = none)
    (hparty : session'.atNetwork party = false)
    (hothers : ∀ other, other ≠ party → session'.atNetwork other = session.atNetwork other) :
    Ordered session' := by
  intro other
  rw [hholder]
  by_cases hother : other = party
  · subst hother
    simp [hparty]
  · rw [hothers other hother]
    have haway : session.atNetwork other ≠ true := fun hat => hother (h.sole hat hbefore)
    simp [haway]

theorem atNetwork_enter (id : Nat) (phase : PostPhase) (party : Party) :
    (session.enter id phase).atNetwork party =
      if party = .post id then phase.atNetwork else session.atNetwork party := by
  cases party with
  | publisher => simp [Session.atNetwork, Session.enter]
  | post other =>
      by_cases hother : other = id
      · simp [Session.atNetwork, Session.enter, hother]
      · simp [Session.atNetwork, Session.enter, hother]

theorem Ordered.moves (h : Ordered session) (hmoves : Moves describe session op session') :
    Ordered session' := by
  cases hmoves with
  | stays | hears | ignores => exact h
  | prepares id payload cancelling hidle =>
      refine h.of_same rfl ?_
      intro party
      refine (atNetwork_enter id _ party).trans ?_
      split
      · next hparty =>
          subst hparty
          simp [Session.atNetwork, hidle, PostPhase.atNetwork]
      · rfl
  | rereads _ id payload hordered =>
      refine h.of_same rfl ?_
      intro party
      refine (atNetwork_enter id _ party).trans ?_
      split
      · next hparty =>
          subst hparty
          simp [Session.atNetwork, hordered, PostPhase.atNetwork]
      · rfl
  | acquires _ id payload hwaiting hfree =>
      refine h.of_taken (.post id) hfree rfl ?_ ?_
      · simp [Session.atNetwork, Session.take, Session.enter, PostPhase.atNetwork]
      · intro other hother
        refine (atNetwork_enter id _ other).trans ?_
        rw [if_neg hother]
  | answers _ id sent answer hsending =>
      refine h.of_released (.post id) ?_ (by simp) ?_ ?_
      · simp [Session.atNetwork, hsending, PostPhase.atNetwork]
      · simp [Session.atNetwork, PostPhase.atNetwork]
      · intro other hother
        cases other with
        | publisher => simp [Session.atNetwork]
        | post other =>
            have hne : other ≠ id := fun heq => hother (by rw [heq])
            simp [Session.atNetwork, hne]
  | dozes _ phase changed queue hphase hphase' =>
      refine h.of_same rfl ?_
      intro party
      cases party with
      | publisher => exact hphase'.trans hphase.symm
      | post id => rfl
  | takes _ hwaiting hfree =>
      refine h.of_taken .publisher hfree rfl rfl ?_
      intro other hother
      cases other with
      | publisher => exact absurd rfl hother
      | post id => rfl
  | yields _ phase hordered hphase =>
      refine h.of_released .publisher ?_ rfl hphase ?_
      · simp [Session.atNetwork, hordered, PublisherPhase.atNetwork]
      · intro other hother
        cases other with
        | publisher => exact absurd rfl hother
        | post id => rfl
  | publishes hordered hopen hpending =>
      refine h.of_same rfl ?_
      intro party
      cases party with
      | publisher => simp [Session.atNetwork, hordered, PublisherPhase.atNetwork]
      | post id => rfl
  | lands _ sent answer hsending =>
      refine h.of_released .publisher ?_ rfl rfl ?_
      · simp [Session.atNetwork, hsending, PublisherPhase.atNetwork]
      · intro other hother
        cases other with
        | publisher => exact absurd rfl hother
        | post id => rfl

end Order

section Kept

def PostPhase.payload : PostPhase → Option ProgressRequest
  | .waiting payload | .ordered payload | .sending payload => some payload
  | .idle | .done => none

/-- A payload the session still has to do with, or had an answer for. -/
inductive Around (session : Session Activity) (payload : ProgressRequest) : Prop
  | baseline (h : session.latest.baseline = some payload)
  | cancellation (h : session.latest.cancellation = some payload)
  | post (id : Nat) (h : (session.posts id).payload = some payload)
  | publishing (h : session.publisher = .sending payload)
  | answered (party : Party) (answer : Answer)
      (h : .answered party payload answer ∈ session.history)

structure Kept (session : Session Activity) : Prop where
  ordered : Ordered session
  closed : session.latest.closed = (ledger session.history).closed
  latch : session.latest.cancellation = (ledger session.history).latch
  shut : ∀ payload, Around session payload → terminal payload.status = true →
    session.latest.closed = true
  publishing : ∀ sent, session.publisher = .sending sent → terminal sent.status = false ∧
    ∀ party sent' answer, .answered party sent' answer ∈ session.history →
      terminal sent'.status = false
  prepared : ∀ id payload cancelling, .prepared id payload cancelling ∈ session.history →
    terminal payload.status = true ∨ cancelling = true → session.latest.deaf = true

theorem terminal_reread {state : Latest Activity} {payload : ProgressRequest}
    (h : terminal (state.reread describe payload).status = true) :
    terminal payload.status = true ∨
      ∃ control, state.cancellation = some control ∧ terminal control.status = true := by
  unfold Latest.reread at h
  split at h
  · next control hcontrol =>
      exact .inr ⟨control, (Option.filter_eq_some_iff.mp hcontrol).1, h⟩
  · split at h
    · split at h
      · cases h
      · simp only at h
        split at h
        · cases h
        · cases h
      · exact .inl h
    · exact .inl h

theorem terminal_published {state : Latest Activity}
    (h : terminal (state.published describe).status = true) :
    ∃ payload, state.baseline = some payload ∧ terminal payload.status = true := by
  have hbase : terminal (state.baseline.getD preparingPayload).status = true := by
    unfold Latest.published at h
    simp only at h
    split at h
    · cases h
    · cases h
    · exact h
  cases hbaseline : state.baseline with
  | none =>
      rw [hbaseline] at hbase
      cases hbase
  | some payload =>
      rw [hbaseline] at hbase
      exact ⟨payload, rfl, hbase⟩

@[simp] theorem heard_closed (state : Latest Activity) (callback : Callback Activity) :
    (state.heard callback).closed = state.closed := by
  cases callback with
  | observed | computed | completed => rfl

@[simp] theorem heard_cancellation (state : Latest Activity) (callback : Callback Activity) :
    (state.heard callback).cancellation = state.cancellation := by
  cases callback with
  | observed | computed | completed => rfl

@[simp] theorem heard_baseline (state : Latest Activity) (callback : Callback Activity) :
    (state.heard callback).baseline = state.baseline := by
  cases callback with
  | observed | computed | completed => rfl

variable {session session' : Session Activity}

theorem closed_mono (hmoves : Moves describe session op session')
    (h : session.latest.closed = true) : session'.latest.closed = true := by
  cases hmoves with
  | stays | ignores | acquires | rereads | dozes | takes | yields | publishes | lands => exact h
  | hears _ callback => simpa using h
  | prepares id payload cancelling => simp [Latest.prepare, h]
  | answers _ id sent answer =>
      rw [answerPost_latest]
      split
      · exact h
      · exact h

theorem Kept.ledger_moves (h : Kept session) (hmoves : Moves describe session op session') :
    session'.latest.closed = (ledger session'.history).closed ∧
      session'.latest.cancellation = (ledger session'.history).latch := by
  have hclosed := h.closed
  have hlatch := h.latch
  cases hmoves with
  | stays | acquires | dozes | takes | yields => exact ⟨hclosed, hlatch⟩
  | hears _ callback =>
      simp [Session.record, Ledger.note, hclosed, hlatch]
  | ignores _ callback => simp [Session.record, Ledger.note, hclosed, hlatch]
  | prepares id payload cancelling =>
      simp [Session.record, Session.enter, Ledger.note, Latest.prepare, hclosed, hlatch]
  | rereads _ id payload => simp [Session.record, Session.enter, Ledger.note, hclosed, hlatch]
  | publishes => simp [Session.record, Ledger.note, hclosed, hlatch]
  | answers _ id sent answer =>
      rw [answerPost_latest, answerPost_history, ledger_concat]
      simp only [Ledger.note]
      split
      · exact ⟨hclosed, rfl⟩
      · exact ⟨hclosed, hlatch⟩
  | lands _ sent answer hsending =>
      have hopen := (h.publishing sent hsending).1
      simp [Session.record, Session.release, Ledger.note, hopen, hclosed, hlatch]

/-- The payloads of a session after one of its posts went on to `phase`. -/
theorem Around.enter {id : Nat} {phase : PostPhase} {payload : ProgressRequest}
    (h : Around (session.enter id phase) payload) :
    Around session payload ∨ phase.payload = some payload := by
  cases h with
  | baseline h => exact .inl (.baseline h)
  | cancellation h => exact .inl (.cancellation h)
  | publishing h => exact .inl (.publishing h)
  | answered party answer h => exact .inl (.answered party answer h)
  | post other h =>
      by_cases hother : other = id
      · subst hother
        simp only [Session.enter, Function.update_self] at h
        exact .inr h
      · simp only [Session.enter, Function.update_of_ne hother] at h
        exact .inl (.post other h)

/-- The payloads of a session after something was recorded of it. -/
theorem Around.record {occurrence : Occurrence Activity} {payload : ProgressRequest}
    (h : Around (session.record occurrence) payload) :
    Around session payload ∨ ∃ party answer, occurrence = .answered party payload answer := by
  cases h with
  | baseline h => exact .inl (.baseline h)
  | cancellation h => exact .inl (.cancellation h)
  | publishing h => exact .inl (.publishing h)
  | post id h => exact .inl (.post id h)
  | answered party answer h =>
      rcases List.mem_append.mp h with hold | hnew
      · exact .inl (.answered party answer hold)
      · exact .inr ⟨party, answer, (List.mem_singleton.mp hnew).symm⟩

theorem Around.of_eq {payload : ProgressRequest} (h : Around session' payload)
    (hbaseline : session'.latest.baseline = session.latest.baseline)
    (hcancellation : session'.latest.cancellation = session.latest.cancellation)
    (hposts : session'.posts = session.posts)
    (hpublisher : session'.publisher = .sending payload → session.publisher = .sending payload)
    (hhistory : session'.history = session.history) : Around session payload := by
  cases h with
  | baseline h => exact .baseline (hbaseline ▸ h)
  | cancellation h => exact .cancellation (hcancellation ▸ h)
  | post id h => exact .post id (hposts ▸ h)
  | publishing h => exact .publishing (hpublisher h)
  | answered party answer h => exact .answered party answer (hhistory ▸ h)

theorem Around.answerPost {id : Nat} {sent : ProgressRequest} {answer : Answer}
    (hsending : session.posts id = .sending sent) {payload : ProgressRequest}
    (h : Around (answerPost session id sent answer) payload) : Around session payload := by
  cases h with
  | baseline h =>
      rw [answerPost_latest] at h
      split at h
      · exact .baseline h
      · exact .baseline h
  | cancellation h =>
      rw [answerPost_latest] at h
      split at h
      · cases h
      · exact .cancellation h
  | publishing h => exact .publishing (by simpa using h)
  | post other h =>
      rw [answerPost_posts] at h
      by_cases hother : other = id
      · subst hother
        rw [Function.update_self] at h
        cases h
      · rw [Function.update_of_ne hother] at h
        exact .post other h
  | answered party answer' h =>
      rw [answerPost_history] at h
      rcases List.mem_append.mp h with hold | hnew
      · exact .answered party answer' hold
      · cases List.mem_singleton.mp hnew
        exact .post id (by rw [hsending]; rfl)

/-- Where a payload comes from: it was there, was handed in, or is what a post or the publisher
made of the session. -/
theorem Around.origin (hmoves : Moves describe session op session') {payload : ProgressRequest}
    (h : Around session' payload) :
    Around session payload ∨
      (∃ id cancelling, op = .prepare id payload cancelling ∧
        session'.latest = session.latest.prepare payload cancelling) ∨
      (∃ ordered, Around session ordered ∧ payload = session.latest.reread describe ordered) ∨
      (op = .publisherRead ∧ session.publisher = .ordered ∧ session.latest.deaf = false ∧
        session.latest.pending = true ∧ payload = session.latest.published describe) := by
  cases hmoves with
  | stays => exact .inl h
  | hears _ callback =>
      have hbefore : Around (session.record (.heard callback)) payload :=
        h.of_eq (heard_baseline _ _) (heard_cancellation _ _) rfl (fun h => h) rfl
      rcases hbefore.record with hbefore | ⟨party, answer, hanswered⟩
      · exact .inl hbefore
      · cases hanswered
  | ignores _ callback =>
      rcases h.record with hbefore | ⟨party, answer, hanswered⟩
      · exact .inl hbefore
      · cases hanswered
  | prepares id prepared cancelling hidle =>
      by_cases hprepared : prepared = payload
      · subst hprepared
        exact .inr (.inl ⟨id, cancelling, rfl, rfl⟩)
      · left
        cases h with
        | baseline hbaseline => exact absurd (Option.some.inj hbaseline) hprepared
        | cancellation hcancellation =>
            simp only [Latest.prepare] at hcancellation
            split at hcancellation
            · exact absurd (Option.some.inj hcancellation) hprepared
            · exact .cancellation hcancellation
        | publishing hpublishing => exact .publishing hpublishing
        | answered party answer hanswered =>
            have hrecorded : Around (session.record (.prepared id prepared cancelling)) payload :=
              .answered party answer hanswered
            rcases hrecorded.record with hbefore | ⟨_, _, hother⟩
            · exact hbefore
            · cases hother
        | post other hpost =>
            have hentered : Around (session.enter id (.waiting prepared)) payload :=
              .post other hpost
            rcases hentered.enter with hbefore | hwaiting
            · exact hbefore
            · exact absurd (Option.some.inj hwaiting) hprepared
  | acquires _ id waiting hwaiting hfree =>
      have hentered : Around (session.enter id (.ordered waiting)) payload :=
        h.of_eq rfl rfl rfl (fun h => h) rfl
      rcases hentered.enter with hbefore | hordered
      · exact .inl hbefore
      · exact .inl (.post id (by rw [hwaiting]; exact hordered))
  | rereads _ id ordered hordered =>
      rcases h.record with hentered | ⟨_, _, hsent⟩
      · rcases hentered.enter with hbefore | hsending
        · exact .inl hbefore
        · have hthere : Around session ordered := .post id (by rw [hordered]; rfl)
          exact .inr (.inr (.inl ⟨ordered, hthere, (Option.some.inj hsending).symm⟩))
      · cases hsent
  | answers _ id sent answer hsending => exact .inl (h.answerPost hsending)
  | dozes _ phase changed queue hphase hphase' =>
      refine .inl (h.of_eq rfl rfl rfl ?_ rfl)
      intro hsending
      rw [show phase = .sending payload from hsending] at hphase'
      cases hphase'
  | takes _ hwaiting hfree =>
      refine .inl (h.of_eq rfl rfl rfl ?_ rfl)
      intro hsending
      cases hsending
  | yields _ phase hordered hphase =>
      refine .inl (h.of_eq rfl rfl rfl ?_ rfl)
      intro hsending
      rw [show phase = .sending payload from hsending] at hphase
      cases hphase
  | publishes hordered hopen hpending =>
      by_cases hpublished : payload = session.latest.published describe
      · exact .inr (.inr (.inr ⟨rfl, hordered, hopen, hpending, hpublished⟩))
      · have hbefore : Around (session.record (.published (session.latest.published describe)))
            payload := by
          refine h.of_eq rfl rfl rfl ?_ rfl
          intro hsending
          exact absurd (PublisherPhase.sending.inj hsending).symm hpublished
        rcases hbefore.record with hbefore | ⟨_, _, hsent⟩
        · exact .inl hbefore
        · cases hsent
  | lands _ sent answer hsending =>
      have hbefore : Around (session.record (.answered .publisher sent answer)) payload := by
        refine h.of_eq rfl rfl rfl ?_ rfl
        intro hasleep
        cases hasleep
      rcases hbefore.record with hbefore | ⟨_, _, hanswered⟩
      · exact .inl hbefore
      · cases hanswered
        exact .inl (.publishing hsending)

/-- A payload with a terminal status is about only once the session is closed. -/
theorem Kept.shut_moves (h : Kept session) (hmoves : Moves describe session op session')
    {payload : ProgressRequest} (haround : Around session' payload)
    (hterminal : terminal payload.status = true) : session'.latest.closed = true := by
  rcases haround.origin hmoves with hbefore | ⟨id, cancelling, -, hlatest⟩ |
    ⟨ordered, hordered, rfl⟩ | ⟨-, -, -, -, rfl⟩
  · exact closed_mono hmoves (h.shut payload hbefore hterminal)
  · rw [hlatest]
    simp [Latest.prepare, hterminal]
  · apply closed_mono hmoves
    rcases terminal_reread hterminal with hpayload | ⟨control, hcontrol, hstatus⟩
    · exact h.shut ordered hordered hpayload
    · exact h.shut control (.cancellation hcontrol) hstatus
  · obtain ⟨base, hbase, hstatus⟩ := terminal_published hterminal
    exact closed_mono hmoves (h.shut base (.baseline hbase) hstatus)

theorem deaf_eq_false {state : Latest Activity} :
    state.deaf = false ↔ state.closed = false ∧ state.cancellation = none := by
  simp [Latest.deaf]

theorem Kept.deaf_mono (h : Kept session) (hmoves : Moves describe session op session')
    (hdeaf : session.latest.deaf = true) : session'.latest.deaf = true := by
  cases hmoves with
  | stays | ignores | acquires | rereads | dozes | takes | yields | publishes | lands => exact hdeaf
  | hears _ callback => simpa [Latest.deaf] using hdeaf
  | prepares id payload cancelling =>
      simp only [Latest.deaf, Bool.or_eq_true] at hdeaf ⊢
      rcases hdeaf with hclosed | hlatched
      · exact .inl (by simp [Latest.prepare, hclosed])
      · right
        simp only [Latest.prepare]
        split
        · rfl
        · exact hlatched
  | answers _ id sent answer hsending =>
      rw [answerPost_latest]
      split
      · next hterminal =>
          have hstatus : terminal sent.status = true := by
            rw [Bool.and_eq_true] at hterminal
            exact hterminal.1
          have hclosed := h.shut sent (.post id (by rw [hsending]; rfl)) hstatus
          simp [Latest.deaf, hclosed]
      · exact hdeaf

theorem Kept.publishing_moves (h : Kept session) (hmoves : Moves describe session op session')
    {sent : ProgressRequest} (hsent : session'.publisher = .sending sent) :
    terminal sent.status = false ∧ ∀ party sent' answer,
      .answered party sent' answer ∈ session'.history → terminal sent'.status = false := by
  cases hmoves with
  | stays | acquires => exact h.publishing sent hsent
  | hears _ callback | ignores _ callback =>
      simpa [Session.record] using h.publishing sent hsent
  | prepares id payload cancelling =>
      simpa [Session.record, Session.enter] using h.publishing sent hsent
  | rereads _ id payload =>
      simpa [Session.record, Session.enter] using h.publishing sent hsent
  | answers _ id payload answer hsending =>
      -- two parties would be at the network
      rw [answerPost_publisher] at hsent
      have hpost : session.atNetwork (.post id) = true := by
        simp [Session.atNetwork, hsending, PostPhase.atNetwork]
      have hpublisher : session.atNetwork .publisher = true := by
        simp [Session.atNetwork, hsent, PublisherPhase.atNetwork]
      cases h.ordered.sole hpost hpublisher
  | dozes _ phase changed queue hphase hphase' =>
      rw [show phase = .sending sent from hsent] at hphase'
      cases hphase'
  | yields _ phase hordered hphase =>
      rw [show phase = .sending sent from hsent] at hphase
      cases hphase
  | takes | lands => cases hsent
  | publishes hordered hopen hpending =>
      obtain rfl := PublisherPhase.sending.inj hsent
      have hclosed := (deaf_eq_false.mp hopen).1
      constructor
      · by_contra hterminal
        rw [Bool.not_eq_false] at hterminal
        obtain ⟨base, hbase, hstatus⟩ := terminal_published hterminal
        rw [h.shut base (.baseline hbase) hstatus] at hclosed
        cases hclosed
      · intro party sent' answer hanswered
        have hbefore : .answered party sent' answer ∈ session.history := by
          simpa [Session.record] using hanswered
        by_contra hterminal
        rw [Bool.not_eq_false] at hterminal
        rw [h.shut sent' (.answered party answer hbefore) hterminal] at hclosed
        cases hclosed

theorem Kept.prepared_moves (h : Kept session) (hmoves : Moves describe session op session')
    {id : Nat} {payload : ProgressRequest} {cancelling : Bool}
    (hprepared : .prepared id payload cancelling ∈ session'.history)
    (hends : terminal payload.status = true ∨ cancelling = true) :
    session'.latest.deaf = true := by
  have hold : .prepared id payload cancelling ∈ session.history → session'.latest.deaf = true :=
    fun hbefore => h.deaf_mono hmoves (h.prepared id payload cancelling hbefore hends)
  cases hmoves with
  | stays | acquires | dozes | takes | yields => exact hold hprepared
  | hears _ callback | ignores _ callback => exact hold (by simpa [Session.record] using hprepared)
  | rereads => exact hold (by simpa [Session.record, Session.enter] using hprepared)
  | publishes => exact hold (by simpa [Session.record] using hprepared)
  | lands => exact hold (by simpa [Session.record, Session.release] using hprepared)
  | answers => exact hold (by simpa using hprepared)
  | prepares other payload' cancelling' hidle =>
      rcases List.mem_append.mp hprepared with hbefore | hnew
      · exact hold hbefore
      · cases List.mem_singleton.mp hnew
        simp only [Latest.deaf, Latest.prepare, Bool.or_eq_true]
        rcases hends with hterminal | hcancelling
        · exact .inl (.inr hterminal)
        · by_cases hclosed : session.latest.closed = true
          · exact .inl (.inl hclosed)
          · right
            cases hlatch : session.latest.cancellation with
            | none => simp [hcancelling, hclosed]
            | some control => simp

theorem Kept.moves (h : Kept session) (hmoves : Moves describe session op session') :
    Kept session' where
  ordered := h.ordered.moves hmoves
  closed := (h.ledger_moves hmoves).1
  latch := (h.ledger_moves hmoves).2
  shut _ haround hterminal := h.shut_moves hmoves haround hterminal
  publishing _ hsent := h.publishing_moves hmoves hsent
  prepared _ _ _ hprepared hends := h.prepared_moves hmoves hprepared hends

theorem kept_fresh : Kept (Session.fresh : Session Activity) where
  ordered party := by
    cases party with
    | publisher => simp [Session.atNetwork, Session.fresh, PublisherPhase.atNetwork]
    | post id => simp [Session.atNetwork, Session.fresh, PostPhase.atNetwork]
  closed := rfl
  latch := rfl
  shut payload haround _ := by
    cases haround with
    | baseline h | cancellation h | post _ h | publishing h => cases h
    | answered _ _ h => cases h
  publishing _ h := by cases h
  prepared _ _ _ h := by cases h

end Kept

section Records

/-- The fields of a payload that a cancellation controls. -/
def Carries (sent control : ProgressRequest) : Prop :=
  sent.message = control.message ∧ sent.status = control.status ∧ sent.stage = control.stage ∧
    sent.progress = control.progress ∧ sent.etaSeconds = control.etaSeconds

/-- What goes out agrees with what was prepared and answered before. -/
def Obeys (earlier : List (Occurrence Activity)) : Occurrence Activity → Prop
  | .sent _ payload sent => ∀ control, (ledger earlier).latch = some control →
      terminal payload.status = false → Carries sent control
  | .published _ => ∀ id payload cancelling, .prepared id payload cancelling ∈ earlier →
      terminal payload.status = false ∧ cancelling = false
  | .answered .publisher _ _ => ∀ party sent answer, .answered party sent answer ∈ earlier →
      answer.landed = true → terminal sent.status = false
  | .answered (.post _) _ _ | .heard _ | .prepared _ _ _ => True

variable {session session' : Session Activity}

theorem carries_reread {state : Latest Activity} {payload control : ProgressRequest}
    (hlatch : state.cancellation = some control) (hpayload : terminal payload.status = false) :
    Carries (state.reread describe payload) control := by
  have hfilter : (state.cancellation.filter fun _ => !terminal payload.status) = some control := by
    simp [hlatch, hpayload]
  simp only [Latest.reread, hfilter]
  exact ⟨rfl, rfl, rfl, rfl, rfl⟩

theorem Kept.obeys_moves (h : Kept session) (hmoves : Moves describe session op session')
    (hobeys : Run.EachAfter Obeys session.history) : Run.EachAfter Obeys session'.history := by
  cases hmoves with
  | stays | acquires | dozes | takes | yields => exact hobeys
  | hears _ callback | ignores _ callback => exact hobeys.concat trivial
  | prepares => exact hobeys.concat trivial
  | rereads _ id payload hordered =>
      apply hobeys.concat
      intro control hlatch hpayload
      exact carries_reread (h.latch.trans hlatch) hpayload
  | answers _ id sent answer hsending =>
      rw [answerPost_history]
      exact hobeys.concat trivial
  | publishes hordered hopen hpending =>
      apply hobeys.concat
      intro id payload cancelling hprepared
      have hcalm : ¬ (terminal payload.status = true ∨ cancelling = true) := by
        intro hends
        rw [h.prepared id payload cancelling hprepared hends] at hopen
        cases hopen
      simpa using hcalm
  | lands _ sent answer hsending =>
      apply hobeys.concat
      intro party sent' answer' hanswered _
      exact (h.publishing sent hsending).2 party sent' answer' hanswered

/-- Since the callback only ordinary phase posts were prepared, and no callback came. -/
def Calm (rest : List (Occurrence Activity)) : Prop :=
  ∀ occurrence ∈ rest, (∀ callback, occurrence ≠ .heard callback) ∧
    ∀ id payload cancelling, occurrence = .prepared id payload cancelling →
      phaseUpdate payload = true ∧ cancelling = false

def Listening (ledger : Ledger) : Prop := ledger.closed = false ∧ ledger.latch = none

/-- The payload says what the callback said. -/
def Shows (describe : Activity → String) (sent : ProgressRequest) : Callback Activity → Prop
  | .observed (some activity) => sent.message = describe activity ∧
      sent.status = .loadingModel ∧ sent.stage = .loadingModel
  | .computed message stage _ => sent.message = message ∧ sent.stage = stage ∧
      sent.status = if stage = .loadingModel then .loadingModel else .running
  | .observed none | .completed => True

/-- A phase post that reads the slot after a callback reports the callback's phase. -/
def Newest (describe : Activity → String) (earlier : List (Occurrence Activity)) :
    Occurrence Activity → Prop
  | .sent _ payload sent => phaseUpdate payload = true → ∀ front callback rest,
      earlier = front ++ .heard callback :: rest → Listening (ledger front) → Calm rest →
        Shows describe sent callback
  | _ => True

/-- The slot holds what the callback said. -/
def Holds (state : Latest Activity) : Callback Activity → Prop
  | .observed (some activity) => state.activity = some activity
  | .computed message stage _ => state.activity = none ∧ state.compute = some (message, stage)
  | .observed none | .completed => True

def Current (session : Session Activity) : Prop :=
  ∀ front callback rest, session.history = front ++ .heard callback :: rest →
    Listening (ledger front) → Calm rest →
      Holds session.latest callback ∧ session.latest.deaf = false

theorem Calm.of_concat {rest : List (Occurrence Activity)} {last : Occurrence Activity}
    (h : Calm (rest ++ [last])) : Calm rest ∧ Calm [last] :=
  ⟨fun occurrence hmem => h occurrence (List.mem_append_left _ hmem),
    fun occurrence hmem => h occurrence (List.mem_append_right _ hmem)⟩

theorem Current.concat (h : Current session) {occurrence : Occurrence Activity}
    (hhistory : session'.history = session.history ++ [occurrence])
    (hheard : ∀ callback, occurrence = .heard callback → Listening (ledger session.history) →
      Holds session'.latest callback ∧ session'.latest.deaf = false)
    (hkeeps : Calm [occurrence] → ∀ callback, Holds session.latest callback →
      session.latest.deaf = false → Holds session'.latest callback ∧ session'.latest.deaf = false) :
    Current session' := by
  intro front callback rest hsplit hlistening hcalm
  rw [hhistory] at hsplit
  cases hrest : rest.reverse with
  | nil =>
      obtain rfl : rest = [] := by simpa using hrest
      obtain ⟨rfl, hlast⟩ := List.append_inj' hsplit rfl
      exact hheard callback (by simpa using hlast) hlistening
  | cons last before =>
      obtain rfl : rest = before.reverse ++ [last] := by
        rw [← List.reverse_reverse rest, hrest, List.reverse_cons]
      rw [← List.cons_append, ← List.append_assoc] at hsplit
      obtain ⟨hbefore, hlast⟩ := List.append_inj' hsplit rfl
      obtain rfl : occurrence = last := by simpa using hlast
      obtain ⟨hcalmBefore, hcalmLast⟩ := hcalm.of_concat
      obtain ⟨hholds, hopen⟩ := h front callback before.reverse hbefore hlistening hcalmBefore
      exact hkeeps hcalmLast callback hholds hopen

theorem Holds.of_eq {state state' : Latest Activity} (hactivity : state'.activity = state.activity)
    (hcompute : state'.compute = state.compute) {callback : Callback Activity}
    (h : Holds state callback) : Holds state' callback := by
  cases callback with
  | observed activity =>
      cases activity with
      | none => trivial
      | some activity => exact hactivity.trans h
  | computed message stage promptEncoding => exact ⟨hactivity.trans h.1, hcompute.trans h.2⟩
  | completed => trivial

theorem Kept.current_moves (h : Kept session) (hmoves : Moves describe session op session')
    (hcurrent : Current session) : Current session' := by
  have hlistens : Listening (ledger session.history) → session.latest.deaf = false := by
    rintro ⟨hclosed, hlatch⟩
    exact deaf_eq_false.mpr ⟨h.closed.trans hclosed, h.latch.trans hlatch⟩
  cases hmoves with
  | stays | acquires | dozes | takes | yields => exact hcurrent
  | hears _ callback hhears =>
      refine hcurrent.concat rfl ?_ ?_
      · intro other hother hlistening
        cases hother
        refine ⟨?_, ?_⟩
        · cases callback with
          | observed activity =>
              cases activity with
              | none => trivial
              | some activity => exact rfl
          | computed message stage promptEncoding => exact ⟨rfl, rfl⟩
          | completed => trivial
        · have hopen := hlistens hlistening
          simpa [Latest.deaf] using hopen
      · intro hcalm
        exact absurd rfl ((hcalm _ (List.mem_singleton_self _)).1 callback)
  | ignores _ callback hdeaf =>
      refine hcurrent.concat rfl ?_ ?_
      · intro other hother hlistening
        cases hother
        refine ⟨?_, hlistens hlistening⟩
        have hopen := hlistens hlistening
        cases callback with
        | observed activity => simp [Latest.hears, hopen] at hdeaf
        | computed message stage promptEncoding => simp [Latest.hears, hopen] at hdeaf
        | completed => trivial
      · intro hcalm
        exact absurd rfl ((hcalm _ (List.mem_singleton_self _)).1 callback)
  | prepares id payload cancelling hidle =>
      refine hcurrent.concat rfl (fun _ hheard => by cases hheard) ?_
      intro hcalm callback hholds hopen
      obtain ⟨hphase, rfl⟩ := (hcalm _ (List.mem_singleton_self _)).2 id payload cancelling rfl
      obtain ⟨hclosed, hlatch⟩ := deaf_eq_false.mp hopen
      have hterminal : terminal payload.status = false := by
        simp only [phaseUpdate, Bool.and_eq_true] at hphase
        simpa using hphase.2
      refine ⟨hholds.of_eq ?_ ?_, ?_⟩
      · simp [Latest.prepare, hphase, hlatch]
      · simp [Latest.prepare, hphase, hlatch]
      · simp [Latest.deaf, Latest.prepare, hclosed, hlatch, hterminal]
  | rereads =>
      exact hcurrent.concat rfl (fun _ hheard => by cases hheard) fun _ _ hholds hopen =>
        ⟨hholds, hopen⟩
  | publishes =>
      exact hcurrent.concat rfl (fun _ hheard => by cases hheard) fun _ _ hholds hopen =>
        ⟨hholds.of_eq rfl rfl, hopen⟩
  | lands =>
      exact hcurrent.concat rfl (fun _ hheard => by cases hheard) fun _ _ hholds hopen =>
        ⟨hholds, hopen⟩
  | answers _ id sent answer =>
      refine hcurrent.concat (answerPost_history session id sent answer)
        (fun _ hheard => by cases hheard) ?_
      intro _ callback hholds hopen
      obtain ⟨hclosed, hlatch⟩ := deaf_eq_false.mp hopen
      rw [answerPost_latest]
      split
      · exact ⟨hholds.of_eq rfl rfl, by simp [Latest.deaf, hclosed]⟩
      · exact ⟨hholds, hopen⟩

theorem shows_reread {state : Latest Activity} {payload : ProgressRequest}
    {callback : Callback Activity} (hphase : phaseUpdate payload = true)
    (hopen : state.deaf = false) (hholds : Holds state callback) :
    Shows describe (state.reread describe payload) callback := by
  have hlatch := (deaf_eq_false.mp hopen).2
  cases callback with
  | observed activity =>
      cases activity with
      | none => trivial
      | some activity =>
          have hactivity : state.activity = some activity := hholds
          simp [Latest.reread, hlatch, hphase, hactivity, loadingPayload, Shows]
  | computed message stage promptEncoding =>
      obtain ⟨hactivity, hcompute⟩ := hholds
      simp [Latest.reread, hlatch, hphase, hactivity, hcompute, Shows]
  | completed => trivial

theorem Current.newest_moves (h : Current session) (hmoves : Moves describe session op session')
    (hnewest : Run.EachAfter (Newest describe) session.history) :
    Run.EachAfter (Newest describe) session'.history := by
  cases hmoves with
  | stays | acquires | dozes | takes | yields => exact hnewest
  | hears | ignores | prepares | publishes | lands => exact hnewest.concat trivial
  | answers _ id sent answer =>
      rw [answerPost_history]
      exact hnewest.concat trivial
  | rereads _ id payload hordered =>
      apply hnewest.concat
      intro hphase front callback rest hsplit hlistening hcalm
      obtain ⟨hholds, hopen⟩ := h front callback rest hsplit hlistening hcalm
      exact shows_reread hphase hopen hholds

/-- POSTs do not overlap, what is sent obeys the cancellation that counts and the terminal posts
before it, and a phase post reports the newest phase. -/
structure Obeyed (describe : Activity → String) (session : Session Activity) : Prop where
  apart : ∀ party other, (session.sending party).isSome = true →
    (session.sending other).isSome = true → party = other
  obeys : Run.EachAfter Obeys session.history
  newest : Run.EachAfter (Newest describe) session.history

theorem atNetwork_of_sending {party : Party} (h : (session.sending party).isSome = true) :
    session.atNetwork party = true := by
  cases party with
  | post id =>
      simp only [Session.sending, Session.atNetwork] at h ⊢
      split at h
      · next hsending =>
          rw [hsending]
          rfl
      · cases h
  | publisher =>
      simp only [Session.sending, Session.atNetwork] at h ⊢
      split at h
      · next hsending =>
          rw [hsending]
          rfl
      · cases h

/-- Over every interleaving of observers, posts and the publisher of a session. -/
theorem cancellation_obeyed (describe : Activity → String) (steps : List (Step Activity)) :
    Run.Throughout (step describe) (Obeyed describe) .fresh steps := by
  apply Run.throughout_of_invariant fun session : Session Activity =>
    Kept session ∧ Current session ∧ Run.EachAfter Obeys session.history ∧
      Run.EachAfter (Newest describe) session.history
  · rintro session op ⟨hkept, hcurrent, hobeys, hnewest⟩ _
    have hmoves : Moves describe session op (step describe session op) := moves_step session op
    exact ⟨hkept.moves hmoves, hkept.current_moves hmoves hcurrent,
      hkept.obeys_moves hmoves hobeys, hcurrent.newest_moves hmoves hnewest⟩
  · rintro session ⟨hkept, -, hobeys, hnewest⟩
    refine ⟨?_, hobeys, hnewest⟩
    intro party other hparty hother
    exact hkept.ordered.sole (atNetwork_of_sending hparty) (atNetwork_of_sending hother)
  · refine ⟨kept_fresh, ?_, Run.eachAfter_nil, Run.eachAfter_nil⟩
    intro front callback rest hsplit
    simp [Session.fresh] at hsplit
  · exact Run.along_of_forall (fun _ _ => trivial) _ _

end Records

end SceneWorks.LoadProgress
