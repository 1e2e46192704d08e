import SceneWorks.Library.Table
import SceneWorks.Library.Run

/-!
Query tickets: the short-lived credentials of the event stream and of media URLs. A store is
one map from ticket strings to expiries behind a lock, so a history is a sequence of calls.
Instants and durations are nanoseconds; each issuing call carries the UUID it would draw.
-/

namespace SceneWorks.Tickets

structure EventTicketContext where
  activeJobIds : List String
  knownTerminalJobIds : List String
deriving DecidableEq

def EventTicketContext.default : EventTicketContext := ⟨[], []⟩

structure TicketEntry where
  expiresAt : Nat
  absoluteExpiresAt : Nat
  eventContext : EventTicketContext
deriving DecidableEq

abbrev TicketMap := Table (String × TicketEntry) String Prod.fst

structure TicketResponse where
  ticket : String
  expiresInSeconds : Nat
deriving DecidableEq

structure TicketStore where
  ttl : Nat
  maxOutstanding : Option Nat
  absoluteTtl : Nat
  tickets : TicketMap

def fromSecs (seconds : Nat) : Nat := seconds * 1000000000

def asSecs (duration : Nat) : Nat := duration / 1000000000

namespace TicketStore

def new (ttlSeconds : Nat) : TicketStore :=
  ⟨fromSecs ttlSeconds, none, fromSecs ttlSeconds, .empty⟩

def withMaxOutstanding (ttlSeconds maxOutstanding : Nat) : TicketStore :=
  ⟨fromSecs ttlSeconds, some maxOutstanding, fromSecs ttlSeconds, .empty⟩

def media (idleSeconds absoluteSeconds : Nat) : TicketStore :=
  { new idleSeconds with absoluteTtl := fromSecs absoluteSeconds }

end TicketStore

def TicketEntry.alive (now : Nat) (entry : TicketEntry) : Bool :=
  now ≤ entry.expiresAt && now ≤ entry.absoluteExpiresAt

def pruneTickets (tickets : TicketMap) (now : Nat) : TicketMap :=
  tickets.delete fun row => !row.2.alive now

/-- The entry both issuing calls write. -/
def TicketStore.entry (store : TicketStore) (now : Nat) (context : EventTicketContext) :
    TicketEntry where
  expiresAt := now + min store.ttl store.absoluteTtl
  absoluteExpiresAt := now + store.absoluteTtl
  eventContext := context

namespace TicketStore

def get (store : TicketStore) (ticket : String) : Option TicketEntry :=
  (store.tickets.find ticket).map Prod.snd

def prune (store : TicketStore) (now : Nat) : TicketStore :=
  { store with tickets := pruneTickets store.tickets now }

def put (store : TicketStore) (ticket : String) (entry : TicketEntry) : TicketStore :=
  { store with tickets := store.tickets.put (ticket, entry) }

def setExpiry (store : TicketStore) (ticket : String) (expiresAt : Nat) : TicketStore :=
  { store with
    tickets := store.tickets.update (fun row => row.1 = ticket)
      (fun row => (row.1, { row.2 with expiresAt })) fun _ => rfl }

def remove (store : TicketStore) (ticket : String) : TicketStore :=
  { store with tickets := store.tickets.delete fun row => row.1 = ticket }

def tryIssueEvent (store : TicketStore) (uuid : String) (context : EventTicketContext)
    (now : Nat) : Option TicketResponse × TicketStore :=
  let store := store.prune now
  if store.maxOutstanding.any fun limit => limit ≤ store.tickets.rows.length then (none, store)
  else (some ⟨uuid, asSecs store.ttl⟩, store.put uuid (store.entry now context))

def mint (store : TicketStore) (uuid : String) (now : Nat) : TicketResponse × TicketStore :=
  let entry := store.entry now .default
  (⟨uuid, asSecs (entry.expiresAt - now)⟩, store.put uuid entry)

def issueSlidingAt (store : TicketStore) (uuid : String) (previous : Option String) (now : Nat) :
    TicketResponse × TicketStore :=
  let store := store.prune now
  match previous.bind fun ticket => (store.get ticket).map fun entry => (ticket, entry) with
  | some (ticket, entry) =>
      if store.ttl < entry.absoluteExpiresAt - now then
        let expiresAt := min (now + store.ttl) entry.absoluteExpiresAt
        (⟨ticket, asSecs (expiresAt - now)⟩, store.setExpiry ticket expiresAt)
      else store.mint uuid now
  | none => store.mint uuid now

def consumeEvent (store : TicketStore) (ticket : String) (now : Nat) :
    Option EventTicketContext × TicketStore :=
  let store := store.prune now
  (((store.get ticket).filter fun entry => now ≤ entry.expiresAt).map (·.eventContext),
    store.remove ticket)

def validate (store : TicketStore) (ticket : String) (now : Nat) : Bool × TicketStore :=
  if ticket.isEmpty then (false, store)
  else
    let store := store.prune now
    ((store.get ticket).any fun entry => now ≤ entry.expiresAt, store)

end TicketStore

inductive Call where
  | tryIssueEvent (uuid : String) (context : EventTicketContext) (now : Nat)
  | issueSliding (uuid : String) (previous : Option String) (now : Nat)
  | consumeEvent (ticket : String) (now : Nat)
  | validate (ticket : String) (now : Nat)

def Call.uuid : Call → Option String
  | .tryIssueEvent uuid _ _ | .issueSliding uuid _ _ => some uuid
  | .consumeEvent _ _ | .validate _ _ => none

/-- What a call did. A ticket is minted with a context by `tryIssueEvent` only. -/
inductive Outcome where
  | minted (ticket : String) (context : Option EventTicketContext) (now : Nat)
  | refused
  | renewed (ticket : String)
  | redeemed (ticket : String) (context : Option EventTicketContext) (now : Nat)
  | checked (ticket : String) (accepted : Bool) (now : Nat)
deriving DecidableEq

/-- The previous ticket is live and further than one idle period from its absolute boundary. -/
def TicketStore.renews (store : TicketStore) (previous : Option String) (now : Nat) : Bool :=
  (previous.bind (store.prune now).get).any fun entry => store.ttl < entry.absoluteExpiresAt - now

def observe (store : TicketStore) : Call → Outcome
  | .tryIssueEvent uuid context now =>
      match (store.tryIssueEvent uuid context now).1 with
      | some response => .minted response.ticket (some context) now
      | none => .refused
  | .issueSliding uuid previous now =>
      let response := (store.issueSlidingAt uuid previous now).1
      if store.renews previous now then .renewed response.ticket
      else .minted response.ticket none now
  | .consumeEvent ticket now => .redeemed ticket (store.consumeEvent ticket now).1 now
  | .validate ticket now => .checked ticket (store.validate ticket now).1 now

def apply (store : TicketStore) : Call → TicketStore
  | .tryIssueEvent uuid context now => (store.tryIssueEvent uuid context now).2
  | .issueSliding uuid previous now => (store.issueSlidingAt uuid previous now).2
  | .consumeEvent ticket now => (store.consumeEvent ticket now).2
  | .validate ticket now => (store.validate ticket now).2

/-- The store and what has happened on it so far. -/
structure Service where
  store : TicketStore
  log : List Outcome

def Service.start (store : TicketStore) : Service := ⟨store, []⟩

def Service.step (service : Service) (call : Call) : Service :=
  ⟨apply service.store call, service.log ++ [observe service.store call]⟩

namespace TicketStore

variable (store : TicketStore)

@[simp] theorem get_prune (now : Nat) (ticket : String) :
    (store.prune now).get ticket = (store.get ticket).filter (·.alive now) := by
  simp only [get, prune, pruneTickets, Table.find_delete, Bool.not_not]
  cases store.tickets.find ticket with
  | none => rfl
  | some row =>
      simp only [Option.map_some, Option.filter_some]
      split
      · rfl
      · rfl

@[simp] theorem get_put (ticket : String) (entry : TicketEntry) (other : String) :
    (store.put ticket entry).get other =
      if ticket = other then some entry else store.get other := by
  simp only [get, put, Table.find_put]
  split
  · rfl
  · rfl

@[simp] theorem get_setExpiry (ticket : String) (expiresAt : Nat) (other : String) :
    (store.setExpiry ticket expiresAt).get other =
      (store.get other).map fun entry =>
        if ticket = other then { entry with expiresAt } else entry := by
  simp only [get, setExpiry, Table.find_update]
  cases hfind : store.tickets.find other with
  | none => rfl
  | some row =>
      obtain ⟨key, entry⟩ := row
      obtain rfl : key = other := Table.find_key hfind
      by_cases hother : ticket = key
      · simp [hother]
      · simp [hother, Ne.symm hother]

@[simp] theorem get_remove (ticket other : String) :
    (store.remove ticket).get other = if ticket = other then none else store.get other := by
  simp only [get, remove, Table.find_delete]
  cases hfind : store.tickets.find other with
  | none => simp
  | some row =>
      obtain ⟨key, entry⟩ := row
      obtain rfl : key = other := Table.find_key hfind
      by_cases hother : ticket = key
      · simp [hother]
      · simp [hother, Ne.symm hother]

@[simp] theorem absoluteTtl_prune (now : Nat) :
    (store.prune now).absoluteTtl = store.absoluteTtl := rfl

@[simp] theorem ttl_prune (now : Nat) : (store.prune now).ttl = store.ttl := rfl

@[simp] theorem maxOutstanding_prune (now : Nat) :
    (store.prune now).maxOutstanding = store.maxOutstanding := rfl

end TicketStore

/-- Everything a call that would draw `uuid` can do, on what pruning left of the store. -/
inductive Does (store : TicketStore) (uuid : Option String) : Outcome → TicketStore → Prop
  | mint (ticket : String) (context : Option EventTicketContext) (now : Nat)
      (hdrawn : uuid = some ticket)
      (hroom : context.isSome → ∀ limit, store.maxOutstanding = some limit →
        (store.prune now).tickets.rows.length < limit) :
      Does store uuid (.minted ticket context now)
        ((store.prune now).put ticket (store.entry now (context.getD .default)))
  | refuse (now : Nat) : Does store uuid .refused (store.prune now)
  | renew (ticket : String) (entry : TicketEntry) (now expiresAt : Nat)
      (hlive : (store.prune now).get ticket = some entry)
      (hbound : expiresAt ≤ entry.absoluteExpiresAt) :
      Does store uuid (.renewed ticket) ((store.prune now).setExpiry ticket expiresAt)
  | redeem (ticket : String) (now : Nat) :
      Does store uuid (.redeemed ticket (((store.prune now).get ticket).map (·.eventContext)) now)
        ((store.prune now).remove ticket)
  | check (ticket : String) (now : Nat) :
      Does store uuid (.checked ticket ((store.prune now).get ticket).isSome now) (store.prune now)
  | skip (ticket : String) (now : Nat) : Does store uuid (.checked ticket false now) store

section Does

variable (store : TicketStore)

/-- What pruning left has not idled out: the second test of the expiry never fails. -/
theorem filter_get_prune (ticket : String) (now : Nat) :
    ((store.prune now).get ticket).filter (fun entry => now ≤ entry.expiresAt) =
      (store.prune now).get ticket := by
  rw [TicketStore.get_prune, Option.filter_filter]
  congr 1
  funext entry
  simp only [TicketEntry.alive]
  grind

theorem does_tryIssueEvent (uuid : String) (context : EventTicketContext) (now : Nat) :
    Does store (some uuid) (observe store (.tryIssueEvent uuid context now))
      (apply store (.tryIssueEvent uuid context now)) := by
  by_cases hfull : store.maxOutstanding.any fun limit =>
      limit ≤ (store.prune now).tickets.rows.length
  · have hissue : store.tryIssueEvent uuid context now = (none, store.prune now) :=
      if_pos hfull
    simp only [observe, apply, hissue]
    exact .refuse now
  · have hissue : store.tryIssueEvent uuid context now = (some ⟨uuid, asSecs store.ttl⟩,
        (store.prune now).put uuid (store.entry now context)) :=
      if_neg hfull
    simp only [observe, apply, hissue]
    refine .mint uuid (some context) now rfl ?_
    intro _ limit hlimit
    rw [hlimit] at hfull
    simpa using hfull

/-- Sliding issuance renews the previous ticket in place or mints another. -/
theorem issueSlidingAt_cases (uuid : String) (previous : Option String) (now : Nat) :
    (∃ ticket entry, previous = some ticket ∧ (store.prune now).get ticket = some entry ∧
      store.renews previous now = true ∧ store.issueSlidingAt uuid previous now =
        (⟨ticket, asSecs (min (now + store.ttl) entry.absoluteExpiresAt - now)⟩,
          (store.prune now).setExpiry ticket (min (now + store.ttl) entry.absoluteExpiresAt))) ∨
      (store.renews previous now = false ∧
        store.issueSlidingAt uuid previous now = (store.prune now).mint uuid now) := by
  cases previous with
  | none => exact .inr ⟨rfl, rfl⟩
  | some ticket =>
      cases hget : (store.prune now).get ticket with
      | none =>
          right
          simp only [TicketStore.renews, TicketStore.issueSlidingAt, Option.bind_some, hget,
            Option.map_none, Option.any_none, and_self]
      | some entry =>
          simp only [TicketStore.renews, TicketStore.issueSlidingAt, Option.bind_some, hget,
            Option.map_some, Option.any_some]
          by_cases hfar : store.ttl < entry.absoluteExpiresAt - now
          · exact .inl ⟨ticket, entry, rfl, hget, decide_eq_true hfar, if_pos hfar⟩
          · exact .inr ⟨decide_eq_false hfar, if_neg hfar⟩

theorem does_issueSliding (uuid : String) (previous : Option String) (now : Nat) :
    Does store (some uuid) (observe store (.issueSliding uuid previous now))
      (apply store (.issueSliding uuid previous now)) := by
  obtain ⟨ticket, entry, -, hget, hrenews, hslide⟩ | ⟨hrenews, hslide⟩ :=
    issueSlidingAt_cases store uuid previous now
  · simp only [observe, apply, hrenews, hslide, if_true]
    exact .renew ticket entry now _ hget (Nat.min_le_right _ _)
  · simp only [observe, apply, hrenews, hslide]
    exact .mint uuid none now rfl fun hsome => by cases hsome

theorem does_apply (call : Call) :
    Does store call.uuid (observe store call) (apply store call) := by
  cases call with
  | tryIssueEvent uuid context now => exact does_tryIssueEvent store uuid context now
  | issueSliding uuid previous now => exact does_issueSliding store uuid previous now
  | consumeEvent ticket now =>
      simp only [observe, apply, TicketStore.consumeEvent, filter_get_prune]
      exact .redeem ticket now
  | validate ticket now =>
      simp only [observe, apply, TicketStore.validate]
      split
      · exact .skip ticket now
      · have haccepts : (((store.prune now).get ticket).any fun entry => now ≤ entry.expiresAt) =
            ((store.prune now).get ticket).isSome := by
          rw [← filter_get_prune store ticket now]
          cases hget : (store.prune now).get ticket with
          | none => rfl
          | some entry => grind
        rw [haccepts]
        exact .check ticket now

end Does

section Histories

def IssuedAt (log : List Outcome) (ticket : String) (issued : Nat) : Prop :=
  ∃ context, .minted ticket context issued ∈ log

/-- The ticket a call accepted, and when. -/
def Outcome.accepted : Outcome → Option (String × Nat)
  | .redeemed ticket (some _) now | .checked ticket true now => some (ticket, now)
  | _ => none

def Outcome.redemption (ticket : String) : Outcome → Option EventTicketContext
  | .redeemed other context _ => if other = ticket then context else none
  | _ => none

def redemptions (log : List Outcome) (ticket : String) : List EventTicketContext :=
  log.filterMap (·.redemption ticket)

def Outcome.mintsEvent (ticket : String) : Outcome → Bool
  | .minted other (some _) _ => other = ticket
  | _ => false

def isEventTicket (log : List Outcome) (ticket : String) : Bool :=
  log.any (·.mintsEvent ticket)

def eventRows (store : TicketStore) (log : List Outcome) : List (String × TicketEntry) :=
  store.tickets.rows.filter fun row => isEventTicket log row.1

@[simp] theorem redemptions_append (log : List Outcome) (outcome : Outcome) (ticket : String) :
    redemptions (log ++ [outcome]) ticket =
      redemptions log ticket ++ (outcome.redemption ticket).toList := by
  simp only [redemptions, List.filterMap_append]
  cases h : outcome.redemption ticket with
  | none => simp [h]
  | some context => simp [h]

@[simp] theorem isEventTicket_append (log : List Outcome) (outcome : Outcome) (ticket : String) :
    isEventTicket (log ++ [outcome]) ticket =
      (isEventTicket log ticket || outcome.mintsEvent ticket) := by
  simp [isEventTicket]

theorem mintsEvent_eq_true {outcome : Outcome} {ticket : String}
    (h : outcome.mintsEvent ticket = true) :
    ∃ context issued, outcome = .minted ticket (some context) issued := by
  unfold Outcome.mintsEvent at h
  split at h
  · next other context issued =>
      obtain rfl : other = ticket := by simpa using h
      exact ⟨context, issued, rfl⟩
  · cases h

theorem isEventTicket_eq_false {log : List Outcome} {ticket : String}
    (h : ∀ context issued, .minted ticket context issued ∉ log) :
    isEventTicket log ticket = false := by
  by_contra hevent
  rw [Bool.not_eq_false] at hevent
  obtain ⟨outcome, hmem, hmints⟩ := List.any_eq_true.mp hevent
  obtain ⟨context, issued, rfl⟩ := mintsEvent_eq_true hmints
  exact h _ _ hmem

/-- A stored entry goes back to the call that minted its ticket. -/
def Backed (log : List Outcome) (absoluteTtl : Nat) (ticket : String) (entry : TicketEntry) :
    Prop :=
  ∃ context issued, .minted ticket context issued ∈ log ∧
    entry.expiresAt ≤ entry.absoluteExpiresAt ∧
    entry.absoluteExpiresAt = issued + absoluteTtl ∧
    entry.eventContext = context.getD .default

theorem Backed.append {log : List Outcome} {absoluteTtl : Nat} {ticket : String}
    {entry : TicketEntry} (h : Backed log absoluteTtl ticket entry) (outcome : Outcome) :
    Backed (log ++ [outcome]) absoluteTtl ticket entry := by
  obtain ⟨context, issued, hmem, hentry⟩ := h
  exact ⟨context, issued, List.mem_append_left _ hmem, hentry⟩

end Histories

/-- What every history keeps, on a store of these settings. -/
structure Kept (absoluteTtl : Nat) (limit : Option Nat) (store : TicketStore)
    (log : List Outcome) : Prop where
  lifetime : store.absoluteTtl = absoluteTtl
  ceiling : store.maxOutstanding = limit
  stored : ∀ ticket entry, store.get ticket = some entry → Backed log absoluteTtl ticket entry
  unredeemed : ∀ ticket entry, store.get ticket = some entry → redemptions log ticket = []
  once : ∀ ticket context context' issued issued', .minted ticket context issued ∈ log →
    .minted ticket context' issued' ∈ log → context = context' ∧ issued = issued'
  accepted : ∀ outcome ∈ log, ∀ ticket now, outcome.accepted = some (ticket, now) →
    ∃ issued, IssuedAt log ticket issued ∧ now ≤ issued + absoluteTtl
  redeemed : ∀ ticket, redemptions log ticket = [] ∨ ∃ context issued,
    .minted ticket context issued ∈ log ∧ redemptions log ticket = [context.getD .default]
  room : ∀ most, limit = some most → (eventRows store log).length ≤ most

namespace Kept

variable {absoluteTtl : Nat} {limit : Option Nat} {store : TicketStore} {log : List Outcome}

theorem shrink (h : Kept absoluteTtl limit store log) {store' : TicketStore}
    (hlifetime : store'.absoluteTtl = store.absoluteTtl)
    (hceiling : store'.maxOutstanding = store.maxOutstanding)
    (hget : ∀ ticket entry, store'.get ticket = some entry → store.get ticket = some entry)
    (hrows : store'.tickets.rows.Sublist store.tickets.rows) :
    Kept absoluteTtl limit store' log where
  lifetime := hlifetime.trans h.lifetime
  ceiling := hceiling.trans h.ceiling
  stored ticket entry hentry := h.stored ticket entry (hget ticket entry hentry)
  unredeemed ticket entry hentry := h.unredeemed ticket entry (hget ticket entry hentry)
  once := h.once
  accepted := h.accepted
  redeemed := h.redeemed
  room most hmost := Nat.le_trans (hrows.filter _).length_le (h.room most hmost)

theorem prune (h : Kept absoluteTtl limit store log) (now : Nat) :
    Kept absoluteTtl limit (store.prune now) log := by
  refine h.shrink rfl rfl ?_ ?_
  · intro ticket entry hget
    rw [TicketStore.get_prune, Option.filter_eq_some_iff] at hget
    exact hget.1
  · exact List.filter_sublist

theorem remove (h : Kept absoluteTtl limit store log) (ticket : String) :
    Kept absoluteTtl limit (store.remove ticket) log := by
  refine h.shrink rfl rfl ?_ ?_
  · intro other entry hget
    rw [TicketStore.get_remove] at hget
    split at hget
    · cases hget
    · exact hget
  · exact List.filter_sublist

theorem setExpiry (h : Kept absoluteTtl limit store log) {ticket : String} {entry : TicketEntry}
    {expiresAt : Nat} (hget : store.get ticket = some entry)
    (hbound : expiresAt ≤ entry.absoluteExpiresAt) :
    Kept absoluteTtl limit (store.setExpiry ticket expiresAt) log where
  lifetime := h.lifetime
  ceiling := h.ceiling
  stored other entry' hget' := by
    rw [TicketStore.get_setExpiry, Option.map_eq_some_iff] at hget'
    obtain ⟨old, hold, rfl⟩ := hget'
    obtain ⟨context, issued, hmem, hidle, habsolute, hcontext⟩ := h.stored other old hold
    refine ⟨context, issued, hmem, ?_⟩
    split
    · next heq =>
        subst heq
        obtain rfl := Option.some.inj (hold.symm.trans hget)
        exact ⟨hbound, habsolute, hcontext⟩
    · exact ⟨hidle, habsolute, hcontext⟩
  unredeemed other entry' hget' := by
    rw [TicketStore.get_setExpiry, Option.map_eq_some_iff] at hget'
    obtain ⟨old, hold, rfl⟩ := hget'
    exact h.unredeemed other old hold
  once := h.once
  accepted := h.accepted
  redeemed := h.redeemed
  room most hmost := by
    have hkeys : (eventRows (store.setExpiry ticket expiresAt) log).length =
        (eventRows store log).length := by
      simp only [eventRows, TicketStore.setExpiry, Table.update, Table.modify, List.filter_map,
        List.length_map]
      congr 2
      funext row
      simp only [Function.comp_apply]
      split
      · rfl
      · rfl
    rw [hkeys]
    exact h.room most hmost

/-- A call that mints nothing: what it accepted was issued, what it redeemed is gone. -/
theorem append (h : Kept absoluteTtl limit store log) {outcome : Outcome}
    (hquiet : ∀ ticket context issued, outcome ≠ .minted ticket context issued)
    (hgone : ∀ ticket entry, store.get ticket = some entry → outcome.redemption ticket = none)
    (haccepted : ∀ ticket now, outcome.accepted = some (ticket, now) →
      ∃ issued, IssuedAt log ticket issued ∧ now ≤ issued + absoluteTtl)
    (hredeemed : ∀ ticket redeemed, outcome.redemption ticket = some redeemed →
      redemptions log ticket = [] ∧ ∃ context issued, .minted ticket context issued ∈ log ∧
        redeemed = context.getD .default) :
    Kept absoluteTtl limit store (log ++ [outcome]) where
  lifetime := h.lifetime
  ceiling := h.ceiling
  stored ticket entry hget := (h.stored ticket entry hget).append outcome
  unredeemed ticket entry hget := by
    rw [redemptions_append, h.unredeemed ticket entry hget, hgone ticket entry hget]
    rfl
  once ticket context context' issued issued' hmem hmem' := by
    rw [List.mem_append, List.mem_singleton] at hmem hmem'
    have hold := hmem.resolve_right (hquiet _ _ _).symm
    have hold' := hmem'.resolve_right (hquiet _ _ _).symm
    exact h.once ticket context context' issued issued' hold hold'
  accepted other hmem ticket now haccept := by
    have hbefore : ∃ issued, IssuedAt log ticket issued ∧ now ≤ issued + absoluteTtl := by
      rcases List.mem_append.mp hmem with hold | hnew
      · exact h.accepted other hold ticket now haccept
      · rw [List.mem_singleton.mp hnew] at haccept
        exact haccepted ticket now haccept
    obtain ⟨issued, ⟨context, hissued⟩, hnow⟩ := hbefore
    exact ⟨issued, ⟨context, List.mem_append_left _ hissued⟩, hnow⟩
  redeemed ticket := by
    rw [redemptions_append]
    cases hredemption : outcome.redemption ticket with
    | none =>
        rw [Option.toList_none, List.append_nil]
        obtain hnone | ⟨context, issued, hmem, hone⟩ := h.redeemed ticket
        · exact .inl hnone
        · exact .inr ⟨context, issued, List.mem_append_left _ hmem, hone⟩
    | some redeemed =>
        obtain ⟨hnone, context, issued, hmem, rfl⟩ := hredeemed ticket redeemed hredemption
        rw [hnone]
        exact .inr ⟨context, issued, List.mem_append_left _ hmem, rfl⟩
  room most hmost := by
    have hevents : eventRows store (log ++ [outcome]) = eventRows store log := by
      apply List.filter_congr
      intro row _
      have hmints : outcome.mintsEvent row.1 = false := by
        by_contra hmints
        rw [Bool.not_eq_false] at hmints
        obtain ⟨context, issued, heq⟩ := mintsEvent_eq_true hmints
        exact hquiet _ _ _ heq
      rw [isEventTicket_append, hmints, Bool.or_false]
    rw [hevents]
    exact h.room most hmost

/-- Of the rows after a mint, the ones that were there before are event tickets as before. -/
theorem length_eventRows_put {ticket : String} {context : Option EventTicketContext} {now : Nat}
    (hfresh : ∀ context issued, .minted ticket context issued ∉ log) (entry : TicketEntry) :
    (eventRows (store.put ticket entry) (log ++ [Outcome.minted ticket context now])).length ≤
      (eventRows store log).length + if context.isSome then 1 else 0 := by
  have hnew : (if isEventTicket (log ++ [Outcome.minted ticket context now]) ticket then 1 else 0) =
      if context.isSome then 1 else 0 := by
    rw [isEventTicket_append, isEventTicket_eq_false hfresh]
    cases context with
    | none => rfl
    | some context => simp [Outcome.mintsEvent]
  have hold : (store.tickets.rows.filter fun row => !decide (row.1 = ticket)).filter
      (fun row => isEventTicket (log ++ [Outcome.minted ticket context now]) row.1) =
      (store.tickets.rows.filter fun row => !decide (row.1 = ticket)).filter
        (fun row => isEventTicket log row.1) := by
    apply List.filter_congr
    intro row hrow
    have hother : row.1 ≠ ticket := by simpa using (List.mem_filter.mp hrow).2
    have hmints : Outcome.mintsEvent row.1 (.minted ticket context now) = false := by
      cases context with
      | none => rfl
      | some context => simpa [Outcome.mintsEvent] using hother.symm
    rw [isEventTicket_append, hmints, Bool.or_false]
  have hrows : (eventRows (store.put ticket entry)
      (log ++ [Outcome.minted ticket context now])).length =
      ((store.tickets.rows.filter fun row => !decide (row.1 = ticket)).filter
        (fun row => isEventTicket log row.1)).length + if context.isSome then 1 else 0 := by
    rw [← hold, ← hnew]
    simp only [eventRows, TicketStore.put, Table.put, Table.delete, List.filter_append,
      List.length_append, List.filter_singleton]
    cases isEventTicket (log ++ [Outcome.minted ticket context now]) ticket with
    | false => rfl
    | true => rfl
  have hsub : ((store.tickets.rows.filter fun row => !decide (row.1 = ticket)).filter
      (fun row => isEventTicket log row.1)).length ≤ (eventRows store log).length :=
    (List.filter_sublist.filter _).length_le
  omega

theorem mint (h : Kept absoluteTtl limit store log) {ticket : String}
    {context : Option EventTicketContext} {now : Nat}
    (hfresh : ∀ context issued, .minted ticket context issued ∉ log)
    (hroom : context.isSome → ∀ most, limit = some most → store.tickets.rows.length < most) :
    Kept absoluteTtl limit (store.put ticket (store.entry now (context.getD .default)))
      (log ++ [Outcome.minted ticket context now]) where
  lifetime := h.lifetime
  ceiling := h.ceiling
  stored other entry hget := by
    rw [TicketStore.get_put] at hget
    split at hget
    · next heq =>
        subst heq
        obtain rfl := Option.some.inj hget
        refine ⟨context, now, by simp, ?_, ?_, rfl⟩
        · exact Nat.add_le_add_left (Nat.min_le_right _ _) now
        · show now + store.absoluteTtl = now + absoluteTtl
          rw [h.lifetime]
    · exact (h.stored other entry hget).append _
  unredeemed other entry hget := by
    rw [redemptions_append]
    rw [TicketStore.get_put] at hget
    split at hget
    · next heq =>
        subst heq
        obtain hnone | ⟨context, issued, hmem, -⟩ := h.redeemed ticket
        · rw [hnone]
          rfl
        · exact absurd hmem (hfresh context issued)
    · rw [h.unredeemed other entry hget]
      rfl
  once other context' context'' issued issued' hmem hmem' := by
    rw [List.mem_append, List.mem_singleton] at hmem hmem'
    rcases hmem with hold | hnew
    · rcases hmem' with hold' | hnew'
      · exact h.once other context' context'' issued issued' hold hold'
      · cases hnew'
        exact absurd hold (hfresh _ _)
    · cases hnew
      rcases hmem' with hold' | hnew'
      · exact absurd hold' (hfresh _ _)
      · cases hnew'
        exact ⟨rfl, rfl⟩
  accepted outcome hmem other instant haccept := by
    rcases List.mem_append.mp hmem with hold | hnew
    · obtain ⟨issued, ⟨context', hissued⟩, hnow⟩ := h.accepted outcome hold other instant haccept
      exact ⟨issued, ⟨context', List.mem_append_left _ hissued⟩, hnow⟩
    · rw [List.mem_singleton.mp hnew] at haccept
      cases haccept
  redeemed other := by
    rw [redemptions_append]
    obtain hnone | ⟨context', issued, hmem, hone⟩ := h.redeemed other
    · rw [hnone]
      exact .inl rfl
    · rw [hone]
      exact .inr ⟨context', issued, List.mem_append_left _ hmem, rfl⟩
  room most hmost := by
    have hput : (eventRows (store.put ticket (store.entry now (context.getD .default)))
        (log ++ [Outcome.minted ticket context now])).length ≤
          (eventRows store log).length + if context.isSome then 1 else 0 :=
      length_eventRows_put hfresh _
    cases context with
    | none => exact Nat.le_trans hput (h.room most hmost)
    | some context =>
        have hall : (eventRows store log).length ≤ store.tickets.rows.length :=
          List.length_filter_le _ _
        have hless := hroom rfl most hmost
        simp only [Option.isSome_some, if_true] at hput
        omega

/-- What survives pruning at `now` was issued at most one absolute lifetime before. -/
theorem issued_of_live (h : Kept absoluteTtl limit store log) {ticket : String}
    {entry : TicketEntry} {now : Nat} (hget : (store.prune now).get ticket = some entry) :
    ∃ issued, IssuedAt log ticket issued ∧ now ≤ issued + absoluteTtl := by
  rw [TicketStore.get_prune, Option.filter_eq_some_iff] at hget
  obtain ⟨hstored, halive⟩ := hget
  obtain ⟨context, issued, hmem, -, habsolute, -⟩ := h.stored ticket entry hstored
  refine ⟨issued, ⟨context, hmem⟩, ?_⟩
  simp only [TicketEntry.alive, Bool.and_eq_true, decide_eq_true_eq] at halive
  omega

/-- The invariant is kept by whatever a call with a fresh UUID does. -/
theorem does (h : Kept absoluteTtl limit store log) {uuid : Option String} {outcome : Outcome}
    {store' : TicketStore} (hdoes : Does store uuid outcome store')
    (hfresh : ∀ ticket, uuid = some ticket → ∀ context issued,
      .minted ticket context issued ∉ log) :
    Kept absoluteTtl limit store' (log ++ [outcome]) := by
  cases hdoes with
  | mint ticket context now hdrawn hroom =>
      apply (h.prune now).mint (hfresh ticket hdrawn)
      intro hsome most hmost
      exact hroom hsome most (h.ceiling.trans hmost)
  | refuse now =>
      apply (h.prune now).append
      · intros; simp
      · intros; rfl
      · intro _ _ haccept; cases haccept
      · intro _ _ hredeemed; cases hredeemed
  | renew ticket entry now expiresAt hlive hbound =>
      apply ((h.prune now).setExpiry hlive hbound).append
      · intros; simp
      · intros; rfl
      · intro _ _ haccept; cases haccept
      · intro _ _ hredeemed; cases hredeemed
  | redeem ticket now =>
      apply ((h.prune now).remove ticket).append
      · intros; simp
      · intro other entry hget
        have hother : ticket ≠ other := by
          rintro rfl
          simp at hget
        exact if_neg hother
      · intro other instant haccept
        cases hget : (store.prune now).get ticket with
        | none => simp [hget, Outcome.accepted] at haccept
        | some entry =>
            obtain ⟨rfl, rfl⟩ : ticket = other ∧ now = instant := by
              simpa [hget, Outcome.accepted] using haccept
            exact h.issued_of_live hget
      · intro other redeemed hredeemed
        have hother : ticket = other := by
          by_contra hother
          simp [Outcome.redemption, hother] at hredeemed
        subst hother
        simp only [Outcome.redemption, if_true, Option.map_eq_some_iff] at hredeemed
        obtain ⟨entry, hget, rfl⟩ := hredeemed
        obtain ⟨context, issued, hmem, -, -, hcontext⟩ := (h.prune now).stored ticket entry hget
        exact ⟨(h.prune now).unredeemed ticket entry hget, context, issued, hmem, hcontext⟩
  | check ticket now =>
      apply (h.prune now).append
      · intros; simp
      · intros; rfl
      · intro other instant haccept
        cases hget : (store.prune now).get ticket with
        | none => simp [hget, Outcome.accepted] at haccept
        | some entry =>
            obtain ⟨rfl, rfl⟩ : ticket = other ∧ now = instant := by
              simpa [hget, Outcome.accepted] using haccept
            exact h.issued_of_live hget
      · intro _ _ hredeemed; cases hredeemed
  | skip ticket now =>
      apply h.append
      · intros; simp
      · intros; rfl
      · intro _ _ haccept; cases haccept
      · intro _ _ hredeemed; cases hredeemed

end Kept

section Histories

variable {absoluteTtl : Nat} {limit : Option Nat}

/-- The call would draw a UUID that no ticket has. -/
def Fresh (service : Service) (call : Call) : Prop :=
  ∀ ticket, call.uuid = some ticket → ∀ context issued, .minted ticket context issued ∉ service.log

theorem Kept.step {service : Service} {call : Call}
    (h : Kept absoluteTtl limit service.store service.log) (hfresh : Fresh service call) :
    Kept absoluteTtl limit (service.step call).store (service.step call).log :=
  h.does (does_apply service.store call) hfresh

theorem uuid_of_minted {store store' : TicketStore} {uuid : Option String} {ticket : String}
    {context : Option EventTicketContext} {issued : Nat}
    (h : Does store uuid (.minted ticket context issued) store') : uuid = some ticket := by
  cases h with
  | mint _ _ _ hdrawn _ => exact hdrawn

/-- Distinct UUIDs are fresh, each when it is drawn. -/
theorem along_fresh {service : Service} {calls : List Call}
    (hlog : ∀ ticket context issued, .minted ticket context issued ∈ service.log →
      ticket ∉ calls.filterMap Call.uuid)
    (hnodup : (calls.filterMap Call.uuid).Nodup) : Run.Along Service.step Fresh service calls := by
  induction calls generalizing service with
  | nil => trivial
  | cons call calls ih =>
      constructor
      · intro ticket huuid context issued hmem
        apply hlog ticket context issued hmem
        simp [huuid]
      · apply ih
        · intro ticket context issued hmem
          rcases List.mem_append.mp hmem with hold | hnew
          · intro hlater
            apply hlog ticket context issued hold
            exact (List.sublist_cons_self call calls).filterMap Call.uuid |>.subset hlater
          · have hdoes := does_apply service.store call
            rw [← List.mem_singleton.mp hnew] at hdoes
            rw [List.filterMap_cons_some (uuid_of_minted hdoes)] at hnodup
            exact (List.nodup_cons.mp hnodup).1
        · exact hnodup.sublist ((List.sublist_cons_self call calls).filterMap Call.uuid)

/-- No ticket outlives its lifetime, no event ticket is redeemed twice or with another's
context, and the event tickets of a bounded store stay within the bound. -/
structure Guarded (absoluteTtl : Nat) (limit : Option Nat) (service : Service) : Prop where
  entries : ∀ ticket entry, service.store.get ticket = some entry →
    ∃ issued, IssuedAt service.log ticket issued ∧ entry.expiresAt ≤ entry.absoluteExpiresAt ∧
      entry.absoluteExpiresAt ≤ issued + absoluteTtl
  lifetime : ∀ outcome ∈ service.log, ∀ ticket now, outcome.accepted = some (ticket, now) →
    ∃ issued, (∀ other, IssuedAt service.log ticket other ↔ other = issued) ∧
      now ≤ issued + absoluteTtl
  single : ∀ ticket context issued, .minted ticket (some context) issued ∈ service.log →
    redemptions service.log ticket = [] ∨ redemptions service.log ticket = [context]
  bounded : ∀ most, limit = some most →
    (eventRows service.store service.log).length ≤ most ∧
      ((∀ ticket issued, .minted ticket none issued ∉ service.log) →
        service.store.tickets.rows.length ≤ most)

theorem Kept.guarded {service : Service} (h : Kept absoluteTtl limit service.store service.log) :
    Guarded absoluteTtl limit service where
  entries ticket entry hget := by
    obtain ⟨context, issued, hmem, hidle, habsolute, -⟩ := h.stored ticket entry hget
    exact ⟨issued, ⟨context, hmem⟩, hidle, Nat.le_of_eq habsolute⟩
  lifetime outcome hmem ticket now haccept := by
    obtain ⟨issued, ⟨context, hissued⟩, hnow⟩ := h.accepted outcome hmem ticket now haccept
    refine ⟨issued, ?_, hnow⟩
    intro other
    constructor
    · rintro ⟨context', hother⟩
      exact (h.once ticket context' context other issued hother hissued).2
    · rintro rfl
      exact ⟨context, hissued⟩
  single ticket context issued hmem := by
    obtain hnone | ⟨context', issued', hmem', hone⟩ := h.redeemed ticket
    · exact .inl hnone
    · obtain ⟨rfl, -⟩ := h.once ticket context' (some context) issued' issued hmem' hmem
      exact .inr hone
  bounded most hmost := by
    refine ⟨h.room most hmost, ?_⟩
    intro hevents
    have hall : eventRows service.store service.log = service.store.tickets.rows := by
      apply List.filter_eq_self.mpr
      intro row hrow
      have hget : service.store.get row.1 = some row.2 := by
        rw [TicketStore.get, Table.mem_rows_iff.mp hrow]
        rfl
      obtain ⟨context, issued, hmem, -⟩ := h.stored row.1 row.2 hget
      cases context with
      | none => exact absurd hmem (hevents row.1 issued)
      | some context =>
          apply List.any_eq_true.mpr
          exact ⟨_, hmem, by simp [Outcome.mintsEvent]⟩
    rw [← hall]
    exact h.room most hmost

/-- A renewal touches no ticket but the one it answers with: of the others the expired are
dropped, and a live ticket that is rotated away from keeps its expiry. -/
def Isolated (store : TicketStore) : Call → Prop
  | .issueSliding uuid previous now =>
      let response := (store.issueSlidingAt uuid previous now).1
      let after := (store.issueSlidingAt uuid previous now).2
      (∀ other, other ≠ response.ticket →
        after.get other = (store.get other).filter (·.alive now)) ∧
        ∀ ticket entry, previous = some ticket → response.ticket ≠ ticket →
          store.get ticket = some entry → entry.alive now = true → after.get ticket = some entry
  | _ => True

theorem isolated_issueSliding (store : TicketStore) (uuid : String) (previous : Option String)
    (now : Nat) : Isolated store (.issueSliding uuid previous now) := by
  have hothers : ∀ other, other ≠ (store.issueSlidingAt uuid previous now).1.ticket →
      (store.issueSlidingAt uuid previous now).2.get other =
        (store.get other).filter (·.alive now) := by
    intro other hother
    obtain ⟨ticket, entry, -, -, -, hslide⟩ | ⟨-, hslide⟩ :=
      issueSlidingAt_cases store uuid previous now
    · rw [hslide] at hother ⊢
      have hne : ticket ≠ other := hother.symm
      simp only [TicketStore.get_setExpiry, TicketStore.get_prune, if_neg hne]
      exact Option.map_id'
    · rw [hslide] at hother ⊢
      have hne : uuid ≠ other := hother.symm
      simp only [TicketStore.mint, TicketStore.get_put, TicketStore.get_prune, if_neg hne]
  refine ⟨hothers, ?_⟩
  intro ticket entry _ hrotates hget halive
  rw [hothers ticket hrotates.symm, hget]
  exact Option.filter_eq_some_iff.mpr ⟨rfl, halive⟩

theorem isolated (store : TicketStore) (call : Call) : Isolated store call := by
  cases call with
  | issueSliding uuid previous now => exact isolated_issueSliding store uuid previous now
  | tryIssueEvent _ _ _ | consumeEvent _ _ | validate _ _ => trivial

theorem kept_start (ttl absoluteTtl : Nat) (limit : Option Nat) :
    Kept absoluteTtl limit ⟨ttl, limit, absoluteTtl, .empty⟩ [] where
  lifetime := rfl
  ceiling := rfl
  stored _ _ hget := by cases hget
  unredeemed _ _ hget := by cases hget
  once _ _ _ _ _ hmem := by cases hmem
  accepted _ hmem := by cases hmem
  redeemed _ := .inl rfl
  room _ _ := Nat.zero_le _

/-- Tickets are guarded in every state of every history of a store, whatever its settings. -/
theorem tickets_guarded (ttl absoluteTtl : Nat) (limit : Option Nat) (calls : List Call)
    (hdistinct : (calls.filterMap Call.uuid).Nodup) :
    Run.Throughout Service.step (Guarded absoluteTtl limit)
        (Service.start ⟨ttl, limit, absoluteTtl, .empty⟩) calls ∧
      Run.Along Service.step (fun service => Isolated service.store)
        (Service.start ⟨ttl, limit, absoluteTtl, .empty⟩) calls := by
  constructor
  · apply Run.throughout_of_invariant
      (fun service => Kept absoluteTtl limit service.store service.log)
    · exact fun _ _ hkept hfresh => hkept.step hfresh
    · exact fun _ hkept => hkept.guarded
    · exact kept_start ttl absoluteTtl limit
    · apply along_fresh _ hdistinct
      intro _ _ _ hmem
      cases hmem
  · apply Run.along_of_forall
    exact fun service call => isolated service.store call

/-- Two clients ask a bounded store for sliding tickets. -/
def slidingPair : List Call := [.issueSliding "a" none 0, .issueSliding "b" none 0]

theorem tickets_guarded_slidingPair :
    (slidingPair.filterMap Call.uuid).Nodup ∧
      Run.Throughout Service.step (Guarded (fromSecs 30) (some 1))
        (Service.start (.withMaxOutstanding 30 1)) slidingPair :=
  ⟨by decide, (tickets_guarded (fromSecs 30) (fromSecs 30) (some 1) slidingPair (by decide)).1⟩

/-- Sliding issuance does not look at the bound: a store bounded by one then holds two live
tickets. -/
theorem slidingPair_exceeds_bound :
    (slidingPair.filterMap Call.uuid).Nodup ∧
      let service := Run.exec Service.step (Service.start (.withMaxOutstanding 30 1)) slidingPair
      service.store.maxOutstanding = some 1 ∧
        (service.store.tickets.rows.filter fun row => row.2.alive 0).length = 2 := by
  decide

end Histories

end SceneWorks.Tickets
