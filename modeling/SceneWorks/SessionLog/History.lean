import Mathlib.Data.List.Perm.Basic
import SceneWorks.Library.Run
import SceneWorks.SessionLog.Buffer

/-!
The session log against the full history of its lines. The history numbers the lines
consecutively; a log that tracks it keeps the end of every severity lane, and answers a
query as the history cut to these ends would. A client that asks for what lies beyond the
highest number it has seen then sees each line at most once, and misses none while its
limit lets every match through.
-/

namespace SceneWorks.SessionLog

variable (capture : Capture)

section Tracking

/-- The lines of a list of calls, each with its source. -/
def pushedLines (calls : List (String × String)) : List (String × String) :=
  calls.flatMap fun call => (chunkLines call.2).map fun line => (call.1, line)

def entryOf (line : String × String) (seq : Nat) : LogEntry :=
  classify capture line.1 (redactLine line.2) seq

def numbered (lines : List (String × String)) : List LogEntry :=
  lines.zipIdx.map fun line => entryOf capture line.1 line.2

def history (calls : List (String × String)) : List LogEntry := numbered capture (pushedLines calls)

def run (capacity : Nat) (calls : List (String × String)) : Inner :=
  calls.foldl (fun log call => log.pushLine capture call.1 call.2) (withCapacity capacity)

/-- The entries among the last `capacity` of their lane. -/
def retained (capacity : Nat) (entries : List LogEntry) : List LogEntry :=
  Window.recent entryLane capacity entries

structure Tracks (log : Inner) (entries : List LogEntry) : Prop where
  lanes : ∀ lane, log.lanes lane = (Window.laneOf entryLane lane entries).rtake log.capacity
  nextSeq : log.nextSeq = entries.length

variable {capture} {log : Inner} {entries : List LogEntry}

theorem numbered_concat (lines : List (String × String)) (line : String × String) :
    numbered capture (lines ++ [line]) =
      numbered capture lines ++ [entryOf capture line lines.length] := by
  rw [numbered, List.zipIdx_append, List.map_append, Nat.zero_add]
  rfl

theorem length_numbered (lines : List (String × String)) :
    (numbered capture lines).length = lines.length := by
  rw [numbered, List.length_map, List.length_zipIdx]

theorem seqs_numbered (lines : List (String × String)) :
    (numbered capture lines).map LogEntry.seq = List.range lines.length := by
  induction lines using List.reverseRecOn with
  | nil => rfl
  | append_singleton lines line ih =>
      rw [numbered_concat, List.map_append, ih, List.length_append, List.length_singleton,
        List.range_succ]
      rfl

theorem numbered_increasing (lines : List (String × String)) :
    (numbered capture lines).Pairwise fun a b => a.seq < b.seq := by
  rw [← List.pairwise_map, seqs_numbered]
  exact List.pairwise_lt_range

theorem tracks_withCapacity (capacity : Nat) : Tracks (withCapacity capacity) [] where
  lanes _ := (List.rtake_nil (withCapacity capacity).capacity).symm
  nextSeq := rfl

theorem tracks_pushOne {line : String × String} {lines : List (String × String)}
    (h : Tracks log (numbered capture lines)) (hroom : (lines ++ [line]).length < 2 ^ 64) :
    Tracks (log.pushOne capture line.1 line.2) (numbered capture (lines ++ [line])) := by
  have hnext : log.nextSeq = lines.length := h.nextSeq.trans (length_numbered lines)
  rw [numbered_concat, ← hnext]
  rw [List.length_append, List.length_singleton] at hroom
  constructor
  · intro lane
    change Function.update log.lanes (entryLane (entryOf capture line log.nextSeq))
      (Window.evict log.capacity (log.lanes _ ++ [entryOf capture line log.nextSeq])) lane = _
    rw [Window.laneOf_append]
    by_cases hlane : lane = entryLane (entryOf capture line log.nextSeq)
    · have hself : Window.laneOf entryLane lane [entryOf capture line log.nextSeq] =
          [entryOf capture line log.nextSeq] := by
        rw [Window.laneOf, List.filter_singleton, decide_eq_true hlane.symm]
        rfl
      rw [hself, hlane, Function.update_self, Window.evict_eq_rtake, h.lanes]
      exact Window.rtake_rtake_append ..
    · have hother : Window.laneOf entryLane lane [entryOf capture line log.nextSeq] = [] := by
        rw [Window.laneOf, List.filter_singleton, decide_eq_false (Ne.symm hlane)]
        rfl
      rw [Function.update_of_ne hlane, h.lanes, hother, List.append_nil]
      rfl
  · change min (log.nextSeq + 1) (2 ^ 64 - 1) = _
    rw [List.length_append, length_numbered, List.length_singleton]
    omega

theorem pushOne_capacity (source line : String) :
    (log.pushOne capture source line).capacity = log.capacity := rfl

theorem pushLine_eq (log : Inner) (source chunk : String) :
    log.pushLine capture source chunk =
      ((chunkLines chunk).map fun line => (source, line)).foldl
        (fun log line => log.pushOne capture line.1 line.2) log := by
  rw [Inner.pushLine, List.foldl_map]

theorem tracks_pushLines {lines later : List (String × String)}
    (h : Tracks log (numbered capture lines)) (hroom : (lines ++ later).length < 2 ^ 64) :
    Tracks (later.foldl (fun log line => log.pushOne capture line.1 line.2) log)
      (numbered capture (lines ++ later)) := by
  induction later generalizing lines log with
  | nil =>
      rw [List.append_nil]
      exact h
  | cons line later ih =>
      rw [List.append_cons] at hroom ⊢
      have hfirst : (lines ++ [line]).length < 2 ^ 64 := by
        rw [List.length_append] at hroom
        omega
      exact ih (tracks_pushOne h hfirst) hroom

theorem capacity_foldl (lines : List (String × String)) (log : Inner) :
    (lines.foldl (fun log line => log.pushOne capture line.1 line.2) log).capacity =
      log.capacity := by
  induction lines generalizing log with
  | nil => rfl
  | cons line lines ih => exact (ih _).trans (pushOne_capacity line.1 line.2)

end Tracking

section Answers

variable {capture} {log : Inner} {entries : List LogEntry} {query : LogQuery}

theorem nodup_of_increasing (h : entries.Pairwise fun a b => a.seq < b.seq) : entries.Nodup :=
  h.imp fun hlt heq => Nat.ne_of_lt hlt (congrArg LogEntry.seq heq)

/-- The matches of one lane, newest first and cut, are the end of that lane among the matches. -/
theorem lane_candidates (h : Tracks log entries) (hord : entries.Nodup) (lane : Lane) :
    ((log.lanes lane).reverse.filter query.matches).take query.effectiveLimit =
      (Window.laneOf entryLane lane (Window.recent entryLane query.effectiveLimit
        ((retained log.capacity entries).filter query.matches))).reverse := by
  have hnodup : ((retained log.capacity entries).filter query.matches).Nodup :=
    (hord.filter _).filter _
  rw [Window.laneOf_recent lane _ hnodup, List.rtake_eq_reverse_take_reverse, List.reverse_reverse,
    h.lanes, ← Window.laneOf_recent lane _ hord, List.filter_reverse, Window.laneOf,
    List.filter_filter, Window.laneOf, retained, List.filter_filter]
  congr 2
  exact List.filter_congr fun entry _ => Bool.and_comm ..

theorem entryLane_mem_lanes {entry : LogEntry} (h : query.matches entry = true) :
    entryLane entry ∈ query.lanes := by
  cases hlevel : query.level with
  | none =>
      rw [LogQuery.lanes, hlevel]
      cases entryLane entry <;> decide
  | some level =>
      simp only [LogQuery.matches, hlevel, Option.all_some, Bool.and_eq_true,
        decide_eq_true_eq] at h
      rw [LogQuery.lanes, hlevel, entryLane, h.1.2]
      exact List.mem_singleton_self _

theorem lanes_nodup (query : LogQuery) : query.lanes.Nodup := by
  rw [LogQuery.lanes]
  cases query.level with
  | none => decide
  | some level => exact List.nodup_singleton _

theorem candidates_perm (h : Tracks log entries) (hord : entries.Nodup) :
    (log.candidates query).Perm (Window.recent entryLane query.effectiveLimit
      ((retained log.capacity entries).filter query.matches)) := by
  refine (List.Perm.flatMap_left query.lanes fun lane _ => ?_).trans
    (Window.flatMap_laneOf_perm entryLane (lanes_nodup query) ?_)
  · rw [lane_candidates h hord lane]
    exact List.reverse_perm _
  · intro entry hentry
    have hmem := (Window.recent_sublist _ _).subset hentry
    exact entryLane_mem_lanes (List.mem_filter.mp hmem).2

theorem insertionSort_bySeq {l sorted : List LogEntry} (hperm : l.Perm sorted)
    (h : sorted.Pairwise fun a b => a.seq < b.seq) : l.insertionSort bySeq = sorted :=
  StableSort.insertionSort_of_strict hperm h

/-- A tracking log answers a query by the last matches among the retained entries. -/
theorem query_eq (h : Tracks log entries) (hord : entries.Pairwise fun a b => a.seq < b.seq) :
    log.query query =
      ((retained log.capacity entries).filter query.matches).rtake query.effectiveLimit := by
  have hmatches : ((retained log.capacity entries).filter query.matches).Pairwise
      fun a b => a.seq < b.seq :=
    hord.sublist (List.filter_sublist.trans (Window.recent_sublist _ _))
  have hsort := insertionSort_bySeq (candidates_perm h (nodup_of_increasing hord))
    (hmatches.sublist (Window.recent_sublist _ _))
  rw [Inner.query, hsort]
  exact Window.rtake_recent entryLane _ _

end Answers

section Polling

/-- What a client that polls does between two lines: the log is fed, or it asks once. -/
inductive Op where
  | push (source chunk : String)
  | poll (limit : Option Nat)

structure Session where
  calls : List (String × String)
  log : Inner
  after : Option Nat
  seen : List LogEntry

def noteSeen (after : Option Nat) (entry : LogEntry) : Option Nat :=
  match after with
  | none => some entry.seq
  | some seq => some (max seq entry.seq)

def start (capacity : Nat) (query : LogQuery) : Session :=
  { calls := [], log := withCapacity capacity, after := query.afterSeq, seen := [] }

def ask (query : LogQuery) (session : Session) (limit : Option Nat) : LogQuery :=
  { query with afterSeq := session.after, limit }

variable (query : LogQuery)

def step (session : Session) : Op → Session
  | .push source chunk =>
      { session with
        calls := session.calls ++ [(source, chunk)]
        log := session.log.pushLine capture source chunk }
  | .poll limit =>
      let answer := session.log.query (ask query session limit)
      { session with
        after := answer.foldl noteSeen session.after
        seen := session.seen ++ answer }

/-- The limit of a poll lets through every match among the retained entries. -/
def Enough (session : Session) : Op → Prop
  | .push _ _ => True
  | .poll limit =>
      ((retained session.log.capacity (history capture session.calls)).filter
        (ask query session limit).matches).length ≤ (ask query session limit).effectiveLimit

def pushes : List Op → List (String × String)
  | [] => []
  | .push source chunk :: ops => (source, chunk) :: pushes ops
  | .poll _ :: ops => pushes ops

/-- A client's place in the history: what it has seen, and the lines beyond it. -/
structure Polled (capacity : Nat) (session : Session) : Prop where
  tracks : Tracks session.log (history capture session.calls)
  capacity : session.log.capacity = max capacity 1
  after : session.after = session.seen.foldl noteSeen query.afterSeq
  known : ∀ entry ∈ session.seen, entry ∈ history capture session.calls
  increasing : session.seen.Pairwise fun a b => a.seq < b.seq

/-- Every retained match up to the highest number seen has been seen. -/
def Complete (session : Session) : Prop :=
  ∀ entry ∈ retained session.log.capacity (history capture session.calls),
    query.matches entry = true → (∃ other ∈ session.seen, entry.seq ≤ other.seq) →
      entry ∈ session.seen

variable {capture query} {session : Session} {capacity : Nat} {entry : LogEntry}

theorem beyond_noteSeen (after : Option Nat) (entry : LogEntry) (n : Nat) :
    (noteSeen after entry).all (· < n) = (after.all (· < n) && decide (entry.seq < n)) := by
  cases after with
  | none => rfl
  | some seq => simp [noteSeen, Option.all]

theorem beyond_foldl (seen : List LogEntry) (after : Option Nat) (n : Nat) :
    (seen.foldl noteSeen after).all (· < n) =
      (after.all (· < n) && seen.all fun entry => decide (entry.seq < n)) := by
  induction seen generalizing after with
  | nil => rw [List.foldl_nil, List.all_nil, Bool.and_true]
  | cons entry seen ih =>
      rw [List.foldl_cons, ih, beyond_noteSeen, List.all_cons, Bool.and_assoc]

theorem matches_ask (h : Polled capture query capacity session) (limit : Option Nat) :
    (ask query session limit).matches entry = true ↔
      query.matches entry = true ∧ ∀ other ∈ session.seen, other.seq < entry.seq := by
  have hafter : session.after.all (· < entry.seq) =
      (query.afterSeq.all (· < entry.seq) &&
        session.seen.all fun other => decide (other.seq < entry.seq)) := by
    rw [h.after]
    exact beyond_foldl session.seen query.afterSeq entry.seq
  simp only [LogQuery.matches, ask, hafter, Bool.and_eq_true, List.all_eq_true,
    decide_eq_true_eq]
  constructor
  · rintro ⟨⟨⟨⟨hbeyond, hseen⟩, hsource⟩, hlevel⟩, hsearch⟩
    exact ⟨⟨⟨⟨hbeyond, hsource⟩, hlevel⟩, hsearch⟩, hseen⟩
  · rintro ⟨⟨⟨⟨hbeyond, hsource⟩, hlevel⟩, hsearch⟩, hseen⟩
    exact ⟨⟨⟨⟨hbeyond, hseen⟩, hsource⟩, hlevel⟩, hsearch⟩

variable (capture) in
theorem history_concat (calls : List (String × String)) (call : String × String) :
    ∃ later, history capture (calls ++ [call]) = history capture calls ++ later := by
  unfold history numbered pushedLines
  rw [List.flatMap_append, List.zipIdx_append, List.map_append]
  exact ⟨_, rfl⟩

variable (capture) in
theorem history_increasing (calls : List (String × String)) :
    (history capture calls).Pairwise fun a b => a.seq < b.seq := numbered_increasing _

theorem answer_eq (h : Polled capture query capacity session) (limit : Option Nat) :
    session.log.query (ask query session limit) =
      ((retained session.log.capacity (history capture session.calls)).filter
        (ask query session limit).matches).rtake (ask query session limit).effectiveLimit :=
  query_eq h.tracks (history_increasing capture session.calls)

theorem answer_sublist (h : Polled capture query capacity session) (limit : Option Nat) :
    (session.log.query (ask query session limit)).Sublist
      ((history capture session.calls).filter (ask query session limit).matches) := by
  rw [answer_eq h limit]
  exact (Window.rtake_sublist _ _).trans ((Window.recent_sublist _ _).filter _)

theorem polled_poll (h : Polled capture query capacity session) (limit : Option Nat) :
    Polled capture query capacity (step capture query session (.poll limit)) where
  tracks := h.tracks
  capacity := h.capacity
  after := by
    change (session.log.query (ask query session limit)).foldl noteSeen session.after =
      (session.seen ++ session.log.query (ask query session limit)).foldl noteSeen query.afterSeq
    rw [List.foldl_append, h.after]
  known := by
    intro entry hentry
    cases List.mem_append.mp hentry with
    | inl hseen => exact h.known entry hseen
    | inr hanswer => exact (List.mem_filter.mp ((answer_sublist h limit).subset hanswer)).1
  increasing := by
    refine List.pairwise_append.mpr ⟨h.increasing, ?_, ?_⟩
    · exact (history_increasing capture session.calls).sublist
        ((answer_sublist h limit).trans List.filter_sublist)
    · intro a ha b hb
      have hb' := (List.mem_filter.mp ((answer_sublist h limit).subset hb)).2
      exact ((matches_ask h limit).mp hb').2 a ha

theorem pushedLines_concat (calls : List (String × String)) (call : String × String) :
    pushedLines (calls ++ [call]) =
      pushedLines calls ++ (chunkLines call.2).map fun line => (call.1, line) := by
  rw [pushedLines, List.flatMap_append, List.flatMap_singleton]
  rfl

theorem polled_push (h : Polled capture query capacity session) (source chunk : String)
    (hroom : (pushedLines (session.calls ++ [(source, chunk)])).length < 2 ^ 64) :
    Polled capture query capacity (step capture query session (.push source chunk)) where
  tracks := by
    change Tracks (session.log.pushLine capture source chunk)
      (numbered capture (pushedLines (session.calls ++ [(source, chunk)])))
    rw [pushedLines_concat] at hroom ⊢
    rw [pushLine_eq]
    exact tracks_pushLines h.tracks hroom
  capacity := by
    change (session.log.pushLine capture source chunk).capacity = _
    rw [pushLine_eq, capacity_foldl, h.capacity]
  after := h.after
  known := by
    intro entry hentry
    obtain ⟨later, hlater⟩ := history_concat capture session.calls (source, chunk)
    change entry ∈ history capture (session.calls ++ [(source, chunk)])
    rw [hlater]
    exact List.mem_append_left _ (h.known entry hentry)
  increasing := h.increasing

/-- A line seen later than all that is known has a higher number than all that is known. -/
theorem mem_of_seq_le {calls later : List (String × String)} {other : LogEntry}
    (hentry : entry ∈ history capture (calls ++ later)) (hother : other ∈ history capture calls)
    (hle : entry.seq ≤ other.seq)
    (hlater : ∃ rest, history capture (calls ++ later) = history capture calls ++ rest) :
    entry ∈ history capture calls := by
  obtain ⟨rest, hrest⟩ := hlater
  have hord := history_increasing capture (calls ++ later)
  rw [hrest] at hentry hord
  cases List.mem_append.mp hentry with
  | inl hmem => exact hmem
  | inr hmem =>
      have hlt := (List.pairwise_append.mp hord).2.2 other hother entry hmem
      omega

theorem complete_push (h : Polled capture query capacity session)
    (hcomplete : Complete capture query session) (source chunk : String) :
    Complete capture query (step capture query session (.push source chunk)) := by
  intro entry hentry hmatches hseen
  have hlater := history_concat capture session.calls (source, chunk)
  have hcapacity : (session.log.pushLine capture source chunk).capacity =
      session.log.capacity := by rw [pushLine_eq, capacity_foldl]
  change entry ∈ retained (session.log.pushLine capture source chunk).capacity
    (history capture (session.calls ++ [(source, chunk)])) at hentry
  rw [hcapacity] at hentry
  obtain ⟨other, hother, hle⟩ := hseen
  have hmem : entry ∈ history capture session.calls :=
    mem_of_seq_le ((Window.recent_sublist _ _).subset hentry) (h.known other hother) hle hlater
  have hnodup := nodup_of_increasing
    (history_increasing capture (session.calls ++ [(source, chunk)]))
  obtain ⟨rest, hrest⟩ := hlater
  rw [hrest] at hentry hnodup
  exact hcomplete entry (Window.recent_of_append hnodup hentry hmem) hmatches ⟨other, hother, hle⟩

/-- After a poll that lets every match through, every retained match has been seen. -/
theorem seen_of_poll (h : Polled capture query capacity session)
    (hcomplete : Complete capture query session) {limit : Option Nat}
    (henough : Enough capture query session (.poll limit))
    (hentry : entry ∈ retained session.log.capacity (history capture session.calls))
    (hmatches : query.matches entry = true) :
    entry ∈ (step capture query session (.poll limit)).seen := by
  change entry ∈ session.seen ++ session.log.query (ask query session limit)
  rw [List.mem_append]
  by_cases hold : ∃ other ∈ session.seen, entry.seq ≤ other.seq
  · exact Or.inl (hcomplete entry hentry hmatches hold)
  · right
    rw [answer_eq h limit, Window.rtake_of_length_le henough, List.mem_filter]
    refine ⟨hentry, (matches_ask h limit).mpr ⟨hmatches, ?_⟩⟩
    intro other hother
    exact Nat.lt_of_not_le fun hle => hold ⟨other, hother, hle⟩

theorem polled_start (capacity : Nat) (query : LogQuery) :
    Polled capture query capacity (start capacity query) where
  tracks := tracks_withCapacity capacity
  capacity := rfl
  after := rfl
  known := fun _ hentry => (List.not_mem_nil hentry).elim
  increasing := List.Pairwise.nil

theorem complete_start (capacity : Nat) (query : LogQuery) :
    Complete capture query (start capacity query) := by
  rintro entry - - ⟨other, hother, -⟩
  exact (List.not_mem_nil hother).elim

theorem pushedLines_append (calls later : List (String × String)) :
    pushedLines (calls ++ later) = pushedLines calls ++ pushedLines later :=
  List.flatMap_append

theorem polled_exec {ops : List Op} (h : Polled capture query capacity session)
    (hroom : (pushedLines (session.calls ++ pushes ops)).length < 2 ^ 64) :
    Polled capture query capacity (Run.exec (step capture query) session ops) := by
  induction ops generalizing session with
  | nil => exact h
  | cons op ops ih =>
      cases op with
      | poll limit => exact ih (polled_poll h limit) hroom
      | push source chunk =>
          rw [pushes, List.append_cons] at hroom
          have hfirst : (pushedLines (session.calls ++ [(source, chunk)])).length < 2 ^ 64 := by
            rw [pushedLines_append, List.length_append] at hroom
            omega
          exact ih (polled_push h source chunk hfirst) hroom

theorem complete_exec {ops : List Op} (h : Polled capture query capacity session)
    (hcomplete : Complete capture query session)
    (hroom : (pushedLines (session.calls ++ pushes ops)).length < 2 ^ 64)
    (henough : Run.Along (step capture query) (Enough capture query) session ops) :
    Complete capture query (Run.exec (step capture query) session ops) := by
  induction ops generalizing session with
  | nil => exact hcomplete
  | cons op ops ih =>
      cases op with
      | poll limit =>
          refine ih (polled_poll h limit) ?_ hroom henough.2
          intro entry hentry hmatches _
          exact seen_of_poll h hcomplete henough.1 hentry hmatches
      | push source chunk =>
          rw [pushes, List.append_cons] at hroom
          have hfirst : (pushedLines (session.calls ++ [(source, chunk)])).length < 2 ^ 64 := by
            rw [pushedLines_append, List.length_append] at hroom
            omega
          exact ih (polled_push h source chunk hfirst) (complete_push h hcomplete source chunk)
            hroom henough.2

theorem calls_exec (ops : List Op) (session : Session) :
    (Run.exec (step capture query) session ops).calls = session.calls ++ pushes ops := by
  induction ops generalizing session with
  | nil => exact (List.append_nil _).symm
  | cons op ops ih =>
      rw [Run.exec_cons, ih]
      cases op with
      | poll limit => rfl
      | push source chunk => exact (List.append_cons ..).symm

end Polling

section Answered

/-- A client that asks `query` again and again while lines arrive. -/
def polling (capacity : Nat) (query : LogQuery) (ops : List Op) : Session :=
  Run.exec (step capture query) (start capacity query) ops

/-- Every query is answered from the retained ends of the lanes, and the client misses no
retained line and sees none twice. -/
theorem query_answers_history (capacity : Nat) (query : LogQuery) (ops : List Op)
    (hroom : (pushedLines (pushes ops)).length < 2 ^ 64) :
    (history capture (pushes ops)).map LogEntry.seq =
        List.range (pushedLines (pushes ops)).length ∧
      (∀ lane, Window.laneOf entryLane lane
          (retained (max capacity 1) (history capture (pushes ops))) =
        (Window.laneOf entryLane lane (history capture (pushes ops))).rtake (max capacity 1)) ∧
      (∀ asked : LogQuery, (polling capture capacity query ops).log.query asked =
        ((retained (max capacity 1) (history capture (pushes ops))).filter asked.matches).rtake
          asked.effectiveLimit) ∧
      (polling capture capacity query ops).seen.Pairwise (fun a b => a.seq < b.seq) ∧
      (Run.Along (step capture query) (Enough capture query) (start capacity query) ops →
        ∀ limit, Enough capture query (polling capture capacity query ops) (.poll limit) →
          ∀ entry ∈ retained (max capacity 1) (history capture (pushes ops)),
            query.matches entry = true →
              entry ∈ (polling capture capacity query (ops ++ [.poll limit])).seen) := by
  have hpolled : Polled capture query capacity (polling capture capacity query ops) :=
    polled_exec (polled_start capacity query) hroom
  have hcalls : (polling capture capacity query ops).calls = pushes ops :=
    calls_exec ops (start capacity query)
  have hord := history_increasing capture (pushes ops)
  refine ⟨seqs_numbered _, fun lane => Window.laneOf_recent lane _ (nodup_of_increasing hord), ?_,
    hpolled.increasing, ?_⟩
  · intro asked
    have htracks := hpolled.tracks
    rw [hcalls] at htracks
    rw [query_eq htracks hord, hpolled.capacity]
  · intro halong limit henough entry hentry hmatches
    have hcomplete : Complete capture query (polling capture capacity query ops) :=
      complete_exec (polled_start capacity query) (complete_start capacity query) hroom halong
    rw [polling, Run.exec_append]
    refine seen_of_poll hpolled hcomplete henough ?_ hmatches
    rw [hpolled.capacity, hcalls]
    exact hentry

def plainCapture : Capture :=
  { fromStr := fun _ => none
    toText := fun _ => ""
    utcNow := fun _ => "2026-06-07T00:00:00Z" }

def arrivals : List Op :=
  [.push "worker" "loading\nerror: out of memory\n", .poll none, .push "api" "ready\n"]

theorem query_answers_arrivals :
    ((polling plainCapture 1 {} arrivals).log.query {}).map LogEntry.raw =
        ["error: out of memory", "ready"] ∧
      (polling plainCapture 1 {} arrivals).seen.Pairwise fun a b => a.seq < b.seq :=
  ⟨by decide +kernel,
    (query_answers_history plainCapture 1 {} arrivals (by decide +kernel)).2.2.2.1⟩

/-- A log of capacity zero still keeps one line of each lane. -/
theorem zero_capacity_keeps_a_line :
    (run plainCapture 0 [("api", "ready")]).query {} ≠
      ((retained 0 (history plainCapture [("api", "ready")])).filter
        (LogQuery.matches {})).rtake (LogQuery.effectiveLimit {}) := by
  decide +kernel

end Answered

end SceneWorks.SessionLog
