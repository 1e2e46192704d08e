import SceneWorks.Library.Fallible
import SceneWorks.ResolvedCache.Accounting

/-!
The two sweeps of a retention pass as a run of attempts: what every attempt keeps of the
books, what the log says of the order, and the exactness of the report.
-/

namespace SceneWorks.ResolvedCache

variable {World Artifact : Type}

def RetentionReport.keys (report : RetentionReport) : List String :=
  report.evicted.map EvictedRecord.cacheKey ++ report.retained.map RetainedRecord.cacheKey ++
    report.failed.map Prod.fst

def Attempt.evictedBytes (line : Attempt) : Nat :=
  match line.result with
  | .ok (.evicted _) => line.candidate.bytes
  | _ => 0

def evictedBytes (attempts : List Attempt) : Nat := (attempts.map Attempt.evictedBytes).sum

section Run

variable (checks : RetentionChecks World Artifact) (env : RetentionEnv World)

/-- The log and the report are right about the entries a pass has left so far: each line about the
entry it tried, each evicted record about an entry that is gone, and every entry that is neither
reported evicted nor left with a tombstone is as it was scanned. -/
structure Accurate (scanned : Children Artifact) (sweep : Sweep Artifact) : Prop where
  logged : ∀ line ∈ sweep.attempts, ∃ digest, line.candidate.cacheKey = "sha256:" ++ digest ∧
    Tried checks env scanned digest line.candidate line.cause line.result
      (sweep.entries.child digest)
  reported : ∀ line ∈ sweep.attempts, ∀ record, line.result = .ok (.evicted record) →
    record ∈ sweep.report.evicted
  gone : ∀ record ∈ sweep.report.evicted,
    (∃ line ∈ sweep.attempts, line.result = .ok (.evicted record)) ∨
      ∃ digest, Finished checks env scanned digest record ∧ sweep.entries.child digest = none
  kept : ∀ name, (∀ record ∈ sweep.report.evicted, record.cacheKey ≠ "sha256:" ++ name) →
    (∀ line ∈ sweep.attempts, line.candidate.cacheKey = "sha256:" ++ name →
      ∀ error, line.result ≠ .ok (.failed error)) →
    sweep.entries.child name = scanned.child name

/-- The books in the middle of a pass, with the candidates that still wait. -/
structure Balanced (scanned : Children Artifact) (before : Nat) (keys : List String)
    (waiting : List EvictionCandidate) (sweep : Sweep Artifact) : Prop where
  stands : ∀ candidate ∈ waiting, ∃ digest,
    (scanOne checks env scanned digest).1 = .candidate candidate ∧
      sweep.entries.child digest = scanned.child digest
  apart : (sweep.attempts.map (EvictionCandidate.cacheKey ∘ Attempt.candidate) ++
    waiting.map EvictionCandidate.cacheKey).Nodup
  counted : ∀ key, sweep.report.keys.count key +
    (waiting.map EvictionCandidate.cacheKey).count key = keys.count key
  balance : sweep.total + evictedBytes sweep.attempts = before
  covered : (waiting.map EvictionCandidate.bytes).sum ≤ sweep.total
  opening : sweep.report.completeBytesBefore = before
  accurate : Accurate checks env scanned sweep

variable {checks env}

theorem applyEvictionAttempt_evicted (candidate : EvictionCandidate)
    (result : Except CacheError EvictAttempt) (report : RetentionReport) (total : Nat)
    (record : EvictedRecord) :
    record ∈ (applyEvictionAttempt candidate result report total).1.evicted ↔
      record ∈ report.evicted ∨ result = .ok (.evicted record) := by
  cases result with
  | error error => simp [applyEvictionAttempt]
  | ok tried =>
      cases tried with
      | evicted found => simp [applyEvictionAttempt, eq_comm]
      | retained _ | alreadyGone | failed _ => simp [applyEvictionAttempt]

/-- Neither line nor record of another entry speaks of the candidate's, so one attempt keeps the
log and the report right. -/
theorem accurate_attempt {scanned : Children Artifact} {candidate : EvictionCandidate}
    {sweep : Sweep Artifact} {digest : String} (cause : EvictionCause)
    (hscan : (scanOne checks env scanned digest).1 = .candidate candidate)
    (hsame : sweep.entries.child digest = scanned.child digest)
    (hfresh : ∀ line ∈ sweep.attempts, line.candidate.cacheKey ≠ candidate.cacheKey)
    (h : Accurate checks env scanned sweep) :
    Accurate checks env scanned (attempt checks env candidate cause sweep) := by
  obtain ⟨htried, hframe⟩ := evictCandidate_tried cause hscan hsame
  have hkey : candidate.cacheKey = "sha256:" ++ digest :=
    scanOne_key_some (congrArg Scanned.key? hscan)
  simp only [attempt]
  generalize evictCandidate checks env candidate cause sweep.entries = outcome at htried hframe ⊢
  obtain ⟨result, left⟩ := outcome
  dsimp only at htried hframe ⊢
  refine ⟨?_, ?_, ?_, ?_⟩
  · intro line hline
    obtain hline | hline := List.mem_append.mp hline
    · obtain ⟨other, hother, hlogged⟩ := h.logged line hline
      have hne : digest ≠ other := by
        rintro rfl
        exact hfresh line hline (hother.trans hkey.symm)
      exact ⟨other, hother, (hframe other hne).symm ▸ hlogged⟩
    · rw [List.mem_singleton.mp hline]
      exact ⟨digest, hkey, htried⟩
  · intro line hline record hrecord
    rw [applyEvictionAttempt_evicted]
    obtain hline | hline := List.mem_append.mp hline
    · exact .inl (h.reported line hline record hrecord)
    · rw [List.mem_singleton.mp hline] at hrecord
      exact .inr hrecord
  · intro record hrecord
    rw [applyEvictionAttempt_evicted] at hrecord
    obtain hrecord | hrecord := hrecord
    · obtain ⟨line, hline, hresult⟩ | ⟨other, hfinished, hgone⟩ := h.gone record hrecord
      · exact .inl ⟨line, List.mem_append_left _ hline, hresult⟩
      · have hne : digest ≠ other := by
          rintro rfl
          exact not_finished_of_candidate hscan hfinished
        exact .inr ⟨other, hfinished, (hframe other hne).trans hgone⟩
    · exact .inl ⟨_, List.mem_append_right _ List.mem_cons_self, hrecord⟩
  · intro name hnotEvicted hnotFailed
    have hlast := hnotFailed _ (List.mem_append_right _ List.mem_cons_self)
    by_cases hname : digest = name
    · rw [← hname]
      rw [← hname] at hnotEvicted hlast
      refine htried.kept (fun hevicted => ?_) (hlast hkey)
      exact hnotEvicted _ ((applyEvictionAttempt_evicted ..).mpr (.inr hevicted)) hkey
    · rw [hframe name hname]
      refine h.kept name (fun record hrecord => hnotEvicted record ?_)
        fun line hline => hnotFailed line (List.mem_append_left _ hline)
      exact (applyEvictionAttempt_evicted ..).mpr (.inl hrecord)

theorem evictedBytes_append (attempts : List Attempt) (line : Attempt) :
    evictedBytes (attempts ++ [line]) = evictedBytes attempts + line.evictedBytes := by
  simp [evictedBytes]

/-- What an attempt enters in the books: the candidate's key once, and its bytes if it went. -/
theorem applyEvictionAttempt_tried {entries : Children Artifact} {digest : String}
    {candidate : EvictionCandidate} {cause : EvictionCause}
    {result : Except CacheError EvictAttempt}
    {left : Option (Node Artifact)}
      (h : Tried checks env entries digest candidate cause result left)
    (report : RetentionReport) {total : Nat} (hcovered : candidate.bytes ≤ total) :
    (∀ key, (applyEvictionAttempt candidate result report total).1.keys.count key =
        report.keys.count key + [candidate.cacheKey].count key) ∧
      (applyEvictionAttempt candidate result report total).2 +
        Attempt.evictedBytes ⟨candidate, cause, total, result⟩ = total ∧
      total - candidate.bytes ≤ (applyEvictionAttempt candidate result report total).2 ∧
      (applyEvictionAttempt candidate result report total).1.completeBytesBefore =
        report.completeBytesBefore := by
  refine ⟨fun key => ?_, ?_, ?_, ?_⟩
  · cases h <;> simp only [applyEvictionAttempt, RetentionReport.keys, List.map_append,
      List.map_cons, List.map_nil, List.count_append] <;> omega
  · cases h <;> simp only [applyEvictionAttempt, Attempt.evictedBytes] <;> omega
  · cases h <;> simp only [applyEvictionAttempt] <;> omega
  · cases h <;> rfl

/-- The books after one attempt: its candidate no longer waits. -/
theorem balanced_attempt {scanned : Children Artifact} {before : Nat} {keys : List String}
    {candidate : EvictionCandidate} {waiting : List EvictionCandidate} {sweep : Sweep Artifact}
    (cause : EvictionCause)
    (h : Balanced checks env scanned before keys (candidate :: waiting) sweep) :
    Balanced checks env scanned before keys waiting (attempt checks env candidate cause sweep) := by
  obtain ⟨digest, hscan, hsame⟩ := h.stands candidate List.mem_cons_self
  obtain ⟨htried, hframe⟩ := evictCandidate_tried cause hscan hsame
  have hapart := h.apart
  rw [List.map_cons, List.nodup_append] at hapart
  have hcovered := h.covered
  rw [List.map_cons, List.sum_cons] at hcovered
  obtain ⟨hkeys, htotal, hleft, hopening⟩ := applyEvictionAttempt_tried htried sweep.report
    (show candidate.bytes ≤ sweep.total by omega)
  refine ⟨?_, ?_, ?_, ?_, ?_, hopening.trans h.opening,
    accurate_attempt cause hscan hsame (fun line hline => ?_) h.accurate⟩
  · intro other hother
    obtain ⟨otherDigest, hotherScan, hotherSame⟩ := h.stands other (List.mem_cons_of_mem _ hother)
    refine ⟨otherDigest, hotherScan, ?_⟩
    have hne : digest ≠ otherDigest := by
      rintro rfl
      rw [hscan] at hotherScan
      cases hotherScan
      exact (List.nodup_cons.mp hapart.2.1).1 (List.mem_map_of_mem hother)
    exact (hframe otherDigest hne).trans hotherSame
  · rw [attempt, List.map_append, List.append_assoc]
    exact h.apart
  · intro key
    have hcounted := h.counted key
    have hkey := hkeys key
    rw [List.map_cons, List.count_cons] at hcounted
    rw [List.count_cons, List.count_nil] at hkey
    simp only [attempt]
    omega
  · have hbalance := h.balance
    simp only [attempt]
    rw [evictedBytes_append]
    omega
  · simp only [attempt]
    omega
  · exact hapart.2.2 _ (List.mem_map_of_mem hline) _ List.mem_cons_self

/-- A candidate that is kept without an attempt. -/
theorem balanced_keep {scanned : Children Artifact} {before : Nat} {keys : List String}
    {candidate : EvictionCandidate} {waiting : List EvictionCandidate} {sweep : Sweep Artifact}
    (policy : ResolvedCachePolicy) (hlimit : sweep.total ≤ policy.maxBytes)
    (h : Balanced checks env scanned before keys (candidate :: waiting) sweep) :
    Balanced checks env scanned before keys waiting
        (pressOne checks env policy sweep candidate) := by
  have hcovered := h.covered
  rw [List.map_cons, List.sum_cons] at hcovered
  have hrest : (waiting.map EvictionCandidate.bytes).sum ≤ sweep.total := by omega
  rw [pressOne, if_pos hlimit]
  have hapart := h.apart
  rw [List.map_cons] at hapart
  refine ⟨fun other hother => h.stands other (List.mem_cons_of_mem _ hother),
    hapart.sublist ((List.sublist_cons_self _ _).append_left _), ?_, h.balance, hrest, h.opening,
    ⟨h.accurate.logged, h.accurate.reported, h.accurate.gone, h.accurate.kept⟩⟩
  intro key
  have hcounted := h.counted key
  rw [List.map_cons, List.count_cons] at hcounted
  simp only [RetentionReport.keys, List.map_append, List.map_cons, List.map_nil, List.count_append,
    List.count_cons, List.count_nil] at hcounted ⊢
  omega

theorem balanced_expired {scanned : Children Artifact} {before : Nat} {keys : List String}
    {expired waiting : List EvictionCandidate} {sweep : Sweep Artifact}
    (h : Balanced checks env scanned before keys (expired ++ waiting) sweep) :
    Balanced checks env scanned before keys waiting (expired.foldl
      (fun sweep candidate => attempt checks env candidate .ttlExpired sweep) sweep) := by
  induction expired generalizing sweep with
  | nil => exact h
  | cons candidate expired ih => exact ih (balanced_attempt .ttlExpired h)

theorem balanced_pressed {scanned : Children Artifact} {before : Nat} {keys : List String}
    (policy : ResolvedCachePolicy) {waiting : List EvictionCandidate} {sweep : Sweep Artifact}
    (h : Balanced checks env scanned before keys waiting sweep) :
    Balanced checks env scanned before keys []
      (waiting.foldl (pressOne checks env policy) sweep) := by
  induction waiting generalizing sweep with
  | nil => exact h
  | cons candidate waiting ih =>
      refine ih ?_
      by_cases hlimit : sweep.total ≤ policy.maxBytes
      · exact balanced_keep policy hlimit h
      · rw [pressOne, if_neg hlimit]
        exact balanced_attempt .sizePressure h

variable (checks env) in
theorem log_expired (expired : List EvictionCandidate) (sweep : Sweep Artifact) :
    ∃ lines, (expired.foldl
        (fun sweep candidate => attempt checks env candidate .ttlExpired sweep) sweep).attempts =
        sweep.attempts ++ lines ∧ lines.map Attempt.candidate = expired ∧
      ∀ line ∈ lines, line.cause = .ttlExpired := by
  induction expired generalizing sweep with
  | nil => exact ⟨[], (List.append_nil _).symm, rfl, nofun⟩
  | cons candidate expired ih =>
      obtain ⟨lines, hlines, hcandidates, hcauses⟩ :=
        ih (attempt checks env candidate .ttlExpired sweep)
      refine ⟨_, hlines.trans (List.append_assoc _ _ _), ?_, ?_⟩
      · rw [List.map_append, hcandidates]
        rfl
      · intro line hline
        obtain hline | hline := List.mem_append.mp hline
        · rw [List.mem_singleton.mp hline]
        · exact hcauses line hline

variable (checks env) in
/-- Once the store is below its limit every candidate left is kept. -/
theorem pressed_below {policy : ResolvedCachePolicy} (waiting : List EvictionCandidate)
    {sweep : Sweep Artifact} (h : sweep.total ≤ policy.maxBytes) :
    (waiting.foldl (pressOne checks env policy) sweep).attempts = sweep.attempts ∧
      (waiting.foldl (pressOne checks env policy) sweep).total = sweep.total := by
  induction waiting generalizing sweep with
  | nil => exact ⟨rfl, rfl⟩
  | cons candidate waiting ih =>
      rw [List.foldl_cons, pressOne, if_pos h]
      exact ih h

variable (checks env) in
/-- The second sweep tries the candidates from the front for as long as the total is above the
limit. -/
theorem log_pressed (policy : ResolvedCachePolicy) (waiting : List EvictionCandidate)
    (sweep : Sweep Artifact) :
    ∃ lines kept, (waiting.foldl (pressOne checks env policy) sweep).attempts =
        sweep.attempts ++ lines ∧ waiting = lines.map Attempt.candidate ++ kept ∧
      (∀ line ∈ lines, line.cause = .sizePressure ∧ policy.maxBytes < line.totalBefore) ∧
      (kept ≠ [] →
        (waiting.foldl (pressOne checks env policy) sweep).total ≤ policy.maxBytes) := by
  induction waiting generalizing sweep with
  | nil => exact ⟨[], [], (List.append_nil _).symm, rfl, nofun, fun h => absurd rfl h⟩
  | cons candidate waiting ih =>
      by_cases hlimit : sweep.total ≤ policy.maxBytes
      · obtain ⟨hattempts, htotal⟩ := pressed_below checks env (candidate :: waiting) hlimit
        refine ⟨[], candidate :: waiting, ?_, rfl, nofun, fun _ => ?_⟩
        · rw [hattempts, List.append_nil]
        · rw [htotal]
          exact hlimit
      · obtain ⟨lines, kept, hlines, hwaiting, hcauses, hkept⟩ :=
          ih (attempt checks env candidate .sizePressure sweep)
        rw [List.foldl_cons, pressOne, if_neg hlimit]
        refine ⟨_, kept, hlines.trans (List.append_assoc _ _ _), ?_, ?_, hkept⟩
        · rw [List.map_append, List.append_assoc, ← hwaiting]
          rfl
        · intro line hline
          obtain hline | hline := List.mem_append.mp hline
          · rw [List.mem_singleton.mp hline]
            exact ⟨rfl, not_le.mp hlimit⟩
          · exact hcauses line hline

section Opening

theorem checkedTotal_eq {sizes : List Nat} {total : Nat} (h : checkedTotal sizes = .ok total) :
    total = sizes.sum := by
  have hfold : ∀ (sizes : List Nat) (start total : Nat), sizes.foldlM (fun total bytes =>
      if total + bytes ≤ u64Max then (.ok (total + bytes) : Except CacheError Nat)
      else .error (.internal "resolved-cache retention byte total overflow")) start = .ok total →
      total = start + sizes.sum := by
    intro sizes
    induction sizes with
    | nil =>
        intro start total h
        cases h
        rfl
    | cons bytes sizes ih =>
        intro start total h
        rw [List.foldlM_cons] at h
        split at h
        · have hrest := ih _ _ h
          rw [hrest, List.sum_cons, Nat.add_assoc]
        · cases h
  exact (hfold sizes 0 total h).trans (Nat.zero_add _)

theorem checkedTotal_ok {sizes : List Nat} (h : sizes.sum ≤ u64Max) :
    checkedTotal sizes = .ok sizes.sum := by
  have hfold : ∀ (sizes : List Nat) (start : Nat), start + sizes.sum ≤ u64Max →
      sizes.foldlM (fun total bytes =>
        if total + bytes ≤ u64Max then (.ok (total + bytes) : Except CacheError Nat)
        else .error (.internal "resolved-cache retention byte total overflow")) start =
      .ok (start + sizes.sum) := by
    intro sizes
    induction sizes with
    | nil =>
        intro start _
        rfl
    | cons bytes sizes ih =>
        intro start hsum
        rw [List.sum_cons, ← Nat.add_assoc] at hsum ⊢
        rw [List.foldlM_cons, if_pos (by omega)]
        exact ih (start + bytes) hsum
  have hall := hfold sizes 0 (by omega)
  rw [Nat.zero_add] at hall
  exact hall

/-- The scan enters every entry it does not ignore once: in the report or among the candidates. -/
theorem count_scanned (scanned : List Scanned) (total : Nat) (key : String) :
    (scannedReport scanned total).keys.count key +
        ((scanned.filterMap Scanned.candidate?).map EvictionCandidate.cacheKey).count key =
      (scanned.filterMap Scanned.key?).count key := by
  simp only [scannedReport, RetentionReport.keys, List.count_append]
  induction scanned with
  | nil => rfl
  | cons first rest ih =>
      cases first <;>
        simp only [List.filterMap_cons, Scanned.candidate?, Scanned.retained?, Scanned.evicted?,
          Scanned.failed?, Scanned.key?, List.map_cons, List.count_cons] <;> omega

variable (checks env) in
/-- The keys a pass has to report. -/
def dueKeys (entries : Children Artifact) : List String :=
  (entryDigests entries).filterMap fun digest => (scanOne checks env entries digest).1.key?

theorem nodup_entryDigests {entries : Children Artifact} (hnames : (entries.map Prod.fst).Nodup) :
    (entryDigests entries).Nodup :=
  (List.perm_insertionSort _ _).nodup_iff.mpr (hnames.filter _)

variable (checks env) in
theorem nodup_dueKeys {entries : Children Artifact} (hnames : (entries.map Prod.fst).Nodup) :
    (dueKeys checks env entries).Nodup := by
  refine (nodup_entryDigests hnames).filterMap fun digest digest' key hkey hkey' => ?_
  have hsame := (scanOne_key_some hkey).symm.trans (scanOne_key_some hkey')
  have hlists := congrArg String.toList hsame
  rw [String.toList_append, String.toList_append] at hlists
  exact String.toList_inj.mp (List.append_cancel_left hlists)

variable (checks env) in
/-- What the scan of a store leaves to the sweeps. -/
def scannedEntries (entries : Children Artifact) : List Scanned × Children Artifact :=
  scanAll checks env (entryDigests entries) entries

variable (checks env) in
def candidatesOf (entries : Children Artifact) : List EvictionCandidate :=
  (scannedEntries checks env entries).1.filterMap Scanned.candidate?

theorem filterMap_key {entries : Children Artifact} (hnames : (entries.map Prod.fst).Nodup) :
    (scannedEntries checks env entries).1.filterMap Scanned.key? = dueKeys checks env entries := by
  rw [scannedEntries, scanAll_scanned (nodup_entryDigests hnames), List.filterMap_map]
  rfl

theorem mem_candidatesOf {entries : Children Artifact} (hnames : (entries.map Prod.fst).Nodup)
    {candidate : EvictionCandidate} (h : candidate ∈ candidatesOf checks env entries) :
    ∃ digest, (scanOne checks env entries digest).1 = .candidate candidate ∧
      (scannedEntries checks env entries).2.child digest = entries.child digest := by
  have hnodup := nodup_entryDigests hnames
  rw [candidatesOf, scannedEntries, scanAll_scanned hnodup, List.filterMap_map] at h
  obtain ⟨digest, hdigest, hcandidate⟩ := List.mem_filterMap.mp h
  have hscan : (scanOne checks env entries digest).1 = .candidate candidate := by
    rw [Function.comp_apply] at hcandidate
    cases hscanned : (scanOne checks env entries digest).1 with
    | candidate found =>
        rw [hscanned] at hcandidate
        cases hcandidate
        rfl
    | retained _ | evicted _ | failed _ _ | ignored =>
        rw [hscanned] at hcandidate
        cases hcandidate
  exact ⟨digest, hscan, scanAll_candidate hnodup hdigest hscan⟩

/-- The scan removes the entries it reports evicted and no others. -/
theorem accurate_opening {entries : Children Artifact} (hnames : (entries.map Prod.fst).Nodup)
    (total : Nat) : Accurate checks env entries ⟨(scannedEntries checks env entries).2,
      scannedReport (scannedEntries checks env entries).1 total, total, []⟩ := by
  have hnodup := nodup_entryDigests hnames
  have hevicted :
      ∀ record, record ∈ (scannedReport (scannedEntries checks env entries).1 total).evicted ↔
      ∃ digest ∈ entryDigests entries,
        (scanOne checks env entries digest).1.evicted? = some record := by
    intro record
    rw [scannedReport, scannedEntries, scanAll_scanned hnodup]
    simp only [List.mem_filterMap, List.mem_map, exists_exists_and_eq_and]
  refine ⟨fun _ h => absurd h List.not_mem_nil, fun _ h => absurd h List.not_mem_nil, ?_, ?_⟩
  · intro record hrecord
    obtain ⟨digest, hdigest, hscan⟩ := (hevicted record).mp hrecord
    obtain ⟨found, hfound, hfinished, hgone⟩ | ⟨hnone, -⟩ := scanOne_left checks env entries digest
    · rw [hfound] at hscan
      cases hscan
      exact .inr ⟨digest, hfinished, (scanAll_child hnodup hdigest entries).trans hgone⟩
    · rw [hnone] at hscan
      cases hscan
  · intro name hnotEvicted _
    by_cases hname : name ∈ entryDigests entries
    · obtain ⟨found, hfound, -, -⟩ | ⟨-, hleft⟩ := scanOne_left checks env entries name
      · exact absurd (scanOne_key_some (congrArg Scanned.key? hfound))
          (hnotEvicted found ((hevicted found).mpr ⟨name, hname, congrArg Scanned.evicted? hfound⟩))
      · exact (scanAll_child hnodup hname entries).trans (congrArg (Children.child · name) hleft)
    · exact scanAll_frame hname entries

/-- The books as the scan hands them over. -/
theorem balanced_opening {entries : Children Artifact} (hnames : (entries.map Prod.fst).Nodup)
    {waiting : List EvictionCandidate} (hwaiting : waiting.Perm (candidatesOf checks env entries))
    {total : Nat}
      (htotal : total = ((candidatesOf checks env entries).map EvictionCandidate.bytes ++
      ((scannedEntries checks env entries).1.filterMap Scanned.retained?).map
        RetainedRecord.bytes).sum) :
    Balanced checks env entries total (dueKeys checks env entries) waiting
      ⟨(scannedEntries checks env entries).2,
        scannedReport (scannedEntries checks env entries).1 total, total, []⟩ := by
  have hkeys := hwaiting.map EvictionCandidate.cacheKey
  have hcount : ∀ key, (scannedReport (scannedEntries checks env entries).1 total).keys.count key +
      (waiting.map EvictionCandidate.cacheKey).count key =
        (dueKeys checks env entries).count key := by
    intro key
    rw [hkeys.count_eq, ← filterMap_key hnames]
    exact count_scanned _ total key
  refine ⟨?_, ?_, hcount, rfl, ?_, rfl, accurate_opening hnames total⟩
  · intro candidate hcandidate
    exact mem_candidatesOf hnames (hwaiting.mem_iff.mp hcandidate)
  · rw [List.map_nil, List.nil_append, List.nodup_iff_count_le_one]
    intro key
    have hdue := List.nodup_iff_count_le_one.mp (nodup_dueKeys checks env hnames) key
    have hkey := hcount key
    omega
  · rw [(hwaiting.map EvictionCandidate.bytes).sum_nat, htotal, List.sum_append]
    exact Nat.le_add_right _ _

end Opening

theorem before_iff (left right : EvictionCandidate) :
    left.before right ↔ left.activity < right.activity ∨ left.activity = right.activity ∧
      (left.createdAt < right.createdAt ∨ left.createdAt = right.createdAt ∧
        left.cacheKey ≤ right.cacheKey) := Iff.rfl

instance : Std.Total EvictionCandidate.before where
  total left right := by
    rw [before_iff, before_iff]
    have hkey := String.le_total left.cacheKey right.cacheKey
    rcases lt_trichotomy left.activity right.activity with h | h | h
    · exact .inl (.inl h)
    · rcases lt_trichotomy left.createdAt right.createdAt with h' | h' | h'
      · exact .inl (.inr ⟨h, .inl h'⟩)
      · exact hkey.imp (fun hle => .inr ⟨h, .inr ⟨h', hle⟩⟩)
          fun hle => .inr ⟨h.symm, .inr ⟨h'.symm, hle⟩⟩
      · exact .inr (.inr ⟨h.symm, .inl h'⟩)
    · exact .inr (.inl h)

instance : IsTrans EvictionCandidate EvictionCandidate.before where
  trans first second third hfirst hsecond := by
    rw [before_iff] at hfirst hsecond ⊢
    obtain hlt | ⟨heq, hcreated | ⟨hsame, hkey⟩⟩ := hfirst
    · obtain hlt' | ⟨heq', -⟩ := hsecond
      · exact .inl (hlt.trans hlt')
      · exact .inl (heq' ▸ hlt)
    · obtain hlt' | ⟨heq', hcreated' | ⟨hsame', -⟩⟩ := hsecond
      · exact .inl (heq ▸ hlt')
      · exact .inr ⟨heq.trans heq', .inl (hcreated.trans hcreated')⟩
      · exact .inr ⟨heq.trans heq', .inl (hsame' ▸ hcreated)⟩
    · obtain hlt' | ⟨heq', hcreated' | ⟨hsame', hkey'⟩⟩ := hsecond
      · exact .inl (heq ▸ hlt')
      · exact .inr ⟨heq.trans heq', .inl (hsame ▸ hcreated')⟩
      · exact .inr ⟨heq.trans heq', .inr ⟨hsame.trans hsame', String.le_trans hkey hkey'⟩⟩

/-- Two candidates the order does not separate have one key. -/
theorem key_eq_of_before {left right : EvictionCandidate} (h : left.before right)
    (h' : right.before left) : left.cacheKey = right.cacheKey := by
  rw [before_iff] at h h'
  obtain hlt | ⟨heq, hcreated | ⟨hsame, hkey⟩⟩ := h
  · omega
  · omega
  · obtain hlt' | ⟨-, hcreated' | ⟨-, hkey'⟩⟩ := h'
    · omega
    · omega
    · exact String.le_antisymm hkey hkey'

variable (checks env)

def lruOrder (entries : Children Artifact) : List EvictionCandidate :=
  (candidatesOf checks env entries).insertionSort EvictionCandidate.before

/-- An entry with a journal or a tombstone. -/
def Recorded (children : Children Artifact) : Prop :=
  (children.child evictedMarkerFile).isSome = true ∨ (children.child (slotFile 0)).isSome = true ∨
    (children.child (slotFile 1)).isSome = true

/-- What is exact about a pass. -/
structure ExactPass (policy : ResolvedCachePolicy) (entries : Children Artifact)
    (pass : Sweep Artifact) : Prop where
  expiredTried : ∀ candidate ∈ candidatesOf checks env entries,
    policy.inactivitySeconds ≤ env.now - candidate.activity →
      ∃ line ∈ pass.attempts, line.candidate = candidate ∧ line.cause = .ttlExpired
  othersInOrder : (pass.attempts.filter fun line => line.cause = .sizePressure).map
      Attempt.candidate <+: (lruOrder checks env entries).filter fun candidate =>
        !isExpired env policy candidate
  strict : (lruOrder checks env entries).Pairwise fun earlier later =>
    earlier.before later ∧ ¬ later.before earlier
  underPressure : ∀ line ∈ pass.attempts, line.cause = .sizePressure →
    policy.maxBytes < line.totalBefore
  reportedOnce : ∀ digest ∈ entryDigests entries,
    Recorded ((entryAt entries digest).getD []) →
      pass.report.keys.count ("sha256:" ++ digest) = 1
  accounted : pass.report.completeBytesAfter + evictedBytes pass.attempts =
    pass.report.completeBytesBefore
  limit : pass.report.limitSatisfied = true ↔ pass.report.completeBytesAfter ≤ policy.maxBytes
  directory : Accurate checks env entries pass
  exhausted : pass.report.limitSatisfied = false → ∀ candidate ∈ candidatesOf checks env entries,
    ∃ line ∈ pass.attempts, line.candidate = candidate

variable {checks env}

theorem slot_absent {checks : CacheChecks World Artifact} {world : World} {digest : String}
    {children : Children Artifact} {slot : Nat}
    (h : (readSlot checks world digest children slot).isPresent = false) :
    (children.child (slotFile slot)).isSome = false := by
  rw [readSlot] at h
  split at h
  · next hnode => rw [hnode]; rfl
  · split at h
    · split at h <;> cases h
    · cases h
    · cases h

/-- A journal or a tombstone is never read as nothing. -/
theorem recorded_not_missing {entries : Children Artifact} {digest : String}
    (h : Recorded ((entryAt entries digest).getD [])) :
    readEntry checks env entries digest ≠ .ok .missing := by
  intro hread
  rw [readEntry] at hread
  by_cases hmarker : NoTombstone ((entryAt entries digest).getD [])
  · rw [read_of_noTombstone _ _ _ hmarker, readSlots] at hread
    split at hread
    · cases hread
    · split at hread
      · cases hread
      · split at hread
        · cases hread
        · next habsent =>
            simp only [List.map_cons, List.map_nil, List.any_cons, List.any_nil, Bool.or_false,
              Bool.or_eq_true, not_or, Bool.not_eq_true] at habsent
            have hzero := slot_absent habsent.1
            have hone := slot_absent habsent.2
            obtain hsome | hsome | hsome := h
            · rw [show Children.child _ evictedMarkerFile = none from hmarker] at hsome
              cases hsome
            · rw [hzero] at hsome
              cases hsome
            · rw [hone] at hsome
              cases hsome
  · obtain ⟨marker, hmarked⟩ | ⟨message, hmarked⟩ :=
      read_of_tombstone checks.toCacheChecks digest env.world hmarker
    · rw [hmarked] at hread
      cases hread
    · rw [hmarked] at hread
      cases hread

theorem perm_lruOrder (policy : ResolvedCachePolicy) (entries : Children Artifact) :
    ((lruOrder checks env entries).filter (isExpired env policy) ++
      (lruOrder checks env entries).filter fun candidate => !isExpired env policy candidate).Perm
        (candidatesOf checks env entries) :=
  (List.filter_append_perm _ _).trans (List.perm_insertionSort _ _)

theorem strict_lruOrder {entries : Children Artifact} (hnames : (entries.map Prod.fst).Nodup) :
    (lruOrder checks env entries).Pairwise fun earlier later =>
      earlier.before later ∧ ¬ later.before earlier := by
  have hkeys : ((candidatesOf checks env entries).map EvictionCandidate.cacheKey).Nodup :=
    (balanced_opening hnames (List.Perm.refl _) rfl).apart
  have hsorted : ((lruOrder checks env entries).map EvictionCandidate.cacheKey).Nodup :=
    ((List.perm_insertionSort EvictionCandidate.before _).map _).nodup_iff.mpr hkeys
  have hapart := List.pairwise_map.mp hsorted
  have horder :=
    List.pairwise_insertionSort EvictionCandidate.before (candidatesOf checks env entries)
  refine (horder.and hapart).imp ?_
  intro earlier later h
  exact ⟨h.1, fun hback => h.2 (key_eq_of_before h.1 hback)⟩

theorem mem_keys_due {entries : Children Artifact} {digest : String}
    (hdigest : digest ∈ entryDigests entries)
    (h : Recorded ((entryAt entries digest).getD [])) :
    "sha256:" ++ digest ∈ dueKeys checks env entries :=
  List.mem_filterMap.mpr ⟨digest, hdigest, scanOne_key (recorded_not_missing h)⟩

theorem sweepAll_exact {policy : ResolvedCachePolicy} {entries : Children Artifact} {total : Nat}
    (hnames : (entries.map Prod.fst).Nodup)
    (htotal : total = ((candidatesOf checks env entries).map EvictionCandidate.bytes ++
      ((scannedEntries checks env entries).1.filterMap Scanned.retained?).map
        RetainedRecord.bytes).sum) :
    ExactPass checks env policy entries (sweepAll checks env policy
      (scannedEntries checks env entries).1 (scannedEntries checks env entries).2 total) := by
  have hopening := balanced_opening hnames (perm_lruOrder policy entries) htotal
  have hexpired := balanced_expired hopening
  have hfinal := balanced_pressed policy hexpired
  obtain ⟨first, hfirst, hfirstOf, hfirstCause⟩ := log_expired checks env
    ((lruOrder checks env entries).filter (isExpired env policy))
    ⟨(scannedEntries checks env entries).2,
      scannedReport (scannedEntries checks env entries).1 total, total, []⟩
  obtain ⟨later, kept, hlater, hwaiting, hlaterCause, hkept⟩ := log_pressed checks env policy
    ((lruOrder checks env entries).filter fun candidate => !isExpired env policy candidate)
    (((lruOrder checks env entries).filter (isExpired env policy)).foldl
      (fun sweep candidate => attempt checks env candidate .ttlExpired sweep)
      ⟨(scannedEntries checks env entries).2,
        scannedReport (scannedEntries checks env entries).1 total, total, []⟩)
  rw [List.nil_append] at hfirst
  rw [hfirst] at hlater
  have hattempts : (sweepAll checks env policy (scannedEntries checks env entries).1
      (scannedEntries checks env entries).2 total).attempts = first ++ later := hlater
  have htried : ∀ candidate, candidate ∈ first.map Attempt.candidate ++
      later.map Attempt.candidate → ∃ line ∈ first ++ later, line.candidate = candidate := by
    intro candidate hcandidate
    rw [← List.map_append] at hcandidate
    exact List.mem_map.mp hcandidate
  refine ⟨?_, ?_, strict_lruOrder hnames, ?_, ?_, ?_, ?_, ?_, ?_⟩
  · intro candidate hcandidate hinactive
    have hmem : candidate ∈ (lruOrder checks env entries).filter (isExpired env policy) :=
      List.mem_filter.mpr ⟨(List.perm_insertionSort _ _).mem_iff.mpr hcandidate,
        decide_eq_true hinactive⟩
    rw [← hfirstOf] at hmem
    obtain ⟨line, hline, hof⟩ := List.mem_map.mp hmem
    exact ⟨line, hattempts ▸ List.mem_append_left later hline, hof, hfirstCause line hline⟩
  · have hpressed : (first ++ later).filter (fun line => line.cause = .sizePressure) = later := by
      have hnone : first.filter (fun line => line.cause = .sizePressure) = [] :=
        List.filter_eq_nil_iff.mpr fun line hline => by simp [hfirstCause line hline]
      have hall : later.filter (fun line => line.cause = .sizePressure) = later :=
        List.filter_eq_self.mpr fun line hline => by simp [(hlaterCause line hline).1]
      rw [List.filter_append, hnone, hall, List.nil_append]
    rw [hattempts, hpressed]
    exact ⟨kept, hwaiting.symm⟩
  · intro line hline hcause
    rw [hattempts] at hline
    obtain hline | hline := List.mem_append.mp hline
    · rw [hfirstCause line hline] at hcause
      cases hcause
    · exact (hlaterCause line hline).2
  · intro digest hdigest hrecorded
    have hcount := hfinal.counted ("sha256:" ++ digest)
    rw [List.map_nil, List.count_nil, Nat.add_zero] at hcount
    have hdue := List.count_eq_one_of_mem (nodup_dueKeys checks env hnames)
      (mem_keys_due hdigest hrecorded)
    exact hcount.trans hdue
  · exact hfinal.balance.trans hfinal.opening.symm
  · exact decide_eq_true_iff
  · have haccurate := hfinal.accurate
    exact ⟨haccurate.logged, haccurate.reported, haccurate.gone, haccurate.kept⟩
  · intro hlimit candidate hcandidate
    have hover : ¬ ((sweepAll checks env policy (scannedEntries checks env entries).1
        (scannedEntries checks env entries).2 total).total ≤ policy.maxBytes) :=
      of_decide_eq_false hlimit
    have hnone : kept = [] := by
      by_contra hne
      exact hover (hkept hne)
    rw [hnone, List.append_nil] at hwaiting
    have hmem := (perm_lruOrder policy entries).mem_iff.mpr hcandidate
    rw [← hfirstOf, hwaiting] at hmem
    rw [hattempts]
    exact htried candidate hmem

end Run

/-- An entry without a journal, and a complete one. -/
def sampleStore : Children String :=
  [("1111111111111111111111111111111111111111111111111111111111111111", .dir []),
    (sampleDigest, .dir [(slotFile 1, .file (.journal (.new sampleChecks 1
      (sampleMetadata .complete "bundle" 1))))])]

def sampleRetention : RetentionChecks (List String) String :=
  { sampleRemoval.toRecoveryChecks with
    completeComplaint := fun _ _ _ => "bundle is missing"
    measure := fun children => some (3 * children.length)
    verifySource := fun _ _ => none
    revalidateSource := fun _ _ => none }

def sampleClock : RetentionEnv (List String) :=
  ⟨⟨["bundle"], 10, "", fun _ => true⟩, fun _ => false, fun _ => none, fun _ => none⟩

end SceneWorks.ResolvedCache
