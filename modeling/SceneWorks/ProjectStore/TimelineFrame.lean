import SceneWorks.Library.Run
import SceneWorks.ProjectStore.Savable
import SceneWorks.ProjectStore.TimelineFiles

/-!
What a save of one timeline does to the others. As long as no save takes the path another
timeline is kept at, every id has one file and every file one id, and a save changes its own.
-/

namespace SceneWorks.ProjectStore

open FilmTimeline

section Kept

theorem validateAndDefaultTimeline_get {timeline after : Json} {key : String} {s s' : List String}
    (hkey : key ∉ timelineDefaults.map Prod.fst)
    (h : validateAndDefaultTimeline timeline s = .ok (after, s')) :
    after.get key = timeline.get key := by
  have htracks : "tracks" ≠ key := fun heq => hkey (heq ▸ by decide)
  have htransitions : "transitions" ≠ key := fun heq => hkey (heq ▸ by decide)
  simp only [validateAndDefaultTimeline, draws_lift_bind_eq_ok] at h
  obtain ⟨fields, hobject, _, -, h⟩ := h
  simp only [draws_bind_eq_ok, draws_pure_eq_ok] at h
  obtain ⟨tracked, s₁, htracked, final, s₂, hfinal, hresult⟩ := h
  obtain ⟨rfl, -⟩ := Prod.mk.inj hresult
  rw [asObjectMut, orBadRequest_eq_ok] at hobject
  obtain ⟨-, -, -, -, -, -, -, hframe⟩ := validateEach_spec htracked
  obtain ⟨-, -, -, -, -, -, -, hframe'⟩ := validateEach_spec hfinal
  rw [Json.get_obj, hframe' _ htransitions, hframe _ htracks, get_withDefaults hkey,
    Json.asObject_eq_some.mp hobject, Json.get_obj]

theorem normalizeTimelineItems_get {key : String} (hkey : "tracks" ≠ key) (timeline : Json) :
    (normalizeTimelineItems timeline).get key = timeline.get key := by
  cases timeline with
  | obj fields =>
      simp only [normalizeTimelineItems]
      split
      · exact get_write_of_ne _ _ hkey
      · rfl
  | _ => rfl

theorem settleTimeline_get {env : CallEnv} {timeline after : Json} {key : String}
    (hdefaults : key ∉ timelineDefaults.map Prod.fst)
    (hstamps : key ∉ ["createdAt", "updatedAt", "duration", "tracks", "transitions"])
    (h : settleTimeline env timeline = .ok after) : after.get key = timeline.get key := by
  have htracks : "tracks" ≠ key := fun heq => hdefaults (heq ▸ by decide)
  obtain ⟨-, fields, supply, hvalidated, rfl⟩ := settleTimeline_inv h
  rw [normalizeTimelineItems_get htracks, Json.get_obj, stampTimeline_get hstamps,
    ← validateAndDefaultTimeline_get hdefaults hvalidated, Json.get_obj]

/-- A save leaves the id and the name that the document came with. -/
theorem saveTimeline_text {env : CallEnv} {existing : Option Json} {document after : Json}
    {key : String} (hkey : key = "id" ∨ key = "name")
    (h : saveTimeline env existing document = .ok after) :
    textOf after key = textOf document key := by
  have hassembly : key ≠ "filmAssembly" := by
    rintro rfl
    exact absurd hkey (by decide)
  have hrevisionKey : "revision" ≠ key := by
    rintro rfl
    exact absurd hkey (by decide)
  obtain ⟨hobject, hvalid, reconciled, stamped, hreconciled, hstamped, hsettled⟩ :=
    saveTimeline_inv h
  obtain ⟨hframe, -, -⟩ := reconcileStored_inv hobject hvalid hreconciled
  have hsettledKey : after.get key = stamped.get key := by
    refine settleTimeline_get ?_ ?_ hsettled
    all_goals
      rcases hkey with rfl | rfl
      all_goals decide
  rw [textOf, textOf, hsettledKey, Json.get_edit_of_ne hstamped hrevisionKey, hframe key hassembly]

/-- A document that is saved has a name. -/
theorem settleTimeline_named {env : CallEnv} {timeline after : Json}
    (h : settleTimeline env timeline = .ok after) : ∃ name, textOf after "name" = some name := by
  have hkept : after.get "name" = timeline.get "name" :=
    settleTimeline_get (by decide) (by decide) h
  obtain ⟨⟨name, hname⟩, -⟩ := settleTimeline_inv h
  rw [requiredStr, orBadRequest_eq_ok] at hname
  exact ⟨name, by rw [textOf, hkept, hname]⟩

theorem saveTimeline_named {env : CallEnv} {existing : Option Json} {document after : Json}
    (h : saveTimeline env existing document = .ok after) :
    ∃ name, textOf after "name" = some name := by
  obtain ⟨-, -, reconciled, stamped, -, -, hsettled⟩ := saveTimeline_inv h
  exact settleTimeline_named hsettled

theorem requiredStr_eq_ok {payload : Json} {key value : String} :
    requiredStr payload key = .ok value ↔ textOf payload key = some value := by
  rw [requiredStr, orBadRequest_eq_ok, textOf]

end Kept

section Paths

/-- The characters of a timeline's file name. -/
def isPlain (c : Char) : Bool := Text.isAsciiAlphanumeric c || c = '-' || c = '_' || c = '.'

theorem lower_range {v : UInt32} (hlow : 65 ≤ v) (hhigh : v ≤ 90) : 97 ≤ v + 32 ∧ v + 32 ≤ 122 := by
  rw [UInt32.le_iff_toNat_le] at hlow hhigh
  have hsum : (v + 32).toNat = v.toNat + 32 := by
    rw [UInt32.toNat_add]
    change v.toNat ≤ 90 at hhigh
    change (v.toNat + 32) % _ = _
    omega
  rw [UInt32.le_iff_toNat_le, UInt32.le_iff_toNat_le, hsum]
  change 65 ≤ v.toNat at hlow
  change v.toNat ≤ 90 at hhigh
  change 97 ≤ v.toNat + 32 ∧ v.toNat + 32 ≤ 122
  omega

theorem isAsciiAlphanumeric_toLower {c : Char} (h : Text.isAsciiAlphanumeric c = true) :
    Text.isAsciiAlphanumeric c.toLower = true := by
  simp only [Text.isAsciiAlphanumeric, Text.isAsciiAlphabetic, Bool.or_eq_true, Bool.and_eq_true,
    decide_eq_true_eq] at h ⊢
  delta Char.toLower
  split
  · next hupper => exact Or.inl (Or.inl (lower_range hupper.1 hupper.2))
  · exact h

theorem mem_pushSlug {state : List Char × Bool} {c : Char}
    (h : ∀ x ∈ state.1, isPlain x = true) : ∀ x ∈ (pushSlug '-' state c).1, isPlain x = true := by
  have hpush : ∀ y, isPlain y = true → ∀ x ∈ state.1 ++ [y], isPlain x = true := by
    intro y hy x hx
    cases List.mem_append.mp hx with
    | inl hold => exact h x hold
    | inr hnew => exact List.mem_singleton.mp hnew ▸ hy
  unfold pushSlug
  split
  · next hc => exact hpush _ (by rw [isPlain, isAsciiAlphanumeric_toLower hc]; rfl)
  · split
    · exact hpush '-' (by decide)
    · exact h

theorem mem_slugify {value : String} {x : Char} (hx : x ∈ slugify value "timeline" (some 48)) :
    isPlain x = true := by
  have hfold : ∀ (chars : List Char) (state : List Char × Bool), (∀ x ∈ state.1, isPlain x = true) →
      ∀ x ∈ (chars.foldl (pushSlug '-') state).1, isPlain x = true := by
    intro chars
    induction chars with
    | nil => exact fun state h => h
    | cons c chars ih => exact fun state h => ih _ (mem_pushSlug h)
  unfold slugify slugifyWith at hx
  dsimp only at hx
  have htake := List.mem_of_mem_take (List.rdropWhile_prefix _ _ |>.subset hx)
  split at htake
  · have hfallback : ∀ c ∈ "timeline".toList, isPlain c = true := by decide
    exact hfallback x htake
  · have hdrop := (List.rdropWhile_prefix _ _).subset htake
    exact hfold _ _ (fun _ hnil => absurd hnil List.not_mem_nil) x hdrop

theorem isPlain_of_safe {id : String} (h : isSafeId id = true) {c : Char}
    (hc : c ∈ idSuffix id) : isPlain c = true := by
  have hmem : c ∈ id.toList :=
    List.mem_reverse.mp (List.mem_of_mem_take (List.mem_reverse.mp hc))
  have hall := List.all_eq_true.mp (Bool.and_eq_true_iff.mp h).2 c hmem
  simp only [Bool.or_eq_true, beq_iff_eq] at hall
  simp only [isPlain, Bool.or_eq_true, decide_eq_true_eq]
  tauto

theorem splitOn_directory {directory file : List Char} (hdirectory : '/' ∉ directory)
    (hfile : '/' ∉ file) : (directory ++ '/' :: file).splitOn '/' = [directory, file] := by
  have hplain : ∀ l : List Char, '/' ∉ l → ∀ c ∈ l, (c == '/') = false := fun l hl c hc =>
    beq_eq_false_iff_ne.mpr fun heq => hl (heq ▸ hc)
  rw [List.splitOn, List.splitOnP_append_cons _ _ rfl,
    List.splitOnP_eq_singleton (hplain directory hdirectory),
    List.splitOnP_eq_singleton (hplain file hfile)]
  rfl

theorem not_control_of_plain {c : Char} (h : isPlain c = true) : isAsciiControl c = false := by
  simp only [isPlain, Text.isAsciiAlphanumeric, Text.isAsciiAlphabetic, Char.isDigit,
    Bool.or_eq_true, Bool.and_eq_true, decide_eq_true_eq] at h
  simp only [isAsciiControl, Bool.or_eq_false_iff, decide_eq_false_iff_not]
  have hrange : ∀ {a b : Char}, 32 ≤ a.toNat → b.toNat < 127 → a ≤ c → c ≤ b →
      ¬ c.toNat < 32 ∧ ¬ c.toNat = 127 := by
    intro a b ha hb hac hcb
    have hlow : a.toNat ≤ c.toNat := hac
    have hhigh : c.toNat ≤ b.toNat := hcb
    omega
  obtain ((((⟨hlow, hhigh⟩ | ⟨hlow, hhigh⟩) | ⟨hlow, hhigh⟩) | rfl) | rfl) | rfl := h
  · exact hrange (by decide) (by decide) hlow hhigh
  · exact hrange (by decide) (by decide) hlow hhigh
  · exact @hrange '0' '9' (by decide) (by decide) hlow hhigh
  all_goals decide

theorem isSafeRelativePath_file {file : List Char} (hplain : ∀ c ∈ file, isPlain c = true)
    (hdash : '-' ∈ file) :
    isSafeRelativePath (String.ofList ("timelines".toList ++ '/' :: file)) = true := by
  have hslash : '/' ∉ file := fun hmem => absurd (hplain '/' hmem) (by decide)
  have hparts : ("timelines".toList ++ '/' :: file).splitOn '/' = ["timelines".toList, file] :=
    splitOn_directory (by decide) hslash
  have hcontrol : file.any isAsciiControl = false := by
    rw [List.any_eq_false]
    intro c hc
    rw [not_control_of_plain (hplain c hc)]
    exact Bool.false_ne_true
  have hnil : file ≠ [] := List.ne_nil_of_mem hdash
  have hdot : file ≠ ['.'] := fun heq => absurd (heq ▸ hdash) (by decide)
  have hdots : file ≠ ['.', '.'] := fun heq => absurd (heq ▸ hdash) (by decide)
  have hcontains : ∀ c, isPlain c = false → c ∉ "timelines/".toList →
      ("timelines".toList ++ '/' :: file).contains c = false := by
    intro c hc hdirectory
    rw [Bool.eq_false_iff]
    intro hmem
    have hmem : c ∈ "timelines/".toList ++ file := List.contains_iff_mem.mp hmem
    cases List.mem_append.mp hmem with
    | inl hdir => exact hdirectory hdir
    | inr hfile =>
        rw [hplain c hfile] at hc
        cases hc
  unfold isSafeRelativePath
  dsimp only
  rw [String.toList_ofList, hparts, hcontains '\\' (by decide) (by decide),
    hcontains ':' (by decide) (by decide)]
  simp [hnil, hdot, hdots.symm, hcontrol, isAsciiControl, Text.isWhiteSpace]

theorem isSafeRelativePath_timelineFilePath {id : String} (name : String)
    (h : isSafeId id = true) : isSafeRelativePath (timelineFilePath id name) = true := by
  refine isSafeRelativePath_file (fun c hc => ?_) ?_
  · have hsuffix : ∀ c ∈ timelineSuffix.toList, isPlain c = true := by decide
    simp only [List.mem_append, List.mem_cons] at hc
    obtain hc | rfl | hc | hc := hc
    · exact mem_slugify hc
    · decide
    · exact isPlain_of_safe h hc
    · exact hsuffix c hc
  · exact List.mem_append_right _ List.mem_cons_self

theorem suffix_of_parts (a b c d : List Char) (x y : Char) :
    d <:+ a ++ x :: (b ++ y :: (c ++ d)) :=
  ⟨a ++ x :: (b ++ y :: c), by simp⟩

theorem isTimelineFile_timelineFilePath (id name : String) :
    isTimelineFile (timelineFilePath id name) = true := by
  unfold isTimelineFile timelineFilePath
  rw [String.toList_ofList]
  exact List.isSuffixOf_iff_suffix.mpr (suffix_of_parts _ _ _ _ _ _)

end Paths

section Filed

/-- Every indexed timeline has its file, and every file is that of an indexed timeline. -/
structure Filed (project : Project) : Prop where
  indexed : ∀ row ∈ project.index.rows, isSafeRelativePath row.filePath = true ∧
    ∃ file, project.files.find row.filePath = some file ∧ textOf file.document "id" = some row.id
  named : ∀ file ∈ project.files.rows, isTimelineFile file.path = true
  owned : ∀ file ∈ project.files.rows, ∃ row ∈ project.index.rows, row.filePath = file.path ∧
    textOf file.document "id" = some row.id

variable {order : ReadOrder} {project : Project} {timelineId : String}

theorem filed_empty : Filed Project.empty where
  indexed := fun _ hrow => absurd hrow List.not_mem_nil
  named := fun _ hfile => absurd hfile List.not_mem_nil
  owned := fun _ hfile => absurd hfile List.not_mem_nil

theorem Filed.find_indexed (h : Filed project) {row : IndexRow}
    (hrow : project.index.find timelineId = some row) :
    findTimelineFile order project timelineId = (.ok row.filePath, project) := by
  obtain ⟨hsafe, file, hfile, -⟩ := h.indexed row (Table.find_mem hrow)
  have hpath : project.indexed timelineId = some row.filePath := by
    rw [Project.indexed, hrow, Option.bind_some, hsafe, hfile]
    rfl
  rw [findTimelineFile, hpath]

theorem Filed.find_absent (h : Filed project) (hrow : project.index.find timelineId = none) :
    findTimelineFile order project timelineId =
      (.error (.notFound "Timeline not found"), project) := by
  have hpath : project.indexed timelineId = none := by
    rw [Project.indexed, hrow, Option.bind_none]
  have hscan : project.scan order timelineId = none := by
    rw [Project.scan, List.find?_eq_none]
    intro file hfile hmatch
    rw [Bool.and_eq_true, decide_eq_true_eq] at hmatch
    obtain ⟨row, hmem, -, hid⟩ := h.owned file ((order.perm _).mem_iff.mp hfile)
    have hsame : row.id = timelineId := Option.some.inj (hid.symm.trans hmatch.2)
    have hfound := Table.mem_rows_iff.mp hmem
    rw [hsame, hrow] at hfound
    cases hfound
  rw [findTimelineFile, hpath, hscan]
  dsimp only
  rw [missingTimeline, hrow]

/-- What is read for an id: the document at its path, if it has one. -/
def stored (project : Project) (timelineId : String) : Except ProjectStoreError Json :=
  match project.index.find timelineId with
  | some row => readJson project row.filePath
  | none => .error (.notFound "Timeline not found")

theorem Filed.getTimeline_eq (h : Filed project) :
    getTimeline order project timelineId = (stored project timelineId, project) := by
  unfold getTimeline stored
  cases hrow : project.index.find timelineId with
  | some row => rw [h.find_indexed hrow]
  | none => rw [h.find_absent hrow]

theorem Filed.existing_project (h : Filed project) :
    (existingTimeline order project timelineId).2 = project := by
  rw [existingTimeline, h.getTimeline_eq]
  cases stored project timelineId with
  | ok document => rfl
  | error error => cases error <;> rfl

/-- No other timeline is kept at the path that the id and the name lead to. -/
def Unclaimed (project : Project) (timelineId name : String) : Prop :=
  ∀ row ∈ project.index.rows, row.id ≠ timelineId → row.filePath ≠ timelineFilePath timelineId name

variable {timeline : Json} {name : String}

theorem writeTimeline_index (hname : textOf timeline "name" = some name) (other : String) :
    (writeTimeline project timelineId timeline).index.find other =
      if timelineId = other then some ⟨timelineId, timelineFilePath timelineId name⟩
      else project.index.find other := by
  rw [writeTimeline, hname]
  exact Table.find_put ..

theorem writeTimeline_self (hname : textOf timeline "name" = some name) :
    (writeTimeline project timelineId timeline).files.find (timelineFilePath timelineId name) =
      some ⟨timelineFilePath timelineId name, timeline⟩ := by
  rw [writeTimeline, hname]
  simp [removeStaleTimelineFiles]

/-- The files of other timelines stay as they are. -/
theorem writeTimeline_other (hname : textOf timeline "name" = some name) {path : String}
    (hpath : timelineFilePath timelineId name ≠ path)
    (hother : ∀ file, project.files.find path = some file →
      textOf file.document "id" ≠ some timelineId) :
    (writeTimeline project timelineId timeline).files.find path = project.files.find path := by
  rw [writeTimeline, hname]
  simp only [removeStaleTimelineFiles, Option.getD_some, Table.find_delete, Table.find_put,
    if_neg hpath]
  cases hfile : project.files.find path with
  | none => rfl
  | some file =>
      rw [Option.filter_some, decide_eq_false (hother file hfile), Bool.and_false]
      rfl

/-- A file that a save leaves: the new document, or one of another timeline. -/
theorem mem_writeTimeline (hname : textOf timeline "name" = some name) {file : TimelineFile}
    (hfile : file ∈ (writeTimeline project timelineId timeline).files.rows) :
    file = ⟨timelineFilePath timelineId name, timeline⟩ ∨ file ∈ project.files.rows ∧
      (isTimelineFile file.path = true → textOf file.document "id" ≠ some timelineId) := by
  have hfind := Table.mem_rows_iff.mp hfile
  by_cases hpath : timelineFilePath timelineId name = file.path
  · rw [← hpath, writeTimeline_self hname] at hfind
    exact Or.inl (Option.some.inj hfind).symm
  · rw [writeTimeline, hname] at hfind
    simp only [removeStaleTimelineFiles, Option.getD_some, Table.find_delete, Table.find_put,
      if_neg hpath, Option.filter_eq_some_iff] at hfind
    obtain ⟨hold, hkeep⟩ := hfind
    refine Or.inr ⟨Table.find_mem hold, fun htimeline hsame => ?_⟩
    rw [htimeline, hsame, decide_eq_true (Ne.symm hpath)] at hkeep
    simp at hkeep

theorem Filed.write (h : Filed project) (hsafe : isSafeId timelineId = true)
    (hid : textOf timeline "id" = some timelineId) (hname : textOf timeline "name" = some name)
    (hclear : Unclaimed project timelineId name) :
    Filed (writeTimeline project timelineId timeline) ∧
      stored (writeTimeline project timelineId timeline) timelineId = .ok timeline ∧
      ∀ other, other ≠ timelineId →
        stored (writeTimeline project timelineId timeline) other = stored project other := by
  have hkept : ∀ row ∈ project.index.rows, row.id ≠ timelineId →
      (writeTimeline project timelineId timeline).files.find row.filePath =
        project.files.find row.filePath := by
    intro row hrow hne
    refine writeTimeline_other hname (Ne.symm (hclear row hrow hne)) fun file hfile hsame => ?_
    obtain ⟨-, found, hfound, hrowId⟩ := h.indexed row hrow
    rw [hfile] at hfound
    rw [← Option.some.inj hfound, hsame] at hrowId
    exact hne (Option.some.inj hrowId).symm
  refine ⟨⟨?_, ?_, ?_⟩, ?_, ?_⟩
  · intro row hrow
    have hfind := Table.mem_rows_iff.mp hrow
    rw [writeTimeline_index hname] at hfind
    by_cases hsame : timelineId = row.id
    · rw [if_pos hsame] at hfind
      rw [← Option.some.inj hfind]
      exact ⟨isSafeRelativePath_timelineFilePath name hsafe, _, writeTimeline_self hname, hid⟩
    · rw [if_neg hsame] at hfind
      have hmem := Table.find_mem hfind
      rw [hkept row hmem (Ne.symm hsame)]
      exact h.indexed row hmem
  · intro file hfile
    obtain rfl | ⟨hold, -⟩ := mem_writeTimeline hname hfile
    · exact isTimelineFile_timelineFilePath timelineId name
    · exact h.named file hold
  · intro file hfile
    obtain rfl | ⟨hold, hother⟩ := mem_writeTimeline hname hfile
    · have hrow : (writeTimeline project timelineId timeline).index.find timelineId = _ :=
        (writeTimeline_index hname timelineId).trans (if_pos rfl)
      exact ⟨_, Table.find_mem hrow, rfl, hid⟩
    · obtain ⟨row, hrow, hpath, hdoc⟩ := h.owned file hold
      have hne : row.id ≠ timelineId := fun heq => hother (h.named file hold) (heq ▸ hdoc)
      have hfind : (writeTimeline project timelineId timeline).index.find row.id = some row := by
        rw [writeTimeline_index hname, if_neg (Ne.symm hne)]
        exact Table.mem_rows_iff.mp hrow
      exact ⟨row, Table.find_mem hfind, hpath, hdoc⟩
  · rw [stored, writeTimeline_index hname, if_pos rfl]
    dsimp only
    rw [readJson, writeTimeline_self hname]
  · intro other hne
    rw [stored, stored, writeTimeline_index hname, if_neg (Ne.symm hne)]
    cases hrow : project.index.find other with
    | none => rfl
    | some row =>
        have hrowId := Table.find_key hrow
        dsimp only
        rw [readJson, readJson, hkept row (Table.find_mem hrow) (hrowId.symm ▸ hne)]

end Filed

section Calls

variable {order : ReadOrder} {project : Project}

/-- The id and the name of the document that a call saves. -/
def StoreCall.target (c : StoreCall) : Option (String × String) :=
  match c.document with
  | .ok (_, document) =>
      (textOf document "id").bind fun id => (textOf document "name").map fun name => (id, name)
  | .error _ => none

def StoreCall.timelineId (c : StoreCall) : Option String :=
  match c.document with
  | .ok (_, document) => textOf document "id"
  | .error _ => none

/-- The path that the call leads to is not that of another timeline. -/
def Clear (project : Project) (c : StoreCall) : Prop :=
  ∀ target ∈ c.target, Unclaimed project target.1 target.2

instance (project : Project) (timelineId name : String) :
    Decidable (Unclaimed project timelineId name) :=
  inferInstanceAs (Decidable (∀ row ∈ project.index.rows, _ → _))

instance (project : Project) (c : StoreCall) : Decidable (Clear project c) :=
  inferInstanceAs (Decidable (∀ target ∈ c.target, Unclaimed project target.1 target.2))

/-- What a call does: it leaves the project alone, or it stores the document it returns. -/
theorem Filed.run_cases (h : Filed project) (order : ReadOrder) (c : StoreCall) :
    (∃ error, (c.run order project).1 = .error error) ∧ (c.run order project).2 = project ∨
      ∃ id name timeline, c.run order project = (.ok timeline, writeTimeline project id timeline) ∧
        c.timelineId = some id ∧ c.target = some (id, name) ∧ isSafeId id = true ∧
        textOf timeline "id" = some id ∧ textOf timeline "name" = some name := by
  unfold StoreCall.run StoreCall.target StoreCall.timelineId
  cases hdocument : c.document with
  | error error => exact Or.inl ⟨⟨error, rfl⟩, rfl⟩
  | ok sent =>
      obtain ⟨env, document⟩ := sent
      dsimp only
      unfold saveTimelineFile
      cases hid : requiredStr document "id" with
      | error error => exact Or.inl ⟨⟨error, rfl⟩, rfl⟩
      | ok id =>
          rw [requiredStr_eq_ok] at hid
          dsimp only
          cases hsafe : isSafeId id with
          | false => exact Or.inl ⟨⟨_, rfl⟩, rfl⟩
          | true =>
              have hproject : (existingTimeline order project id).2 = project := h.existing_project
              cases hexisting : existingTimeline order project id with
              | mk found project' =>
                  rw [hexisting] at hproject
                  obtain rfl : project' = project := hproject
                  cases found with
                  | error error => exact Or.inl ⟨⟨error, rfl⟩, rfl⟩
                  | ok existing =>
                      cases hsave : saveTimeline env existing document with
                      | error error => exact Or.inl ⟨⟨error, by simp [hsave]⟩, by simp [hsave]⟩
                      | ok timeline =>
                          obtain ⟨name, hname⟩ := saveTimeline_named hsave
                          have hid' := saveTimeline_text (Or.inl rfl) hsave
                          have hname' := saveTimeline_text (Or.inr rfl) hsave
                          refine Or.inr ⟨id, name, timeline, by simp [hsave], hid, ?_, hsafe,
                            hid'.trans hid, hname⟩
                          rw [hid, ← hname', hname]
                          rfl

/-- One call: the id it names gets the document it returns, every other id keeps its own. -/
theorem Filed.step (h : Filed project) {c : StoreCall} (hclear : Clear project c) :
    Filed (storeStep order project c) ∧
      (∀ id, c.timelineId ≠ some id →
        stored (storeStep order project c) id = stored project id) ∧
      ∀ document, (c.run order project).1 = .ok document →
        ∃ id, c.timelineId = some id ∧ stored (storeStep order project c) id = .ok document := by
  unfold storeStep
  obtain ⟨⟨error, herror⟩, hsame⟩ | ⟨id, name, timeline, hrun, hcall, htarget, hsafe, hid, hname⟩ :=
    h.run_cases order c
  · rw [hsame, herror]
    exact ⟨h, fun _ _ => rfl, fun _ hok => nomatch hok⟩
  · obtain ⟨hfiled, hself, hothers⟩ :=
      h.write hsafe hid hname (hclear (id, name) (Option.mem_def.mpr htarget))
    rw [hrun]
    refine ⟨hfiled, fun other hother => hothers other ?_, fun document hok => ⟨id, hcall, ?_⟩⟩
    · rintro rfl
      exact hother hcall
    · rw [hself, Except.ok.inj hok]

theorem Filed.exec (h : Filed project) {calls : List StoreCall}
    (hclear : Run.Along (storeStep order) Clear project calls) :
    Filed (Run.exec (storeStep order) project calls) :=
  Run.exec_invariant (fun _ _ hfiled hc => (hfiled.step hc).1) h hclear

/-- Calls that name other ids leave a timeline as it is. -/
theorem Filed.exec_other (h : Filed project) {calls : List StoreCall} {id : String}
    (hclear : Run.Along (storeStep order) Clear project calls)
    (hother : ∀ c ∈ calls, c.timelineId ≠ some id) :
    stored (Run.exec (storeStep order) project calls) id = stored project id := by
  induction calls generalizing project with
  | nil => rfl
  | cons c calls ih =>
      obtain ⟨hfiled, hothers, -⟩ := h.step hclear.1
      rw [Run.exec_cons, ih hfiled hclear.2 fun c' hc' => hother c' (List.mem_cons_of_mem c hc')]
      exact hothers id (hother c List.mem_cons_self)

end Calls

section Samples

def keptOrder : ReadOrder := ⟨id, fun _ => List.Perm.refl _⟩

def cutNamed (id name : String) (revision : Nat) : Json :=
  .obj [("id", .str id), ("name", .str name), ("projectId", .str "project_a"),
    ("revision", .int revision)]

def createdCut : StoreCall := .createTimeline sampleEnv "Cut" "16:9" 30

def savedCut : StoreCall := .saveTimeline sampleEnv (cutNamed "cut_b" "Cut" 0)

def renamedCut : StoreCall := .saveTimeline sampleEnv (cutNamed "cut_b" "Final" 1)

end Samples

end SceneWorks.ProjectStore
