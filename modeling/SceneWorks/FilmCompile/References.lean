import SceneWorks.FilmCompile.Assets

/-!
The import of a pack's images, which makes one asset of each file however many roles name it. A
controller may stop after any row it recorded, and the next one takes up what the record holds;
what reading, adopting or uploading an image comes to is left to `acquire`.
-/

namespace SceneWorks.FilmCompile

structure ReferenceAssetRecord where
  role : String
  kind : String
  file : String
  sha256 : String
  assetId : String
  approved : Bool

structure Importing where
  references : List ReferenceAssetRecord
  fileAssets : String → Option String
  roleAssets : String → Option String

namespace Importing

def empty : Importing := ⟨[], fun _ => none, fun _ => none⟩

/-- Only approved roles resolve into a shot's slots. -/
def adopt (state : Importing) (row : ReferenceAssetRecord) : Importing where
  references := state.references ++ [row]
  fileAssets := Function.update state.fileAssets row.file (some row.assetId)
  roleAssets :=
    if row.approved then Function.update state.roleAssets row.role (some row.assetId)
    else state.roleAssets

variable (acquire : ReferenceEntry → Option (String × String))

/-- The row of an entry: the digest that was read, and the asset its file has already or gets. -/
def row (state : Importing) (entry : ReferenceEntry) (file : String) :
    Option ReferenceAssetRecord := do
  let (sha256, acquired) ← acquire entry
  return ⟨entry.role, entry.kind, file, sha256, (state.fileAssets file).getD acquired,
    entry.approved⟩

def importReference (state : Importing) (entry : ReferenceEntry) : Option Importing :=
  match entry.file with
  | none => some state
  | some file => (state.row acquire entry file).map state.adopt

end Importing

def recordedRoles (references : List ReferenceAssetRecord) : List String :=
  references.map ReferenceAssetRecord.role

def ensureReferences (pack : ReferencePack) (acquire : ReferenceEntry → Option (String × String))
    (references : List ReferenceAssetRecord) : Option Importing :=
  let pending := pack.references.filter fun entry =>
    entry.file.isSome && !(recordedRoles references).contains entry.role
  pending.foldlM (Importing.importReference acquire) (references.foldl Importing.adopt .empty)

variable {pack : ReferencePack} {acquire : ReferenceEntry → Option (String × String)}
  {state state' : Importing} {entry : ReferenceEntry} {row : ReferenceAssetRecord}
  {references : List ReferenceAssetRecord}

def Records (row : ReferenceAssetRecord) (entry : ReferenceEntry) : Prop :=
  entry.role = row.role ∧ entry.file = some row.file ∧ entry.approved = row.approved

/-- What a record may hold between two controllers. -/
structure Recorded (pack : ReferencePack) (references : List ReferenceAssetRecord) : Prop where
  known : ∀ row ∈ references, ∃ entry ∈ pack.references, Records row entry
  shared : ∀ one ∈ references, ∀ other ∈ references, one.file = other.file →
    one.assetId = other.assetId

structure Imported (pack : ReferencePack) (state : Importing) : Prop where
  recorded : Recorded pack state.references
  files : ∀ row ∈ state.references, state.fileAssets row.file = some row.assetId
  named : ∀ file, (state.fileAssets file).isSome = true → ∃ row ∈ state.references, row.file = file
  roles : ∀ row ∈ state.references, row.approved = true →
    state.roleAssets row.role = some row.assetId
  resolved : ∀ role, (state.roleAssets role).isSome = true →
    ∃ row ∈ state.references, row.role = role ∧ row.approved = true

theorem imported_empty : Imported pack .empty where
  recorded := ⟨by simp [Importing.empty], by simp [Importing.empty]⟩
  files := by simp [Importing.empty]
  named := by simp [Importing.empty]
  roles := by simp [Importing.empty]
  resolved := by simp [Importing.empty]

/-- Two rows of one role record one entry, and so one file. -/
theorem Recorded.file_eq (h : Recorded pack references)
    (hdistinct : (pack.references.map ReferenceEntry.role).Nodup)
    {one other : ReferenceAssetRecord} (hone : one ∈ references) (hentry : entry ∈ pack.references)
    (hrecords : Records other entry) (hrole : one.role = other.role) : one.file = other.file := by
  obtain ⟨first, hfirst, hfirstRole, hfirstFile, -⟩ := h.known one hone
  obtain ⟨hsecondRole, hsecondFile, -⟩ := hrecords
  have hsame : first = entry := by
    refine List.inj_on_of_nodup_map hdistinct hfirst hentry ?_
    rw [hfirstRole, hsecondRole, hrole]
  rw [hsame, hsecondFile] at hfirstFile
  exact (Option.some.inj hfirstFile).symm

theorem Imported.adopt (hdistinct : (pack.references.map ReferenceEntry.role).Nodup)
    (h : Imported pack state) (hentry : entry ∈ pack.references) (hrecords : Records row entry)
    (hasset : ∀ asset, state.fileAssets row.file = some asset → asset = row.assetId) :
    Imported pack (state.adopt row) := by
  have hold : ∀ other ∈ state.references, other.file = row.file → other.assetId = row.assetId := by
    intro other hother hfile
    exact hasset other.assetId (hfile ▸ h.files other hother)
  refine ⟨⟨?_, ?_⟩, ?_, ?_, ?_, ?_⟩
  · intro other hother
    rcases List.mem_append.mp hother with hearlier | hnew
    · exact h.recorded.known other hearlier
    · rw [List.mem_singleton.mp hnew]
      exact ⟨entry, hentry, hrecords⟩
  · intro one hone other hother hfile
    rcases List.mem_append.mp hone with hone | hone <;>
      rcases List.mem_append.mp hother with hother | hother
    · exact h.recorded.shared one hone other hother hfile
    · rw [List.mem_singleton.mp hother] at hfile ⊢
      exact hold one hone hfile
    · rw [List.mem_singleton.mp hone] at hfile ⊢
      exact (hold other hother hfile.symm).symm
    · rw [List.mem_singleton.mp hone, List.mem_singleton.mp hother]
  · intro other hother
    simp only [Importing.adopt] at hother ⊢
    by_cases hfile : other.file = row.file
    · rw [hfile, Function.update_self]
      rcases List.mem_append.mp hother with hearlier | hnew
      · rw [hold other hearlier hfile]
      · rw [List.mem_singleton.mp hnew]
    · rw [Function.update_of_ne hfile]
      rcases List.mem_append.mp hother with hearlier | hnew
      · exact h.files other hearlier
      · exact absurd (congrArg ReferenceAssetRecord.file (List.mem_singleton.mp hnew)) hfile
  · intro file hfile
    simp only [Importing.adopt] at hfile ⊢
    by_cases hsame : file = row.file
    · exact ⟨row, by simp, hsame.symm⟩
    · rw [Function.update_of_ne hsame] at hfile
      obtain ⟨other, hother, hotherFile⟩ := h.named file hfile
      exact ⟨other, by simp [hother], hotherFile⟩
  · intro other hother happroved
    simp only [Importing.adopt] at hother ⊢
    rcases List.mem_append.mp hother with hearlier | hnew
    · have hrole := h.roles other hearlier happroved
      split
      · by_cases hsame : other.role = row.role
        · have hfile := h.recorded.file_eq hdistinct hearlier hentry hrecords hsame
          rw [hsame, Function.update_self, hold other hearlier hfile]
        · rw [Function.update_of_ne hsame, hrole]
      · exact hrole
    · obtain rfl := List.mem_singleton.mp hnew
      rw [if_pos happroved, Function.update_self]
  · intro role hrole
    simp only [Importing.adopt] at hrole ⊢
    split at hrole
    · next happroved =>
        by_cases hsame : role = row.role
        · exact ⟨row, by simp, hsame.symm, happroved⟩
        · rw [Function.update_of_ne hsame] at hrole
          obtain ⟨other, hother, hother'⟩ := h.resolved role hrole
          exact ⟨other, by simp [hother], hother'⟩
    · obtain ⟨other, hother, hother'⟩ := h.resolved role hrole
      exact ⟨other, by simp [hother], hother'⟩

/-- Taking up a record goes through its rows in order. -/
theorem imported_foldl_adopt (hdistinct : (pack.references.map ReferenceEntry.role).Nodup)
    (h : Imported pack state) (hrecorded : Recorded pack (state.references ++ references)) :
    Imported pack (references.foldl Importing.adopt state) ∧
      (references.foldl Importing.adopt state).references = state.references ++ references := by
  induction references generalizing state with
  | nil => exact ⟨h, by simp⟩
  | cons row references ih =>
      obtain ⟨entry, hentry, hrecords⟩ := hrecorded.known row (by simp)
      have hadopted : Imported pack (state.adopt row) := by
        refine h.adopt hdistinct hentry hrecords ?_
        intro asset hasset
        obtain ⟨other, hother, hfile⟩ := h.named row.file (by simp [hasset])
        have hsame := hrecorded.shared other (by simp [hother]) row (by simp) hfile
        have hfiles := h.files other hother
        rw [hfile, hasset] at hfiles
        exact (Option.some.inj hfiles).trans hsame
      have hrest := ih hadopted (by simpa [Importing.adopt] using hrecorded)
      simpa [Importing.adopt] using hrest

/-- One image more, and its role is recorded from there on. -/
theorem Imported.importReference (hdistinct : (pack.references.map ReferenceEntry.role).Nodup)
    (h : Imported pack state) (hentry : entry ∈ pack.references) (hfile : entry.file.isSome = true)
    (hstep : state.importReference acquire entry = some state') :
    Imported pack state' ∧
      ∃ row, Records row entry ∧ state'.references = state.references ++ [row] := by
  obtain ⟨file, hfile⟩ := Option.isSome_iff_exists.mp hfile
  simp only [Importing.importReference, hfile, Importing.row] at hstep
  obtain ⟨row, hrow, rfl⟩ := Option.map_eq_some_iff.mp hstep
  obtain ⟨acquired, -, hmade⟩ := Option.bind_eq_some_iff.mp hrow
  cases hmade
  refine ⟨h.adopt hdistinct hentry ⟨rfl, hfile, rfl⟩ ?_, _, ⟨rfl, hfile, rfl⟩, rfl⟩
  intro asset hasset
  simp [hasset]

theorem imported_foldlM (hdistinct : (pack.references.map ReferenceEntry.role).Nodup)
    (h : Imported pack state) {entries : List ReferenceEntry}
    (hentries : ∀ entry ∈ entries, entry ∈ pack.references ∧ entry.file.isSome = true)
    (hrun : entries.foldlM (Importing.importReference acquire) state = some state') :
    Imported pack state' ∧ (∀ row ∈ state.references, row ∈ state'.references) ∧
      ∀ entry ∈ entries, ∃ row ∈ state'.references, Records row entry := by
  induction entries generalizing state with
  | nil =>
      cases hrun
      exact ⟨h, fun _ hrow => hrow, by simp⟩
  | cons entry entries ih =>
      rw [List.foldlM_cons] at hrun
      obtain ⟨middle, hstep, hrest⟩ := Option.bind_eq_some_iff.mp hrun
      obtain ⟨hentry, hfile⟩ := hentries entry List.mem_cons_self
      obtain ⟨hmiddle, row, hrecords, hreferences⟩ :=
        h.importReference hdistinct hentry hfile hstep
      obtain ⟨himported, hkept, hall⟩ :=
        ih hmiddle (fun other hother => hentries other (List.mem_cons_of_mem _ hother)) hrest
      refine ⟨himported, ?_, ?_⟩
      · intro other hother
        exact hkept other (by simp [hreferences, hother])
      · intro other hother
        rcases List.mem_cons.mp hother with rfl | hlater
        · exact ⟨row, hkept row (by simp [hreferences]), hrecords⟩
        · exact hall other hlater

/-- What an import that went through has recorded: every image of the pack. -/
theorem ensureReferences_records (hdistinct : (pack.references.map ReferenceEntry.role).Nodup)
    (hrecorded : Recorded pack references)
    (hrun : ensureReferences pack acquire references = some state) :
    Imported pack state ∧ ∀ entry ∈ pack.references, entry.file.isSome = true →
      ∃ row ∈ state.references, Records row entry := by
  obtain ⟨hbegun, hbegin⟩ : Imported pack (references.foldl Importing.adopt .empty) ∧ _ :=
    imported_foldl_adopt hdistinct imported_empty (by simpa [Importing.empty] using hrecorded)
  obtain ⟨himported, hkept, hall⟩ := imported_foldlM hdistinct hbegun (by
    intro entry hentry
    simp only [List.mem_filter, Bool.and_eq_true] at hentry
    exact ⟨hentry.1, hentry.2.1⟩) hrun
  refine ⟨himported, ?_⟩
  intro entry hentry hfile
  by_cases hknown : entry.role ∈ recordedRoles references
  · obtain ⟨row, hrow, hrole⟩ := List.mem_map.mp hknown
    obtain ⟨other, hother, hotherRole, hotherFile, hotherApproved⟩ := hrecorded.known row hrow
    have hsame : other = entry :=
      List.inj_on_of_nodup_map hdistinct hother hentry (hotherRole.trans hrole)
    refine ⟨row, hkept row ?_, hsame ▸ ⟨hotherRole, hotherFile, hotherApproved⟩⟩
    rw [hbegin]
    exact List.mem_append_right _ hrow
  · exact hall entry (List.mem_filter.mpr ⟨hentry, by simp [hfile, hknown]⟩)

theorem Imported.roleAssets_none (hdistinct : (pack.references.map ReferenceEntry.role).Nodup)
    (h : Imported pack state) (hentry : entry ∈ pack.references)
    (happroved : entry.approved = false) :
    state.roleAssets entry.role = none := by
  by_contra hsome
  obtain ⟨row, hrow, hrole, hrowApproved⟩ :=
    h.resolved entry.role (Option.isSome_iff_ne_none.mpr hsome)
  obtain ⟨other, hother, hotherRole, -, hotherApproved⟩ := h.recorded.known row hrow
  have hsame : other = entry :=
    List.inj_on_of_nodup_map hdistinct hother hentry (hotherRole.trans hrole)
  rw [hsame, happroved, hrowApproved] at hotherApproved
  cases hotherApproved

/-- The import gives roles of one file one asset, where it treats them alike. -/
theorem ensureReferences_sharesAssets (hdistinct : (pack.references.map ReferenceEntry.role).Nodup)
    (halike : ∀ one ∈ pack.references, ∀ other ∈ pack.references, ∀ file, one.file = some file →
      other.file = some file → one.approved = other.approved)
    (hrecorded : Recorded pack references)
    (hrun : ensureReferences pack acquire references = some state) :
    SharesAssets pack state.roleAssets := by
  obtain ⟨himported, hall⟩ := ensureReferences_records hdistinct hrecorded hrun
  intro one hone other hother file honeFile hotherFile
  have happroved := halike one hone other hother file honeFile hotherFile
  cases hcase : other.approved with
  | false =>
      rw [himported.roleAssets_none hdistinct hone (happroved.trans hcase),
        himported.roleAssets_none hdistinct hother hcase]
  | true =>
      obtain ⟨row, hrow, hrole, hfile, hrowApproved⟩ := hall one hone (by simp [honeFile])
      obtain ⟨row', hrow', hrole', hfile', hrowApproved'⟩ :=
        hall other hother (by simp [hotherFile])
      have hsame : row.assetId = row'.assetId := by
        refine himported.recorded.shared row hrow row' hrow' ?_
        rw [honeFile] at hfile
        rw [hotherFile] at hfile'
        exact (Option.some.inj hfile).symm.trans (Option.some.inj hfile')
      rw [hrole, hrole', himported.roles row hrow (by rw [← hrowApproved, happroved, hcase]),
        himported.roles row' hrow' (by rw [← hrowApproved', hcase]), hsame]

end SceneWorks.FilmCompile
