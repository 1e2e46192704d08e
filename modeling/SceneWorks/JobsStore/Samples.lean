import SceneWorks.JobsStore.Steps
import SceneWorks.Library.FirstSeen
import SceneWorks.Library.JsonIndex

/-!
The sample history of a training run across progress reports. A sample that names a
file is known by that file; one that names none is known by its place in the list, so
no later copy of it is ever recognised. The merge is read here as keeping the first
sample of each file, and what it keeps of the stored history is stated exactly.
-/

namespace SceneWorks.JobsStore

open FirstSeen

/-- The file a sample names: the first of its path fields that holds a text. -/
def sampleFile (sample : Json) : Option String :=
  sample.asObject.bind fun object =>
    ["relativePath", "path", "url"].findSome? fun key =>
      (getStr object key).bind fun value =>
        if value = "" then none else some (key ++ ":" ++ value)

def listedSamples (value : Option Json) : List Json :=
  (value.bind Json.asArray).getD []

def isSampleArray (value : Option Json) : Prop := (value.bind Json.asArray).isSome = true

instance (value : Option Json) : Decidable (isSampleArray value) :=
  inferInstanceAs (Decidable (_ = true))

section SampleKeys

variable {policy : RoutingPolicy} {sample : Json} {file : String}

theorem trainingSampleKey_of_file (h : sampleFile sample = some file) (n : Nat) :
    trainingSampleKey policy sample n = file := by
  cases hobject : sample.asObject with
  | none => simp [sampleFile, hobject] at h
  | some object =>
      simp only [sampleFile, hobject, Option.bind_some] at h
      simp only [trainingSampleKey, hobject, h, Option.getD_some]

theorem sampleFile_head (h : sampleFile sample = some file) : file.toList.head? ≠ some 's' := by
  obtain ⟨object, -, hfile⟩ := Option.bind_eq_some_iff.mp h
  obtain ⟨key, hkey, hvalue⟩ := List.exists_of_findSome?_eq_some hfile
  obtain ⟨value, -, hnamed⟩ := Option.bind_eq_some_iff.mp hvalue
  split at hnamed
  · cases hnamed
  · cases hnamed
    simp only [List.mem_cons, List.not_mem_nil, or_false] at hkey
    rcases hkey with rfl | rfl | rfl <;> simp [String.toList_append]

variable (policy) in
/-- The key of a sample without a file ends in its place in the list. -/
theorem trainingSampleKey_of_none (h : sampleFile sample = none) (n : Nat) :
    ∃ front : List Char, (trainingSampleKey policy sample n).toList =
      's' :: front ++ ':' :: Nat.toDigits 10 n := by
  cases hobject : sample.asObject with
  | none =>
      refine ⟨"ample".toList, ?_⟩
      simp [trainingSampleKey, hobject, String.toList_append]
  | some object =>
      simp only [sampleFile, hobject, Option.bind_some] at h
      refine ⟨("tep:" ++ ((JsonObject.get object "step").map policy.jsonText).getD "unknown" ++
        ":prompt:" ++ (getStr object "prompt").getD "" ++ ":index").toList, ?_⟩
      simp [trainingSampleKey, hobject, h, String.toList_append]

theorem afterColon_inj {xs ys : List Char} {n m : Nat}
    (h : xs ++ ':' :: Nat.toDigits 10 n = ys ++ ':' :: Nat.toDigits 10 m) : n = m := by
  have htail : ∀ (front : List Char) (k : Nat),
      (front ++ ':' :: Nat.toDigits 10 k).reverse.takeWhile (· ≠ ':') =
        (Nat.toDigits 10 k).reverse := by
    intro front k
    have hdigits : ∀ c ∈ (Nat.toDigits 10 k).reverse, decide (c ≠ ':') = true := by
      intro c hc
      have hdigit := Nat.isDigit_of_mem_toDigits (by decide) (by decide) (List.mem_reverse.mp hc)
      exact decide_eq_true (by rintro rfl; cases hdigit)
    rw [List.reverse_append, List.reverse_cons, List.append_assoc,
      List.takeWhile_append_of_pos hdigits]
    simp
  have hdigits : Nat.toDigits 10 n = Nat.toDigits 10 m := by
    rw [← List.reverse_inj, ← htail xs n, ← htail ys m, h]
  rw [← Nat.ofDigitChars_ten_toDigits (n := n), hdigits, Nat.ofDigitChars_ten_toDigits]

end SampleKeys

section Append

variable (policy : RoutingPolicy)

/-- The seen set holds the keys the listed samples had when they were appended. -/
def SeenKeys (acc : List Json × List String) : Prop :=
  ∀ key, key ∈ acc.2 ↔
    ∃ i sample, acc.1[i]? = some sample ∧ trainingSampleKey policy sample i = key

variable {policy} {acc : List Json × List String}

/-- A further sample is known already exactly when a listed one names its file. -/
theorem key_seen_iff (h : SeenKeys policy acc) (sample : Json) :
    trainingSampleKey policy sample acc.1.length ∈ acc.2 ↔
      ∃ file ∈ keys sampleFile acc.1, sampleFile sample = some file := by
  rw [h]
  constructor
  · rintro ⟨i, other, hother, hkey⟩
    have hi : i < acc.1.length := (List.getElem?_eq_some_iff.mp hother).1
    cases hfile : sampleFile sample with
    | some file =>
        rw [trainingSampleKey_of_file hfile] at hkey
        cases hofile : sampleFile other with
        | some ofile =>
            rw [trainingSampleKey_of_file hofile] at hkey
            subst hkey
            exact ⟨ofile, List.mem_filterMap.mpr ⟨other, List.mem_of_getElem? hother, hofile⟩, rfl⟩
        | none =>
            obtain ⟨front, hfront⟩ := trainingSampleKey_of_none policy hofile i
            rw [hkey] at hfront
            exact absurd (by rw [hfront]; rfl) (sampleFile_head hfile)
    | none =>
        obtain ⟨front, hfront⟩ := trainingSampleKey_of_none policy hfile acc.1.length
        cases hofile : sampleFile other with
        | some ofile =>
            rw [trainingSampleKey_of_file hofile] at hkey
            rw [← hkey] at hfront
            exact absurd (by rw [hfront]; rfl) (sampleFile_head hofile)
        | none =>
            -- Both keys end in a place of the list, and the places differ.
            obtain ⟨ofront, hofront⟩ := trainingSampleKey_of_none policy hofile i
            rw [hkey, hfront] at hofront
            have := afterColon_inj hofront
            omega
  · rintro ⟨file, hmem, hfile⟩
    obtain ⟨other, hother, hofile⟩ := List.mem_filterMap.mp hmem
    obtain ⟨i, hi⟩ := List.mem_iff_getElem?.mp hother
    refine ⟨i, other, hi, ?_⟩
    rw [trainingSampleKey_of_file hofile, trainingSampleKey_of_file hfile]

theorem seenKeys_append (h : SeenKeys policy acc) (sample : Json) :
    SeenKeys policy
      (acc.1 ++ [sample], trainingSampleKey policy sample acc.1.length :: acc.2) := by
  intro key
  rw [List.mem_cons, h]
  constructor
  · rintro (rfl | ⟨i, other, hother, hkey⟩)
    · exact ⟨acc.1.length, sample, by simp, rfl⟩
    · have hi : i < acc.1.length := (List.getElem?_eq_some_iff.mp hother).1
      exact ⟨i, other, by rw [List.getElem?_append_left hi]; exact hother, hkey⟩
  · rintro ⟨i, other, hother, hkey⟩
    by_cases hi : i < acc.1.length
    · rw [List.getElem?_append_left hi] at hother
      exact .inr ⟨i, other, hother, hkey⟩
    · rw [List.getElem?_append_right (Nat.le_of_not_lt hi), List.getElem?_singleton] at hother
      split at hother
      · cases hother
        have : i = acc.1.length := by omega
        exact .inl (by rw [← hkey, this])
      · cases hother

/-- `append_training_samples` keeps the first sample of each file. -/
theorem appendTrainingSamples_spec (h : SeenKeys policy acc) (value : Option Json) :
    (appendTrainingSamples policy acc value).1 =
        keepNew sampleFile acc.1 (listedSamples value) ∧
      SeenKeys policy (appendTrainingSamples policy acc value) := by
  simp only [appendTrainingSamples, listedSamples, List.contains_iff_mem]
  generalize (value.bind Json.asArray).getD [] = samples
  induction samples generalizing acc with
  | nil => exact ⟨rfl, h⟩
  | cons sample rest ih =>
      simp only [List.foldl_cons, keepNew_cons, key_seen_iff h]
      by_cases hheld : ∃ file ∈ keys sampleFile acc.1, sampleFile sample = some file
      · obtain ⟨file, hmem, hfile⟩ := hheld
        rw [if_pos ⟨file, hmem, hfile⟩, keep_of_mem hfile hmem]
        exact ih h
      · have hkeep : keep sampleFile acc.1 sample = acc.1 ++ [sample] := by
          cases hfile : sampleFile sample with
          | none => exact keep_of_none hfile
          | some file => exact keep_of_not_mem hfile fun hmem => hheld ⟨file, hmem, hfile⟩
        rw [if_neg hheld, hkeep]
        exact ih (seenKeys_append h sample)

end Append

section Merge

variable {policy : RoutingPolicy} {stored incoming : JsonObject}

/-- The `trainingSamples` value the merge starts from: the reported one, or else the stored. -/
def carriedSamples (stored incoming : JsonObject) : Option Json :=
  (JsonObject.get incoming "trainingSamples").or (JsonObject.get stored "trainingSamples")

/-- The stored samples, then what is new in the carried list and in the latest one. -/
def gatheredSamples (stored incoming : JsonObject) : List Json :=
  keepNew sampleFile
    (keepNew sampleFile
      (keepNew sampleFile [] (listedSamples (JsonObject.get stored "trainingSamples")))
      (listedSamples (carriedSamples stored incoming)))
    (listedSamples (JsonObject.get incoming "latestTrainingSamples"))

def reportsSamples (stored incoming : JsonObject) : Prop :=
  isSampleArray (carriedSamples stored incoming) ∨
    isSampleArray (JsonObject.get incoming "latestTrainingSamples")

instance : Decidable (reportsSamples stored incoming) := inferInstanceAs (Decidable (_ ∨ _))

theorem get_keepOmitted_of_not_mem {keys : List String} {key : String} (h : key ∉ keys) :
    JsonObject.get (keepOmitted stored keys incoming) key = JsonObject.get incoming key := by
  induction keys generalizing incoming with
  | nil => rfl
  | cons first rest ih =>
      obtain ⟨hne, hrest⟩ := List.ne_and_not_mem_of_not_mem_cons h
      simp only [keepOmitted, List.foldl_cons]
      split
      · exact ih hrest
      · split
        · exact ih hrest
        · rename_i value _
          exact (ih hrest).trans (JsonObject.get_insert_of_ne incoming value (Ne.symm hne))

theorem get_keepOmitted_singleton (key : String) :
    JsonObject.get (keepOmitted stored [key] incoming) key =
      (JsonObject.get incoming key).or (JsonObject.get stored key) := by
  cases hget : JsonObject.get incoming key with
  | some value => simp [keepOmitted, JsonObject.containsKey, hget]
  | none =>
      cases hstored : JsonObject.get stored key with
      | none => simp [keepOmitted, JsonObject.containsKey, hget, hstored]
      | some value => simp [keepOmitted, JsonObject.containsKey, hget, hstored]

theorem get_keepOmitted_samples :
    JsonObject.get (keepOmitted stored ["resumeCheckpointStep", "trainingSamples"] incoming)
      "trainingSamples" = carriedSamples stored incoming := by
  have hfirst : JsonObject.get (keepOmitted stored ["resumeCheckpointStep"] incoming)
      "trainingSamples" = JsonObject.get incoming "trainingSamples" :=
    get_keepOmitted_of_not_mem (by decide)
  rw [carriedSamples, ← hfirst]
  exact get_keepOmitted_singleton "trainingSamples"

def mergedSamples (stored incoming : JsonObject) : Option Json :=
  if reportsSamples stored incoming ∧ gatheredSamples stored incoming ≠ [] then
    some (.arr (gatheredSamples stored incoming))
  else carriedSamples stored incoming

theorem get_mergeTrainingSampleHistory :
    JsonObject.get (mergeTrainingSampleHistory policy stored incoming) "trainingSamples" =
      mergedSamples stored incoming := by
  have hlatest : JsonObject.get
      (keepOmitted stored ["resumeCheckpointStep", "trainingSamples"] incoming)
      "latestTrainingSamples" = JsonObject.get incoming "latestTrainingSamples" :=
    get_keepOmitted_of_not_mem (by decide)
  have hempty : SeenKeys policy ([], []) := by simp [SeenKeys]
  obtain ⟨hsamples, hseen⟩ :=
    appendTrainingSamples_spec hempty (JsonObject.get stored "trainingSamples")
  obtain ⟨hsamples1, hseen1⟩ :=
    appendTrainingSamples_spec hseen (carriedSamples stored incoming)
  obtain ⟨hsamples2, -⟩ :=
    appendTrainingSamples_spec hseen1 (JsonObject.get incoming "latestTrainingSamples")
  rw [hsamples1, hsamples] at hsamples2
  change _ = gatheredSamples stored incoming at hsamples2
  simp only [mergedSamples, mergeTrainingSampleHistory, getArray, get_keepOmitted_samples, hlatest,
    hsamples2]
  by_cases hreports : reportsSamples stored incoming
  · have hsome : ¬ (((carriedSamples stored incoming).bind Json.asArray).isNone &&
        ((JsonObject.get incoming "latestTrainingSamples").bind Json.asArray).isNone) = true := by
      rw [Bool.and_eq_true, not_and_or, Option.isNone_iff_eq_none, Option.isNone_iff_eq_none]
      exact hreports.imp Option.isSome_iff_ne_none.mp Option.isSome_iff_ne_none.mp
    rw [if_neg hsome]
    by_cases hnil : gatheredSamples stored incoming = []
    · rw [if_pos (by rw [hnil]; rfl), if_neg (fun h => h.2 hnil), get_keepOmitted_samples]
    · rw [if_neg (by simpa using hnil), if_pos ⟨hreports, hnil⟩, JsonObject.get_insert_self]
  · have hnone : ((carriedSamples stored incoming).bind Json.asArray).isNone = true ∧
        ((JsonObject.get incoming "latestTrainingSamples").bind Json.asArray).isNone = true := by
      simpa [reportsSamples, isSampleArray] using hreports
    rw [if_pos (by simpa using hnone), if_neg (fun h => hreports h.1), get_keepOmitted_samples]

variable (policy incoming) in
theorem get_mergeProgressResult (current : JobRow) :
    JsonObject.get (mergeProgressResult policy current incoming) "trainingSamples" =
      mergedSamples current.result incoming := by
  have hprovenance : modelProvenanceKey ≠ "trainingSamples" := by decide
  have haccumulated : "trainingSamples" ∉ progressResultAccumulationKeys := by decide
  have hmerged : JsonObject.get (JsonObject.remove (keepOmitted current.result
      progressResultAccumulationKeys (mergeTrainingSampleHistory policy current.result incoming))
      modelProvenanceKey) "trainingSamples" = mergedSamples current.result incoming := by
    rw [JsonObject.get_remove _ hprovenance, get_keepOmitted_of_not_mem haccumulated,
      get_mergeTrainingSampleHistory]
  simp only [mergeProgressResult]
  cases current.modelProvenance with
  | none => exact hmerged
  | some provenance => exact (JsonObject.get_insert_of_ne _ provenance hprovenance).trans hmerged

theorem listedSamples_of_not_array {value : Option Json} (h : ¬ isSampleArray value) :
    listedSamples value = [] := by
  rw [isSampleArray, Option.not_isSome_iff_eq_none] at h
  rw [listedSamples, h, Option.getD_none]

theorem eq_arr_of_isSampleArray {value : Option Json} (h : isSampleArray value) :
    value = some (.arr (listedSamples value)) := by
  cases value with
  | none => cases h
  | some json =>
      cases json with
      | arr items => rfl
      | _ => cases h

theorem gatheredSamples_eq : gatheredSamples stored incoming =
    keepNew sampleFile
      (keepNew sampleFile [] (listedSamples (JsonObject.get stored "trainingSamples")))
      (listedSamples (carriedSamples stored incoming) ++
        listedSamples (JsonObject.get incoming "latestTrainingSamples")) :=
  (keepNew_append _).symm

theorem distinct_gatheredSamples : Distinct sampleFile (gatheredSamples stored incoming) := by
  have hempty : Distinct sampleFile [] := List.nodup_nil
  exact distinct_keepNew (distinct_keepNew (distinct_keepNew hempty _) _) _

theorem gatheredSamples_eq_nil (h : gatheredSamples stored incoming = []) :
    listedSamples (carriedSamples stored incoming) = [] ∧
      listedSamples (JsonObject.get incoming "latestTrainingSamples") = [] := by
  rw [gatheredSamples_eq] at h
  exact List.append_eq_nil_iff.mp (keepNew_eq_nil_iff.mp h).2

theorem not_reports_listed (h : ¬ reportsSamples stored incoming) :
    listedSamples (carriedSamples stored incoming) = [] ∧
      listedSamples (JsonObject.get incoming "latestTrainingSamples") = [] := by
  rw [reportsSamples, not_or] at h
  exact ⟨listedSamples_of_not_array h.1, listedSamples_of_not_array h.2⟩

theorem listed_mergedSamples (h : reportsSamples stored incoming) :
    listedSamples (mergedSamples stored incoming) = gatheredSamples stored incoming := by
  by_cases hnil : gatheredSamples stored incoming = []
  · rw [mergedSamples, if_neg (fun hboth => hboth.2 hnil), hnil, (gatheredSamples_eq_nil hnil).1]
  · rw [mergedSamples, if_pos ⟨h, hnil⟩]
    rfl

/-- Every sample the merge takes from the report names a file. -/
def FilesNamed (stored incoming : JsonObject) : Prop :=
  ∀ sample ∈ listedSamples (carriedSamples stored incoming) ++
    listedSamples (JsonObject.get incoming "latestTrainingSamples"),
    (sampleFile sample).isSome = true

instance : Decidable (FilesNamed stored incoming) := List.decidableBAll _ _

theorem stored_first_iff :
    listedSamples (JsonObject.get stored "trainingSamples") <+:
        listedSamples (mergedSamples stored incoming) ↔
      Distinct sampleFile (listedSamples (JsonObject.get stored "trainingSamples")) ∧
        (listedSamples (JsonObject.get stored "trainingSamples") = [] ∨
          reportsSamples stored incoming) := by
  by_cases hreports : reportsSamples stored incoming
  · rw [listed_mergedSamples hreports, gatheredSamples_eq, prefix_keepNew_nil_iff]
    exact (and_iff_left (.inr hreports)).symm
  · rw [mergedSamples, if_neg (fun h => hreports h.1), (not_reports_listed hreports).1,
      List.prefix_nil]
    constructor
    · intro hnil
      rw [hnil]
      exact ⟨List.nodup_nil, .inl rfl⟩
    · exact fun h => h.2.resolve_right hreports

/-- What a second merge takes is what the samples it is given do not name by file. -/
theorem filesNamed_iff_held {gathered more : List Json}
    (hheld : ∀ sample ∈ more, ∀ file, sampleFile sample = some file →
      file ∈ keys sampleFile gathered) :
    keepNew sampleFile gathered more = gathered ↔
      ∀ sample ∈ more, (sampleFile sample).isSome = true := by
  rw [keepNew_eq_self_iff]
  refine forall₂_congr fun sample hsample => ?_
  rw [Option.isSome_iff_exists]
  constructor
  · rintro ⟨file, -, hfile⟩
    exact ⟨file, hfile⟩
  · rintro ⟨file, hfile⟩
    exact ⟨file, hheld sample hsample file hfile, hfile⟩

/-- Where the report omits the list, the gathered samples stand in for the stored ones:
those without a file are among them, and they hold no others. -/
theorem filesNamed_of_omitted (h : JsonObject.get incoming "trainingSamples" = none) :
    (∀ sample ∈ gatheredSamples stored incoming ++
        listedSamples (JsonObject.get incoming "latestTrainingSamples"),
        (sampleFile sample).isSome = true) ↔ FilesNamed stored incoming := by
  have hstored : carriedSamples stored incoming = JsonObject.get stored "trainingSamples" := by
    rw [carriedSamples, h, Option.none_or]
  constructor
  · intro hall sample hsample
    refine Option.isSome_iff_ne_none.mpr fun hnone => ?_
    have hkept : sample ∈ gatheredSamples stored incoming := by
      rw [gatheredSamples_eq]
      exact mem_keepNew_of_none hsample hnone
    have hsome := hall sample (List.mem_append_left _ hkept)
    rw [hnone] at hsome
    cases hsome
  · intro hall sample hsample
    rcases List.mem_append.mp hsample with hin | hin
    · rcases mem_keepNew (gatheredSamples_eq ▸ hin) with hkept | hmore
      · refine hall sample (List.mem_append_left _ ?_)
        rw [hstored]
        exact (mem_keepNew hkept).resolve_left List.not_mem_nil
      · exact hall sample hmore
    · exact hall sample (List.mem_append_right _ hin)

theorem merged_again_of_written {merged : JsonObject}
    (hmerged : JsonObject.get merged "trainingSamples" = mergedSamples stored incoming)
    (hwritten : reportsSamples stored incoming ∧ gatheredSamples stored incoming ≠ []) :
    mergedSamples merged incoming = mergedSamples stored incoming ↔
      FilesNamed stored incoming := by
  have hvalue : mergedSamples stored incoming =
      some (.arr (gatheredSamples stored incoming)) := if_pos hwritten
  rw [hvalue] at hmerged
  have hself : keepNew sampleFile [] (gatheredSamples stored incoming) =
      gatheredSamples stored incoming := keepNew_of_distinct distinct_gatheredSamples
  have hgathered : gatheredSamples merged incoming =
      keepNew sampleFile (gatheredSamples stored incoming)
        (listedSamples (carriedSamples merged incoming) ++
          listedSamples (JsonObject.get incoming "latestTrainingSamples")) := by
    rw [gatheredSamples_eq, hmerged]
    exact congrArg (fun kept => keepNew sampleFile kept _) hself
  have hlonger : gatheredSamples stored incoming <+: gatheredSamples merged incoming := by
    rw [hgathered]
    exact prefix_keepNew sampleFile _ _
  have hreports : reportsSamples merged incoming := by
    cases hincoming : JsonObject.get incoming "trainingSamples" with
    | none =>
        refine .inl ?_
        rw [carriedSamples, hincoming, hmerged]
        rfl
    | some value =>
        refine hwritten.1.imp_left fun h => ?_
        rw [carriedSamples, hincoming, Option.some_or] at h ⊢
        exact h
  have hagain : mergedSamples merged incoming = some (.arr (gatheredSamples merged incoming)) := by
    refine if_pos ⟨hreports, fun hnil => hwritten.2 ?_⟩
    rw [hnil] at hlonger
    exact List.prefix_nil.mp hlonger
  rw [hagain, hvalue, Option.some_inj, Json.arr.injEq, hgathered]
  cases hincoming : JsonObject.get incoming "trainingSamples" with
  | some value =>
      have hcarried : carriedSamples merged incoming = carriedSamples stored incoming := by
        rw [carriedSamples, carriedSamples, hincoming, Option.some_or, Option.some_or]
      rw [hcarried]
      refine filesNamed_iff_held fun sample hsample file hfile => ?_
      rw [gatheredSamples_eq]
      exact key_mem_keepNew hsample hfile
  | none =>
      -- The second merge carries what the first gathered, the stored samples among it.
      have hcarried : carriedSamples merged incoming =
          some (.arr (gatheredSamples stored incoming)) := by
        rw [carriedSamples, hincoming, Option.none_or, hmerged]
      rw [hcarried]
      refine (filesNamed_iff_held fun sample hsample file hfile => ?_).trans ?_
      · rcases List.mem_append.mp hsample with hin | hin
        · exact List.mem_filterMap.mpr ⟨sample, hin, hfile⟩
        · exact key_mem_keepNew hin hfile
      · exact filesNamed_of_omitted hincoming

/-- Merging the same report into its own outcome changes nothing exactly when every
sample it brings names a file. -/
theorem merged_again_iff {merged : JsonObject}
    (hmerged : JsonObject.get merged "trainingSamples" = mergedSamples stored incoming) :
    mergedSamples merged incoming = mergedSamples stored incoming ↔
      FilesNamed stored incoming := by
  by_cases hwritten : reportsSamples stored incoming ∧ gatheredSamples stored incoming ≠ []
  · exact merged_again_of_written hmerged hwritten
  · -- Nothing was gathered: the carried value stands, and it lists no sample.
    have hlisted : listedSamples (carriedSamples stored incoming) = [] ∧
        listedSamples (JsonObject.get incoming "latestTrainingSamples") = [] := by
      by_cases hreports : reportsSamples stored incoming
      · have hnil : gatheredSamples stored incoming = [] :=
          Classical.not_not.mp fun hne => hwritten ⟨hreports, hne⟩
        exact gatheredSamples_eq_nil hnil
      · exact not_reports_listed hreports
    have hvalue : mergedSamples stored incoming = carriedSamples stored incoming :=
      if_neg hwritten
    have hcarried : carriedSamples merged incoming = carriedSamples stored incoming := by
      rw [carriedSamples, hmerged, hvalue, carriedSamples]
      cases JsonObject.get incoming "trainingSamples" <;> rfl
    have hgathered : gatheredSamples merged incoming = [] := by
      rw [gatheredSamples, hmerged, hvalue, hcarried, hlisted.1, hlisted.2]
      rfl
    have hnamed : FilesNamed stored incoming := by
      rw [FilesNamed, hlisted.1, hlisted.2]
      exact fun sample hsample => absurd hsample List.not_mem_nil
    refine iff_of_true ?_ hnamed
    rw [mergedSamples, if_neg (fun h => h.2 hgathered), hcarried, hvalue]

theorem merged_untouched
    (hdistinct : Distinct sampleFile (listedSamples (JsonObject.get stored "trainingSamples")))
    (hnamed : FilesNamed stored incoming)
    (hsamples : JsonObject.get incoming "trainingSamples" = none)
    (hlatest : JsonObject.get incoming "latestTrainingSamples" = none) :
    mergedSamples stored incoming = JsonObject.get stored "trainingSamples" := by
  have hcarried : carriedSamples stored incoming = JsonObject.get stored "trainingSamples" := by
    rw [carriedSamples, hsamples, Option.none_or]
  by_cases hwritten : reportsSamples stored incoming ∧ gatheredSamples stored incoming ≠ []
  · have harray : isSampleArray (JsonObject.get stored "trainingSamples") := by
      rcases hwritten.1 with h | h
      · rwa [hcarried] at h
      · rw [hlatest] at h
        cases h
    have hself : gatheredSamples stored incoming =
        listedSamples (JsonObject.get stored "trainingSamples") := by
      have hstored : keepNew sampleFile [] (listedSamples (JsonObject.get stored
          "trainingSamples")) = _ := keepNew_of_distinct hdistinct
      rw [gatheredSamples_eq, hstored, hlatest, hcarried]
      refine (filesNamed_iff_held fun sample hsample file hfile => ?_).mpr ?_
      · exact List.mem_filterMap.mpr ⟨sample, by simpa [listedSamples] using hsample, hfile⟩
      · rwa [FilesNamed, hlatest, hcarried] at hnamed
    rw [mergedSamples, if_pos hwritten, hself, ← eq_arr_of_isSampleArray harray]
  · rw [mergedSamples, if_neg hwritten, hcarried]

end Merge

section History

variable (policy : RoutingPolicy)

/-- A merge that neither loses nor repeats samples. -/
structure KeepsSamples (current : JobRow) (incoming : JsonObject) : Prop where
  storedFirst : listedSamples (JsonObject.get current.result "trainingSamples") <+:
    listedSamples
      (JsonObject.get (mergeProgressResult policy current incoming) "trainingSamples")
  untouched : JsonObject.get incoming "trainingSamples" = none →
    JsonObject.get incoming "latestTrainingSamples" = none →
    JsonObject.get (mergeProgressResult policy current incoming) "trainingSamples" =
      JsonObject.get current.result "trainingSamples"
  again : JsonObject.get (mergeProgressResult policy
      { current with result := mergeProgressResult policy current incoming } incoming)
      "trainingSamples" =
    JsonObject.get (mergeProgressResult policy current incoming) "trainingSamples"

/-- A merge keeps the stored samples in front, leaves them alone when the report has
none, and is idempotent exactly when no two stored samples name one file, a report
over stored samples brings a list, and every sample it brings names a file. -/
theorem merge_keeps_samples_iff (current : JobRow) (incoming : JsonObject) :
    KeepsSamples policy current incoming ↔
      Distinct sampleFile (listedSamples (JsonObject.get current.result "trainingSamples")) ∧
        (listedSamples (JsonObject.get current.result "trainingSamples") = [] ∨
          reportsSamples current.result incoming) ∧
        FilesNamed current.result incoming := by
  have hmerged := get_mergeProgressResult policy incoming current
  have hagain := get_mergeProgressResult policy incoming
    { current with result := mergeProgressResult policy current incoming }
  constructor
  · intro h
    have hfirst := h.storedFirst
    rw [hmerged, stored_first_iff] at hfirst
    have hrepeat := h.again
    rw [hagain, hmerged, merged_again_iff hmerged] at hrepeat
    exact ⟨hfirst.1, hfirst.2, hrepeat⟩
  · rintro ⟨hdistinct, hlisted, hnamed⟩
    refine ⟨?_, fun hsamples hlatest => ?_, ?_⟩
    · rw [hmerged]
      exact stored_first_iff.mpr ⟨hdistinct, hlisted⟩
    · rw [hmerged]
      exact merged_untouched hdistinct hnamed hsamples hlatest
    · rw [hagain, hmerged]
      exact (merged_again_iff hmerged).mpr hnamed

/-- A running training job whose one stored sample has a step and no file. -/
def fileLessSampleJob : JobRow :=
  { (placeholderRequest none []).newRow emptyTables 0 "job" "auto" .running .running "" none 0 with
    result := [("trainingSamples", .arr [.obj [("step", .int 250)]])] }

/-- A report without any sample list doubles the stored sample. -/
theorem slim_tick_doubles_sample :
    JsonObject.get (mergeProgressResult emptyTables fileLessSampleJob []) "trainingSamples" =
        some (.arr [.obj [("step", .int 250)], .obj [("step", .int 250)]]) ∧
      ¬ KeepsSamples emptyTables fileLessSampleJob [] := by
  have hdoubled : JsonObject.get (mergeProgressResult emptyTables fileLessSampleJob [])
      "trainingSamples" = some (.arr [.obj [("step", .int 250)], .obj [("step", .int 250)]]) := by
    decide +kernel
  refine ⟨hdoubled, fun h => ?_⟩
  have hsame := h.untouched rfl rfl
  rw [hdoubled] at hsame
  cases hsame

end History

end SceneWorks.JobsStore
