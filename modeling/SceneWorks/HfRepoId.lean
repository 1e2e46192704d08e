import SceneWorks.Library.Text

/-!
The grammar of Hugging Face repository ids: a name, or a namespace and a name. Sharing and stored
provenance ask for the namespace.
-/

namespace SceneWorks.HfRepoId

def isComponent (part : String) : Bool :=
  let chars := part.toList
  chars ≠ [] && !(chars.head?.any ['-', '.'].contains) &&
    !(chars.getLast?.any ['-', '.'].contains) && !(Text.containsText "--" part) &&
    !(Text.containsText ".." part) &&
    chars.all fun c => Text.isAsciiAlphanumeric c || ['_', '-', '.'].contains c

def parse (value : String) : Except String String :=
  let value := Text.trim value
  let parts := Text.splitOn '/' value
  if !(parts.all isComponent) then
    .error ("Hugging Face repo components must contain letters, numbers, `.`, `_`, or `-`, " ++
      "without leading/trailing dots or dashes, `..`, or `--`")
  else if 2 < parts.length then .error "Hugging Face repo must be `name` or `namespace/name`"
  else .ok value

def namespaced (value : String) : Except String String := do
  let value ← parse value
  if value.toList.contains '/' then .ok value
  else .error "Hugging Face repo must be in owner/name form"

theorem parse_trim (value : String) : parse (Text.trim value) = parse value := by
  simp only [parse, Text.trim_trim]

theorem parse_ok {value repo : String} (h : parse value = .ok repo) : repo = Text.trim value := by
  simp only [parse] at h
  split at h
  · cases h
  · split at h
    · cases h
    · exact (Except.ok.inj h).symm

theorem parse_parts {value repo : String} (h : parse value = .ok repo) :
    (∀ part ∈ Text.splitOn '/' repo, isComponent part = true) ∧
      (Text.splitOn '/' repo).length ≤ 2 := by
  simp only [parse] at h
  split at h
  case isTrue => cases h
  case isFalse hparts =>
    split at h
    case isTrue => cases h
    case isFalse hlength =>
      obtain rfl := Except.ok.inj h
      simp only [Bool.not_eq_true', Bool.not_eq_false, List.all_eq_true] at hparts
      exact ⟨hparts, not_lt.mp hlength⟩

end SceneWorks.HfRepoId
