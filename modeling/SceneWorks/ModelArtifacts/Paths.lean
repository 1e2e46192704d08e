import Mathlib.Data.List.Lex
import Mathlib.Data.Prod.Lex
import Mathlib.Data.String.Basic
import SceneWorks.Library.Fallible
import SceneWorks.Library.Text

/-!
Relative paths as the artifact contract reads them. A path is the list of its components, which is
all that `PathBuf` compares; how it was spelled is seen by no rule but the emptiness of the text,
and an empty text is the one without components. Every name is text.
-/

namespace SceneWorks.ModelArtifacts

/-- A component of a path where the separator is a slash. -/
inductive Component where
  | rootDir
  | curDir
  | parentDir
  | normal (name : String)
  deriving DecidableEq, Inhabited

abbrev Path := List Component

def Component.text : Component → String
  | .rootDir => ""
  | .curDir => "."
  | .parentDir => ".."
  | .normal name => name

def Path.text (path : Path) : String := "/".intercalate (path.map Component.text)

/-- `Ord` of a component: the special ones first, names by their text. -/
def Component.key : Component → ℕ ×ₗ String
  | .rootDir => toLex (0, "")
  | .curDir => toLex (1, "")
  | .parentDir => toLex (2, "")
  | .normal name => toLex (3, name)

def Path.key (path : Path) : List (ℕ ×ₗ String) := path.map Component.key

/-- `Path::join`. -/
def Path.join (base rel : Path) : Path :=
  match rel with
  | .rootDir :: _ => rel
  | .curDir :: rest => if base = [] then rel else base ++ rest
  | _ => base ++ rel

/-- `portable_relative_path_parts`; a part that is pushed is not empty, so neither is the result. -/
def portableRelativePathParts (text : String) : Except String (List String) :=
  if Text.trim text = "" then .error "empty"
  else if text.toList.contains '\\' then .error "must use '/' separators"
  else if text.toList.contains ':' then .error "must not contain ':'"
  else if text.toList.any fun c => c.toNat < 32 || c.toNat = 127 then
    .error "must not contain control characters"
  else if text.toList.head? = some '/' then .error "must be relative"
  else
    let parts := Text.splitOn '/' text
    match parts.find? fun part => part = "" || part = "." || part = ".." with
    | some "" => .error "empty path component"
    | some "." => .error "contains '.'"
    | some _ => .error "contains '..'"
    | none => .ok parts

def normalName : Component → Except String String
  | .normal name => .ok name
  | _ => .error "must contain only normal relative components"

def pathNormalComponents (path : Path) : Except String (List String) := do
  let names ← path.mapM normalName
  portableRelativePathParts ("/".intercalate names)

section Facts

theorem Component.key_injective : Function.Injective Component.key := by
  intro a b h
  have hpair : ofLex a.key = ofLex b.key := congrArg ofLex h
  cases a <;> cases b <;> simp_all [Component.key]

theorem Path.key_injective : Function.Injective Path.key := by
  intro a b h
  exact List.map_injective_iff.mpr Component.key_injective h

/-- A path of normal components. -/
def Path.Normal (path : Path) : Prop := ∀ component ∈ path, ∃ name, component = .normal name

theorem Path.normal_of_mapM {path : Path} {names : List String}
    (h : path.mapM normalName = .ok names) : path.Normal := by
  induction path generalizing names with
  | nil => exact fun component hmem => absurd hmem List.not_mem_nil
  | cons component path ih =>
      rw [List.mapM_cons] at h
      obtain ⟨name, hname, hrest⟩ := Fallible.bind_eq_ok.mp h
      obtain ⟨rest, hpath, -⟩ := Fallible.bind_eq_ok.mp hrest
      intro other hmem
      rcases List.mem_cons.mp hmem with rfl | hmem
      · cases other with
        | normal name => exact ⟨name, rfl⟩
        | _ => exact absurd hname nofun
      · exact ih hpath other hmem

theorem Path.join_of_normal (base : Path) {rel : Path} (h : rel.Normal) :
    base.join rel = base ++ rel := by
  cases rel with
  | nil => rfl
  | cons component rel =>
      obtain ⟨name, rfl⟩ := h _ (List.mem_cons_self ..)
      rfl

/-- A longer path is spelled with a slash after the shorter one. -/
theorem Path.text_append {front rest : Path} (hfront : front ≠ []) (hrest : rest ≠ []) :
    Path.text (front ++ rest) = front.text ++ "/" ++ rest.text := by
  unfold Path.text
  rw [List.map_append]
  exact String.intercalate_append_of_ne_nil (mt List.map_eq_nil_iff.mp hfront)
    (mt List.map_eq_nil_iff.mp hrest)

end Facts

end SceneWorks.ModelArtifacts
