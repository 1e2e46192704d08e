import SceneWorks.Library.Text

/-!
Portable identifiers of files and routes. The limits belong to the domains.
-/

namespace SceneWorks.Ids

def isIdChar (c : Char) : Bool := c.isAlphanum || c == '_' || c == '-'

def isSafeIdWithMax (id : String) (max : Nat) : Bool :=
  id.toList ≠ [] && id.toList.length ≤ max && id.toList.all isIdChar

/-- Ids a plan may use: 1 to 64 characters of `[A-Za-z0-9_-]`. -/
def isSafePlanId (id : String) : Bool := isSafeIdWithMax id 64

theorem notMem_of_isSafePlanId {id : String} {c : Char} (h : isSafePlanId id = true)
    (hc : isIdChar c = false) : c ∉ id.toList := by
  intro hmem
  simp only [isSafePlanId, isSafeIdWithMax, Bool.and_eq_true, List.all_eq_true] at h
  have hsafe := h.2 c hmem
  rw [hc] at hsafe
  cases hsafe

end SceneWorks.Ids
