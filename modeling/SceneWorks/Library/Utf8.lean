import Mathlib.Algebra.GroupWithZero.Nat
import Mathlib.Data.String.Basic

/-!
Texts as byte strings.
-/

namespace Utf8

def bytes (text : String) : List UInt8 := text.toByteArray.data.toList

def decode (payload : List UInt8) : Option String := String.fromUTF8? ⟨payload.toArray⟩

theorem decode_bytes (text : String) : decode (bytes text) = some text := by
  rw [decode, bytes, Array.toArray_toList]
  exact dif_pos text.isValidUTF8

theorem bytes_append (front back : String) : bytes (front ++ back) = bytes front ++ bytes back := by
  rw [bytes, String.toByteArray_append, ByteArray.data_append, Array.toList_append]
  rfl

theorem length_bytes (text : String) : (bytes text).length = text.utf8ByteSize := rfl

theorem utf8ByteSize_ofList (chars : List Char) :
    (String.ofList chars).utf8ByteSize = (chars.map Char.utf8Size).sum := by
  induction chars with
  | nil => rfl
  | cons c chars ih =>
      have hsplit : String.ofList (c :: chars) = String.singleton c ++ String.ofList chars := by
        rw [← String.toList_inj]
        simp
      rw [hsplit, String.utf8ByteSize_append, ih, List.map_cons, List.sum_cons,
        String.utf8ByteSize_singleton]

/-- No character takes more than four bytes. -/
theorem length_bytes_le (text : String) : (bytes text).length ≤ 4 * text.toList.length := by
  have hsum : ∀ chars : List Char, (chars.map Char.utf8Size).sum ≤ 4 * chars.length := by
    intro chars
    induction chars with
    | nil => exact Nat.le_refl _
    | cons c chars ih =>
        have hc := Char.utf8Size_le_four c
        rw [List.map_cons, List.sum_cons, List.length_cons]
        omega
  have hsize := utf8ByteSize_ofList text.toList
  rw [String.ofList_toList] at hsize
  rw [length_bytes, hsize]
  exact hsum text.toList

theorem bytes_spaces (n : Nat) :
    bytes (String.ofList (List.replicate n ' ')) = List.replicate n 0x20 := by
  induction n with
  | zero => rfl
  | succ n ih =>
      have hsplit : String.ofList (List.replicate (n + 1) ' ') =
          " " ++ String.ofList (List.replicate n ' ') := by
        rw [← String.toList_inj]
        simp [List.replicate_succ]
      rw [hsplit, bytes_append, ih, List.replicate_succ]
      rfl

end Utf8
