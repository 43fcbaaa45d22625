import Mathlib.Data.List.Basic
/-!
# Strings as bytes

What a string is written as, and read back from: its UTF-8 bytes. Strings
one after the other are bytes one after the other, and those of an ASCII
string are the codes of its characters.
-/

namespace Keel

theorem length_toUTF8 (s : String) : s.toUTF8.data.toList.length = s.utf8ByteSize := by
  rw [Array.length_toList, String.toUTF8_eq_toByteArray]
  rfl

/-- What a string is written as is the string. -/
theorem fromUTF8?_toUTF8 (s : String) :
    String.fromUTF8? ⟨s.toUTF8.data.toList.toArray⟩ = some s := by
  unfold String.fromUTF8?
  rw [Array.toArray_toList, String.toUTF8_eq_toByteArray, dif_pos s.isValidUTF8]
  rfl

theorem toUTF8_append (s t : String) :
    (s ++ t).toUTF8.data.toList = s.toUTF8.data.toList ++ t.toUTF8.data.toList := by
  simp only [String.toUTF8_eq_toByteArray, String.toByteArray_append, ByteArray.data_append,
    Array.toList_append]

theorem toUTF8_ofList (cs : List Char) :
    (String.ofList cs).toUTF8.data.toList = cs.flatMap String.utf8EncodeChar := by
  rw [String.toUTF8_eq_toByteArray, String.toByteArray_ofList, List.utf8Encode,
    List.data_toByteArray, List.toList_toArray]

/-- The code of an ASCII character is its only byte. -/
theorem utf8EncodeChar_of_ascii {c : Char} (h : c.toNat < 128) :
    String.utf8EncodeChar c = [UInt8.ofNat c.toNat] := by
  unfold String.utf8EncodeChar
  exact if_pos (Nat.le_of_lt_succ h)

/-- **The bytes of an ASCII string** are the codes of its characters. -/
theorem toUTF8_of_ascii {s : String} (h : ∀ c ∈ s.toList, c.toNat < 128) :
    s.toUTF8.data.toList = s.toList.map fun c => UInt8.ofNat c.toNat := by
  rw [← String.ofList_toList (s := s), toUTF8_ofList, String.toList_ofList]
  generalize s.toList = cs at h
  induction cs with
  | nil => rfl
  | cons c cs ih =>
    rw [List.flatMap_cons, utf8EncodeChar_of_ascii (h c List.mem_cons_self),
      ih fun d hd => h d (List.mem_cons_of_mem c hd)]
    rfl

/-- Every byte of an ASCII string is the code of one of its characters. -/
theorem mem_toUTF8_of_ascii {s : String} {b : UInt8} (h : ∀ c ∈ s.toList, c.toNat < 128)
    (hb : b ∈ s.toUTF8.data.toList) : ∃ c ∈ s.toList, b.toNat = c.toNat := by
  rw [toUTF8_of_ascii h] at hb
  obtain ⟨c, hc, rfl⟩ := List.mem_map.1 hb
  have hlt := h c hc
  refine ⟨c, hc, ?_⟩
  rw [UInt8.toNat_ofNat']
  omega

end Keel
