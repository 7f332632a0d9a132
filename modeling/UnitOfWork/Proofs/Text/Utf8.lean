import Mathlib.Algebra.GroupWithZero.Nat
import UnitOfWork.Text.Utf8

/-! The bytes of a text, character by character. -/

namespace UnitOfWork.Text

theorem utf8_eq_flatMap (s : String) : utf8 s = s.toList.flatMap String.utf8EncodeChar := by
  have h : s.toByteArray = s.toList.utf8Encode := by
    conv => lhs; rw [← String.ofList_toList (s := s)]
    exact String.toByteArray_ofList
  rw [utf8, h, List.utf8Encode, List.data_toByteArray]

theorem utf8ByteSize_ofList (cs : List Char) :
    (String.ofList cs).utf8ByteSize = (cs.map Char.utf8Size).sum := by
  rw [← length_utf8, utf8_eq_flatMap, String.toList_ofList, List.length_flatMap]
  simp

private theorem ofNat_ne_zero {n : Nat} (h : 0 < n % 256) : (0 : UInt8) ≠ UInt8.ofNat n := by
  intro he
  have := congrArg UInt8.toNat he
  simp only [UInt8.toNat_zero, UInt8.toNat_ofNat'] at this
  omega

private theorem eq_nul_of_zero_mem {c : Char} (h : 0 ∈ String.utf8EncodeChar c) : c = '\x00' := by
  have hc : c.val.toNat = 0 := by
    unfold String.utf8EncodeChar at h
    dsimp only at h
    split at h
    · by_cases hz : c.val.toNat = 0
      · exact hz
      · exact absurd (List.mem_singleton.1 h) (ofNat_ne_zero (by omega))
    split at h
    · simp only [List.mem_cons, List.not_mem_nil, or_false] at h
      rcases h with h | h <;> exact absurd h (ofNat_ne_zero (by omega))
    split at h
    · simp only [List.mem_cons, List.not_mem_nil, or_false] at h
      rcases h with h | h | h <;> exact absurd h (ofNat_ne_zero (by omega))
    · simp only [List.mem_cons, List.not_mem_nil, or_false] at h
      rcases h with h | h | h | h <;> exact absurd h (ofNat_ne_zero (by omega))
  exact Char.ext (UInt32.toNat_inj.1 hc)

/-- Only the character NUL gives a zero byte. -/
theorem nul_mem_of_zero_mem_utf8 {s : String} (h : 0 ∈ utf8 s) : '\x00' ∈ s.toList := by
  rw [utf8_eq_flatMap, List.mem_flatMap] at h
  obtain ⟨c, hc, hzero⟩ := h
  exact eq_nul_of_zero_mem hzero ▸ hc

theorem zero_mem_utf8_iff {s : String} : 0 ∈ utf8 s ↔ '\x00' ∈ s.toList := by
  constructor
  · exact nul_mem_of_zero_mem_utf8
  · intro h
    rw [utf8_eq_flatMap, List.mem_flatMap]
    exact ⟨'\x00', h, by decide⟩

/-- The bytes are those of some characters, one after the other. -/
def IsUtf8 (bytes : List UInt8) : Prop :=
  ∃ cs : List Char, cs.flatMap String.utf8EncodeChar = bytes

theorem isUtf8_iff {bytes : List UInt8} : IsUtf8 bytes ↔ ∃ s, ofUtf8? bytes = some s := by
  constructor
  · rintro ⟨cs, rfl⟩
    have hcs : utf8 (String.ofList cs) = cs.flatMap String.utf8EncodeChar := by
      rw [utf8_eq_flatMap, String.toList_ofList]
    rw [← hcs]
    exact ⟨String.ofList cs, ofUtf8?_utf8 _⟩
  · intro ⟨s, hs⟩
    rw [← utf8_of_ofUtf8? hs]
    exact ⟨s.toList, (utf8_eq_flatMap s).symm⟩

end UnitOfWork.Text
