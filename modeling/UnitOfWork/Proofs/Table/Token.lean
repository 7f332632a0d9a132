import UnitOfWork.Proofs.Text.Hex
import UnitOfWork.Table.Token

/-!
The tokens that stores stamp: no two versions share one, those of later versions come later in the
order of bytes, and all are of one size.
-/

namespace UnitOfWork.Token

theorem ofVersion_injective {v w : UInt64} (h : ofVersion v = ofVersion w) : v = w := by
  have htext := congrArg (String.toList ∘ text) h
  simp only [Function.comp_apply, ofVersion, String.toList_append, String.toList_ofList,
    List.append_cancel_left_eq, List.append_cancel_right_eq] at htext
  exact UInt64.toNat_inj.1 (Hex.digits_injective v.toNat_lt w.toNat_lt htext)

/-- A later version stamps a later token. -/
theorem utf8_ofVersion_lt_iff {v w : UInt64} :
    Text.utf8 (ofVersion v).text < Text.utf8 (ofVersion w).text ↔ v < w := by
  have hdigits : Hex.digits 16 v.toNat < Hex.digits 16 w.toNat ↔ v.toNat < w.toNat :=
    Hex.digits_lt_digits_iff v.toNat_lt w.toNat_lt
  rw [Text.utf8_lt_utf8_iff, UInt64.lt_iff_toNat_lt, ← hdigits]
  simp only [ofVersion, String.toList_append, String.toList_ofList]
  -- only the digits differ, between fronts and ends of one length
  rw [Text.append_lt_append_iff (by simp), Text.append_lt_append_iff rfl]
  simp

/-- Stamped tokens are all of one size. -/
theorem utf8ByteSize_ofVersion (version : UInt64) : (ofVersion version).text.utf8ByteSize = 20 := by
  have hdigits : (String.ofList (Hex.digits 16 version.toNat)).utf8ByteSize = 16 := by
    rw [Hex.utf8ByteSize_ofList Hex.isDigit_of_mem_digits, Hex.length_digits]
  rw [ofVersion, String.utf8ByteSize_append, String.utf8ByteSize_append, hdigits]
  rfl

theorem isBlank_ofVersion (version : UInt64) : (ofVersion version).isBlank = false := by
  have hfirst : Text.isBlankChar 'W' = false := by decide
  simp [isBlank, Text.isBlank, ofVersion, hfirst]

end UnitOfWork.Token
