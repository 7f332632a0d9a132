import Mathlib.Algebra.Group.Int.Defs
import Mathlib.Algebra.Group.Nat.Defs
import UnitOfWork.RowFormat.Integer

/-! Reading a number undoes writing it, and the count of its bytes is known beforehand. -/

namespace UnitOfWork.RowFormat

theorem length_littleEndian (count n : Nat) : (littleEndian count n).length = count := by
  induction count generalizing n with
  | zero => rfl
  | succ count ih => simp [littleEndian, ih]

theorem length_encodeNat (n : Nat) : (encodeNat n).length = natSize n := by
  unfold encodeNat natSize
  split
  · rfl
  split
  · simp [length_littleEndian]
  split <;> simp [length_littleEndian]

theorem ofLittleEndian_littleEndian {count n : Nat} (h : n < 256 ^ count) :
    ofLittleEndian (littleEndian count n) = n := by
  induction count generalizing n with
  | zero => simp at h; subst h; rfl
  | succ count ih =>
    have hdiv : n / 256 < 256 ^ count := Nat.div_lt_of_lt_mul (by rwa [Nat.pow_succ'] at h)
    have := ih hdiv
    simp only [ofLittleEndian] at this
    simp [ofLittleEndian, littleEndian, this, UInt8.toNat_ofNat']
    omega

theorem takeBytes_append (bytes rest : List UInt8) :
    takeBytes bytes.length (bytes ++ rest) = some (bytes, rest) := by simp [takeBytes]

theorem takeField_littleEndian {count n : Nat} (h : n < 256 ^ count) (rest : List UInt8) :
    takeField count (littleEndian count n ++ rest) = some (n, rest) := by
  have := takeBytes_append (littleEndian count n) rest
  rw [length_littleEndian] at this
  simp [takeField, this, ofLittleEndian_littleEndian h]

/-- Reading undoes writing for every number that fits into the width. -/
theorem decodeNat_encodeNat {width n : Nat} (h : n < 256 ^ width) (hw : width = 4 ∨ width = 8)
    (rest : List UInt8) : decodeNat width (encodeNat n ++ rest) = some (n, rest) := by
  unfold encodeNat
  split
  · have : UInt8.ofNat n ≤ 250 := by
      rw [UInt8.le_iff_toNat_le, UInt8.toNat_ofNat']
      simp
      omega
    simp [decodeNat, this, UInt8.toNat_ofNat']
    omega
  split
  · have : 2 ≤ width := by omega
    simp [decodeNat, this, @takeField_littleEndian 2 n (by omega)]
  split
  · have : 4 ≤ width := by omega
    simp [decodeNat, this, @takeField_littleEndian 4 n (by omega)]
  · have hw : width = 8 := by
      rcases hw with rfl | rfl
      · omega
      · rfl
    subst hw
    simp [decodeNat, @takeField_littleEndian 8 n h]

theorem unzigzag_zigzag (n : Int) : unzigzag (zigzag n) = n := by
  unfold unzigzag zigzag
  split <;> split <;> omega

end UnitOfWork.RowFormat
