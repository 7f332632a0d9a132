import UnitOfWork.Batch.Operation
import UnitOfWork.Proofs.RowFormat.Integer
import UnitOfWork.Proofs.SortedMap.Count

/-!
The sizes of stored forms, which are told without writing them, and of two property sets put
together.
-/

namespace UnitOfWork

open RowFormat

namespace RowFormat

theorem length_encodeBytes (bytes : List UInt8) :
    (encodeBytes bytes).length = bytesSize bytes.length := by
  unfold encodeBytes bytesSize
  rw [List.length_append, length_encodeNat]

@[simp] theorem length_encodeText (s : String) : (encodeText s).length = textSize s := by
  unfold encodeText textSize
  rw [length_encodeBytes, Text.length_utf8]

theorem natSize_pos (n : Nat) : 1 ≤ natSize n := by
  unfold natSize
  split
  · omega
  split
  · omega
  split <;> omega

theorem textSize_pos (s : String) : 1 ≤ textSize s := by
  have hlength := natSize_pos s.utf8ByteSize
  unfold textSize bytesSize
  omega

/-- Doubling a number makes its field one step wider at most. -/
theorem natSize_le_of_le_two_mul {m n : Nat} (h : n ≤ 2 * m) : natSize n ≤ natSize m + 4 := by
  by_cases hwide : n ≤ 0xffffffff
  · have hm : 1 ≤ natSize m := natSize_pos m
    have hn : natSize n ≤ 5 := by
      unfold natSize
      rw [if_pos hwide]
      split
      · omega
      split <;> omega
    omega
  · have hm : 5 ≤ natSize m := by
      unfold natSize
      rw [if_neg (by omega), if_neg (by omega)]
      split <;> omega
    have hn : natSize n = 9 := by
      unfold natSize
      rw [if_neg (by omega), if_neg (by omega), if_neg hwide]
    omega

/-- A sum may take a wider field than both its terms, by three bytes more than theirs together. -/
theorem natSize_le_of_le_add {total m n : Nat} (h : total ≤ m + n) :
    natSize total ≤ natSize m + natSize n + 3 := by
  have hm := natSize_pos m
  have hn := natSize_pos n
  have hhalf : total ≤ 2 * m ∨ total ≤ 2 * n := by omega
  rcases hhalf with hhalf | hhalf
  · have hfield := natSize_le_of_le_two_mul hhalf
    omega
  · have hfield := natSize_le_of_le_two_mul hhalf
    omega

end RowFormat

@[simp] theorem Value.length_encode (v : Value) : v.encode.length = v.size := by
  unfold Value.encode Value.size
  cases v with
  | text s => simp [length_encodeNat, natSize]
  | int32 n | int64 n => simp [length_encodeNat, natSize]
  | double d => simp [length_encodeNat, natSize, length_littleEndian]
  | bool b => simp [length_encodeNat, natSize]
  | binary bytes => simp [length_encodeNat, natSize, length_encodeBytes]

namespace Properties

/-- The count of bytes of a name and its value. -/
def entrySize (entry : String × Value) : Nat := textSize entry.1 + entry.2.size

theorem size_eq (p : Properties) :
    Properties.size p = natSize p.entries.length + (p.entries.map entrySize).sum := rfl

@[simp] theorem length_encode (p : Properties) : (encode p).length = Properties.size p := by
  have hentry : ∀ entry : String × Value,
      (encodeText entry.1 ++ entry.2.encode).length = entrySize entry := by
    intro entry
    simp [entrySize]
  unfold encode
  rw [List.length_append, length_encodeNat, List.length_flatMap, size_eq]
  simp only [hentry]

/-- Put together, property sets take no more bytes than apart, but for a wider count. -/
theorem size_override_le (p q : Properties) :
    Properties.size (p.override q) ≤ Properties.size p + Properties.size q + 3 := by
  have hcount : natSize (p.override q).entries.length ≤
      natSize p.entries.length + natSize q.entries.length + 3 :=
    natSize_le_of_le_add (SortedMap.length_override_le p q)
  have hentries := SortedMap.sum_override_le entrySize p q
  rw [size_eq, size_eq, size_eq]
  omega

end Properties

/-- The size that limits are about is that of the stored form. -/
theorem BatchOp.length_encode (op : BatchOp) : op.encode.length = op.payloadSize := by
  unfold BatchOp.encode BatchOp.payloadSize
  cases op <;> simp [length_encodeNat, natSize, Nat.add_assoc]

end UnitOfWork
