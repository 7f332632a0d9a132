import UnitOfWork.Proofs.Text.Order
import UnitOfWork.Store.PhysicalKey
import UnitOfWork.Table.Naming

/-!
Physical keys of well-named rows: they hold two zero bytes, no other key is equal to them, they are
ordered as their row keys are, and those of one partition are a range.
-/

namespace UnitOfWork

theorem ValidKey.zero_notMem {key : String} (h : ValidKey key) : 0 ∉ Text.utf8 key := by
  intro hzero
  have hgood := List.all_eq_true.1 h.2.2 _ (Text.nul_mem_of_zero_mem_utf8 hzero)
  exact absurd hgood (by decide)

theorem ValidTableName.zero_notMem {table : String} (h : ValidTableName table) :
    0 ∉ Text.utf8 table := by
  intro hzero
  have hgood := List.all_eq_true.1 h.2.2.2 _ (Text.nul_mem_of_zero_mem_utf8 hzero)
  exact absurd hgood (by decide)

namespace PhysicalKey

theorem count_zero_encode (table partition row : String) :
    (encode table partition row).count 0 =
      (Text.utf8 table).count 0 + (Text.utf8 partition).count 0 + (Text.utf8 row).count 0 + 2 := by
  simp only [encode, partitionStart, List.append_assoc, List.cons_append, List.nil_append,
    List.count_append, List.count_cons_self]
  omega

theorem cut?_append {head : List UInt8} (h : 0 ∉ head) (tail : List UInt8) :
    cut? (head ++ 0 :: tail) = some (head, tail) := by
  induction head with
  | nil => rfl
  | cons b head ih =>
    obtain ⟨hb, hhead⟩ := List.ne_and_not_mem_of_not_mem_cons h
    rw [List.cons_append, cut?, if_neg (Ne.symm hb), ih hhead]
    rfl

/-- Decoding undoes encoding; the row key may hold anything. -/
theorem decode?_encode {table partition : String} (ht : 0 ∉ Text.utf8 table)
    (hp : 0 ∉ Text.utf8 partition) (row : String) :
    decode? (encode table partition row) = some (table, partition, row) := by
  simp [decode?, encode, partitionStart, cut?_append ht, cut?_append hp, Text.ofUtf8?_utf8]

theorem encode_row_injective (table partition : String) :
    Function.Injective (encode table partition) := fun _ _ h =>
  Text.utf8_injective (List.append_cancel_left h)

/-- A key without further zero bytes tells where its row stands. -/
theorem encode_inj {t p r table partition row : String} (ht : 0 ∉ Text.utf8 table)
    (hp : 0 ∉ Text.utf8 partition) (hr : 0 ∉ Text.utf8 row)
    (h : encode t p r = encode table partition row) : t = table ∧ p = partition ∧ r = row := by
  have hcount := congrArg (List.count 0) h
  rw [count_zero_encode, count_zero_encode, List.count_eq_zero.2 ht, List.count_eq_zero.2 hp,
    List.count_eq_zero.2 hr] at hcount
  have ht' : 0 ∉ Text.utf8 t := List.count_eq_zero.1 (by omega)
  have hp' : 0 ∉ Text.utf8 p := List.count_eq_zero.1 (by omega)
  have hdecode := congrArg decode? h
  rw [decode?_encode ht' hp', decode?_encode ht hp] at hdecode
  simpa using hdecode

/-- The keys of a partition are ordered as the row keys are. -/
theorem compare_encode (table partition a b : String) :
    compare (encode table partition a) (encode table partition b) = compare a b := by
  rw [encode, encode, Text.compare_append_left, Text.compare_utf8]

/-- What lies between two byte strings that differ in their last byte, by one, has the first one at
its front. -/
private theorem between_iff {l key : List UInt8} :
    (compare (l ++ [0]) key).isLE = true ∧ compare key (l ++ [1]) = .lt ↔
      ∃ rest, key = l ++ 0 :: rest := by
  induction l generalizing key with
  | nil =>
    cases key with
    | nil => simp
    | cons b rest =>
      have hlow : (compare [0] (b :: rest)).isLE = true := by
        have hzero : (compare (0 : UInt8) b).isLE = true := Std.isLE_compare.2 UInt8.zero_le
        rw [List.compare_cons_cons, Ordering.isLE_then_iff_and]
        exact ⟨hzero, .inr (by cases rest <;> rfl)⟩
      have hhigh : compare (b :: rest) [1] = .lt ↔ b = 0 := by
        have hnil : compare rest [] ≠ .lt := by cases rest <;> simp
        rw [List.compare_cons_cons, Ordering.then_eq_lt, Std.compare_eq_lt]
        simp [hnil, UInt8.lt_one_iff]
      rw [List.nil_append, List.nil_append, and_iff_right hlow, hhigh]
      simp
  | cons a l ih =>
    cases key with
    | nil => simp
    | cons b key =>
      simp only [List.cons_append, List.compare_cons_cons, List.cons.injEq]
      cases hab : compare a b with
      | lt =>
        have hba : compare b a = .gt := Std.OrientedCmp.gt_of_lt hab
        have hne : b ≠ a := by
          rintro rfl
          simp at hab
        simp [hba, hne]
      | eq =>
        obtain rfl : a = b := Std.LawfulEqOrd.eq_of_compare hab
        simpa [hab] using @ih key
      | gt =>
        have hne : b ≠ a := by
          rintro rfl
          simp at hab
        simp [hne]

/-- The keys in a partition's range are those that begin as all its keys do. -/
theorem inPartition_iff {table partition : String} {key : List UInt8} :
    inPartition table partition key = true ↔
      ∃ rest, key = partitionStart table partition ++ rest := by
  have hbetween := @between_iff (Text.utf8 table ++ 0 :: Text.utf8 partition) key
  rw [inPartition, Bool.and_eq_true, decide_eq_true_eq, partitionStart, partitionEnd, hbetween]
  simp

/-- No row of another partition is in the range, whatever its row key holds. -/
theorem inPartition_encode_iff {t p table partition : String} (ht : 0 ∉ Text.utf8 t)
    (hp : 0 ∉ Text.utf8 p) (htable : 0 ∉ Text.utf8 table) (hpartition : 0 ∉ Text.utf8 partition)
    (r : String) :
    inPartition table partition (encode t p r) = true ↔ t = table ∧ p = partition := by
  rw [inPartition_iff]
  constructor
  · rintro ⟨rest, h⟩
    simp only [encode, partitionStart, List.append_assoc, List.cons_append, List.nil_append] at h
    have hcut := congrArg cut? h
    rw [cut?_append ht, cut?_append htable] at hcut
    obtain ⟨hfirst, hrest⟩ := Prod.mk.inj (Option.some.inj hcut)
    have hcut' := congrArg cut? hrest
    rw [cut?_append hp, cut?_append hpartition] at hcut'
    exact ⟨Text.utf8_injective hfirst,
      Text.utf8_injective (Prod.mk.inj (Option.some.inj hcut')).1⟩
  · rintro ⟨rfl, rfl⟩
    exact ⟨Text.utf8 r, rfl⟩

/-- No well-named row of another partition is in the range, whatever partition is asked for. -/
theorem inPartition_encode {t p r table partition : String} (ht : 0 ∉ Text.utf8 t)
    (hp : 0 ∉ Text.utf8 p) (hr : 0 ∉ Text.utf8 r) :
    inPartition table partition (encode t p r) = true ↔ t = table ∧ p = partition := by
  constructor
  · intro h
    obtain ⟨rest, hrest⟩ := inPartition_iff.1 h
    have hcount := congrArg (List.count 0) hrest
    rw [count_zero_encode, List.count_eq_zero.2 ht, List.count_eq_zero.2 hp,
      List.count_eq_zero.2 hr, List.count_append, partitionStart, List.append_assoc,
      List.cons_append, List.count_append, List.count_cons_self, List.count_append,
      List.count_singleton_self] at hcount
    have htable : 0 ∉ Text.utf8 table := List.count_eq_zero.1 (by omega)
    have hpartition : 0 ∉ Text.utf8 partition := List.count_eq_zero.1 (by omega)
    exact (inPartition_encode_iff ht hp htable hpartition r).1 h
  · rintro ⟨rfl, rfl⟩
    exact (inPartition_encode_iff ht hp ht hp r).2 ⟨rfl, rfl⟩

end PhysicalKey

end UnitOfWork
