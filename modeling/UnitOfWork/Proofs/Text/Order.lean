import UnitOfWork.Proofs.Text.Utf8

/-! The order of texts is the order of their bytes. -/

namespace UnitOfWork.Text

/-- Fronts of one length are compared before what follows them. -/
theorem append_lt_append_iff {α : Type} [LT α] {l l' x y : List α} (h : l.length = l'.length) :
    l ++ x < l' ++ y ↔ l < l' ∨ l = l' ∧ x < y := by
  induction l generalizing l' with
  | nil =>
    cases l' with
    | nil => simp
    | cons => cases h
  | cons a l ih =>
    cases l' with
    | nil => cases h
    | cons b l' =>
      rw [List.cons_append, List.cons_append, List.cons_lt_cons_iff, List.cons_lt_cons_iff,
        ih (Nat.succ.inj h), List.cons.injEq, and_or_left, ← or_assoc, and_assoc]

/-- A common front does not count. -/
theorem compare_append_left (l x y : List UInt8) : compare (l ++ x) (l ++ y) = compare x y := by
  induction l with
  | nil => rfl
  | cons a l ih =>
    have hself : compare a a = .eq := Std.ReflCmp.compare_self
    rw [List.cons_append, List.cons_append, List.compare_cons_cons, hself, ih]
    rfl

theorem compare_eq_lt_iff {x y : List UInt8} : compare x y = .lt ↔ x < y := by
  induction x generalizing y with
  | nil => cases y <;> simp
  | cons a x ih =>
    cases y with
    | nil => simp
    | cons b y =>
      rw [List.compare_cons_cons, List.cons_lt_cons_iff, Ordering.then_eq_lt, ih, Std.compare_eq_lt,
        Std.compare_eq_iff_eq]

theorem isLE_compare_iff {x y : List UInt8} : (compare x y).isLE = true ↔ x ≤ y := by
  have hgt : compare x y = .gt ↔ compare y x = .lt := Std.OrientedCmp.gt_iff_lt
  rw [← List.not_lt, ← compare_eq_lt_iff, ← hgt]
  cases compare x y <;> simp

/-- The first bytes that differ decide. -/
private theorem compare_ofNat_cons {a b : Nat} {x y : List UInt8} (hb : b < 256)
    (h : a < b ∨ a = b ∧ compare x y = .lt) :
    compare (UInt8.ofNat a :: x) (UInt8.ofNat b :: y) = .lt := by
  rcases h with hlt | ⟨rfl, hrest⟩
  · have hbytes : UInt8.ofNat a < UInt8.ofNat b := by
      rw [UInt8.lt_iff_toNat_lt, UInt8.toNat_ofNat', UInt8.toNat_ofNat']
      omega
    have hcompare : compare (UInt8.ofNat a) (UInt8.ofNat b) = .lt := if_pos hbytes
    rw [List.compare_cons_cons, hcompare]
    rfl
  · have hself : compare (UInt8.ofNat a) (UInt8.ofNat a) = .eq := Std.ReflCmp.compare_self
    rw [List.compare_cons_cons, hself, hrest]
    rfl

/-- The smaller character has the smaller bytes, whatever follows. -/
theorem compare_utf8EncodeChar {c d : Char} (h : c < d) (x y : List UInt8) :
    compare (String.utf8EncodeChar c ++ x) (String.utf8EncodeChar d ++ y) = .lt := by
  have hlt : c.val.toNat < d.val.toNat := UInt32.lt_iff_toNat_lt.1 h
  have hd : d.val.toNat < 0x110000 := by
    have hvalid := d.valid
    simp only [UInt32.isValidChar, Nat.isValidChar] at hvalid
    omega
  unfold String.utf8EncodeChar
  generalize c.val.toNat = m at hlt
  generalize d.val.toNat = n at hlt hd
  dsimp only
  -- Longer forms have larger first bytes; in forms of one length the first unequal group decides.
  split
  · split
    · apply compare_ofNat_cons <;> omega
    · split
      · apply compare_ofNat_cons <;> omega
      · split <;> apply compare_ofNat_cons <;> omega
  · have hn : ¬ n ≤ 127 := by omega
    rw [if_neg hn]
    split
    · split
      · by_cases hlead : m / 64 = n / 64
        · refine compare_ofNat_cons (by omega) (.inr ⟨by omega, ?_⟩)
          apply compare_ofNat_cons <;> omega
        · apply compare_ofNat_cons <;> omega
      · split <;> apply compare_ofNat_cons <;> omega
    · have hn : ¬ n ≤ 2047 := by omega
      rw [if_neg hn]
      split
      · split
        · by_cases hlead : m / 4096 = n / 4096
          · refine compare_ofNat_cons (by omega) (.inr ⟨by omega, ?_⟩)
            by_cases hnext : m / 64 = n / 64
            · refine compare_ofNat_cons (by omega) (.inr ⟨by omega, ?_⟩)
              apply compare_ofNat_cons <;> omega
            · apply compare_ofNat_cons <;> omega
          · apply compare_ofNat_cons <;> omega
        · apply compare_ofNat_cons <;> omega
      · have hn : ¬ n ≤ 65535 := by omega
        rw [if_neg hn]
        by_cases hlead : m / 262144 = n / 262144
        · refine compare_ofNat_cons (by omega) (.inr ⟨by omega, ?_⟩)
          by_cases hnext : m / 4096 = n / 4096
          · refine compare_ofNat_cons (by omega) (.inr ⟨by omega, ?_⟩)
            by_cases hthird : m / 64 = n / 64
            · refine compare_ofNat_cons (by omega) (.inr ⟨by omega, ?_⟩)
              apply compare_ofNat_cons <;> omega
            · apply compare_ofNat_cons <;> omega
          · apply compare_ofNat_cons <;> omega
        · apply compare_ofNat_cons <;> omega

private theorem compare_flatMap {cs ds : List Char} (h : cs < ds) :
    compare (cs.flatMap String.utf8EncodeChar) (ds.flatMap String.utf8EncodeChar) = .lt := by
  induction h with
  | @nil d ds =>
    rw [List.flatMap_cons]
    cases hd : String.utf8EncodeChar d with
    | nil => exact absurd hd String.utf8EncodeChar_ne_nil
    | cons => rfl
  | rel h => exact compare_utf8EncodeChar h _ _
  | cons _ ih =>
    rw [List.flatMap_cons, List.flatMap_cons, compare_append_left, ih]

/-- Texts and their bytes are ordered alike. -/
theorem compare_utf8 (s t : String) : compare (utf8 s) (utf8 t) = compare s t := by
  have hlt : ∀ {s t : String}, s < t → compare (utf8 s) (utf8 t) = .lt := by
    intro s t h
    rw [utf8_eq_flatMap, utf8_eq_flatMap]
    exact compare_flatMap (String.lt_iff.1 h)
  rcases Std.lt_trichotomy s t with h | rfl | h
  · rw [hlt h]
    exact (if_pos h).symm
  · have hbytes : compare (utf8 s) (utf8 s) = .eq := Std.ReflCmp.compare_self
    have htext : compare s s = .eq := Std.ReflCmp.compare_self
    rw [hbytes, htext]
  · have hgt : compare t s = .lt := if_pos h
    rw [Std.OrientedCmp.gt_of_lt hgt, Std.OrientedCmp.gt_of_lt (hlt h)]

theorem utf8_lt_utf8_iff {s t : String} : utf8 s < utf8 t ↔ s.toList < t.toList := by
  have hcompare : compare s t = .lt ↔ s < t := compareOfLessAndEq_eq_lt
  rw [← compare_eq_lt_iff, compare_utf8, hcompare, String.lt_iff]

end UnitOfWork.Text
