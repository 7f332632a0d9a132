import Mathlib.Data.Set.Function
import Mathlib.Tactic.Tauto
import UnitOfWork.Proofs.Store.Call
import UnitOfWork.Proofs.Store.PhysicalKey

/-!
The layout of physical keys: it can be undone, it keeps the order of what it lays out, and the range
of a partition holds the keys of that partition and no others.
-/

namespace UnitOfWork.PhysicalKey

section Cut

variable {key head tail : List UInt8}

theorem cut?_eq_some_iff : cut? key = some (head, tail) ↔ key = head ++ 0 :: tail ∧ 0 ∉ head := by
  constructor
  · intro h
    induction key generalizing head with
    | nil => cases h
    | cons b key ih =>
      unfold cut? at h
      by_cases hb : b = 0
      · rw [if_pos hb] at h
        cases h
        simp [hb]
      · rw [if_neg hb] at h
        obtain ⟨parts, hparts, he⟩ := Option.map_eq_some_iff.1 h
        obtain ⟨hhead, htail⟩ := Prod.mk.inj he
        subst hhead htail
        obtain ⟨hkey, hzero⟩ := ih hparts
        have hcons : b :: key = b :: parts.1 ++ 0 :: parts.2 := by rw [hkey, List.cons_append]
        exact ⟨hcons, by simp [hzero, Ne.symm hb]⟩
  · intro h
    rw [h.1]
    exact cut?_append h.2 tail

theorem cut?_eq_none_iff : cut? key = none ↔ 0 ∉ key := by
  induction key with
  | nil => simp [cut?]
  | cons b key ih =>
    unfold cut?
    by_cases hb : b = 0
    · simp [hb]
    · simp [hb, ih, Ne.symm hb]

/-- The parts of a key before, between and after its first two zero bytes. -/
structure CutInto (key first second last : List UInt8) : Prop where
  eq_append : key = first ++ 0 :: (second ++ 0 :: last)
  first : 0 ∉ first
  second : 0 ∉ second

variable {first second last : List UInt8}

theorem cutInto_iff : CutInto key first second last ↔
    ∃ rest, cut? key = some (first, rest) ∧ cut? rest = some (second, last) := by
  constructor
  · intro h
    have hrest : cut? (second ++ 0 :: last) = some (second, last) := cut?_append h.second last
    refine ⟨_, ?_, hrest⟩
    rw [h.eq_append]
    exact cut?_append h.first _
  · rintro ⟨rest, hkey, hrest⟩
    obtain ⟨hkey, hfirst⟩ := cut?_eq_some_iff.1 hkey
    obtain ⟨hrest, hsecond⟩ := cut?_eq_some_iff.1 hrest
    exact ⟨by rw [hkey, hrest], hfirst, hsecond⟩

/-- A key can be cut if two of its bytes are zero. -/
theorem exists_cutInto_iff : (∃ first second last, CutInto key first second last) ↔
    2 ≤ key.count 0 := by
  constructor
  · rintro ⟨first, second, last, h⟩
    rw [h.eq_append, List.count_append, List.count_cons_self, List.count_append,
      List.count_cons_self]
    omega
  · intro h
    cases hkey : cut? key with
    | none =>
      have hzero : key.count 0 = 0 := List.count_eq_zero.2 (cut?_eq_none_iff.1 hkey)
      omega
    | some parts =>
      obtain ⟨first, rest⟩ := parts
      obtain ⟨he, hfirst⟩ := cut?_eq_some_iff.1 hkey
      have hcount := congrArg (List.count 0) he
      rw [List.count_append, List.count_eq_zero.2 hfirst, List.count_cons_self] at hcount
      cases hrest : cut? rest with
      | none =>
        have hzero : rest.count 0 = 0 := List.count_eq_zero.2 (cut?_eq_none_iff.1 hrest)
        omega
      | some parts =>
        obtain ⟨second, last⟩ := parts
        exact ⟨first, second, last, cutInto_iff.2 ⟨rest, hkey, hrest⟩⟩

end Cut

section Decode

variable {key first second last : List UInt8} {table partition row : String}

theorem decode?_of_cutInto (h : CutInto key first second last) :
    decode? key = some (table, partition, row) ↔
      Text.ofUtf8? first = some table ∧ Text.ofUtf8? second = some partition ∧
        Text.ofUtf8? last = some row := by
  obtain ⟨rest, hkey, hrest⟩ := cutInto_iff.1 h
  unfold decode?
  rw [hkey]
  simp only [Option.bind_eq_bind, Option.bind_some]
  rw [hrest]
  simp [Option.bind_eq_some_iff]

theorem exists_cutInto_of_decode? (h : decode? key = some (table, partition, row)) :
    ∃ first second last, CutInto key first second last := by
  unfold decode? at h
  obtain ⟨⟨first, rest⟩, hkey, h⟩ := Option.bind_eq_some_iff.1 h
  obtain ⟨⟨second, last⟩, hrest, h⟩ := Option.bind_eq_some_iff.1 h
  exact ⟨first, second, last, cutInto_iff.2 ⟨rest, hkey, hrest⟩⟩

/-- A key fails to decode if it has too few separators or a part that is no text. -/
theorem decode?_eq_none_iff : decode? key = none ↔ key.count 0 < 2 ∨
    ∃ first second last, CutInto key first second last ∧
      ¬ (Text.IsUtf8 first ∧ Text.IsUtf8 second ∧ Text.IsUtf8 last) := by
  constructor
  · intro hnone
    by_cases hcount : key.count 0 < 2
    · exact .inl hcount
    · obtain ⟨first, second, last, hcut⟩ := exists_cutInto_iff.2 (Nat.not_lt.1 hcount)
      refine .inr ⟨first, second, last, hcut, ?_⟩
      simp only [Text.isUtf8_iff]
      rintro ⟨⟨table, ht⟩, ⟨partition, hp⟩, ⟨row, hr⟩⟩
      rw [(decode?_of_cutInto hcut).2 ⟨ht, hp, hr⟩] at hnone
      cases hnone
  · intro h
    rw [Option.eq_none_iff_forall_ne_some]
    rintro ⟨table, partition, row⟩ hdecode
    obtain hcount | ⟨first, second, last, hcut, hbad⟩ := h
    · have htwo := exists_cutInto_iff.1 (exists_cutInto_of_decode? hdecode)
      omega
    · obtain ⟨ht, hp, hr⟩ := (decode?_of_cutInto hcut).1 hdecode
      simp only [Text.isUtf8_iff] at hbad
      exact hbad ⟨⟨table, ht⟩, ⟨partition, hp⟩, ⟨row, hr⟩⟩

/-- What decodes is laid out as the keys of rows are. -/
theorem encode_of_decode? (h : decode? key = some (table, partition, row)) :
    '\x00' ∉ table.toList ∧ '\x00' ∉ partition.toList ∧ encode table partition row = key := by
  obtain ⟨first, second, last, hcut⟩ := exists_cutInto_of_decode? h
  obtain ⟨ht, hp, hr⟩ := (decode?_of_cutInto hcut).1 h
  rw [← Text.zero_mem_utf8_iff, ← Text.zero_mem_utf8_iff, Text.utf8_of_ofUtf8? ht,
    Text.utf8_of_ofUtf8? hp]
  refine ⟨hcut.first, hcut.second, ?_⟩
  rw [hcut.eq_append, ← Text.utf8_of_ofUtf8? ht, ← Text.utf8_of_ofUtf8? hp,
    ← Text.utf8_of_ofUtf8? hr]
  simp [encode, partitionStart]

end Decode

/-- Encoding and decoding undo each other, and the keys that decode are those with two separators
and three texts. -/
theorem decode_inverts_encode :
    (∀ table partition row, '\x00' ∉ table.toList → '\x00' ∉ partition.toList →
      decode? (encode table partition row) = some (table, partition, row)) ∧
    Set.InjOn (fun id : RowId => encode id.table id.partition id.row)
      {id | '\x00' ∉ id.table.toList ∧ '\x00' ∉ id.partition.toList} ∧
    (∀ key table partition row, decode? key = some (table, partition, row) →
      '\x00' ∉ table.toList ∧ '\x00' ∉ partition.toList ∧ encode table partition row = key) ∧
    ∀ key, decode? key = none ↔ key.count 0 < 2 ∨
      ∃ first second last, CutInto key first second last ∧
        ¬ (Text.IsUtf8 first ∧ Text.IsUtf8 second ∧ Text.IsUtf8 last) := by
  have hdecode : ∀ table partition row, '\x00' ∉ table.toList → '\x00' ∉ partition.toList →
      decode? (encode table partition row) = some (table, partition, row) := by
    intro table partition row ht hp
    rw [← Text.zero_mem_utf8_iff] at ht hp
    exact decode?_encode ht hp row
  refine ⟨hdecode, ?_, fun _ _ _ _ => encode_of_decode?, fun _ => decode?_eq_none_iff⟩
  rintro ⟨t, p, r⟩ ⟨ht, hp⟩ ⟨t', p', r'⟩ ⟨ht', hp'⟩ h
  have hsame := congrArg decode? h
  dsimp only at hsame ht hp ht' hp'
  rw [hdecode t p r ht hp, hdecode t' p' r' ht' hp'] at hsame
  simpa using hsame

/-- A row key with a separator in it comes back whole; a part that is no text is refused. -/
theorem decode_inverts_encode_sagas :
    '\x00' ∉ "Sagas".toList ∧ '\x00' ∉ "order-1".toList ∧
    decode? (encode "Sagas" "order-1" "a\x00b") = some ("Sagas", "order-1", "a\x00b") ∧
    decode? [0, 0xff, 0] = none := by
  have ht : '\x00' ∉ "Sagas".toList := by decide
  have hp : '\x00' ∉ "order-1".toList := by decide
  refine ⟨ht, hp, decode_inverts_encode.1 _ _ _ ht hp, ?_⟩
  have hcut : CutInto [0, 0xff, 0] [] [0xff] [] := ⟨rfl, by decide, by decide⟩
  refine (decode_inverts_encode.2.2.2 _).2 (.inr ⟨_, _, _, hcut, ?_⟩)
  rw [Text.isUtf8_iff, Text.isUtf8_iff]
  rintro ⟨-, ⟨s, hs⟩, -⟩
  have hnone : Text.ofUtf8? [0xff] = none := by decide +kernel
  rw [hnone] at hs
  cases hs

section Order

variable {a b x y : List UInt8}

/-- The separator is below every byte before it, so a part that ends first is the smaller. -/
theorem append_zero_lt_iff (ha : 0 ∉ a) (hb : 0 ∉ b) :
    a ++ 0 :: x < b ++ 0 :: y ↔ a < b ∨ a = b ∧ x < y := by
  induction a generalizing b with
  | nil =>
    cases b with
    | nil => simp
    | cons d b =>
      have hd : 0 < d := UInt8.pos_iff_ne_zero.2 fun h => hb (by simp [h])
      simp [List.cons_lt_cons_iff, hd]
  | cons c a ih =>
    cases b with
    | nil =>
      have hc : c ≠ 0 := fun h => ha (by simp [h])
      simp [List.cons_lt_cons_iff, hc]
    | cons d b =>
      obtain ⟨-, ha⟩ := List.ne_and_not_mem_of_not_mem_cons ha
      obtain ⟨-, hb⟩ := List.ne_and_not_mem_of_not_mem_cons hb
      rw [List.cons_append, List.cons_append, List.cons_lt_cons_iff, List.cons_lt_cons_iff,
        ih ha hb, List.cons.injEq]
      tauto

variable {table partition row t p r : String}

theorem encode_lt_iff (ht : 0 ∉ Text.utf8 table) (hp : 0 ∉ Text.utf8 partition)
    (ht' : 0 ∉ Text.utf8 t) (hp' : 0 ∉ Text.utf8 p) :
    encode table partition row < encode t p r ↔
      Text.utf8 table < Text.utf8 t ∨ Text.utf8 table = Text.utf8 t ∧
        (Text.utf8 partition < Text.utf8 p ∨ Text.utf8 partition = Text.utf8 p ∧
          Text.utf8 row < Text.utf8 r) := by
  have hlayout : ∀ table partition row, encode table partition row =
      Text.utf8 table ++ 0 :: (Text.utf8 partition ++ 0 :: Text.utf8 row) := by
    intro table partition row
    simp [encode, partitionStart]
  rw [hlayout, hlayout, append_zero_lt_iff ht ht', append_zero_lt_iff hp hp']

theorem inPartition_eq_true_iff {key : List UInt8} : inPartition table partition key = true ↔
    partitionStart table partition ≤ key ∧ key < partitionEnd table partition := by
  rw [inPartition, Bool.and_eq_true, decide_eq_true_eq, Text.isLE_compare_iff,
    Text.compare_eq_lt_iff]

theorem inPartition_iff_isPrefix {key : List UInt8} :
    inPartition table partition key = true ↔ partitionStart table partition <+: key := by
  rw [inPartition_iff]
  constructor
  · rintro ⟨rest, h⟩
    exact ⟨rest, h.symm⟩
  · rintro ⟨rest, h⟩
    exact ⟨rest, h.symm⟩

end Order

/-- Keys are ordered as tables, partition keys and row keys are, one after the other, and the range
of a partition holds the keys that begin as its keys do, hence none of another partition. -/
theorem encode_keeps_order :
    (∀ table partition row table' partition' row',
      '\x00' ∉ table.toList → '\x00' ∉ partition.toList →
      '\x00' ∉ table'.toList → '\x00' ∉ partition'.toList →
      (encode table partition row < encode table' partition' row' ↔
        Text.utf8 table < Text.utf8 table' ∨ Text.utf8 table = Text.utf8 table' ∧
          (Text.utf8 partition < Text.utf8 partition' ∨
            Text.utf8 partition = Text.utf8 partition' ∧ Text.utf8 row < Text.utf8 row')) ∧
      (partitionStart table partition ≤ encode table' partition' row' ∧
        encode table' partition' row' < partitionEnd table partition ↔
          table' = table ∧ partition' = partition)) ∧
    ∀ table partition key,
      (partitionStart table partition ≤ key ∧ key < partitionEnd table partition ↔
        partitionStart table partition <+: key) ∧
      (inPartition table partition key = true ↔
        partitionStart table partition ≤ key ∧ key < partitionEnd table partition) := by
  constructor
  · intro table partition row table' partition' row' ht hp ht' hp'
    rw [← Text.zero_mem_utf8_iff] at ht hp ht' hp'
    refine ⟨encode_lt_iff ht hp ht' hp', ?_⟩
    rw [← inPartition_eq_true_iff]
    exact inPartition_encode_iff ht' hp' ht hp row'
  · intro table partition key
    have hrange := @inPartition_eq_true_iff table partition key
    exact ⟨hrange.symm.trans inPartition_iff_isPrefix, hrange⟩

/-- A partition key at the front of another one comes first with all its rows. -/
theorem encode_keeps_order_sagas :
    '\x00' ∉ "Sagas".toList ∧ '\x00' ∉ "order-1".toList ∧ '\x00' ∉ "order-10".toList ∧
    encode "Sagas" "order-1" "z" < encode "Sagas" "order-10" "a" ∧
    ¬ (partitionStart "Sagas" "order-1" ≤ encode "Sagas" "order-10" "a" ∧
      encode "Sagas" "order-10" "a" < partitionEnd "Sagas" "order-1") := by
  have ht : '\x00' ∉ "Sagas".toList := by decide
  have hp : '\x00' ∉ "order-1".toList := by decide
  have hp' : '\x00' ∉ "order-10".toList := by decide
  obtain ⟨horder, hrange⟩ :=
    encode_keeps_order.1 "Sagas" "order-1" "z" "Sagas" "order-10" "a" ht hp ht hp'
  refine ⟨ht, hp, hp', horder.2 (.inr ⟨rfl, .inl ?_⟩), ?_⟩
  · decide
  · rw [hrange]
    decide

end UnitOfWork.PhysicalKey
