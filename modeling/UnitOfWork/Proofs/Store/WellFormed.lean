import UnitOfWork.Proofs.RowFormat.Row
import UnitOfWork.Proofs.Store.Durable
import UnitOfWork.Proofs.Store.Listing
import UnitOfWork.Proofs.Table.Token

/-!
Well-formed databases: every entry is the encoding of a row at a well-named place in a registered
table. There the durable store reads and lists rows as if it kept them unencoded.
-/

namespace UnitOfWork

namespace Database

/-- An entry of the database is a stamped row at its place, both encoded. -/
structure Holds (d : Database) (key bytes : List UInt8) (id : RowId) (r : Row) : Prop where
  table_valid : ValidTableName id.table
  partition_valid : ValidKey id.partition
  row_valid : ValidKey id.row
  registered : d.isRegistered id.table = true
  key_eq : key = PhysicalKey.encode id.table id.partition id.row
  bytes_eq : bytes = r.encode
  fits : r.Fits
  stamped : ∃ v, r.token = Token.ofVersion v

def WellFormed (d : Database) : Prop :=
  ∀ key bytes, d.rows.get? key = some bytes → ∃ id r, d.Holds key bytes id r

/-- The row that is stored for a place. -/
def row? (d : Database) (id : RowId) : Option Row := (d.stored? id).bind Row.decode?

variable {d : Database}

theorem wellFormed_empty : ({} : Database).WellFormed := by
  intro key bytes h
  cases h

theorem row?_register (d : Database) (table : String) (id : RowId) :
    (d.register table).row? id = d.row? id := by
  rw [row?, stored?, rows_register]
  rfl

namespace WellFormed

/-- What is stored under the key of a place belongs to that place, whatever it is named. -/
theorem holds (h : d.WellFormed) {id : RowId} {bytes : List UInt8}
    (hbytes : d.stored? id = some bytes) :
    ∃ r, d.row? id = some r ∧ d.Holds (PhysicalKey.encode id.table id.partition id.row) bytes id r := by
  obtain ⟨⟨t, p, row⟩, r, hr⟩ := h _ bytes hbytes
  obtain ⟨ht, hp, hrow⟩ := PhysicalKey.encode_inj hr.table_valid.zero_notMem
    hr.partition_valid.zero_notMem hr.row_valid.zero_notMem hr.key_eq
  obtain rfl : id = ⟨t, p, row⟩ := by
    cases id
    simp_all
  refine ⟨r, ?_, hr⟩
  rw [row?, hbytes, hr.bytes_eq]
  exact Row.decode?_encode hr.fits

theorem holds_of_row? (h : d.WellFormed) {id : RowId} {r : Row} (hr : d.row? id = some r) :
    d.stored? id = some r.encode ∧
      d.Holds (PhysicalKey.encode id.table id.partition id.row) r.encode id r := by
  obtain ⟨bytes, hbytes, hdecode⟩ := Option.bind_eq_some_iff.1 hr
  obtain ⟨r', hr', hholds⟩ := h.holds hbytes
  obtain rfl : r = r' := Option.some.inj (hr.symm.trans hr')
  obtain rfl := hholds.bytes_eq
  exact ⟨hbytes, hholds⟩

/-- There is no row in a table that is not registered. -/
theorem row?_eq_none (h : d.WellFormed) {id : RowId} (hid : d.isRegistered id.table = false) :
    d.row? id = none := by
  cases hr : d.row? id with
  | none => rfl
  | some r =>
    have hregistered := (h.holds_of_row? hr).2.registered
    rw [hid] at hregistered
    cases hregistered

theorem rowIn (h : d.WellFormed) (table partition row : String) :
    d.rowIn table partition row = .ok (d.row? ⟨table, partition, row⟩) := by
  rw [rowIn_eq_ok_iff]
  cases hbytes : d.stored? ⟨table, partition, row⟩ with
  | none =>
    left
    refine ⟨rfl, ?_⟩
    rw [row?, hbytes]
    rfl
  | some bytes =>
    right
    obtain ⟨r, hr, hholds⟩ := h.holds hbytes
    refine ⟨bytes, r, rfl, ?_, hr⟩
    rw [hholds.bytes_eq]
    exact Row.decode?_encode hholds.fits

theorem register (h : d.WellFormed) (table : String) : (d.register table).WellFormed := by
  intro key bytes hbytes
  rw [rows_register] at hbytes
  obtain ⟨id, r, hr⟩ := h key bytes hbytes
  exact ⟨id, r, { hr with registered := by simp [d.isRegistered_register, hr.registered] }⟩

end WellFormed

section Commit

variable {table partition : String} {writes : Batch.Writes} (htable : ValidTableName table)
  (hpartition : ValidKey partition) (hrows : ∀ w ∈ writes, ValidKey w.1)
  (hnodup : (writes.map (·.1)).Nodup)
  (hwritten : ∀ row r, writes.lookup row = some (some r) →
    r.Fits ∧ ∃ v, r.token = Token.ofVersion v)

include htable hpartition hrows hnodup hwritten

/-- A batch that writes rows with lengths of 64 bits leaves the database well formed. -/
theorem WellFormed.commit (h : d.WellFormed) (version : UInt64) :
    (d.commit table partition writes version).WellFormed := by
  intro key bytes hbytes
  rcases d.get?_rows_commit hnodup hbytes with hold | ⟨w, hw, r, hlookup, rfl, rfl⟩
  · obtain ⟨id, r, hr⟩ := h key bytes hold
    exact ⟨id, r, { hr with
      registered := (d.isRegistered_register ..).trans (by simp [hr.registered]) }⟩
  · obtain ⟨hfits, hstamped⟩ := hwritten w.1 r hlookup
    exact ⟨⟨table, partition, w.1⟩, r, {
      table_valid := htable
      partition_valid := hpartition
      row_valid := hrows w hw
      registered := (d.isRegistered_register ..).trans (by simp)
      key_eq := rfl
      bytes_eq := rfl
      fits := hfits
      stamped := hstamped }⟩

theorem row?_commit (version : UInt64) (id : RowId) :
    (d.commit table partition writes version).row? id =
      if id.table = table ∧ id.partition = partition then
        (writes.lookup id.row).getD (d.row? id)
      else d.row? id := by
  rw [row?, d.stored?_commit htable hpartition hrows hnodup]
  split
  · cases hlookup : writes.lookup id.row with
    | none => rfl
    | some written =>
      cases written with
      | none => rfl
      | some r => exact Row.decode?_encode (hwritten _ r hlookup).1
  · rfl

end Commit

end Database

namespace DurableStore

variable {s : DurableStore} {table : String} {readable : Bool}

theorem isRegistered_of_isReadable (h : s.isReadable table = .ok readable) :
    s.database.isRegistered table = readable := by
  unfold isReadable at h
  split at h
  · rename_i hregistered
    cases h
    exact hregistered
  · rename_i hregistered
    split at h
    · cases h
      simpa using hregistered
    · cases h

theorem read_eq (h : s.database.WellFormed) (table partition row : String) :
    s.read table partition row = (s.isReadable table).map fun _ =>
      (s.database.row? ⟨table, partition, row⟩).map (·.at ⟨partition, row⟩) := by
  unfold read
  cases hreadable : s.isReadable table with
  | error e => rfl
  | ok readable =>
    have hregistered := isRegistered_of_isReadable hreadable
    cases readable with
    | false =>
      have hnone : s.database.row? ⟨table, partition, row⟩ = none := h.row?_eq_none hregistered
      rw [hnone]
      rfl
    | true =>
      dsimp only
      have hrow := h.rowIn table partition row
      rw [Database.rowIn] at hrow
      rw [hrow]
      rfl

/-- A list of pairs that all come from elements with a property is the image of such elements. -/
theorem exists_map_eq {α β : Type} {f : α → β} {p : α → Prop} {l : List β}
    (h : ∀ b ∈ l, ∃ a, p a ∧ f a = b) : ∃ xs : List α, (∀ a ∈ xs, p a) ∧ xs.map f = l := by
  induction l with
  | nil => exact ⟨[], nofun, rfl⟩
  | cons b l ih =>
    obtain ⟨⟨a, ha, rfl⟩, hrest⟩ := List.forall_mem_cons.1 h
    obtain ⟨xs, hxs, rfl⟩ := ih hrest
    exact ⟨a :: xs, List.forall_mem_cons.2 ⟨ha, hxs⟩, rfl⟩

theorem entitiesOf_encoded (h : s.database.WellFormed) {partition : String}
    {rows : List (String × Row)}
    (hrows : ∀ e ∈ rows, s.database.row? ⟨table, partition, e.1⟩ = some e.2) :
    entitiesOf (rows.map fun e => (PhysicalKey.encode table partition e.1, e.2.encode)) =
      .ok (rows.map fun e => e.2.at ⟨partition, e.1⟩) := by
  induction rows with
  | nil => rfl
  | cons e rows ih =>
    obtain ⟨hhead, htail⟩ := List.forall_mem_cons.1 hrows
    have hholds := (h.holds_of_row? hhead).2
    have hkey := PhysicalKey.decode?_encode hholds.table_valid.zero_notMem
      hholds.partition_valid.zero_notMem e.1
    have hrow := Database.decodeRow_eq_ok_iff.2 (Row.decode?_encode hholds.fits)
    simp only [List.map_cons, entitiesOf, hkey, hrow, ih htail]
    rfl

/-- The entries in a partition's range are the rows that stand in the partition, encoded. -/
theorem exists_range (h : s.database.WellFormed) (table partition : String) :
    ∃ rows : List (String × Row),
      (∀ e ∈ rows, s.database.row? ⟨table, partition, e.1⟩ = some e.2) ∧
        rows.map (fun e => (PhysicalKey.encode table partition e.1, e.2.encode)) =
          (s.database.rows.filterKeys (PhysicalKey.inPartition table partition)).entries := by
  apply exists_map_eq
  rintro ⟨key, bytes⟩ he
  obtain ⟨hmem, hin⟩ := List.mem_filter.1 he
  have hget := SortedMap.get?_eq_some_iff.2 hmem
  obtain ⟨⟨t, p, row⟩, r, hholds⟩ := h key bytes hget
  obtain rfl := hholds.key_eq
  obtain ⟨rfl, rfl⟩ := (PhysicalKey.inPartition_encode hholds.table_valid.zero_notMem
    hholds.partition_valid.zero_notMem hholds.row_valid.zero_notMem).1 hin
  obtain rfl := hholds.bytes_eq
  refine ⟨(row, r), ?_, rfl⟩
  rw [Database.row?, Database.stored?, hget]
  exact Row.decode?_encode hholds.fits

theorem query_of_isReadable (h : s.database.WellFormed)
    (hreadable : s.isReadable table = .ok readable) (partition : String) :
    ∃ es, s.query table partition = .ok es ∧ Lists s.database.row? table partition es := by
  have hregistered := isRegistered_of_isReadable hreadable
  unfold query
  rw [hreadable]
  cases readable with
  | false =>
    refine ⟨[], rfl, .nil, fun e => ⟨nofun, ?_⟩⟩
    rintro ⟨row, r, hr, _⟩
    have hnone : s.database.row? ⟨table, partition, row⟩ = none := h.row?_eq_none hregistered
    rw [hnone] at hr
    cases hr
  | true =>
    obtain ⟨rows, hrows, hentries⟩ := exists_range h table partition
    have hsorted := (s.database.rows.filterKeys (PhysicalKey.inPartition table partition)).sorted
    rw [← hentries, List.pairwise_map] at hsorted
    refine ⟨rows.map fun e => e.2.at ⟨partition, e.1⟩, ?_, ?_, fun e => ?_⟩
    · dsimp only
      rw [← hentries]
      exact entitiesOf_encoded h hrows
    · rw [List.pairwise_map]
      refine hsorted.imp fun hab => ?_
      rwa [PhysicalKey.compare_encode] at hab
    · rw [List.mem_map]
      constructor
      · rintro ⟨x, hx, rfl⟩
        exact ⟨x.1, x.2, hrows x hx, rfl⟩
      · rintro ⟨row, r, hr, rfl⟩
        obtain ⟨hstored, _⟩ := h.holds_of_row? hr
        have hmem : (PhysicalKey.encode table partition row, r.encode) ∈
            (s.database.rows.filterKeys (PhysicalKey.inPartition table partition)).entries := by
          refine List.mem_filter.2 ⟨SortedMap.get?_eq_some_iff.1 hstored, ?_⟩
          exact PhysicalKey.inPartition_iff.2 ⟨Text.utf8 row, rfl⟩
        rw [← hentries, List.mem_map] at hmem
        obtain ⟨x, hx, he⟩ := hmem
        obtain rfl : x.1 = row :=
          PhysicalKey.encode_row_injective _ _ (congrArg Prod.fst he)
        obtain rfl : x.2 = r := Option.some.inj ((hrows x hx).symm.trans hr)
        exact ⟨x, hx, rfl⟩

end DurableStore

end UnitOfWork
