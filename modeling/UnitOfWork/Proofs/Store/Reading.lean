import UnitOfWork.Proofs.Store.Decision
import UnitOfWork.Proofs.Store.Staged

/-!
Rows read one by one and rows listed by partition are the same rows, whatever strings are asked for.
A durable store can always be read: each entry that it comes to hold is found to be a row at a
well-named place, so that no call fails for what is stored and no query passes anything over.
-/

namespace UnitOfWork

namespace Lists

variable {row? : RowId → Option Row} {table partition : String} {es : List Entity}

theorem increasing (h : Lists row? table partition es) :
    es.Pairwise fun a b => compare (Text.utf8 a.key.row) (Text.utf8 b.key.row) = .lt := by
  apply h.sorted.imp
  intro a b hab
  rwa [Text.compare_utf8]

/-- The row of a partition is the entity that is listed under its key. -/
theorem found_iff (h : Lists row? table partition es) (row : String) (e : Entity) :
    (row? ⟨table, partition, row⟩).map (·.at ⟨partition, row⟩) = some e ↔
      e ∈ es ∧ e.key.row = row := by
  rw [Option.map_eq_some_iff, h.mem_iff]
  constructor
  · rintro ⟨r, hr, rfl⟩
    exact ⟨⟨row, r, hr, rfl⟩, rfl⟩
  · rintro ⟨⟨listed, r, hr, rfl⟩, hrow⟩
    have hsame : listed = row := hrow
    subst hsame
    exact ⟨r, hr, rfl⟩

end Lists

namespace AnyStore

/-- A list holds the rows of a partition by increasing keys: each is read as it is listed, and no
others are. -/
structure ListsReads (s : AnyStore) (table partition : String) (es : List Entity) : Prop where
  increasing : es.Pairwise fun a b => compare (Text.utf8 a.key.row) (Text.utf8 b.key.row) = .lt
  within : ∀ e ∈ es, e.key.partition = partition
  read : ∀ row, ∃ found, TableStore.read s table partition row = .ok found ∧
    ∀ e, found = some e ↔ e ∈ es ∧ e.key.row = row

/-- Reading a partition row by row and as a whole tell the same: the table is missing for both, or
the query lists what is read. -/
structure ReadsAgree (s : AnyStore) (table partition : String) : Prop where
  missing : (∀ row, TableStore.read s table partition row = .error (.tableNotFound table)) ↔
    TableStore.query s table partition = .error (.tableNotFound table)
  answered : TableStore.query s table partition = .error (.tableNotFound table) ∨
    ∃ es, TableStore.query s table partition = .ok es
  listed : ∀ es, TableStore.query s table partition = .ok es → s.ListsReads table partition es

section Reads

variable {s : AnyStore} {table : String}

theorem readsAgree_of_missing (hs : s.Sound) {e : StorageError}
    (haccess : s.access table = .error e) (partition : String) : s.ReadsAgree table partition := by
  have he : e = .tableNotFound table := eq_of_access_error haccess
  subst he
  have hquery : TableStore.query s table partition = .error (.tableNotFound table) :=
    query_of_access_error haccess partition
  have hread : ∀ row, TableStore.read s table partition row = .error (.tableNotFound table) := by
    intro row
    rw [read_eq hs, haccess]
    rfl
  constructor
  case missing => exact iff_of_true hread hquery
  case answered => exact .inl hquery
  case listed =>
    intro es hes
    rw [hquery] at hes
    cases hes

theorem readsAgree_of_found (hs : s.Sound) (haccess : s.access table = .ok ())
    (partition : String) : s.ReadsAgree table partition := by
  obtain ⟨es, hquery, hlists⟩ := exists_lists hs haccess partition
  have hread : ∀ row, TableStore.read s table partition row =
      .ok ((s.row? ⟨table, partition, row⟩).map (·.at ⟨partition, row⟩)) := by
    intro row
    rw [read_eq hs, haccess]
    rfl
  constructor
  case missing =>
    constructor
    · intro hmissing
      have hnone := hmissing ""
      rw [hread] at hnone
      cases hnone
    · intro hmissing
      rw [hquery] at hmissing
      cases hmissing
  case answered => exact .inr ⟨es, hquery⟩
  case listed =>
    intro es' hes'
    obtain rfl : es = es' := Except.ok.inj (hquery.symm.trans hes')
    constructor
    case increasing => exact hlists.increasing
    case within => exact fun e he => hlists.partition_eq he
    case read =>
      intro row
      exact ⟨_, hread row, hlists.found_iff row⟩

theorem readsAgree (hs : s.Sound) (table partition : String) : s.ReadsAgree table partition := by
  cases haccess : s.access table with
  | error e => exact readsAgree_of_missing hs haccess partition
  | ok _ => exact readsAgree_of_found hs haccess partition

/-- Queries and reads agree in every store that calls lead to, for every table and partition key. -/
theorem query_agrees_with_reads (s : AnyStore) (hs : s.Reachable) (table partition : String) :
    s.ReadsAgree table partition := by
  have hsound : s.Sound := hs.sound
  exact readsAgree hsound table partition

end Reads

private def inDock : List BatchOp :=
  [.insert "b" ∅, .insert "a" (SortedMap.empty.insert "x" (.bool true))]

private def inSiblingDock : List BatchOp := [.insert "c" ∅]

private def emptyHarbour : DurableStore := { config := {} }

/-- Two ships are in the dock, and a third one in a dock whose key begins with that dock's. -/
private def harbour : DurableStore :=
  ((emptyHarbour.submit "Ships" "dock" inDock none).2.submit "Ships" "dock1" inSiblingDock none).2

private theorem reachable_harbour : (AnyStore.durable harbour).Reachable := by
  have hempty : (AnyStore.durable emptyHarbour).Reachable := .empty rfl
  have hdock : (AnyStore.durable (emptyHarbour.submit "Ships" "dock" inDock none).2).Reachable :=
    .call hempty (.submit "Ships" "dock" inDock none) (by decide +kernel)
  exact .call hdock (.submit "Ships" "dock1" inSiblingDock none) (by decide +kernel)

theorem query_agrees_with_reads_harbour :
    (AnyStore.durable harbour).Reachable ∧ (AnyStore.durable harbour).ReadsAgree "Ships" "dock" ∧
      (harbour.query "Ships" "dock").map (·.map (·.key.row)) = .ok ["a", "b"] := by
  have hagree := query_agrees_with_reads (.durable harbour) reachable_harbour "Ships" "dock"
  exact ⟨reachable_harbour, hagree, by decide +kernel⟩

theorem read_ne_serialization {s : AnyStore} (hs : s.Sound) (table partition row detail : String) :
    TableStore.read s table partition row ≠ .error (.serialization detail) := by
  rw [read_eq hs]
  cases haccess : s.access table with
  | error e =>
    rw [eq_of_access_error haccess]
    simp [Except.map]
  | ok _ => simp [Except.map]

theorem query_ne_serialization {s : AnyStore} (hs : s.Sound) (table partition detail : String) :
    TableStore.query s table partition ≠ .error (.serialization detail) := by
  rcases (readsAgree hs table partition).answered with hmissing | ⟨es, hes⟩
  · simp [hmissing]
  · simp [hes]

/-- Nothing that is stored makes a batch fail. -/
theorem submit_ne_serialization {s : AnyStore} (hs : s.Sound) (table partition : String)
    (ops : List BatchOp) (timeLeft : Option Duration) (detail : String) :
    (TableStore.submit s table partition ops timeLeft).1 ≠ .error (.serialization detail) := by
  have hcases := settled hs table partition ops timeLeft
  generalize (TableStore.submit s table partition ops timeLeft).1 = answer,
    (TableStore.submit s table partition ops timeLeft).2 = s' at hcases ⊢
  cases hcases with
  | refused hrefused =>
    rcases Batch.eq_of_accept_error hrefused with ⟨fault, rfl⟩ | rfl
    · simp
    · simp
  | missing haccept hmissing =>
    rw [eq_of_access_error hmissing]
    simp
  | rejected haccept hfound hstage =>
    have hdecided := decided_of_stage_error hstage
    cases hdecided with
    | rejected => simp
  | late => simp
  | applied => simp

end AnyStore

namespace Database

/-- An entry of a database as it is found: its key is decoded to a well-named place of a registered
table, which is encoded as that key, and its bytes to a row. -/
structure Readable (d : Database) (key bytes : List UInt8) (id : RowId) (r : Row) : Prop where
  decoded : PhysicalKey.decode? key = some (id.table, id.partition, id.row)
  registered : d.isRegistered id.table = true
  table_valid : ValidTableName id.table
  partition_valid : ValidKey id.partition
  row_valid : ValidKey id.row
  encoded : PhysicalKey.encode id.table id.partition id.row = key
  content : decodeRow bytes = .ok r

theorem Holds.readable {d : Database} {key bytes : List UInt8} {id : RowId} {r : Row}
    (h : d.Holds key bytes id r) : d.Readable key bytes id r where
  decoded := by
    rw [h.key_eq]
    exact PhysicalKey.decode?_encode h.table_valid.zero_notMem h.partition_valid.zero_notMem id.row
  registered := h.registered
  table_valid := h.table_valid
  partition_valid := h.partition_valid
  row_valid := h.row_valid
  encoded := h.key_eq.symm
  content := by
    rw [h.bytes_eq, decodeRow_eq_ok_iff]
    exact Row.decode?_encode h.fits

end Database

namespace DurableStore

section Covers

variable {s : DurableStore} {table partition : String}

/-- What a query lists stands in the order of the partition's range, with nothing passed over. -/
theorem query_covers (h : s.database.WellFormed) {es : List Entity}
    (hes : s.query table partition = .ok es) :
    es.map (fun e => PhysicalKey.encode table partition e.key.row) =
      (s.database.rows.filterKeys (PhysicalKey.inPartition table partition)).keys := by
  obtain ⟨rows, hrows, hentries⟩ := exists_range h table partition
  have hlisted : es = rows.map fun e => e.2.at ⟨partition, e.1⟩ := by
    unfold query at hes
    cases hreadable : s.isReadable table with
    | error e => simp [hreadable] at hes
    | ok readable =>
      have hregistered := isRegistered_of_isReadable hreadable
      rw [hreadable] at hes
      cases readable with
      | false =>
        -- rows stand in registered tables only, so there are none in the range either
        have hnone : rows = [] := by
          apply List.eq_nil_iff_forall_not_mem.2
          intro e he
          have hrow := hrows e he
          rw [h.row?_eq_none hregistered] at hrow
          cases hrow
        rw [hnone]
        exact (Except.ok.inj hes).symm
      | true =>
        rw [← hentries, entitiesOf_encoded h hrows] at hes
        exact (Except.ok.inj hes).symm
  rw [hlisted, SortedMap.keys, ← hentries, List.map_map, List.map_map]
  rfl

end Covers

/-- Nothing in the database is malformed, and no call finds it so. -/
structure NothingMalformed (s : DurableStore) : Prop where
  entry : ∀ key bytes, s.database.rows.get? key = some bytes →
    ∃ id r, s.database.Readable key bytes id r
  read : ∀ table partition row detail,
    s.read table partition row ≠ .error (.serialization detail)
  query : ∀ table partition detail, s.query table partition ≠ .error (.serialization detail)
  submit : ∀ table partition ops timeLeft detail,
    (s.submit table partition ops timeLeft).1 ≠ .error (.serialization detail)
  covers : ∀ table partition es, s.query table partition = .ok es →
    es.map (fun e => PhysicalKey.encode table partition e.key.row) =
      (s.database.rows.filterKeys (PhysicalKey.inPartition table partition)).keys

/-- A durable store holds nothing malformed, whatever calls have been made of it since its database
was empty. -/
theorem nothing_malformed (s : DurableStore) (hs : (AnyStore.durable s).Reachable) :
    s.NothingMalformed := by
  have hsound : s.database.WellFormed := hs.sound
  constructor
  case entry =>
    intro key bytes hget
    obtain ⟨id, r, hholds⟩ := hsound key bytes hget
    exact ⟨id, r, hholds.readable⟩
  case read =>
    intro table partition row detail
    have hread := AnyStore.read_ne_serialization hs.sound table partition row detail
    exact hread
  case query =>
    intro table partition detail
    have hquery := AnyStore.query_ne_serialization hs.sound table partition detail
    exact hquery
  case submit =>
    intro table partition ops timeLeft detail
    have hsubmit := AnyStore.submit_ne_serialization hs.sound table partition ops timeLeft detail
    exact hsubmit
  case covers =>
    intro table partition es hes
    exact query_covers hsound hes

theorem nothing_malformed_harbour :
    (AnyStore.durable AnyStore.harbour).Reachable ∧ AnyStore.harbour.NothingMalformed ∧
      AnyStore.harbour.database.rows.size = 3 := by
  have hsound := nothing_malformed AnyStore.harbour AnyStore.reachable_harbour
  exact ⟨AnyStore.reachable_harbour, hsound, by decide +kernel⟩

end DurableStore

end UnitOfWork
