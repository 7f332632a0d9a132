import UnitOfWork.Proofs.Batch.Check
import UnitOfWork.Proofs.Batch.Staging
import UnitOfWork.Proofs.Store.Call
import UnitOfWork.Proofs.Store.PhysicalKey
import UnitOfWork.Store.Durable

/-! What a submission does to the durable store, told by the bytes that stand at each place. -/

namespace UnitOfWork

namespace Database

variable (d : Database)

/-- The bytes that are stored for a row. -/
def stored? (id : RowId) : Option (List UInt8) :=
  d.rows.get? (PhysicalKey.encode id.table id.partition id.row)

/-- The rows of a partition, as staging looks them up. -/
def rowIn (table partition row : String) : Except StorageError (Option Row) :=
  d.rowAt (PhysicalKey.encode table partition row)

theorem decodeRow_eq_ok_iff {bytes : List UInt8} {r : Row} :
    decodeRow bytes = .ok r ↔ Row.decode? bytes = some r := by
  unfold decodeRow
  cases Row.decode? bytes <;> simp

/-- What staging finds at a place is decoded from the bytes that are stored there. -/
theorem rowIn_eq_ok_iff {table partition row : String} {existing : Option Row} :
    d.rowIn table partition row = .ok existing ↔
      (d.stored? ⟨table, partition, row⟩ = none ∧ existing = none) ∨
        ∃ bytes r, d.stored? ⟨table, partition, row⟩ = some bytes ∧ Row.decode? bytes = some r ∧
          existing = some r := by
  rw [rowIn, rowAt, stored?]
  cases d.rows.get? (PhysicalKey.encode table partition row) with
  | none => simp [eq_comm]
  | some bytes =>
    cases hrow : decodeRow bytes with
    | error e =>
      have hnone : ∀ r, Row.decode? bytes ≠ some r := fun r hr => by
        rw [decodeRow_eq_ok_iff.2 hr] at hrow
        cases hrow
      simp [Except.map, hrow, hnone]
    | ok r =>
      have hdecode := decodeRow_eq_ok_iff.1 hrow
      simp [Except.map, hrow, hdecode, eq_comm]

@[simp] theorem rows_register (table : String) : (d.register table).rows = d.rows := by
  unfold register
  split <;> rfl

@[simp] theorem version_register (table : String) : (d.register table).version = d.version := by
  unfold register
  split <;> rfl

theorem isRegistered_register (table other : String) :
    (d.register table).isRegistered other = (decide (other = table) || d.isRegistered other) := by
  unfold register
  by_cases h : d.isRegistered table = true
  · rw [if_pos h]
    by_cases hother : other = table
    · simp [hother, h]
    · simp [hother]
  · rw [if_neg h]
    exact SortedMap.contains_insert ..

/-- The database after a batch: its table is registered, its writes and its last version stand. -/
def commit (table partition : String) (writes : Batch.Writes) (version : UInt64) : Database :=
  let d' := (d.register table).write table partition writes
  { d' with counters := d'.counters.insert versionCounter version }

theorem version_commit (table partition : String) (writes : Batch.Writes) (version : UInt64) :
    (d.commit table partition writes version).version = version := by
  simp [commit, Database.version]

/-- One after the other, two batches in a partition leave what one batch with the writes of both
does. -/
theorem commit_commit (table partition : String) (writes later : Batch.Writes)
    (version last : UInt64) :
    (d.commit table partition writes version).commit table partition later last =
      d.commit table partition (writes ++ later) last := by
  have hregistered : (d.commit table partition writes version).isRegistered table = true := by
    refine (d.isRegistered_register table table).trans ?_
    simp
  have hregister : (d.commit table partition writes version).register table =
      d.commit table partition writes version := by
    rw [register, if_pos hregistered]
  rw [commit, hregister]
  show Database.mk _ _ _ = Database.mk _ _ _
  congr 1
  · exact List.foldl_append.symm
  · exact SortedMap.insert_insert ..

/-- An entry after a batch was there before it, or the batch has written it. -/
theorem get?_rows_commit {table partition : String} {writes : Batch.Writes}
    (hnodup : (writes.map (·.1)).Nodup) {version : UInt64} {key bytes : List UInt8}
    (h : (d.commit table partition writes version).rows.get? key = some bytes) :
    d.rows.get? key = some bytes ∨ ∃ w ∈ writes, ∃ r,
      writes.lookup w.1 = some (some r) ∧ bytes = r.encode ∧
        key = PhysicalKey.encode table partition w.1 := by
  change (Batch.install (PhysicalKey.encode table partition) Row.encode (d.register table).rows
    writes).get? key = some bytes at h
  by_cases hkey : ∃ w ∈ writes, key = PhysicalKey.encode table partition w.1
  · obtain ⟨w, hw, rfl⟩ := hkey
    rw [Batch.get?_install (PhysicalKey.encode_row_injective _ _) _ hnodup] at h
    cases hlookup : writes.lookup w.1 with
    | none =>
      have hne := List.lookup_eq_none_iff.1 hlookup w hw
      simp at hne
    | some written =>
      rw [hlookup] at h
      obtain ⟨r, rfl, rfl⟩ := Option.map_eq_some_iff.1 h
      exact .inr ⟨w, hw, r, hlookup, rfl, rfl⟩
  · rw [Batch.get?_install_of_ne _ fun w hw he => hkey ⟨w, hw, he⟩, rows_register] at h
    exact .inl h

/-- Writes take the place of the rows that they name, in their own partition. -/
theorem stored?_commit {table partition : String} {writes : Batch.Writes}
    (htable : ValidTableName table) (hpartition : ValidKey partition)
    (hrows : ∀ w ∈ writes, ValidKey w.1) (hnodup : (writes.map (·.1)).Nodup) (version : UInt64)
    (id : RowId) :
    (d.commit table partition writes version).stored? id =
      if id.table = table ∧ id.partition = partition then
        match writes.lookup id.row with
        | some written => written.map Row.encode
        | none => d.stored? id
      else d.stored? id := by
  have hcommit : (d.commit table partition writes version).rows =
      Batch.install (PhysicalKey.encode table partition) Row.encode (d.register table).rows
        writes := rfl
  rw [stored?, hcommit, rows_register]
  split
  · rename_i hid
    obtain ⟨rfl, rfl⟩ := hid
    rw [Batch.get?_install (PhysicalKey.encode_row_injective _ _) _ hnodup]
    rfl
  · rename_i hid
    rw [Batch.get?_install_of_ne, stored?]
    intro w hw he
    obtain ⟨h1, h2, _⟩ := PhysicalKey.encode_inj htable.zero_notMem hpartition.zero_notMem
      (hrows w hw).zero_notMem he
    exact hid ⟨h1, h2⟩

end Database

namespace DurableStore

theorem stored?_of_read {s : DurableStore} {table partition row : String} {e : Entity}
    (h : s.read table partition row = .ok (some e)) :
    ∃ bytes r, s.database.stored? ⟨table, partition, row⟩ = some bytes ∧
      Row.decode? bytes = some r ∧ r.at ⟨partition, row⟩ = e := by
  unfold read at h
  split at h
  · cases h
  · cases h
  · change (s.database.rowIn table partition row).map _ = _ at h
    cases hrow : s.database.rowIn table partition row with
    | error f => simp [hrow, Except.map] at h
    | ok existing =>
      rw [hrow] at h
      obtain ⟨r, rfl, he⟩ := Option.map_eq_some_iff.1 (Except.ok.inj h)
      rcases s.database.rowIn_eq_ok_iff.1 hrow with ⟨_, hnone⟩ | ⟨bytes, r', hstored, hr, hsome⟩
      · cases hnone
      · obtain rfl := Option.some.inj hsome
        exact ⟨bytes, r, hstored, hr, he⟩

/-- The count of versions that a submission draws, also if its transaction is rolled back. -/
def draws (s : DurableStore) (table partition : String) (ops : List BatchOp) : Nat :=
  match Batch.accept s.config.limits table partition ops, s.isReadable table with
  | .ok (), .ok _ => Batch.draws (s.database.rowIn table partition) ops
  | _, _ => 0

/-- All that a submission can come to. -/
inductive Submitted (s : DurableStore) (table partition : String) (ops : List BatchOp)
    (timeLeft : Option Duration) :
    Except StorageError (List (Option Token)) → DurableStore → Prop
  | refused {e : StorageError} (h : Batch.accept s.config.limits table partition ops = .error e) :
      Submitted s table partition ops timeLeft (.error e) s
  | missing {e : StorageError} (haccept : Batch.accept s.config.limits table partition ops = .ok ())
      (h : s.isReadable table = .error e) : Submitted s table partition ops timeLeft (.error e) s
  | rejected {readable : Bool} {e : StorageError} {version : UInt64}
      (haccept : Batch.accept s.config.limits table partition ops = .ok ())
      (hreadable : s.isReadable table = .ok readable)
      (hstage : Batch.stage (s.database.rowIn table partition) 0 s.database.version ops =
        (.error e, version)) :
      Submitted s table partition ops timeLeft (.error e) s
  | expired {readable : Bool} {writes : Batch.Writes}
      (haccept : Batch.accept s.config.limits table partition ops = .ok ())
      (hreadable : s.isReadable table = .ok readable)
      (hstages : Batch.Stages (s.database.rowIn table partition) s.database.version ops writes)
      (hlate : missesDeadline ⟨0, 0⟩ timeLeft = true) :
      Submitted s table partition ops timeLeft (.error (.timeout ⟨0, 0⟩)) s
  | applied {readable : Bool} {writes : Batch.Writes}
      (haccept : Batch.accept s.config.limits table partition ops = .ok ())
      (hreadable : s.isReadable table = .ok readable)
      (hstages : Batch.Stages (s.database.rowIn table partition) s.database.version ops writes)
      (hlate : missesDeadline ⟨0, 0⟩ timeLeft = false) :
      Submitted s table partition ops timeLeft (.ok (Batch.tokens writes))
        { s with
          database := s.database.commit table partition writes
            (s.database.version + UInt64.ofNat ops.length) }

section Submit

variable {s : DurableStore} {table partition : String} {ops : List BatchOp} {readable : Bool}
  {e : StorageError}

theorem submit_of_refused (h : Batch.accept s.config.limits table partition ops = .error e)
    (timeLeft : Option Duration) : s.submit table partition ops timeLeft = (.error e, s) := by
  rw [submit, h]

theorem submit_of_missing (haccept : Batch.accept s.config.limits table partition ops = .ok ())
    (h : s.isReadable table = .error e) (timeLeft : Option Duration) :
    s.submit table partition ops timeLeft = (.error e, s) := by
  rw [submit, haccept, transact, h]

private theorem rowIn_eq (d : Database) (table partition : String) :
    (fun row => (d.register table).rowAt (PhysicalKey.encode table partition row)) =
      d.rowIn table partition := by
  funext row
  simp [Database.rowIn, Database.rowAt]

theorem submit_of_rejected (haccept : Batch.accept s.config.limits table partition ops = .ok ())
    (hreadable : s.isReadable table = .ok readable) {version : UInt64}
    (hstage : Batch.stage (s.database.rowIn table partition) 0 s.database.version ops =
      (.error e, version)) (timeLeft : Option Duration) :
    s.submit table partition ops timeLeft = (.error e, s) := by
  rw [submit, haccept, transact, hreadable]
  dsimp only
  rw [rowIn_eq, Database.version_register, hstage]

theorem submit_of_stages (haccept : Batch.accept s.config.limits table partition ops = .ok ())
    (hreadable : s.isReadable table = .ok readable) {writes : Batch.Writes}
    (hstages : Batch.Stages (s.database.rowIn table partition) s.database.version ops writes)
    (timeLeft : Option Duration) :
    s.submit table partition ops timeLeft =
      if missesDeadline ⟨0, 0⟩ timeLeft then (.error (.timeout ⟨0, 0⟩), s)
      else (.ok (Batch.tokens writes),
        { s with
          database := s.database.commit table partition writes
            (s.database.version + UInt64.ofNat ops.length) }) := by
  have hstage : Batch.stage (s.database.rowIn table partition) 0 s.database.version ops =
      (.ok writes, s.database.version + UInt64.ofNat ops.length) := hstages.stage_eq 0
  rw [submit, haccept, transact, hreadable]
  dsimp only
  rw [rowIn_eq, Database.version_register, hstage]
  rfl

end Submit

theorem submitted (s : DurableStore) (table partition : String) (ops : List BatchOp)
    (timeLeft : Option Duration) :
    Submitted s table partition ops timeLeft (s.submit table partition ops timeLeft).1
      (s.submit table partition ops timeLeft).2 := by
  cases haccept : Batch.accept s.config.limits table partition ops with
  | error e =>
    rw [submit_of_refused haccept]
    exact .refused haccept
  | ok _ =>
    cases hreadable : s.isReadable table with
    | error e =>
      rw [submit_of_missing haccept hreadable]
      exact .missing haccept hreadable
    | ok readable =>
      cases hstage : Batch.stage (s.database.rowIn table partition) 0 s.database.version ops with
      | mk staged version =>
        cases staged with
        | error e =>
          rw [submit_of_rejected haccept hreadable hstage]
          exact .rejected haccept hreadable hstage
        | ok writes =>
          have hstages := Batch.stage_fst_eq_ok_iff.1 (congrArg Prod.fst hstage)
          rw [submit_of_stages haccept hreadable hstages]
          cases hlate : missesDeadline ⟨0, 0⟩ timeLeft with
          | true => exact .expired haccept hreadable hstages hlate
          | false => exact .applied haccept hreadable hstages hlate

theorem config_submit (s : DurableStore) (table partition : String) (ops : List BatchOp)
    (timeLeft : Option Duration) :
    (s.submit table partition ops timeLeft).2.config = s.config := by
  have hcases := s.submitted table partition ops timeLeft
  generalize s.submit table partition ops timeLeft = submitted at hcases ⊢
  obtain ⟨answer, s'⟩ := submitted
  dsimp only at hcases ⊢
  cases hcases <;> rfl

theorem config_ensureTable (s : DurableStore) (table : String) :
    (s.ensureTable table).2.config = s.config := by
  unfold ensureTable
  split <;> rfl

/-- The versions that a submission draws are kept if its batch is applied. -/
theorem version_submit (s : DurableStore) (table partition : String) (ops : List BatchOp)
    (timeLeft : Option Duration) :
    (s.submit table partition ops timeLeft).2.database.version = s.database.version ∨
      (s.submit table partition ops timeLeft).2.database.version =
        s.database.version + UInt64.ofNat (s.draws table partition ops) := by
  have hcases := s.submitted table partition ops timeLeft
  generalize s.submit table partition ops timeLeft = submitted at hcases ⊢
  obtain ⟨answer, s'⟩ := submitted
  dsimp only at hcases ⊢
  cases hcases with
  | refused => exact .inl rfl
  | missing => exact .inl rfl
  | rejected => exact .inl rfl
  | expired => exact .inl rfl
  | applied haccept hreadable hstages =>
    right
    rw [draws, haccept, hreadable, ← hstages.draws_eq]
    exact Database.version_commit ..

end DurableStore

end UnitOfWork
