import UnitOfWork.Proofs.Batch.Check
import UnitOfWork.Proofs.Batch.Staging
import UnitOfWork.Proofs.Store.Call
import UnitOfWork.Store.Memory

/-! What a submission does to the memory store, told by the rows that stand in it. -/

namespace UnitOfWork.MemoryStore

/-- The row that stands at a place. -/
def row? (s : MemoryStore) (id : RowId) : Option Row :=
  (s.tables.get? id.table).bind (·.get? ⟨id.partition, id.row⟩)

/-- The rows of a partition, as staging looks them up. -/
def rowIn (s : MemoryStore) (table partition row : String) : Except StorageError (Option Row) :=
  .ok (s.row? ⟨table, partition, row⟩)

/-- The count of versions that a submission draws. -/
def draws (s : MemoryStore) (table partition : String) (ops : List BatchOp) : Nat :=
  match Batch.accept s.config.limits table partition ops, s.rowsOf table with
  | .ok (), .ok _ => Batch.draws (s.rowIn table partition) ops
  | _, _ => 0

/-- A table that is not there is looked at as an empty one. -/
theorem eq_of_rowsOf {s : MemoryStore} {table : String} {rows : TableRows}
    (h : s.rowsOf table = .ok rows) : rows = (s.tables.get? table).getD ∅ := by
  unfold rowsOf at h
  split at h
  · rename_i found
    cases h
    rw [found]
    rfl
  · rename_i found
    split at h
    · cases h
      rw [found]
      rfl
    · cases h

theorem get?_of_rowsOf {s : MemoryStore} {table : String} {rows : TableRows}
    (h : s.rowsOf table = .ok rows) (partition row : String) :
    rows.get? ⟨partition, row⟩ = s.row? ⟨table, partition, row⟩ := by
  rw [eq_of_rowsOf h, row?]
  cases s.tables.get? table <;> rfl

/-- A table that would not be created is there. -/
theorem contains_of_rowsOf {s : MemoryStore} {table : String} {rows : TableRows}
    (h : s.rowsOf table = .ok rows) (hcreate : s.config.createTableIfMissing = false) :
    s.tables.contains table = true := by
  unfold rowsOf at h
  rw [SortedMap.contains]
  split at h
  · rename_i found
    rw [found]
    rfl
  · rw [hcreate] at h
    cases h

theorem row?_of_read {s : MemoryStore} {table partition row : String} {e : Entity}
    (h : s.read table partition row = .ok (some e)) :
    ∃ r, s.row? ⟨table, partition, row⟩ = some r ∧ r.at ⟨partition, row⟩ = e := by
  unfold read at h
  cases hrows : s.rowsOf table with
  | error f => simp [hrows, Except.map] at h
  | ok rows =>
    rw [hrows] at h
    obtain ⟨r, hr, he⟩ := Option.map_eq_some_iff.1 (Except.ok.inj h)
    rw [get?_of_rowsOf hrows] at hr
    exact ⟨r, hr, he⟩

/-- A new table has no rows. -/
theorem row?_ensureTable (s : MemoryStore) (table : String) (id : RowId) :
    (s.ensureTable table).2.row? id = s.row? id := by
  unfold ensureTable
  cases checkTableName table with
  | error fault => rfl
  | ok _ =>
    by_cases hexists : s.tables.contains table = true
    · rw [if_pos hexists]
    · have hnone : s.tables.get? table = none := by simpa [SortedMap.contains] using hexists
      rw [if_neg hexists, row?, row?, SortedMap.get?_insert]
      by_cases hid : id.table = table
      · rw [if_pos hid, hid, hnone]
        rfl
      · rw [if_neg hid]

theorem version_ensureTable (s : MemoryStore) (table : String) :
    (s.ensureTable table).2.version = s.version := by
  unfold ensureTable
  split
  · rfl
  · split <;> rfl

theorem config_ensureTable (s : MemoryStore) (table : String) :
    (s.ensureTable table).2.config = s.config := by
  unfold ensureTable
  split
  · rfl
  · split <;> rfl

theorem contains_ensureTable (s : MemoryStore) {table : String} (h : ValidTableName table)
    (other : String) :
    (s.ensureTable table).2.tables.contains other =
      (decide (other = table) || s.tables.contains other) := by
  rw [ensureTable, checkTableName_eq_ok_iff.2 h]
  by_cases hexists : s.tables.contains table = true
  · simp only [if_pos hexists]
    by_cases hother : other = table
    · simp [hother, hexists]
    · simp [hother]
  · simp only [if_neg hexists, SortedMap.contains_insert]

theorem eq_of_rowsOf_error {s : MemoryStore} {table : String} {e : StorageError}
    (h : s.rowsOf table = .error e) : e = .tableNotFound table := by
  unfold rowsOf at h
  split at h
  · cases h
  split at h
  · cases h
  · cases h
    rfl

theorem isAmbiguous_of_rowsOf {s : MemoryStore} {table : String} {e : StorageError}
    (h : s.rowsOf table = .error e) : e.isAmbiguous = false := by
  rw [eq_of_rowsOf_error h]
  rfl

/-- All that a submission can come to. -/
inductive Submitted (s : MemoryStore) (table partition : String) (ops : List BatchOp)
    (timeLeft : Option Duration) :
    Except StorageError (List (Option Token)) → MemoryStore → Prop
  | refused {e : StorageError} (h : Batch.accept s.config.limits table partition ops = .error e) :
      Submitted s table partition ops timeLeft (.error e) s
  | missing {e : StorageError} (haccept : Batch.accept s.config.limits table partition ops = .ok ())
      (h : s.rowsOf table = .error e) : Submitted s table partition ops timeLeft (.error e) s
  | rejected {rows : TableRows} {e : StorageError} {version : UInt64}
      (haccept : Batch.accept s.config.limits table partition ops = .ok ())
      (hrows : s.rowsOf table = .ok rows)
      (hstage : Batch.stage (s.rowIn table partition) 0 s.version ops = (.error e, version)) :
      Submitted s table partition ops timeLeft (.error e)
        { s with tables := s.tables.insert table rows, version }
  | applied {rows : TableRows} {writes : Batch.Writes}
      (haccept : Batch.accept s.config.limits table partition ops = .ok ())
      (hrows : s.rowsOf table = .ok rows)
      (hstages : Batch.Stages (s.rowIn table partition) s.version ops writes) :
      Submitted s table partition ops timeLeft
        (if missesDeadline (s.config.responseLatency.getD ⟨0, 0⟩) timeLeft then
          .error (.timeout (s.config.responseLatency.getD ⟨0, 0⟩))
        else .ok (Batch.tokens writes))
        { s with
          tables := s.tables.insert table (rows.write partition writes)
          version := s.version + UInt64.ofNat ops.length }

section Submit

variable {s : MemoryStore} {table partition : String} {ops : List BatchOp} {rows : TableRows}
  {e : StorageError}

theorem submit_of_refused (h : Batch.accept s.config.limits table partition ops = .error e)
    (timeLeft : Option Duration) : s.submit table partition ops timeLeft = (.error e, s) := by
  rw [submit, h]

theorem submit_of_missing (haccept : Batch.accept s.config.limits table partition ops = .ok ())
    (h : s.rowsOf table = .error e) (timeLeft : Option Duration) :
    s.submit table partition ops timeLeft = (.error e, s) := by
  rw [submit, haccept, h]

private theorem rowIn_eq (hrows : s.rowsOf table = .ok rows) (partition : String) :
    (fun row => Except.ok (rows.get? ⟨partition, row⟩)) = s.rowIn table partition :=
  funext fun row => congrArg _ (get?_of_rowsOf hrows partition row)

theorem submit_of_rejected (haccept : Batch.accept s.config.limits table partition ops = .ok ())
    (hrows : s.rowsOf table = .ok rows) {version : UInt64}
    (hstage : Batch.stage (s.rowIn table partition) 0 s.version ops = (.error e, version))
    (timeLeft : Option Duration) :
    s.submit table partition ops timeLeft =
      (.error e, { s with tables := s.tables.insert table rows, version }) := by
  rw [submit, haccept, hrows]
  dsimp only
  rw [rowIn_eq hrows, hstage]

theorem submit_of_stages (haccept : Batch.accept s.config.limits table partition ops = .ok ())
    (hrows : s.rowsOf table = .ok rows) {writes : Batch.Writes}
    (hstages : Batch.Stages (s.rowIn table partition) s.version ops writes)
    (timeLeft : Option Duration) :
    s.submit table partition ops timeLeft =
      (if missesDeadline (s.config.responseLatency.getD ⟨0, 0⟩) timeLeft then
          .error (.timeout (s.config.responseLatency.getD ⟨0, 0⟩))
        else .ok (Batch.tokens writes),
        { s with
          tables := s.tables.insert table (rows.write partition writes)
          version := s.version + UInt64.ofNat ops.length }) := by
  have hstage : Batch.stage (s.rowIn table partition) 0 s.version ops =
      (.ok writes, s.version + UInt64.ofNat ops.length) := hstages.stage_eq 0
  rw [submit, haccept, hrows]
  dsimp only
  rw [rowIn_eq hrows, hstage]
  dsimp only
  split <;> rfl

end Submit

theorem submitted (s : MemoryStore) (table partition : String) (ops : List BatchOp)
    (timeLeft : Option Duration) :
    Submitted s table partition ops timeLeft (s.submit table partition ops timeLeft).1
      (s.submit table partition ops timeLeft).2 := by
  cases haccept : Batch.accept s.config.limits table partition ops with
  | error e =>
    rw [submit_of_refused haccept]
    exact .refused haccept
  | ok _ =>
    cases hrows : s.rowsOf table with
    | error e =>
      rw [submit_of_missing haccept hrows]
      exact .missing haccept hrows
    | ok rows =>
      cases hstage : Batch.stage (s.rowIn table partition) 0 s.version ops with
      | mk staged version =>
        cases staged with
        | error e =>
          rw [submit_of_rejected haccept hrows hstage]
          exact .rejected haccept hrows hstage
        | ok writes =>
          have hstages := Batch.stage_fst_eq_ok_iff.1 (congrArg Prod.fst hstage)
          rw [submit_of_stages haccept hrows hstages]
          exact .applied haccept hrows hstages

theorem config_submit (s : MemoryStore) (table partition : String) (ops : List BatchOp)
    (timeLeft : Option Duration) :
    (s.submit table partition ops timeLeft).2.config = s.config := by
  have hcases := s.submitted table partition ops timeLeft
  generalize s.submit table partition ops timeLeft = submitted at hcases ⊢
  obtain ⟨answer, s'⟩ := submitted
  dsimp only at hcases ⊢
  cases hcases <;> rfl

/-- Every version that a submission draws is used up, whatever the answer. -/
theorem version_submit (s : MemoryStore) (table partition : String) (ops : List BatchOp)
    (timeLeft : Option Duration) :
    (s.submit table partition ops timeLeft).2.version =
      s.version + UInt64.ofNat (s.draws table partition ops) := by
  have hcases := s.submitted table partition ops timeLeft
  generalize s.submit table partition ops timeLeft = submitted at hcases ⊢
  obtain ⟨answer, s'⟩ := submitted
  dsimp only at hcases ⊢
  unfold draws
  cases hcases with
  | refused hrefused => simp [hrefused]
  | missing haccept hrows => simp [haccept, hrows]
  | rejected haccept hrows hstage =>
    rw [haccept, hrows]
    exact (congrArg Prod.snd hstage).symm.trans (Batch.stage_snd ..)
  | applied haccept hrows hstages => rw [haccept, hrows, hstages.draws_eq]

theorem eq_of_stage_error {s : MemoryStore} {table partition : String} {ops : List BatchOp}
    {e : StorageError} {version : UInt64}
    (h : Batch.stage (s.rowIn table partition) 0 s.version ops = (.error e, version)) :
    ∃ index row reason, e = .batchRejected index row reason := by
  obtain ⟨before, op, _, _, _, hstop⟩ := Batch.stage_fst_eq_error_iff.1 (congrArg Prod.fst h)
  obtain ⟨reason, _, rfl⟩ := Option.map_eq_some_iff.1 hstop
  exact ⟨_, op.row, reason, rfl⟩

theorem isAmbiguous_of_stage {s : MemoryStore} {table partition : String} {ops : List BatchOp}
    {e : StorageError} {version : UInt64}
    (h : Batch.stage (s.rowIn table partition) 0 s.version ops = (.error e, version)) :
    e.isAmbiguous = false := by
  obtain ⟨index, row, reason, rfl⟩ := eq_of_stage_error h
  rfl

section Rows

variable {s : MemoryStore} {table partition : String} {rows : TableRows}

/-- A table that is put back as it was, or put in empty, changes no row. -/
theorem row?_insert_rowsOf (h : s.rowsOf table = .ok rows) (version : UInt64) (id : RowId) :
    ({ s with tables := s.tables.insert table rows, version } : MemoryStore).row? id =
      s.row? id := by
  by_cases hid : id.table = table
  · subst hid
    rw [row?, SortedMap.get?_insert_self]
    exact get?_of_rowsOf h id.partition id.row
  · rw [row?, SortedMap.get?_insert, if_neg hid, row?]

/-- Writes take the place of the rows that they name, in their own partition. -/
theorem row?_write (h : s.rowsOf table = .ok rows) {writes : Batch.Writes}
    (hnodup : (writes.map (·.1)).Nodup) (version : UInt64) (id : RowId) :
    ({ s with tables := s.tables.insert table (rows.write partition writes), version } :
        MemoryStore).row? id =
      if id.table = table ∧ id.partition = partition then
        (writes.lookup id.row).getD (s.row? id)
      else s.row? id := by
  have hwrite : rows.write partition writes =
      Batch.install (⟨partition, ·⟩) (fun r => r) rows writes := rfl
  by_cases htable : id.table = table
  · subst htable
    rw [row?, SortedMap.get?_insert_self, Option.bind_some, hwrite]
    by_cases hpartition : id.partition = partition
    · subst hpartition
      have hkey : Function.Injective fun row => EntityKey.mk id.partition row := fun a b he => by
        simpa using he
      rw [if_pos ⟨rfl, rfl⟩, Batch.get?_install hkey _ hnodup, get?_of_rowsOf h]
      cases writes.lookup id.row <;> simp
    · rw [if_neg fun hid => hpartition hid.2, Batch.get?_install_of_ne, get?_of_rowsOf h]
      intro w _ he
      exact hpartition (congrArg EntityKey.partition he)
  · rw [if_neg fun hid => htable hid.1, row?, SortedMap.get?_insert, if_neg htable, row?]

end Rows

end UnitOfWork.MemoryStore
