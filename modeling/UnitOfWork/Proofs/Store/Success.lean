import UnitOfWork.Proofs.Store.Reachable

/-!
When a batch is answered with tokens, and what store it then leaves, told of the store as a whole:
the rows as they are kept and the last version drawn.
-/

namespace UnitOfWork.AnyStore

/-- The rows of a partition as staging looks them up. -/
def rowFound : AnyStore → (table partition row : String) → Except StorageError (Option Row)
  | .memory s => s.rowIn
  | .durable s => s.database.rowIn

/-- The store after a batch with these writes, which has drawn this version last. -/
def carryOut (s : AnyStore) (table partition : String) (writes : Batch.Writes) (version : UInt64) :
    AnyStore :=
  match s with
  | .memory s =>
    .memory { s with
      tables := s.tables.insert table (((s.tables.get? table).getD ∅).write partition writes)
      version }
  | .durable s => .durable { s with database := s.database.commit table partition writes version }

section CarryOut

variable (s : AnyStore) (table partition : String) (writes : Batch.Writes) (version : UInt64)

@[simp] theorem limits_carryOut :
    TableStore.limits (s.carryOut table partition writes version) = TableStore.limits s := by
  cases s <;> rfl

@[simp] theorem version_carryOut :
    (s.carryOut table partition writes version).ledger.version = version := by
  cases s with
  | memory s => rfl
  | durable s => exact s.database.version_commit table partition writes version

theorem access_carryOut : (s.carryOut table partition writes version).access table = .ok () := by
  cases s with
  | memory s =>
    unfold carryOut
    rw [access_memory_eq_ok_iff, MemoryStore.rowsOf, SortedMap.get?_insert_self]
    exact ⟨_, rfl⟩
  | durable s =>
    have hregistered : (s.database.commit table partition writes version).isRegistered table =
        (decide (table = table) || s.database.isRegistered table) :=
      s.database.isRegistered_register table table
    unfold carryOut
    rw [access_durable_eq_ok_iff, DurableStore.isReadable, if_pos (by simp [hregistered])]
    exact ⟨true, rfl⟩

/-- A row that is not written is found as before. -/
theorem rowFound_carryOut {row : String} (hrow : row ∉ writes.map (·.1)) :
    (s.carryOut table partition writes version).rowFound table partition row =
      s.rowFound table partition row := by
  cases s with
  | memory s =>
    have hne : ∀ w ∈ writes, EntityKey.mk partition row ≠ ⟨partition, w.1⟩ := by
      intro w hw he
      obtain rfl : row = w.1 := congrArg EntityKey.row he
      exact hrow (List.mem_map_of_mem hw)
    have hkept : (((s.tables.get? table).getD ∅).write partition writes).get? ⟨partition, row⟩ =
        ((s.tables.get? table).getD ∅).get? ⟨partition, row⟩ := Batch.get?_install_of_ne _ hne
    show Except.ok (MemoryStore.row? _ _) = Except.ok (s.row? _)
    rw [MemoryStore.row?, SortedMap.get?_insert_self, Option.bind_some, hkept, MemoryStore.row?]
    cases s.tables.get? table <;> rfl
  | durable s =>
    have hne : ∀ w ∈ writes, PhysicalKey.encode table partition row ≠
        PhysicalKey.encode table partition w.1 := by
      intro w hw he
      obtain rfl : row = w.1 := PhysicalKey.encode_row_injective table partition he
      exact hrow (List.mem_map_of_mem hw)
    have hkept : (s.database.commit table partition writes version).rows.get?
        (PhysicalKey.encode table partition row) =
          (s.database.register table).rows.get? (PhysicalKey.encode table partition row) :=
      Batch.get?_install_of_ne _ hne
    show Database.rowAt _ _ = s.database.rowAt _
    rw [Database.rowAt, hkept, Database.rows_register, Database.rowAt]

/-- Operations at other rows are not touched by what has been carried out. -/
theorem stages_carryOut_iff {ops : List BatchOp} (hrows : ∀ op ∈ ops, op.row ∉ writes.map (·.1))
    {first : UInt64} {later : Batch.Writes} :
    Batch.Stages ((s.carryOut table partition writes version).rowFound table partition) first ops
        later ↔ Batch.Stages (s.rowFound table partition) first ops later := by
  have hkept : ∀ op ∈ ops,
      (s.carryOut table partition writes version).rowFound table partition op.row =
        s.rowFound table partition op.row := fun op hop =>
    s.rowFound_carryOut table partition writes version (hrows op hop)
  exact ⟨fun h => h.congr fun op hop => (hkept op hop).symm, fun h => h.congr hkept⟩

/-- Two batches, one after the other, write what one batch with the writes of both does. -/
theorem carryOut_carryOut (later : Batch.Writes) (last : UInt64) :
    (s.carryOut table partition writes version).carryOut table partition later last =
      s.carryOut table partition (writes ++ later) last := by
  cases s with
  | memory s =>
    have hwrites : ∀ rows : TableRows, (rows.write partition writes).write partition later =
        rows.write partition (writes ++ later) := fun rows => (List.foldl_append ..).symm
    unfold carryOut
    dsimp only
    rw [SortedMap.get?_insert_self, Option.getD_some, SortedMap.insert_insert, hwrites]
  | durable s =>
    unfold carryOut
    dsimp only
    rw [s.database.commit_commit]

end CarryOut

section Submit

variable {s s' : AnyStore} {table partition : String} {ops : List BatchOp}
  {tokens : List (Option Token)}

theorem submit_memory_eq_ok_iff {s : MemoryStore} :
    TableStore.submit (AnyStore.memory s) table partition ops none = (.ok tokens, s') ↔
      Batch.accept s.config.limits table partition ops = .ok () ∧
        (AnyStore.memory s).access table = .ok () ∧
        ∃ writes, Batch.Stages (s.rowIn table partition) s.version ops writes ∧
          tokens = Batch.tokens writes ∧
          s' = (AnyStore.memory s).carryOut table partition writes
            (s.version + UInt64.ofNat ops.length) := by
  constructor
  · intro h
    have hanswer : (s.submit table partition ops none).1 = .ok tokens := congrArg Prod.fst h
    have hstore : .memory (s.submit table partition ops none).2 = s' := congrArg Prod.snd h
    have hcases := s.submitted table partition ops none
    rw [hanswer] at hcases
    generalize (s.submit table partition ops none).2 = last at hcases hstore
    generalize hok : (Except.ok tokens : Except StorageError (List (Option Token))) = answer
      at hcases
    cases hcases with
    | refused | missing | rejected => cases hok
    | @applied rows writes haccept hrows hstages =>
      have htokens : tokens = Batch.tokens writes := Except.ok.inj hok
      refine ⟨haccept, access_memory_eq_ok_iff.2 ⟨rows, hrows⟩, writes, hstages, htokens, ?_⟩
      rw [← hstore, MemoryStore.eq_of_rowsOf hrows]
      rfl
  · intro ⟨haccept, hfound, writes, hstages, htokens, hstore⟩
    obtain ⟨rows, hrows⟩ := access_memory_eq_ok_iff.1 hfound
    have hsubmit := MemoryStore.submit_of_stages haccept hrows hstages none
    refine (congrArg (fun p => (p.1, AnyStore.memory p.2)) hsubmit).trans ?_
    rw [htokens, hstore, MemoryStore.eq_of_rowsOf hrows]
    rfl

theorem submit_durable_eq_ok_iff {s : DurableStore} :
    TableStore.submit (AnyStore.durable s) table partition ops none = (.ok tokens, s') ↔
      Batch.accept s.config.limits table partition ops = .ok () ∧
        (AnyStore.durable s).access table = .ok () ∧
        ∃ writes, Batch.Stages (s.database.rowIn table partition) s.database.version ops writes ∧
          tokens = Batch.tokens writes ∧
          s' = (AnyStore.durable s).carryOut table partition writes
            (s.database.version + UInt64.ofNat ops.length) := by
  constructor
  · intro h
    have hanswer : (s.submit table partition ops none).1 = .ok tokens := congrArg Prod.fst h
    have hstore : .durable (s.submit table partition ops none).2 = s' := congrArg Prod.snd h
    have hcases := s.submitted table partition ops none
    rw [hanswer] at hcases
    generalize (s.submit table partition ops none).2 = last at hcases hstore
    cases hcases with
    | applied haccept hreadable hstages =>
      have hfound := access_durable_eq_ok_iff.2 ⟨_, hreadable⟩
      exact ⟨haccept, hfound, _, hstages, rfl, hstore.symm⟩
  · intro ⟨haccept, hfound, writes, hstages, htokens, hstore⟩
    obtain ⟨readable, hreadable⟩ := access_durable_eq_ok_iff.1 hfound
    have hsubmit := DurableStore.submit_of_stages haccept hreadable hstages none
    refine (congrArg (fun p => (p.1, AnyStore.durable p.2)) hsubmit).trans ?_
    rw [htokens, hstore]
    rfl

/-- A batch without a deadline is answered with tokens if it is accepted and all its operations
apply; then their writes are carried out. -/
theorem submit_eq_ok_iff :
    TableStore.submit s table partition ops none = (.ok tokens, s') ↔
      Batch.accept (TableStore.limits s) table partition ops = .ok () ∧ s.access table = .ok () ∧
        ∃ writes, Batch.Stages (s.rowFound table partition) s.ledger.version ops writes ∧
          tokens = Batch.tokens writes ∧
          s' = s.carryOut table partition writes (s.ledger.version + UInt64.ofNat ops.length) := by
  cases s with
  | memory s => exact submit_memory_eq_ok_iff
  | durable s => exact submit_durable_eq_ok_iff

end Submit

end UnitOfWork.AnyStore
