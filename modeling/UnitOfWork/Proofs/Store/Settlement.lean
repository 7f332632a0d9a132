import UnitOfWork.Proofs.Store.Reachable
import UnitOfWork.Proofs.Store.Refusal

/-!
All that submitting a batch to a store of either kind can come to, told by the rows that stand in
it. The two kinds differ only in what a missed deadline leaves behind.
-/

namespace UnitOfWork.AnyStore

/-- The rows of a partition, as staging looks them up. -/
def rowIn (s : AnyStore) (table partition row : String) : Except StorageError (Option Row) :=
  .ok (s.row? ⟨table, partition, row⟩)

/-- Every row is as it was before, whoever looks at it. -/
structure Keeps (s s' : AnyStore) : Prop where
  row : ∀ id, s'.row? id = s.row? id
  read : ∀ table partition row,
    TableStore.read s' table partition row = TableStore.read s table partition row
  query : ∀ table partition, TableStore.query s' table partition = TableStore.query s table partition

theorem Keeps.refl (s : AnyStore) : s.Keeps s := ⟨fun _ => rfl, fun _ _ _ => rfl, fun _ _ => rfl⟩

/-- All that a submission to a sound store can come to. -/
inductive Settled (s : AnyStore) (table partition : String) (ops : List BatchOp)
    (timeLeft : Option Duration) : Except StorageError (List (Option Token)) → AnyStore → Prop
  | refused {e : StorageError}
      (h : Batch.accept (TableStore.limits s) table partition ops = .error e) :
      Settled s table partition ops timeLeft (.error e) s
  | missing {e : StorageError}
      (haccept : Batch.accept (TableStore.limits s) table partition ops = .ok ())
      (h : s.access table = .error e) : Settled s table partition ops timeLeft (.error e) s
  | rejected {e : StorageError} {s' : AnyStore}
      (haccept : Batch.accept (TableStore.limits s) table partition ops = .ok ())
      (hfound : s.access table = .ok ())
      (hstage : (Batch.stage (s.rowIn table partition) 0 s.ledger.version ops).1 = .error e)
      (hkeeps : s.Keeps s') : Settled s table partition ops timeLeft (.error e) s'
  | late {elapsed : Duration} {writes : Batch.Writes} {s' : AnyStore}
      (haccept : Batch.accept (TableStore.limits s) table partition ops = .ok ())
      (hfound : s.access table = .ok ())
      (hstages : Batch.Stages (s.rowIn table partition) s.ledger.version ops writes)
      (hlate : missesDeadline elapsed timeLeft = true) :
      Settled s table partition ops timeLeft (.error (.timeout elapsed)) s'
  | applied {writes : Batch.Writes} {s' : AnyStore}
      (haccept : Batch.accept (TableStore.limits s) table partition ops = .ok ())
      (hfound : s.access table = .ok ())
      (hstages : Batch.Stages (s.rowIn table partition) s.ledger.version ops writes)
      (hrows : s.Fits table partition ops → ∀ id, s'.row? id =
        if id.table = table ∧ id.partition = partition then
          (writes.lookup id.row).getD (s.row? id)
        else s.row? id) :
      Settled s table partition ops timeLeft (.ok (Batch.tokens writes)) s'

section Submit

variable {table partition : String} {ops : List BatchOp} {timeLeft : Option Duration}
  {answer : Except StorageError (List (Option Token))}

theorem settled_memory {s s' : MemoryStore}
    (h : s.Submitted table partition ops timeLeft answer s') :
    Settled (.memory s) table partition ops timeLeft answer (.memory s') := by
  have hfound : ∀ {rows}, s.rowsOf table = .ok rows →
      (AnyStore.memory s).access table = .ok () := fun hrows =>
    access_memory_eq_ok_iff.2 ⟨_, hrows⟩
  cases h with
  | refused hrefused => exact .refused hrefused
  | missing haccept hrows =>
    refine .missing haccept ?_
    show (s.rowsOf table).map _ = _
    rw [hrows]
    rfl
  | @rejected rows e version haccept hrows hstage =>
    have hkept := MemoryStore.rowsOf_insert_rowsOf hrows version
    refine .rejected haccept (hfound hrows) (congrArg Prod.fst hstage) ⟨?_, ?_, ?_⟩
    · exact MemoryStore.row?_insert_rowsOf hrows version
    · intro t p row
      exact congrFun (congrFun (congrFun (MemoryStore.read_congr hkept) t) p) row
    · intro t p
      exact congrFun (congrFun (MemoryStore.query_congr hkept) t) p
  | applied haccept hrows hstages =>
    obtain ⟨_, hnodup⟩ := hstages.valid_of_accept haccept
    split
    · rename_i hlate
      exact .late haccept (hfound hrows) hstages hlate
    · exact .applied haccept (hfound hrows) hstages fun _ =>
        MemoryStore.row?_write hrows hnodup _

theorem settled_durable {s s' : DurableStore} (hs : s.database.WellFormed)
    (h : s.Submitted table partition ops timeLeft answer s') :
    Settled (.durable s) table partition ops timeLeft answer (.durable s') := by
  have hlook : s.database.rowIn table partition = (AnyStore.durable s).rowIn table partition :=
    funext (hs.rowIn table partition)
  have hfound : ∀ {readable}, s.isReadable table = .ok readable →
      (AnyStore.durable s).access table = .ok () := fun hreadable =>
    access_durable_eq_ok_iff.2 ⟨_, hreadable⟩
  cases h with
  | refused hrefused => exact .refused hrefused
  | missing haccept hreadable =>
    refine .missing haccept ?_
    show (s.isReadable table).map _ = _
    rw [hreadable]
    rfl
  | rejected haccept hreadable hstage =>
    rw [hlook] at hstage
    exact .rejected haccept (hfound hreadable) (congrArg Prod.fst hstage) (.refl _)
  | expired haccept hreadable hstages hlate =>
    exact .late haccept (hfound hreadable) (hlook ▸ hstages) hlate
  | applied haccept hreadable hstages =>
    obtain ⟨htable, hcheck⟩ := Batch.accept_eq_ok_iff.1 haccept
    obtain ⟨hpartition, _, hnodup, _⟩ := Batch.check_eq_ok_iff.1 hcheck
    obtain ⟨hrows, hwrites⟩ := hstages.valid_of_accept haccept
    exact .applied haccept (hfound hreadable) (hlook ▸ hstages) fun hfits =>
      Database.row?_commit htable hpartition hrows hwrites
        (fun _ _ => hfits.written hs hstages hnodup) _

theorem settled {s : AnyStore} (hs : s.Sound) (table partition : String) (ops : List BatchOp)
    (timeLeft : Option Duration) :
    s.Settled table partition ops timeLeft (TableStore.submit s table partition ops timeLeft).1
      (TableStore.submit s table partition ops timeLeft).2 := by
  cases s with
  | memory s => exact settled_memory (s.submitted table partition ops timeLeft)
  | durable s => exact settled_durable hs (s.submitted table partition ops timeLeft)

/-- A batch without a deadline that is answered with an error has changed no row. -/
theorem keeps_of_error {s : AnyStore} (h : s.Sound) {e : StorageError}
    (herror : (TableStore.submit s table partition ops none).1 = .error e) :
    s.Keeps (TableStore.submit s table partition ops none).2 := by
  have hcases := settled h table partition ops none
  rw [herror] at hcases
  generalize (TableStore.submit s table partition ops none).2 = s' at hcases ⊢
  generalize hanswer : (Except.error e : Except StorageError (List (Option Token))) = answer
    at hcases
  cases hcases with
  | refused | missing => exact .refl s
  | rejected _ _ _ hkeeps => exact hkeeps
  | late _ _ _ hlate => cases hlate
  | applied => cases hanswer

end Submit

/-- A table that cannot be looked at is not there. -/
theorem eq_of_access_error {s : AnyStore} {table : String} {e : StorageError}
    (h : s.access table = .error e) : e = .tableNotFound table := by
  cases s with
  | memory s =>
    change (s.rowsOf table).map _ = _ at h
    cases hrows : s.rowsOf table with
    | ok rows => simp [hrows, Except.map] at h
    | error f =>
      rw [hrows] at h
      cases h
      exact MemoryStore.eq_of_rowsOf_error hrows
  | durable s =>
    change (s.isReadable table).map _ = _ at h
    unfold DurableStore.isReadable at h
    split at h
    · cases h
    · split at h
      · cases h
      · cases h
        rfl

end UnitOfWork.AnyStore
