import UnitOfWork.Config.Store
import UnitOfWork.Proofs.Store.Durable
import UnitOfWork.Proofs.Store.Memory

/-!
What a refused batch leaves behind: no row is touched, but the memory store keeps the table that it
created for a batch that it then rejected.
-/

namespace UnitOfWork

namespace MemoryStore

variable {s : MemoryStore} {table : String} {rows : TableRows}

/-- Putting a table back as it was, or putting it in empty where it may be created, changes no
table's rows. -/
theorem rowsOf_insert_rowsOf (h : s.rowsOf table = .ok rows) (version : UInt64) (other : String) :
    ({ s with tables := s.tables.insert table rows, version } : MemoryStore).rowsOf other =
      s.rowsOf other := by
  by_cases hother : other = table
  · rw [hother, h]
    unfold rowsOf
    rw [SortedMap.get?_insert_self]
  · unfold rowsOf
    rw [SortedMap.get?_insert, if_neg hother]

theorem tableExists_insert (s : MemoryStore) (table : String) (rows : TableRows) (version : UInt64)
    (other : String) :
    ({ s with tables := s.tables.insert table rows, version } : MemoryStore).tableExists other =
      (decide (other = table) || s.tableExists other) := SortedMap.contains_insert ..

theorem read_congr {s' : MemoryStore} (h : ∀ table, s'.rowsOf table = s.rowsOf table) :
    s'.read = s.read := by
  funext table partition row
  rw [read, h, read]

theorem query_congr {s' : MemoryStore} (h : ∀ table, s'.rowsOf table = s.rowsOf table) :
    s'.query = s.query := by
  funext table partition
  rw [query, h, query]

end MemoryStore

namespace StorageError

/-- Whether an operation of the batch did not apply to its row. -/
def isRejection : StorageError → Bool
  | .batchRejected .. => true
  | _ => false

end StorageError

section Refused

variable {table partition : String} {ops : List BatchOp} {timeLeft : Option Duration}
  {e : StorageError}

/-- Every error rolls the transaction back, a missed deadline too. -/
theorem DurableStore.submit_of_error {s : DurableStore}
    (h : (s.submit table partition ops timeLeft).1 = .error e) :
    (s.submit table partition ops timeLeft).2 = s := by
  have hcases := s.submitted table partition ops timeLeft
  generalize s.submit table partition ops timeLeft = submitted at h hcases ⊢
  obtain ⟨answer, s'⟩ := submitted
  dsimp only at h hcases ⊢
  cases hcases with
  | refused | missing | rejected | expired => rfl
  | applied => cases h

/-- A refused batch leaves the rows as they were; a rejected one leaves its table. -/
theorem MemoryStore.submit_of_error {s : MemoryStore}
    (h : (s.submit table partition ops timeLeft).1 = .error e) (hcertain : e.isAmbiguous = false) :
    (∀ other, (s.submit table partition ops timeLeft).2.rowsOf other = s.rowsOf other) ∧
      ∀ other, (s.submit table partition ops timeLeft).2.tableExists other =
        (s.tableExists other || (decide (other = table) && e.isRejection)) := by
  have hcases := s.submitted table partition ops timeLeft
  generalize s.submit table partition ops timeLeft = submitted at h hcases ⊢
  obtain ⟨answer, s'⟩ := submitted
  dsimp only at h hcases ⊢
  subst h
  generalize hanswer : (Except.error e : Except StorageError (List (Option Token))) = answer
    at hcases
  cases hcases with
  | refused hrefused =>
    cases hanswer
    have hnot : e.isRejection = false := by
      rcases Batch.eq_of_accept_error hrefused with ⟨fault, rfl⟩ | rfl
      · rfl
      · rfl
    exact ⟨fun _ => rfl, fun _ => by simp [hnot]⟩
  | missing _ hrows =>
    cases hanswer
    obtain rfl := eq_of_rowsOf_error hrows
    exact ⟨fun _ => rfl, fun _ => by simp [StorageError.isRejection]⟩
  | rejected _ hrows hstage =>
    cases hanswer
    obtain ⟨index, row, reason, rfl⟩ := eq_of_stage_error hstage
    refine ⟨rowsOf_insert_rowsOf hrows _, fun other => ?_⟩
    rw [tableExists_insert, StorageError.isRejection, Bool.and_true, Bool.or_comm]
  | applied =>
    split at hanswer
    · cases hanswer
      cases hcertain
    · cases hanswer

end Refused

namespace AnyStore

/-- Whether a batch that is refused so leaves its table behind. -/
def leavesTable : AnyStore → StorageError → Bool
  | .memory _, e => e.isRejection
  | .durable _, _ => false

/--
After a submission that surely was not applied, every read and every query answers as before. The
same tables are there as before, except that the memory store has created the table of a batch that
it rejected at one of its operations.
-/
theorem refused_keeps_rows (s : AnyStore) (table partition : String) (ops : List BatchOp)
    (timeLeft : Option Duration) (e : StorageError) (s' : AnyStore)
    (h : TableStore.submit s table partition ops timeLeft = (.error e, s'))
    (hcertain : e.isAmbiguous = false) :
    (∀ t p row, TableStore.read s' t p row = TableStore.read s t p row) ∧
      (∀ t p, TableStore.query s' t p = TableStore.query s t p) ∧
      ∀ t, TableStore.tableExists s' t =
        (TableStore.tableExists s t || (decide (t = table) && s.leavesTable e)) := by
  cases s with
  | memory s =>
    have herror : (s.submit table partition ops timeLeft).1 = .error e := congrArg Prod.fst h
    have hs' : AnyStore.memory (s.submit table partition ops timeLeft).2 = s' := congrArg Prod.snd h
    subst hs'
    obtain ⟨hrows, htables⟩ := MemoryStore.submit_of_error herror hcertain
    refine ⟨fun t p row => ?_, fun t p => ?_, htables⟩
    · exact congrFun (congrFun (congrFun (MemoryStore.read_congr hrows) t) p) row
    · exact congrFun (congrFun (MemoryStore.query_congr hrows) t) p
  | durable s =>
    have herror : (s.submit table partition ops timeLeft).1 = .error e := congrArg Prod.fst h
    have hs' : AnyStore.durable (s.submit table partition ops timeLeft).2 = s' := congrArg Prod.snd h
    rw [DurableStore.submit_of_error herror] at hs'
    subst hs'
    exact ⟨fun _ _ _ => rfl, fun _ _ => rfl, fun _ => by simp [leavesTable]⟩

private def emptyMemory : AnyStore := .memory { config := {} }

private def deleteNothing : List BatchOp := [.delete "r" ⟨"v"⟩]

theorem refused_keeps_rows_delete :
    (StorageError.batchRejected 0 "r" .notFound).isAmbiguous = false ∧
      ∃ s', TableStore.submit emptyMemory "Orders" "p" deleteNothing none =
          (.error (.batchRejected 0 "r" .notFound), s') ∧
        TableStore.query s' "Orders" "p" = TableStore.query emptyMemory "Orders" "p" := by
  refine ⟨rfl, _, rfl, ?_⟩
  exact (refused_keeps_rows emptyMemory "Orders" "p" deleteNothing none _ _ rfl rfl).2.1 _ _

/-- The table of a rejected batch is there although it was not there before. -/
theorem tableExists_of_rejected :
    ∃ s', TableStore.submit emptyMemory "Orders" "p" deleteNothing none =
        (.error (.batchRejected 0 "r" .notFound), s') ∧
      (StorageError.batchRejected 0 "r" .notFound).isAmbiguous = false ∧
      TableStore.tableExists emptyMemory "Orders" = false ∧
      TableStore.tableExists s' "Orders" = true := by
  exact ⟨_, rfl, rfl, by decide +kernel, by decide +kernel⟩

end AnyStore

end UnitOfWork
