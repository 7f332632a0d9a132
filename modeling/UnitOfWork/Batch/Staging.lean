import UnitOfWork.Batch.Operation

/-!
Staging: the operations of a batch are applied to the rows as they were before the batch, and what
they leave is written only after all of them have applied.
-/

namespace UnitOfWork.Batch

/-- Row keys with the rows that a batch leaves there, none where it deletes. -/
abbrev Writes := List (String × Option Row)

/-- The operation's row after it, or the rejection of the batch at this index. -/
def applyAt (index : Nat) (op : BatchOp) (existing : Option Row) (version : UInt64) :
    Except StorageError (Option Row) :=
  (op.apply existing version).mapError (.batchRejected index op.row ·)

/--
Stages operations from an index on, drawing a version for each; beside the writes, or the first
error, stands the last version drawn.
-/
def stage (rows : String → Except StorageError (Option Row)) (index : Nat) (version : UInt64) :
    List BatchOp → Except StorageError Writes × UInt64
  | [] => (.ok [], version)
  | op :: ops =>
    match rows op.row with
    | .error e => (.error e, version + 1)
    | .ok existing =>
      match applyAt index op existing (version + 1) with
      | .error e => (.error e, version + 1)
      | .ok written =>
        let (staged, last) := stage rows (index + 1) (version + 1) ops
        (staged.map ((op.row, written) :: ·), last)

/-- The token of each written row. -/
def tokens (writes : Writes) : List (Option Token) := writes.map fun w => w.2.map Row.token

end UnitOfWork.Batch
