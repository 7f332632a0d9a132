import UnitOfWork.Batch.Check

/-! What a table store offers to its callers. -/

namespace UnitOfWork

/--
A store of rows in tables. A submission is atomic; `timeLeft` is the time until its deadline, if
it has one, and a store that answers later reports a timeout.
-/
class TableStore (σ : Type) where
  limits : σ → Limits
  read : σ → (table partition row : String) → Except StorageError (Option Entity)
  /-- The rows of a partition in the order of their row keys. -/
  query : σ → (table partition : String) → Except StorageError (List Entity)
  /-- Applies a batch and tells the token of each written row. -/
  submit : σ → (table partition : String) → List BatchOp → (timeLeft : Option Duration) →
    Except StorageError (List (Option Token)) × σ
  tableExists : σ → String → Bool
  ensureTable : σ → String → Except StorageError Unit × σ

/-- A deadline is missed by an answer that takes at least the time left. -/
def missesDeadline (latency : Duration) (timeLeft : Option Duration) : Bool :=
  timeLeft.any fun t => t.toNanos ≤ latency.toNanos

end UnitOfWork
