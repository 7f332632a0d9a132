import UnitOfWork.Session.Accumulator

/-! The batch that all sessions of one unit of work share. -/

namespace UnitOfWork

/--
An accumulator with the count of joined sessions. Once it is completed no session may use it; once
its lock is poisoned it can only be measured and discarded.
-/
structure SharedBatch where
  pending : Accumulator
  participants : Nat := 0
  completed : Bool := false
  poisoned : Bool := false
deriving DecidableEq

namespace SharedBatch

def create (partition : Partition) (limits : Limits) : SharedBatch :=
  { pending := Accumulator.create partition limits }

def partition (b : SharedBatch) : Partition := b.pending.partition

/-- The accumulator, if the lock is not poisoned. -/
def lock (b : SharedBatch) : Except SessionError Accumulator :=
  if b.poisoned then .error (.internal .poisonedLock) else .ok b.pending

def join (b : SharedBatch) : SharedBatch := { b with participants := b.participants + 1 }

def leave (b : SharedBatch) : SharedBatch := { b with participants := b.participants - 1 }

/-- Drops what is pending and completes the batch; a completed batch is left as it is. -/
def discard (b : SharedBatch) : SharedBatch :=
  if b.completed then b else { b with pending := b.pending.clear, completed := true }

/-- Registers an operation under the lock. -/
def register (b : SharedBatch) (op : Operation) : Except SessionError Unit × SharedBatch :=
  match b.lock with
  | .error e => (.error e, b)
  | .ok pending =>
    let (answer, pending) := pending.register op
    (answer, { b with pending })

/-- Commits under the lock; after an error everything is pending as before. -/
def commit {σ : Type} [TableStore σ] (b : SharedBatch) (store : σ) (timeLeft : Option Duration) :
    Except SessionError (List CommittedRow) × SharedBatch × σ :=
  match b.lock with
  | .error e => (.error e, b, store)
  | .ok pending =>
    let (answer, pending, store) := pending.commit store timeLeft
    (answer, { b with pending }, store)

/-- Drops what is pending under the lock. -/
def abandon (b : SharedBatch) : Except SessionError Unit × SharedBatch :=
  match b.lock with
  | .error e => (.error e, b)
  | .ok pending => (.ok (), { b with pending := pending.clear })

end SharedBatch

end UnitOfWork
