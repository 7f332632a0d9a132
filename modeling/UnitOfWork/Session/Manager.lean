import UnitOfWork.Instant
import UnitOfWork.Session.SharedBatch

/-! The state that all sessions share: the store, the batches and the registry of work ids. -/

namespace UnitOfWork

/-- The name of a unit of work. -/
abbrev WorkId := String

/-- The number of a shared batch; numbers are never used again. -/
abbrev BatchId := Nat

structure SessionConfig where
  maxBatchOperations : Nat := 100
  maxBatchBytes : Nat := 4 * 1024 * 1024
  commitTimeout : Option Duration := none
deriving DecidableEq, Repr, Inhabited

namespace SessionConfig

def limits (c : SessionConfig) : Limits := ⟨c.maxBatchOperations, c.maxBatchBytes⟩

/-- The clock can tell the deadline of a commit that starts now, if there is to be one. -/
def tellsDeadline (c : SessionConfig) (now : Instant) : Bool :=
  c.commitTimeout.all fun timeout => (now.after? timeout).isSome

end SessionConfig

/-- What all sessions of one manager share. -/
structure Manager (σ : Type) where
  store : σ
  config : SessionConfig
  /-- The limits of new batches, no wider than the store's. -/
  limits : Limits
  /-- All batches there ever were, each at its number. -/
  batches : List SharedBatch := []
  /-- The batch of each unit of work in progress. -/
  registry : SortedMap WorkId BatchId := ∅

namespace Manager

variable {σ : Type}

def create [TableStore σ] (store : σ) (config : SessionConfig) : Manager σ :=
  { store, config, limits := config.limits.min (TableStore.limits store) }

def batch? (m : Manager σ) (id : BatchId) : Option SharedBatch := m.batches[id]?

def setBatch (m : Manager σ) (id : BatchId) (b : SharedBatch) : Manager σ :=
  { m with batches := m.batches.set id b }

def modifyBatch (m : Manager σ) (id : BatchId) (f : SharedBatch → SharedBatch) : Manager σ :=
  { m with batches := m.batches.modify id f }

/-- The batch registered for a unit of work, if its partition is the one asked for. -/
def registered? (m : Manager σ) (work : WorkId) : Option (BatchId × SharedBatch) := do
  let id ← m.registry.get? work
  let b ← m.batch? id
  some (id, b)

/-- Finds the batch of a unit of work, or registers a new one that is bound to the partition. -/
def acquire (m : Manager σ) (work : WorkId) (partition : Partition) :
    Except SessionError BatchId × Manager σ :=
  match m.registered? work with
  | some (id, b) =>
    if b.partition = partition then (.ok id, m)
    else (.error (.partitionMismatch b.partition.text partition.text), m)
  | none =>
    let id := m.batches.length
    (.ok id, { m with
      batches := m.batches ++ [SharedBatch.create partition m.limits]
      registry := m.registry.insert work id })

/-- Takes a unit of work off the registry, whatever its batch. -/
def release (m : Manager σ) (work : WorkId) : Manager σ :=
  { m with registry := m.registry.erase work }

/-- Takes a unit of work off the registry if this is its batch. -/
def releaseBatch (m : Manager σ) (work : WorkId) (id : BatchId) : Manager σ :=
  if m.registry.get? work = some id then m.release work else m

end Manager

end UnitOfWork
