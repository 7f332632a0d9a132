import UnitOfWork.Session.Partition
import UnitOfWork.Store.Basic

/-!
The pending operations of a unit of work: at most one for each row, in the order of first
enlistment, within the limits of a batch.
-/

namespace UnitOfWork

structure CommittedRow where
  row : String
  token : Option Token
deriving DecidableEq, Repr, Inhabited

/-- Pending operations with their sizes, the position of each row's operation and the size sum. -/
structure Accumulator where
  partition : Partition
  limits : Limits
  ops : List Operation
  sizes : List Nat
  positions : SortedMap String Nat
  payloadBytes : Nat
deriving DecidableEq

namespace Accumulator

def create (partition : Partition) (limits : Limits) : Accumulator :=
  ⟨partition, limits, [], [], ∅, 0⟩

def length (a : Accumulator) : Nat := a.ops.length

def isEmpty (a : Accumulator) : Bool := a.ops.isEmpty

def clear (a : Accumulator) : Accumulator := create a.partition a.limits

def checkLimits (a : Accumulator) (operations bytes : Nat) : Except SessionError Unit :=
  if a.limits.admits operations bytes then .ok ()
  else .error (.batchLimitExceeded operations bytes a.limits)

/-- The position, the operation and the size that are pending for a row. -/
def pending? (a : Accumulator) (row : String) : Option (Nat × Operation × Nat) := do
  let position ← a.positions.get? row
  let op ← a.ops[position]?
  let size ← a.sizes[position]?
  some (position, op, size)

/-- Adds an operation whose row has none pending. -/
def append (a : Accumulator) (op : Operation) : Except SessionError Unit × Accumulator :=
  let size := op.payloadSize
  match a.checkLimits (a.ops.length + 1) (a.payloadBytes + size) with
  | .error e => (.error e, a)
  | .ok () =>
    (.ok (), { a with
      ops := a.ops ++ [op]
      sizes := a.sizes ++ [size]
      positions := a.positions.insert op.row a.ops.length
      payloadBytes := a.payloadBytes + size })

/-- Merges an update into the one that is pending for its row. -/
def mergeInto (a : Accumulator) (position : Nat) (pending : Operation) (size : Nat)
    (op : Operation) : Except SessionError Unit × Accumulator :=
  if pending.canMerge op then
    let merged := pending.mergedWith op
    let bytes := a.payloadBytes - size + merged.payloadSize
    match a.checkLimits a.ops.length bytes with
    | .error e => (.error e, a)
    | .ok () =>
      (.ok (), { a with
        ops := a.ops.set position merged
        sizes := a.sizes.set position merged.payloadSize
        payloadBytes := bytes })
  else (.error (.conflictingOperation op.row pending.kind op.kind), a)

def register (a : Accumulator) (op : Operation) : Except SessionError Unit × Accumulator :=
  if op.key.partition ≠ a.partition.key then
    (.error (.partitionMismatch a.partition.text (a.partition.table ++ "/" ++ op.key.partition)), a)
  else match checkKey "row key" op.row with
    | .error fault => (.error (.invalidKey fault), a)
    | .ok () =>
      match a.pending? op.row with
      | some (position, pending, size) => a.mergeInto position pending size op
      | none => a.append op

/-- The rows of a committed batch with their new tokens. -/
def committedRows (ops : List Operation) (tokens : List (Option Token)) : List CommittedRow :=
  List.zipWith (fun op token => ⟨op.row, token⟩) ops tokens

/--
Submits what is pending as one batch. Nothing is submitted if nothing is pending, and after an
error everything is pending as before.
-/
def commit {σ : Type} [TableStore σ] (a : Accumulator) (store : σ) (timeLeft : Option Duration) :
    Except SessionError (List CommittedRow) × Accumulator × σ :=
  if a.isEmpty then (.ok [], a, store)
  else
    let batch := a.ops.map Operation.toBatchOp
    match TableStore.submit store a.partition.table a.partition.key batch timeLeft with
    | (.error e, store) => (.error (.ofStorage e), a, store)
    | (.ok tokens, store) =>
      if tokens.length = a.ops.length then (.ok (committedRows a.ops tokens), a.clear, store)
      else (.error (.internal (.tokenCount tokens.length a.ops.length)), a, store)

end Accumulator

end UnitOfWork
