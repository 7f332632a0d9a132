import UnitOfWork.Batch.Limits
import UnitOfWork.Batch.Operation

/-! What a store demands of a batch before it looks at any row. -/

namespace UnitOfWork.Batch

/-- The first operation with a malformed row key, or one whose row is among `seen` or earlier. -/
def checkRows (seen : List String) : List BatchOp → Except NamingFault Unit
  | [] => .ok ()
  | op :: ops =>
    match checkKey "row key" op.row with
    | .error fault => .error fault
    | .ok () =>
      if op.row ∈ seen then .error (.repeatedRow op.row) else checkRows (op.row :: seen) ops

def payloadSize (ops : List BatchOp) : Nat := (ops.map BatchOp.payloadSize).foldr (· + ·) 0

/-- Keys are checked first, the partition's before the rows', and the limits last. -/
def check (limits : Limits) (partition : String) (ops : List BatchOp) : Except StorageError Unit :=
  match checkKey "partition key" partition with
  | .error fault => .error (.invalidKey fault)
  | .ok () =>
    match checkRows [] ops with
    | .error fault => .error (.invalidKey fault)
    | .ok () =>
      if limits.admits ops.length (payloadSize ops) then .ok ()
      else .error (.batchTooLarge ops.length (payloadSize ops))

/-- The whole acceptance test of a submitted batch: its table name, then the batch itself. -/
def accept (limits : Limits) (table partition : String) (ops : List BatchOp) :
    Except StorageError Unit :=
  match checkTableName table with
  | .error fault => .error (.invalidKey fault)
  | .ok () => check limits partition ops

end UnitOfWork.Batch
