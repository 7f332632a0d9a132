import UnitOfWork.Duration
import UnitOfWork.Table.Naming

/-! Why a store refuses a call. -/

namespace UnitOfWork

/-- Why an operation of a batch does not apply to its row. -/
inductive Rejection
  | preconditionFailed
  | alreadyExists
  | notFound
deriving DecidableEq, Repr, Inhabited

def Rejection.message : Rejection → String
  | .preconditionFailed => "precondition failed"
  | .alreadyExists => "entity already exists"
  | .notFound => "entity not found"

/-- Why a store refuses a call. -/
inductive StorageError
  | openFailed (detail : String)
  | tableNotFound (table : String)
  | invalidKey (fault : NamingFault)
  | transaction (detail : String)
  | batchRejected (index : Nat) (row : String) (reason : Rejection)
  | batchTooLarge (operations bytes : Nat)
  | timeout (elapsed : Duration)
  | transport (detail : String)
  | io (detail : String)
  | serialization (detail : String)
  | internal (detail : String)
deriving DecidableEq, Repr, Inhabited

namespace StorageError

def message : StorageError → String
  | .openFailed detail => s!"failed to open store: {detail}"
  | .tableNotFound table => s!"table not found: {table}"
  | .invalidKey fault => s!"invalid key: {fault.message}"
  | .transaction detail => s!"transaction error: {detail}"
  | .batchRejected index row reason =>
    s!"batch rejected at operation {index} (row '{row}'): {reason.message}"
  | .batchTooLarge operations bytes => s!"batch too large: {operations} operations, {bytes} bytes"
  | .timeout elapsed => s!"store did not respond within {elapsed.text}"
  | .transport detail => s!"transport error: {detail}"
  | .io detail => s!"I/O error: {detail}"
  | .serialization detail => s!"serialization error: {detail}"
  | .internal detail => s!"internal storage error: {detail}"

/-- After these errors the batch may have been applied or not. -/
def isAmbiguous : StorageError → Bool
  | .timeout _ | .transport _ => true
  | _ => false

end StorageError

end UnitOfWork
