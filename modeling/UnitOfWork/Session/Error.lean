import UnitOfWork.Batch.Limits
import UnitOfWork.Session.Operation
import UnitOfWork.Store.Error

/-! Why a unit of work refuses a call or fails. -/

namespace UnitOfWork

/-- Failures that no caller can cause through a sound store. -/
inductive InternalFault
  /-- A holder of a batch's lock failed while it held the lock. -/
  | poisonedLock
  /-- A store answered a batch with a wrong count of tokens. -/
  | tokenCount (returned operations : Nat)
  | reported (detail : String)
deriving DecidableEq, Repr, Inhabited

def InternalFault.message : InternalFault → String
  | .poisonedLock => "failed to acquire batch lock: poisoned lock: another task failed inside"
  | .tokenCount returned operations =>
    s!"store returned {returned} tokens for {operations} operations"
  | .reported detail => detail

/-- Why a unit of work refuses a call or fails. -/
inductive SessionError
  | partitionMismatch (bound requested : String)
  | conflictingOperation (row : String) (pending attempted : OperationKind)
  | batchLimitExceeded (operations bytes : Nat) (limits : Limits)
  | missingToken (kind : OperationKind) (row : String)
  | optimisticConflict (row : String) (index : Nat) (reason : Rejection)
  | commitTimeout (elapsed : Duration)
  | transport (detail : String)
  | alreadyCompleted
  | notOpen
  | invalidKey (fault : NamingFault)
  | storage (error : StorageError)
  | internal (fault : InternalFault)
deriving DecidableEq, Repr, Inhabited

namespace SessionError

def message : SessionError → String
  | .partitionMismatch bound requested =>
    s!"partition mismatch: unit of work is bound to '{bound}', got '{requested}'"
  | .conflictingOperation row pending attempted =>
    s!"cannot enlist {attempted.name} of row '{row}': {pending.name} already pending"
  | .batchLimitExceeded operations bytes limits =>
    s!"batch limit exceeded: {operations} operations / {bytes} bytes " ++
      s!"(limits {limits.operations} / {limits.bytes})"
  | .missingToken kind row =>
    s!"{kind.name} of row '{row}' requires a concurrency token from a prior read"
  | .optimisticConflict row index reason =>
    s!"optimistic concurrency conflict on row '{row}' (operation {index}): {reason.message}"
  | .commitTimeout elapsed =>
    s!"commit timed out after {elapsed.text}; the batch may have been applied"
  | .transport detail =>
    s!"transport failure during commit; the batch may have been applied: {detail}"
  | .alreadyCompleted => "session already completed"
  | .notOpen => "session is not open"
  | .invalidKey fault => s!"invalid key: {fault.message}"
  | .storage error => s!"storage error: {error.message}"
  | .internal fault => s!"internal error: {fault.message}"

/-- Only a lost race for a row is worth reading again and retrying. -/
def isRetryable : SessionError → Bool
  | .optimisticConflict .. => true
  | _ => false

/-- After these errors the batch may have been applied or not. -/
def isAmbiguous : SessionError → Bool
  | .commitTimeout _ | .transport _ => true
  | _ => false

/-- What a store's refusal means to a unit of work. -/
def ofStorage : StorageError → SessionError
  | .batchRejected index row reason => .optimisticConflict row index reason
  | .timeout elapsed => .commitTimeout elapsed
  | .transport detail => .transport detail
  | .invalidKey fault => .invalidKey fault
  | e => .storage e

theorem isAmbiguous_ofStorage (e : StorageError) : (ofStorage e).isAmbiguous = e.isAmbiguous := by
  cases e <;> rfl

end SessionError

namespace Operation

def insert (key : EntityKey) (properties : Properties) : Operation := ⟨key, .insert properties⟩

/-- The token of an operation that needs one, unless there is none or it is blank. -/
def requireToken (kind : OperationKind) (key : EntityKey) (token : Option Token) :
    Except SessionError HeldToken :=
  match HeldToken.ofOption? token with
  | some held => .ok held
  | none => .error (.missingToken kind key.row)

def update (key : EntityKey) (properties : Properties) (token : Option Token) :
    Except SessionError Operation :=
  (requireToken .update key token).map fun held => ⟨key, .update properties held⟩

def delete (key : EntityKey) (token : Option Token) : Except SessionError Operation :=
  (requireToken .delete key token).map fun held => ⟨key, .delete held⟩

def replace (key : EntityKey) (properties : Properties) (token : Option Token) :
    Except SessionError Operation :=
  (requireToken .replace key token).map fun held => ⟨key, .replace properties held⟩

end Operation

end UnitOfWork
