import UnitOfWork.Script.Action

/-! What the actions of a script answer, and what shows of the bench after each of them. -/

namespace UnitOfWork.Script

/-- What an action answers. -/
inductive Outcome
  | done
  | nothing
  | flag (b : Bool)
  | text (s : String)
  | storageError (e : StorageError)
  | sessionError (e : SessionError)
  | entity (found : Option Entity)
  | entities (found : List Entity)
  | tokens (tokens : List (Option Token))
  | rows (committed : List CommittedRow)
  | limits (store : Limits) (config : SessionConfig) (effective : Limits)
  | session (s : Session) (pending : Nat)
  | registry (size : Nat) (limits : Limits)
  | batch (b : SharedBatch)
  | accumulator (a : Accumulator)
  | measure (length bytes : Nat)
  | database (d : Database)
  /-- The action names something that is not there, or its call did not return. -/
  | misnamed

namespace Outcome

def ofStorage {α : Type} (f : α → Outcome) : Except StorageError α → Outcome
  | .ok a => f a
  | .error e => .storageError e

def ofSession {α : Type} (f : α → Outcome) : Except SessionError α → Outcome
  | .ok a => f a
  | .error e => .sessionError e

def ofAnswer : Answer → Outcome
  | .done | .batch _ => .done
  | .refused e => .sessionError e
  | .entity found => .entity found
  | .rows committed => .rows committed
  | .panicked | .misnamed => .misnamed

end Outcome

/-- What shows of an open world after each action. -/
structure WorldView where
  registered : Nat
  submissions : Nat
  /-- Shown for a plain memory store only. -/
  rows : Option Nat

/-- What shows after each action. -/
structure Snapshot where
  sessions : List (String × SessionState × Nat)
  world : Option WorldView

end UnitOfWork.Script
