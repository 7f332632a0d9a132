import Mathlib.Control.Monad.Basic
import UnitOfWork.Store.Basic

/-! Calls to a table store, one after the other, and the places of rows. -/

namespace UnitOfWork

/-- Where a row stands in a store. -/
structure RowId where
  table : String
  partition : String
  row : String
deriving DecidableEq, Repr

inductive StoreCall
  | read (table partition row : String)
  | query (table partition : String)
  | ensureTable (table : String)
  | submit (table partition : String) (ops : List BatchOp) (timeLeft : Option Duration)

/-- What a store answers to a call. -/
inductive StoreReply
  | entity (found : Except StorageError (Option Entity))
  | entities (found : Except StorageError (List Entity))
  | done (answer : Except StorageError Unit)
  | tokens (answer : Except StorageError (List (Option Token)))
deriving DecidableEq

namespace StoreCall

variable {σ : Type} [TableStore σ]

/-- The answer to a call and the store after it. -/
def run (s : σ) : StoreCall → StoreReply × σ
  | .read table partition row => (.entity (TableStore.read s table partition row), s)
  | .query table partition => (.entities (TableStore.query s table partition), s)
  | .ensureTable table =>
    let (answer, s) := TableStore.ensureTable s table
    (.done answer, s)
  | .submit table partition ops timeLeft =>
    let (answer, s) := TableStore.submit s table partition ops timeLeft
    (.tokens answer, s)

/-- The store after some calls. -/
def after (s : σ) (calls : List StoreCall) : σ := calls.foldl (fun s c => (c.run s).2) s

theorem after_cons (s : σ) (c : StoreCall) (calls : List StoreCall) :
    after s (c :: calls) = after (c.run s).2 calls := rfl

theorem after_append (s : σ) (calls later : List StoreCall) :
    after s (calls ++ later) = after (after s calls) later := List.foldl_append

end StoreCall

end UnitOfWork
