import UnitOfWork.Config.Store
import UnitOfWork.Session.Manager

/-! Settings that change the configurations one after another. -/

namespace UnitOfWork

/-- All configurations side by side. -/
structure Settings where
  session : SessionConfig := {}
  memory : MemoryConfig := {}
  durable : DurableConfig := {}
  store : StoreConfig := {}
deriving DecidableEq, Inhabited

inductive Setting
  | maxBatchOperations (count : Nat)
  | maxBatchBytes (bytes : Nat)
  | commitTimeout (timeout : Duration)
  | limits (limits : Limits)
  | createTableIfMissing (enabled : Bool)
  | responseLatency (latency : Duration)
  | cacheSize (bytes : Nat)
  | defaultTable (table : String)
  | backend (backend : Backend)
deriving DecidableEq

/-- A setting replaces its field in every configuration that has it. -/
def Settings.set (s : Settings) : Setting → Settings
  | .maxBatchOperations count => { s with session.maxBatchOperations := count }
  | .maxBatchBytes bytes => { s with session.maxBatchBytes := bytes }
  | .commitTimeout timeout => { s with session.commitTimeout := some timeout }
  | .limits limits =>
    { s with memory.limits := limits, durable.limits := limits, store.limits := limits }
  | .createTableIfMissing enabled =>
    { s with
      memory.createTableIfMissing := enabled
      durable.createTableIfMissing := enabled
      store.createTableIfMissing := enabled }
  | .responseLatency latency => { s with memory.responseLatency := some latency }
  | .cacheSize bytes => { s with durable.cacheSize := some bytes }
  | .defaultTable table => { s with store.defaultTable := table }
  | .backend backend => { s with store.backend := backend }

end UnitOfWork
