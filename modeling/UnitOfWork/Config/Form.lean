import UnitOfWork.Config.Setting
import UnitOfWork.Json.Form

/-! Configurations as documents. -/

namespace UnitOfWork

open Document

namespace Limits

def write (l : Limits) : Document :=
  .object [("max_operations", .integer l.operations), ("max_payload_bytes", .integer l.bytes)]

def read? (d : Document) : Option Limits := do
  match ← d.record? ["max_operations", "max_payload_bytes"] with
  | [operations, bytes] => some ⟨← required nat? operations, ← required nat? bytes⟩
  | _ => none

instance : Documented Limits := ⟨write, read?⟩

end Limits

namespace SessionConfig

def write (c : SessionConfig) : Document :=
  .object [("max_batch_operations", .integer c.maxBatchOperations),
    ("max_batch_bytes", .integer c.maxBatchBytes),
    ("commit_timeout", orNull Duration.write c.commitTimeout)]

def read? (d : Document) : Option SessionConfig := do
  match ← d.record? ["max_batch_operations", "max_batch_bytes", "commit_timeout"] with
  | [operations, bytes, timeout] =>
    some ⟨← required nat? operations, ← required nat? bytes, ← optional Duration.read? timeout⟩
  | _ => none

instance : Documented SessionConfig := ⟨write, read?⟩

end SessionConfig

namespace MemoryConfig

def write (c : MemoryConfig) : Document :=
  .object [("limits", c.limits.write), ("create_table_if_missing", .bool c.createTableIfMissing),
    ("response_latency", orNull Duration.write c.responseLatency)]

def read? (d : Document) : Option MemoryConfig := do
  match ← d.record? ["limits", "create_table_if_missing", "response_latency"] with
  | [limits, create, latency] =>
    some ⟨← required Limits.read? limits, ← required bool? create,
      ← optional Duration.read? latency⟩
  | _ => none

instance : Documented MemoryConfig := ⟨write, read?⟩

end MemoryConfig

namespace DurableConfig

def write (c : DurableConfig) : Document :=
  .object [("cache_size", orNull (fun (n : Nat) => .integer n) c.cacheSize),
    ("limits", c.limits.write), ("create_table_if_missing", .bool c.createTableIfMissing)]

def read? (d : Document) : Option DurableConfig := do
  match ← d.record? ["cache_size", "limits", "create_table_if_missing"] with
  | [cacheSize, limits, create] =>
    some ⟨← optional nat? cacheSize, ← required Limits.read? limits, ← required bool? create⟩
  | _ => none

instance : Documented DurableConfig := ⟨write, read?⟩

end DurableConfig

namespace Backend

def write : Backend → Document
  | .memory => .text "Memory"
  | .durableInMemory => .text "RedbInMemory"
  | .durable path cacheSize =>
    .object [("Redb", .object [("path", .text path),
      ("cache_size", orNull (fun (n : Nat) => .integer n) cacheSize)])]

/-- A backend without content may be its name alone, or the name of null. -/
def read? : Document → Option Backend
  | .text "Memory" | .object [("Memory", .null)] => some .memory
  | .text "RedbInMemory" | .object [("RedbInMemory", .null)] => some .durableInMemory
  | .object [("Redb", .object content)] => do
    match ← (Document.object content).record? ["path", "cache_size"] with
    | [path, cacheSize] => some (.durable (← required text? path) (← optional nat? cacheSize))
    | _ => none
  | _ => none

instance : Documented Backend := ⟨write, read?⟩

end Backend

namespace StoreConfig

def write (c : StoreConfig) : Document :=
  .object [("backend", c.backend.write), ("default_table", .text c.defaultTable),
    ("create_table_if_missing", .bool c.createTableIfMissing), ("limits", c.limits.write)]

def read? (d : Document) : Option StoreConfig := do
  match ← d.record? ["backend", "default_table", "create_table_if_missing", "limits"] with
  | [backend, table, create, limits] =>
    some ⟨← required Backend.read? backend, ← required text? table, ← required bool? create,
      ← required Limits.read? limits⟩
  | _ => none

instance : Documented StoreConfig := ⟨write, read?⟩

end StoreConfig

end UnitOfWork
