import UnitOfWork.Store.Durable
import UnitOfWork.Store.Memory

/-! Configured stores: which backend to open and what it starts with. -/

namespace UnitOfWork

/-- Where a store keeps its rows. -/
inductive Backend
  | memory
  | durableInMemory
  | durable (path : String) (cacheSize : Option Nat)
deriving DecidableEq, Repr, Inhabited

structure StoreConfig where
  backend : Backend := .memory
  /-- The table of callers that name none. -/
  defaultTable : String := "SagaData"
  createTableIfMissing : Bool := true
  limits : Limits := {}
deriving DecidableEq, Repr, Inhabited

/-- A store of either kind. -/
inductive AnyStore
  | memory (store : MemoryStore)
  | durable (store : DurableStore)
deriving DecidableEq

namespace AnyStore

def submit (s : AnyStore) (table partition : String) (ops : List BatchOp)
    (timeLeft : Option Duration) : Except StorageError (List (Option Token)) × AnyStore :=
  match s with
  | .memory s =>
    let (answer, s) := s.submit table partition ops timeLeft
    (answer, .memory s)
  | .durable s =>
    let (answer, s) := s.submit table partition ops timeLeft
    (answer, .durable s)

def ensureTable (s : AnyStore) (table : String) : Except StorageError Unit × AnyStore :=
  match s with
  | .memory s =>
    let (answer, s) := s.ensureTable table
    (answer, .memory s)
  | .durable s =>
    let (answer, s) := s.ensureTable table
    (answer, .durable s)

instance : TableStore AnyStore where
  limits
    | .memory s => s.config.limits
    | .durable s => s.config.limits
  read
    | .memory s => s.read
    | .durable s => s.read
  query
    | .memory s => s.query
    | .durable s => s.query
  submit := submit
  tableExists
    | .memory s => s.tableExists
    | .durable s => s.tableExists
  ensureTable := ensureTable

end AnyStore

/-- The content of the database file at each path, or why it cannot be opened. -/
abbrev Disk := String → Except String Database

namespace StoreConfig

/-- The store of a backend, as it is before any table is created. -/
def openBackend (c : StoreConfig) (disk : Disk) : Except StorageError AnyStore :=
  match c.backend with
  | .memory =>
    .ok (.memory { config :=
      { limits := c.limits, createTableIfMissing := c.createTableIfMissing } })
  | .durableInMemory =>
    .ok (.durable { config :=
      { limits := c.limits, createTableIfMissing := c.createTableIfMissing } })
  | .durable path cacheSize =>
    match disk path with
    | .error detail => .error (.openFailed detail)
    | .ok database =>
      .ok (.durable
        { config :=
            { cacheSize, limits := c.limits, createTableIfMissing := c.createTableIfMissing }
          database })

/-- Opens the configured store; its default table is created first where tables may be created. -/
def openStore (c : StoreConfig) (disk : Disk) : Except StorageError AnyStore := do
  let store ← c.openBackend disk
  if c.createTableIfMissing then
    match store.ensureTable c.defaultTable with
    | (.error e, _) => .error e
    | (.ok (), store) => .ok store
  else .ok store

end StoreConfig

end UnitOfWork
