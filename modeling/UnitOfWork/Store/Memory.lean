import UnitOfWork.Batch.Staging
import UnitOfWork.Store.Basic

/-! A store that keeps its tables as maps. -/

namespace UnitOfWork

structure MemoryConfig where
  limits : Limits := {}
  createTableIfMissing : Bool := true
  responseLatency : Option Duration := none
deriving DecidableEq, Repr, Inhabited

/-- The rows of one table. -/
abbrev TableRows := SortedMap EntityKey Row

/-- Tables of rows and the last version drawn; versions are never given back. -/
structure MemoryStore where
  config : MemoryConfig
  tables : SortedMap String TableRows := ∅
  version : UInt64 := 0
deriving DecidableEq, Inhabited

namespace TableRows

/-- Carries out the writes of a batch in one partition. -/
def write (rows : TableRows) (partition : String) (writes : Batch.Writes) : TableRows :=
  writes.foldl (fun rows w =>
    match w.2 with
    | some r => rows.insert ⟨partition, w.1⟩ r
    | none => rows.erase ⟨partition, w.1⟩) rows

end TableRows

namespace MemoryStore

/-- The rows of a table; a missing table is empty if it would be created, and else an error. -/
def rowsOf (s : MemoryStore) (table : String) : Except StorageError TableRows :=
  match s.tables.get? table with
  | some rows => .ok rows
  | none => if s.config.createTableIfMissing then .ok ∅ else .error (.tableNotFound table)

def read (s : MemoryStore) (table partition row : String) : Except StorageError (Option Entity) :=
  (s.rowsOf table).map fun rows => (rows.get? ⟨partition, row⟩).map (·.at ⟨partition, row⟩)

def query (s : MemoryStore) (table partition : String) : Except StorageError (List Entity) :=
  (s.rowsOf table).map fun rows =>
    (rows.filterKeys (·.partition = partition)).entries.map fun (key, r) => r.at key

/--
A rejected batch still creates its table and uses up the versions it drew; a batch that misses its
deadline has been applied.
-/
def submit (s : MemoryStore) (table partition : String) (ops : List BatchOp)
    (timeLeft : Option Duration) : Except StorageError (List (Option Token)) × MemoryStore :=
  match Batch.accept s.config.limits table partition ops with
  | .error e => (.error e, s)
  | .ok () =>
    match s.rowsOf table with
    | .error e => (.error e, s)
    | .ok rows =>
      match Batch.stage (fun row => .ok (rows.get? ⟨partition, row⟩)) 0 s.version ops with
      | (.error e, version) => (.error e, { s with tables := s.tables.insert table rows, version })
      | (.ok writes, version) =>
        let s' := { s with tables := s.tables.insert table (rows.write partition writes), version }
        let latency := s.config.responseLatency.getD ⟨0, 0⟩
        if missesDeadline latency timeLeft then (.error (.timeout latency), s')
        else (.ok (Batch.tokens writes), s')

def tableExists (s : MemoryStore) (table : String) : Bool := s.tables.contains table

def ensureTable (s : MemoryStore) (table : String) : Except StorageError Unit × MemoryStore :=
  match checkTableName table with
  | .error fault => (.error (.invalidKey fault), s)
  | .ok () =>
    if s.tables.contains table then (.ok (), s)
    else (.ok (), { s with tables := s.tables.insert table ∅ })

/-- The count of rows in all tables. -/
def rowCount (s : MemoryStore) : Nat :=
  (s.tables.entries.map fun (_, rows) => rows.size).foldr (· + ·) 0

instance : TableStore MemoryStore where
  limits s := s.config.limits
  read := read
  query := query
  submit := submit
  tableExists := tableExists
  ensureTable := ensureTable

end MemoryStore

end UnitOfWork
