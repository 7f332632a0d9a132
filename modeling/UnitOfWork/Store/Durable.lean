import UnitOfWork.Batch.Staging
import UnitOfWork.Store.Basic
import UnitOfWork.Store.PhysicalKey

/-! A store over one database of byte-keyed maps, changed by whole transactions only. -/

namespace UnitOfWork

structure DurableConfig where
  cacheSize : Option Nat := none
  limits : Limits := {}
  createTableIfMissing : Bool := true
deriving DecidableEq, Repr, Inhabited

/-- What outlives the store: encoded rows, the registered tables and named counters. -/
structure Database where
  rows : SortedMap (List UInt8) (List UInt8) := ∅
  tables : SortedMap String UInt64 := ∅
  counters : SortedMap String UInt64 := ∅
deriving DecidableEq, Inhabited

structure DurableStore where
  config : DurableConfig
  database : Database := {}
deriving DecidableEq, Inhabited

namespace Database

/-- The counter that holds the last version of a committed batch. -/
def versionCounter : String := "row_version"

def version (d : Database) : UInt64 := (d.counters.get? versionCounter).getD 0

def isRegistered (d : Database) (table : String) : Bool := d.tables.contains table

def register (d : Database) (table : String) : Database :=
  if d.isRegistered table then d else { d with tables := d.tables.insert table 0 }

def decodeRow (bytes : List UInt8) : Except StorageError Row :=
  match Row.decode? bytes with
  | some r => .ok r
  | none => .error (.serialization "malformed stored row")

/-- The row stored under a physical key. -/
def rowAt (d : Database) (key : List UInt8) : Except StorageError (Option Row) :=
  match d.rows.get? key with
  | some bytes => (decodeRow bytes).map some
  | none => .ok none

/-- Carries out the writes of a batch in one partition. -/
def write (d : Database) (table partition : String) (writes : Batch.Writes) : Database :=
  { d with
    rows := writes.foldl (fun rows w =>
      match w.2 with
      | some r => rows.insert (PhysicalKey.encode table partition w.1) r.encode
      | none => rows.erase (PhysicalKey.encode table partition w.1)) d.rows }

end Database

namespace DurableStore

/-- Whether a table has rows to look at; a missing table is an error unless it would be created. -/
def isReadable (s : DurableStore) (table : String) : Except StorageError Bool :=
  if s.database.isRegistered table then .ok true
  else if s.config.createTableIfMissing then .ok false
  else .error (.tableNotFound table)

def read (s : DurableStore) (table partition row : String) : Except StorageError (Option Entity) :=
  match s.isReadable table with
  | .error e => .error e
  | .ok false => .ok none
  | .ok true =>
    (s.database.rowAt (PhysicalKey.encode table partition row)).map fun r =>
      r.map (·.at ⟨partition, row⟩)

/-- The entities of physical rows in their order; keys that do not decode are passed over. -/
def entitiesOf : List (List UInt8 × List UInt8) → Except StorageError (List Entity)
  | [] => .ok []
  | (key, bytes) :: rest =>
    match PhysicalKey.decode? key with
    | none => entitiesOf rest
    | some (_, partition, row) =>
      match Database.decodeRow bytes with
      | .error e => .error e
      | .ok r => (entitiesOf rest).map (r.at ⟨partition, row⟩ :: ·)

def query (s : DurableStore) (table partition : String) : Except StorageError (List Entity) :=
  match s.isReadable table with
  | .error e => .error e
  | .ok false => .ok []
  | .ok true =>
    entitiesOf (s.database.rows.filterKeys (PhysicalKey.inPartition table partition)).entries

/-- The transaction of a batch: the tokens it stamps and the database it would commit. -/
def transact (s : DurableStore) (table partition : String) (ops : List BatchOp) :
    Except StorageError (List (Option Token) × Database) :=
  match s.isReadable table with
  | .error e => .error e
  | .ok _ =>
    let d := s.database.register table
    match Batch.stage (fun row => d.rowAt (PhysicalKey.encode table partition row)) 0 d.version ops
      with
    | (.error e, _) => .error e
    | (.ok writes, version) =>
      let d' := d.write table partition writes
      .ok (Batch.tokens writes,
        { d' with counters := d'.counters.insert Database.versionCounter version })

/-- Any error, a missed deadline too, rolls the transaction back. -/
def submit (s : DurableStore) (table partition : String) (ops : List BatchOp)
    (timeLeft : Option Duration) : Except StorageError (List (Option Token)) × DurableStore :=
  match Batch.accept s.config.limits table partition ops with
  | .error e => (.error e, s)
  | .ok () =>
    match s.transact table partition ops with
    | .error e => (.error e, s)
    | .ok (tokens, database) =>
      if missesDeadline ⟨0, 0⟩ timeLeft then (.error (.timeout ⟨0, 0⟩), s)
      else (.ok tokens, { s with database })

def tableExists (s : DurableStore) (table : String) : Bool := s.database.isRegistered table

def ensureTable (s : DurableStore) (table : String) : Except StorageError Unit × DurableStore :=
  match checkTableName table with
  | .error fault => (.error (.invalidKey fault), s)
  | .ok () => (.ok (), { s with database := s.database.register table })

instance : TableStore DurableStore where
  limits s := s.config.limits
  read := read
  query := query
  submit := submit
  tableExists := tableExists
  ensureTable := ensureTable

end DurableStore

end UnitOfWork
