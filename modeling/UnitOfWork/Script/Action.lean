import UnitOfWork.Config.Store
import UnitOfWork.Session.World
import UnitOfWork.Store.Relay

/-! The actions of a script, and operations whose tokens are looked up when their turn comes. -/

namespace UnitOfWork.Script

/-- Where the token of a drafted operation comes from. -/
inductive TokenSource
  | absent
  | given (token : Token)
  /-- The token that the row carries at the moment. -/
  | current
deriving DecidableEq

/-- The token from a source, given what the row carries. -/
def TokenSource.resolve (source : TokenSource) (carried : Option Token) : Option Token :=
  match source with
  | .absent => none
  | .given token => some token
  | .current => carried

/-- How a partition is named. -/
inductive PartitionSource
  | named (key table : String)
  | derived (content : List UInt8) (table : String)
deriving DecidableEq

def PartitionSource.build : PartitionSource → Except SessionError Partition
  | .named key table => Partition.create key table
  | .derived content table => Partition.derive content table

/-- An operation before its token is known. -/
structure Draft where
  kind : OperationKind
  key : EntityKey
  properties : Properties
  token : TokenSource

def Draft.build (d : Draft) (carried : Option Token) : Except SessionError Operation :=
  let token := d.token.resolve carried
  match d.kind with
  | .insert => .ok (Operation.insert d.key d.properties)
  | .update => Operation.update d.key d.properties token
  | .delete => Operation.delete d.key token
  | .replace => Operation.replace d.key d.properties token

/-- An operation of a batch before its token is known. -/
structure BatchDraft where
  kind : OperationKind
  row : String
  properties : Properties
  token : TokenSource

/-- The token of no source is the empty one. -/
def BatchDraft.build (d : BatchDraft) (carried : Option Token) : BatchOp :=
  let token := (d.token.resolve carried).getD Token.none
  match d.kind with
  | .insert => .insert d.row d.properties
  | .update => .merge d.row d.properties token
  | .delete => .delete d.row token
  | .replace => .replace d.row d.properties token

/-- An entry put into the database file by hand. -/
inductive RawPut
  | row (key value : List UInt8)
  | table (name : String) (number : UInt64)
  | counter (name : String) (number : UInt64)

/-- How a store is opened, now and after every reopening. -/
structure Setup where
  backend : Backend := .memory
  /-- Opened through a store configuration, which also creates the default table. -/
  configured : Bool := false
  limits : Limits := {}
  createTableIfMissing : Bool := true
  latency : Option Duration := none
  cacheSize : Option Nat := none
  defaultTable : String := "SagaData"

/-- What a reopening changes of the setup and does to the closed file. -/
structure Reopening where
  limits : Option Limits := none
  createTableIfMissing : Option Bool := none
  cacheSize : Option Nat := none
  defaultTable : Option String := none
  puts : List RawPut := []
  dump : Bool := false

/-- One action; sessions, batch handles and accumulators go by names. -/
inductive Action
  | read (table partition row : String)
  | query (table partition : String)
  | submit (table partition : String) (drafts : List BatchDraft) (timeLeft : Option Duration)
  | ensureTable (table : String)
  | tableExists (table : String)
  | flush
  | limits
  | fault (fault : RelayFault)
  | reopen (reopening : Reopening)
  | create (session : String) (work : WorkId) (partition : PartitionSource)
  | createOpen (session : String) (work : WorkId) (partition : PartitionSource)
  | start (session : String)
  | sessionRead (session row : String)
  | enlist (session : String) (draft : Draft)
  | complete (session : String)
  | abort (session : String)
  | drop (session : String)
  | info (session : String)
  | debug (session : String)
  | acquire (batch : String) (work : WorkId) (partition : PartitionSource)
  | dropBatch (batch : String)
  | release (work : WorkId)
  | contains (work : WorkId)
  | registry
  | batch (batch : String)
  | sameBatch (a b : String)
  | poison (batch : String)
  | batchRegister (batch : String) (draft : Draft)
  | batchCommit (batch : String) (timeLeft : Option Duration)
  | batchAbandon (batch : String)
  | batchDump (batch : String)
  | accumulate (accumulator : String) (partition : PartitionSource) (limits : Limits)
  | register (accumulator : String) (draft : Draft)
  | abandon (accumulator : String)
  | commit (accumulator : String) (timeLeft : Option Duration)
  | dump (accumulator : String)

end UnitOfWork.Script
