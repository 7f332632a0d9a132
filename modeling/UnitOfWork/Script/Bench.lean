import UnitOfWork.Script.Outcome

/-! The bench on which scripts run: one store, opened and reopened, and all that is named on it. -/

namespace UnitOfWork.Script

namespace Setup

def config (s : Setup) : StoreConfig :=
  { backend := s.backend, defaultTable := s.defaultTable
    createTableIfMissing := s.createTableIfMissing, limits := s.limits }

/-- Opens the store; one that is not configured has its own latency and creates no table. -/
def openStore (s : Setup) (disk : Disk) : Except StorageError AnyStore :=
  if s.configured then s.config.openStore disk
  else
    (s.config.openBackend disk).map fun
      | .memory m => .memory { m with config.responseLatency := s.latency }
      | store => store

def change (s : Setup) (r : Reopening) : Setup :=
  { s with
    limits := r.limits.getD s.limits
    createTableIfMissing := r.createTableIfMissing.getD s.createTableIfMissing
    cacheSize := r.cacheSize.or s.cacheSize
    defaultTable := r.defaultTable.getD s.defaultTable }

end Setup

def RawPut.apply (d : Database) : RawPut → Database
  | .row key value => { d with rows := d.rows.insert key value }
  | .table name number => { d with tables := d.tables.insert name number }
  | .counter name number => { d with counters := d.counters.insert name number }

abbrev BenchWorld := World (Relay AnyStore)

/-- A store with all that is named on it; there is no world if the store could not be reopened. -/
structure Bench where
  setup : Setup
  config : SessionConfig
  /-- The database file as it was when it was last closed. -/
  file : Database := {}
  world : Option BenchWorld := none
  handles : SortedMap String BatchId := ∅
  accumulators : SortedMap String Accumulator := ∅

namespace Bench

/-- Opens the store and a fresh world over it. -/
def openWorld (b : Bench) (disk : Disk) : Except StorageError Bench :=
  (b.setup.openStore disk).map fun store =>
    { b with world := some (World.fresh { store } b.config) }

def create (setup : Setup) (config : SessionConfig) (disk : Disk) : Except StorageError Bench :=
  openWorld { setup, config } disk

/-- The content of the database file once the store is closed. -/
def closedFile (b : Bench) : Database :=
  match b.world with
  | none => b.file
  | some w =>
    match w.manager.store.store with
    | .durable s => s.database
    | .memory _ => b.file

/-- Closes the store, changes file and setup, and opens it again with nothing but its rows. -/
def reopen (b : Bench) (r : Reopening) : Outcome × Bench :=
  let file := r.puts.foldl RawPut.apply b.closedFile
  let closed : Bench := { b with setup := b.setup.change r, file, world := none, handles := ∅ }
  match closed.openWorld fun _ => .ok file with
  | .error e => (.storageError e, closed)
  | .ok opened => (if r.dump then .database file else .nothing, opened)

/-- The token that a row carries, if it can be read. -/
def carried (w : BenchWorld) (table partition row : String) : Option Token :=
  match TableStore.read w.manager.store table partition row with
  | .ok found => found.map (·.token)
  | .error _ => none

/-- The drafted operation with the token its row carries in a table. -/
def buildIn (w : BenchWorld) (table : String) (d : Draft) : Except SessionError Operation :=
  d.build (carried w table d.key.partition d.key.row)

/-- Acts on the open world. -/
def onWorld (b : Bench) (f : BenchWorld → Outcome × BenchWorld) : Outcome × Bench :=
  match b.world with
  | none => (.misnamed, b)
  | some w =>
    let (outcome, w) := f w
    (outcome, { b with world := some w })

def look (b : Bench) (f : BenchWorld → Outcome) : Outcome × Bench := b.onWorld fun w => (f w, w)

def step (b : Bench) (s : Step) : Outcome × Bench :=
  b.onWorld fun w =>
    let (answer, w) := w.step s
    (.ofAnswer answer, w)

def withPartition (b : Bench) (source : PartitionSource) (f : Partition → Outcome × Bench) :
    Outcome × Bench :=
  match source.build with
  | .error e => (.sessionError e, b)
  | .ok partition => f partition

def withHandle (b : Bench) (name : String) (f : BatchId → Outcome × Bench) : Outcome × Bench :=
  match b.handles.get? name with
  | none => (.misnamed, b)
  | some id => f id

/-- Looks at a shared batch through a handle. -/
def lookAtBatch (b : Bench) (name : String) (f : SharedBatch → Outcome) : Outcome × Bench :=
  b.withHandle name fun id =>
    b.look fun w => ((w.manager.batch? id).map f).getD .misnamed

def lookAtSession (b : Bench) (name : String) (f : Session → BenchWorld → Outcome) :
    Outcome × Bench :=
  b.look fun w => ((w.session? name).map (f · w)).getD .misnamed

def withAccumulator (b : Bench) (name : String) (f : Accumulator → Outcome × Bench) :
    Outcome × Bench :=
  match b.accumulators.get? name with
  | none => (.misnamed, b)
  | some a => f a

def setAccumulator (b : Bench) (name : String) (a : Accumulator) : Bench :=
  { b with accumulators := b.accumulators.insert name a }

/-- Builds a drafted operation against the open world and a table, then goes on with it. -/
def withDraft (b : Bench) (table : String) (d : Draft) (f : Operation → Outcome × Bench) :
    Outcome × Bench :=
  match b.world with
  | none => (.misnamed, b)
  | some w =>
    match buildIn w table d with
    | .error e => (.sessionError e, b)
    | .ok op => f op

def submit (w : BenchWorld) (table partition : String) (drafts : List BatchDraft)
    (timeLeft : Option Duration) : Outcome × BenchWorld :=
  let ops := drafts.map fun d => d.build (carried w table partition d.row)
  let (answer, store) := w.manager.store.submit table partition ops timeLeft
  (.ofStorage .tokens answer, { w with manager.store := store })

def ensureTable (w : BenchWorld) (table : String) : Outcome × BenchWorld :=
  let (answer, store) := TableStore.ensureTable w.manager.store table
  (.ofStorage (fun _ => .done) answer, { w with manager.store := store })

def enlist (b : Bench) (session : String) (d : Draft) : Outcome × Bench :=
  match b.world.bind (·.session? session) with
  | none => (.misnamed, b)
  | some s => b.withDraft s.partition.table d fun op => b.step (.enlist session op)

def acquire (b : Bench) (handle : String) (work : WorkId) (partition : Partition) :
    Outcome × Bench :=
  match b.world with
  | none => (.misnamed, b)
  | some w =>
    match w.step (.acquire work partition) with
    | (.batch id, w) => (.done, { b with world := some w, handles := b.handles.insert handle id })
    | (answer, w) => (.ofAnswer answer, { b with world := some w })

def batchRegister (b : Bench) (handle : String) (d : Draft) : Outcome × Bench :=
  b.withHandle handle fun id =>
    match b.world.bind (·.manager.batch? id) with
    | none => (.misnamed, b)
    | some shared =>
      b.withDraft shared.partition.table d fun op => b.step (.register id op)

def registerIn (b : Bench) (name : String) (d : Draft) : Outcome × Bench :=
  b.withAccumulator name fun a =>
    b.withDraft a.partition.table d fun op =>
      match a.register op with
      | (.error e, a) => (.sessionError e, b.setAccumulator name a)
      | (.ok (), a) => (.measure a.length a.payloadBytes, b.setAccumulator name a)

def commitFrom (b : Bench) (name : String) (timeLeft : Option Duration) : Outcome × Bench :=
  b.withAccumulator name fun a =>
    match b.world with
    | none => (.misnamed, b)
    | some w =>
      let (answer, a, store) := a.commit w.manager.store timeLeft
      (.ofSession .rows answer,
        { b with world := some { w with manager.store := store } }.setAccumulator name a)

/-- One action and its outcome. -/
def act (b : Bench) : Action → Outcome × Bench
  | .read table partition row =>
    b.look fun w => .ofStorage .entity (TableStore.read w.manager.store table partition row)
  | .query table partition =>
    b.look fun w => .ofStorage .entities (TableStore.query w.manager.store table partition)
  | .submit table partition drafts timeLeft =>
    b.onWorld fun w => submit w table partition drafts timeLeft
  | .ensureTable table => b.onWorld fun w => ensureTable w table
  | .tableExists table => b.look fun w => .flag (TableStore.tableExists w.manager.store table)
  | .flush => b.look fun _ => .done
  | .limits =>
    b.look fun w =>
      .limits (TableStore.limits w.manager.store) w.manager.config w.manager.limits
  | .fault fault =>
    b.onWorld fun w =>
      (.done, { w with manager.store.faults := w.manager.store.faults ++ [fault] })
  | .reopen r => b.reopen r
  | .create name work source => b.withPartition source fun p => b.step (.create name work p)
  | .createOpen name work source => b.withPartition source fun p => b.step (.createOpen name work p)
  | .start name => b.step (.start name)
  | .sessionRead name row => b.step (.read name row)
  | .enlist name d => b.enlist name d
  | .complete name => b.step (.complete name .start)
  | .abort name => b.step (.abort name)
  | .drop name => b.step (.drop name)
  | .info name => b.lookAtSession name fun s w => .session s (s.pendingOperations w.manager)
  | .debug name => b.lookAtSession name fun s _ => .text s.debugText
  | .acquire handle work source => b.withPartition source fun p => b.acquire handle work p
  | .dropBatch handle =>
    b.withHandle handle fun _ => (.done, { b with handles := b.handles.erase handle })
  | .release work => b.step (.release work)
  | .contains work => b.look fun w => .flag (w.manager.registry.contains work)
  | .registry => b.look fun w => .registry w.manager.registry.size w.manager.limits
  | .batch handle => b.lookAtBatch handle .batch
  | .sameBatch first second =>
    b.withHandle first fun i => b.withHandle second fun j => (.flag (i = j), b)
  | .poison handle => b.withHandle handle fun id => b.step (.poison id)
  | .batchRegister handle d => b.batchRegister handle d
  | .batchCommit handle timeLeft => b.withHandle handle fun id => b.step (.commit id timeLeft)
  | .batchAbandon handle => b.withHandle handle fun id => b.step (.abandon id)
  | .batchDump handle => b.lookAtBatch handle fun shared => .ofSession .accumulator shared.lock
  | .accumulate name source limits =>
    b.withPartition source fun p => (.done, b.setAccumulator name (Accumulator.create p limits))
  | .register name d => b.registerIn name d
  | .abandon name =>
    b.withAccumulator name fun a =>
      (.measure 0 0, b.setAccumulator name a.clear)
  | .commit name timeLeft => b.commitFrom name timeLeft
  | .dump name => b.withAccumulator name fun a => (.accumulator a, b)

def snapshot (b : Bench) : Snapshot :=
  match b.world with
  | none => ⟨[], none⟩
  | some w =>
    let rows :=
      match w.manager.store.store with
      | .memory m => if b.setup.configured then none else some m.rowCount
      | .durable _ => none
    ⟨w.sessions.entries.map fun (name, s) => (name, s.state, s.pendingOperations w.manager),
      some ⟨w.manager.registry.size, w.manager.store.submissions, rows⟩⟩

/-- The outcome of each action with the snapshot after it. -/
def run (b : Bench) : List Action → List (Outcome × Snapshot)
  | [] => []
  | a :: actions =>
    let (outcome, b) := b.act a
    (outcome, b.snapshot) :: b.run actions

end Bench

end UnitOfWork.Script
