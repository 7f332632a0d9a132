import UnitOfWork.Session.Manager
import UnitOfWork.Text.Quoted

/-! Sessions: participants of a unit of work, from idle over open to committed or aborted. -/

namespace UnitOfWork

inductive SessionState
  | idle
  | open
  | committing
  | committed
  | aborting
  | aborted
deriving DecidableEq, Repr, Inhabited

namespace SessionState

def name : SessionState → String
  | .idle => "idle"
  | .open => "open"
  | .committing => "committing"
  | .committed => "committed"
  | .aborting => "aborting"
  | .aborted => "aborted"

def isTerminal : SessionState → Bool
  | .committed | .aborted => true
  | _ => false

end SessionState

/--
A participant of a unit of work; from when it opens until it ends it holds the number of its batch.
-/
structure Session where
  work : WorkId
  partition : Partition
  state : SessionState := .idle
  batch : Option BatchId := none
deriving DecidableEq

namespace Session

variable {σ : Type}

/-- The count of operations pending in the session's batch, whoever enlisted them. -/
def pendingOperations (s : Session) (m : Manager σ) : Nat :=
  ((s.batch.bind m.batch?).map (·.pending.length)).getD 0

/-- The batch of an open session, as long as no participant has completed it. -/
def ensureOpen (s : Session) (m : Manager σ) : Except SessionError (BatchId × SharedBatch) :=
  match s.state, s.batch with
  | .idle, _ => .error .notOpen
  | .open, some id =>
    match m.batch? id with
    | some b => if b.completed then .error .alreadyCompleted else .ok (id, b)
    | none => .error .alreadyCompleted
  | _, _ => .error .alreadyCompleted

/-- Joins the batch of the session's unit of work. -/
def start (s : Session) (m : Manager σ) : Except SessionError Unit × Session × Manager σ :=
  if s.state ≠ .idle then (.error .alreadyCompleted, s, m)
  else
    match m.acquire s.work s.partition with
    | (.error e, m) => (.error e, s, m)
    | (.ok id, m) =>
      (.ok (), { s with state := .open, batch := some id }, m.modifyBatch id SharedBatch.join)

/-- Ends the session in a state: it leaves its batch, and the registry lets go of the batch. -/
def finish (s : Session) (m : Manager σ) (state : SessionState) : Session × Manager σ :=
  match s.batch with
  | some id =>
    ({ s with state, batch := none }, (m.modifyBatch id SharedBatch.leave).releaseBatch s.work id)
  | none => ({ s with state }, m)

/-- Reads a row as it is stored; pending operations do not show. -/
def read [TableStore σ] (s : Session) (m : Manager σ) (row : String) :
    Except SessionError (Option Entity) :=
  match s.ensureOpen m with
  | .error e => .error e
  | .ok _ =>
    (TableStore.read m.store s.partition.table s.partition.key row).mapError SessionError.ofStorage

def enlist (s : Session) (m : Manager σ) (op : Operation) : Except SessionError Unit × Manager σ :=
  match s.ensureOpen m with
  | .error e => (.error e, m)
  | .ok (id, b) =>
    let (answer, b) := b.register op
    (answer, m.setBatch id b)

/--
Submits the whole batch and ends the unit of work. Whatever the outcome the batch is completed and
empty afterwards; after an error the session is aborted.
-/
def conclude [TableStore σ] (s : Session) (m : Manager σ) (id : BatchId) (b : SharedBatch) :
    Except SessionError (List CommittedRow) × Session × Manager σ :=
  let (answer, b, store) := b.commit m.store m.config.commitTimeout
  let m := { m with store }.setBatch id b.discard
  match answer with
  | .ok rows =>
    let (s, m) := s.finish m .committed
    (.ok rows, s, m)
  | .error e =>
    let (s, m) := s.finish m .aborted
    (.error e, s, m)

/--
Completes the unit of work, with a deadline if one is configured. The call panics, and has no
answer, if the clock cannot tell the deadline: by then the session is committing, but nothing is
submitted yet, and it keeps its batch.
-/
def complete [TableStore σ] (s : Session) (m : Manager σ) (now : Instant) :
    Option (Except SessionError (List CommittedRow)) × Session × Manager σ :=
  match s.ensureOpen m with
  | .error e => (some (.error e), s, m)
  | .ok (id, b) =>
    if m.config.tellsDeadline now then
      let (answer, s, m) := s.conclude m id b
      (some answer, s, m)
    else (none, { s with state := .committing }, m)

/-- Drops all that is pending and ends the unit of work. -/
def abort (s : Session) (m : Manager σ) : Except SessionError Unit × Session × Manager σ :=
  match s.ensureOpen m with
  | .error e => (.error e, s, m)
  | .ok (id, b) =>
    let (s, m) := s.finish (m.setBatch id b.discard) .aborted
    (.ok (), s, m)

/-- What is left of the shared state when a session goes away; the last participant discards. -/
def drop (s : Session) (m : Manager σ) : Manager σ :=
  match s.state, s.batch with
  | .open, some id =>
    match m.batch? id with
    | some b =>
      let b := b.leave
      if 0 < b.participants then m.setBatch id b
      else (m.setBatch id b.discard).releaseBatch s.work id
    | none => m
  | _, _ => m

/-- The session in its debugging form. -/
def debugText (s : Session) : String :=
  let state :=
    match s.state with
    | .idle => "Idle"
    | .open => "Open"
    | .committing => "Committing"
    | .committed => "Committed"
    | .aborting => "Aborting"
    | .aborted => "Aborted"
  "SynchronizedStorageSession \x7b work_id: WorkId(" ++ Text.quote s.work ++
    "), partition: PartitionKeyDescriptor \x7b partition_key: " ++ Text.quote s.partition.key ++
    ", table: " ++ Text.quote s.partition.table ++ " \x7d, state: " ++ state ++ ", .. \x7d"

end Session

end UnitOfWork
