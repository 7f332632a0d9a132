import UnitOfWork.Session.Lifecycle

/-! Named sessions over one manager, and the steps that callers take. -/

namespace UnitOfWork

structure World (σ : Type) where
  manager : Manager σ
  sessions : SortedMap String Session := ∅

/-- A call to a session, to the registry or directly to a shared batch. -/
inductive Step
  /-- A new session, still idle. -/
  | create (name : String) (work : WorkId) (partition : Partition)
  /-- A new session that is open at once; if it cannot be opened there is none. -/
  | createOpen (name : String) (work : WorkId) (partition : Partition)
  | start (name : String)
  | read (name row : String)
  | enlist (name : String) (op : Operation)
  | complete (name : String) (now : Instant)
  | abort (name : String)
  | drop (name : String)
  | acquire (work : WorkId) (partition : Partition)
  | release (work : WorkId)
  | register (batch : BatchId) (op : Operation)
  | commit (batch : BatchId) (timeLeft : Option Duration)
  | abandon (batch : BatchId)
  /-- A task fails while it holds the lock of a batch. -/
  | poison (batch : BatchId)

/-- What a step answers. -/
inductive Answer
  | done
  | refused (error : SessionError)
  | entity (found : Option Entity)
  | rows (committed : List CommittedRow)
  | batch (id : BatchId)
  /-- The call panicked, and its caller went on. -/
  | panicked
  /-- The step names a session or batch that is not there, or creates one that is. -/
  | misnamed
deriving DecidableEq

namespace Answer

def ofUnit : Except SessionError Unit → Answer
  | .ok () => .done
  | .error e => .refused e

def ofRows : Except SessionError (List CommittedRow) → Answer
  | .ok committed => .rows committed
  | .error e => .refused e

end Answer

namespace World

variable {σ : Type} [TableStore σ]

def fresh (store : σ) (config : SessionConfig) : World σ :=
  { manager := Manager.create store config }

def session? (w : World σ) (name : String) : Option Session := w.sessions.get? name

/-- Puts back what a call to a session leaves. -/
def setSession (w : World σ) (name : String) (s : Session) (manager : Manager σ) : World σ :=
  { manager, sessions := w.sessions.insert name s }

def create (w : World σ) (name : String) (work : WorkId) (partition : Partition) :
    Answer × World σ :=
  if w.sessions.contains name then (.misnamed, w)
  else (.done, w.setSession name { work, partition } w.manager)

def createOpen (w : World σ) (name : String) (work : WorkId) (partition : Partition) :
    Answer × World σ :=
  if w.sessions.contains name then (.misnamed, w)
  else
    match Session.start { work, partition } w.manager with
    | (.ok (), s, m) => (.done, w.setSession name s m)
    | (.error e, _, m) => (.refused e, { w with manager := m })

/-- Calls an existing session. -/
def call (w : World σ) (name : String) (f : Session → Manager σ → Answer × Session × Manager σ) :
    Answer × World σ :=
  match w.session? name with
  | none => (.misnamed, w)
  | some s =>
    let (answer, s, m) := f s w.manager
    (answer, w.setSession name s m)

def start (s : Session) (m : Manager σ) : Answer × Session × Manager σ :=
  let (answer, s, m) := s.start m
  (.ofUnit answer, s, m)

def read (row : String) (s : Session) (m : Manager σ) : Answer × Session × Manager σ :=
  match s.read m row with
  | .ok found => (.entity found, s, m)
  | .error e => (.refused e, s, m)

def enlist (op : Operation) (s : Session) (m : Manager σ) : Answer × Session × Manager σ :=
  let (answer, m) := s.enlist m op
  (.ofUnit answer, s, m)

def complete (now : Instant) (s : Session) (m : Manager σ) : Answer × Session × Manager σ :=
  let (answer, s, m) := s.complete m now
  (answer.elim .panicked .ofRows, s, m)

def abort (s : Session) (m : Manager σ) : Answer × Session × Manager σ :=
  let (answer, s, m) := s.abort m
  (.ofUnit answer, s, m)

def drop (w : World σ) (name : String) : Answer × World σ :=
  match w.session? name with
  | none => (.misnamed, w)
  | some s => (.done, { manager := s.drop w.manager, sessions := w.sessions.erase name })

def acquire (w : World σ) (work : WorkId) (partition : Partition) : Answer × World σ :=
  match w.manager.acquire work partition with
  | (.ok id, m) => (.batch id, { w with manager := m })
  | (.error e, m) => (.refused e, { w with manager := m })

/-- Acts directly on a shared batch. -/
def onBatch (w : World σ) (id : BatchId)
    (f : SharedBatch → σ → Answer × SharedBatch × σ) : Answer × World σ :=
  match w.manager.batch? id with
  | none => (.misnamed, w)
  | some b =>
    let (answer, b, store) := f b w.manager.store
    (answer, { w with manager := { w.manager with store }.setBatch id b })

/-- One step and its answer. -/
def step (w : World σ) : Step → Answer × World σ
  | .create name work partition => w.create name work partition
  | .createOpen name work partition => w.createOpen name work partition
  | .start name => w.call name start
  | .read name row => w.call name (read row)
  | .enlist name op => w.call name (enlist op)
  | .complete name now => w.call name (complete now)
  | .abort name => w.call name abort
  | .drop name => w.drop name
  | .acquire work partition => w.acquire work partition
  | .release work => (.done, { w with manager := w.manager.release work })
  | .register id op =>
    w.onBatch id fun b store =>
      let (answer, b) := b.register op
      (.ofUnit answer, b, store)
  | .commit id timeLeft =>
    w.onBatch id fun b store =>
      let (answer, b, store) := b.commit store timeLeft
      (.ofRows answer, b, store)
  | .abandon id =>
    w.onBatch id fun b store =>
      let (answer, b) := b.abandon
      (.ofUnit answer, b, store)
  | .poison id => w.onBatch id fun b store => (.done, { b with poisoned := true }, store)

/-- The world after some steps, with the answer of each. -/
def run (w : World σ) : List Step → List Answer × World σ
  | [] => ([], w)
  | s :: steps =>
    let (answer, w) := w.step s
    let (answers, w) := w.run steps
    (answer :: answers, w)

end World

end UnitOfWork
