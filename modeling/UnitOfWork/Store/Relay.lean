import UnitOfWork.Store.Basic

/-! A relay in front of a store: it counts submissions and gives some of them a faulty answer. -/

namespace UnitOfWork

/-- What a relay does to one submission. -/
inductive RelayFault
  /-- Answers with an error; the store is asked first if the batch is to be applied. -/
  | fail (error : StorageError) (apply : Bool)
  /-- Pads the answered tokens, or for a negative number cuts them off at the end. -/
  | recount (excess : Int)
deriving DecidableEq, Repr, Inhabited

structure Relay (σ : Type) where
  store : σ
  submissions : Nat := 0
  /-- The faults of the next submissions, the oldest first. -/
  faults : List RelayFault := []
deriving DecidableEq, Inhabited

namespace Relay

/-- The token list with so many more or fewer entries at its end. -/
def recount (excess : Int) (tokens : List (Option Token)) : List (Option Token) :=
  if 0 ≤ excess then tokens ++ List.replicate excess.toNat none
  else tokens.take (tokens.length - (-excess).toNat)

variable {σ : Type} [TableStore σ]

def submit (s : Relay σ) (table partition : String) (ops : List BatchOp)
    (timeLeft : Option Duration) : Except StorageError (List (Option Token)) × Relay σ :=
  let counted := { s with submissions := s.submissions + 1, faults := s.faults.tail }
  match s.faults.head? with
  | some (.fail e false) => (.error e, counted)
  | fault =>
    let (answer, store) := TableStore.submit s.store table partition ops timeLeft
    let altered :=
      match fault, answer with
      | some (.fail e _), .ok _ => .error e
      | some (.recount excess), .ok tokens => .ok (recount excess tokens)
      | _, answer => answer
    (altered, { counted with store })

instance : TableStore (Relay σ) where
  limits s := TableStore.limits s.store
  read s := TableStore.read s.store
  query s := TableStore.query s.store
  submit := submit
  tableExists s := TableStore.tableExists s.store
  ensureTable s table :=
    let (answer, store) := TableStore.ensureTable s.store table
    (answer, { s with store })

end Relay

end UnitOfWork
