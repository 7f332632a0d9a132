import UnitOfWork.Batch.Operation

/-! Operations that a unit of work enlists: every change but an insert shows the token of a read. -/

namespace UnitOfWork

inductive OperationKind
  | insert
  | update
  | delete
  | replace
deriving DecidableEq, Repr, Inhabited

namespace OperationKind

def name : OperationKind → String
  | .insert => "insert"
  | .update => "update"
  | .delete => "delete"
  | .replace => "replace"

def requiresToken : OperationKind → Bool
  | .insert => false
  | _ => true

end OperationKind

/-- A token that is not blank, as a read gives it. -/
structure HeldToken where
  token : Token
  not_blank : token.isBlank = false
deriving DecidableEq, Repr

namespace HeldToken

def ofOption? : Option Token → Option HeldToken
  | some t => if h : t.isBlank = false then some ⟨t, h⟩ else none
  | none => none

end HeldToken

/-- What an operation does to its row. -/
inductive Change
  | insert (properties : Properties)
  | update (properties : Properties) (held : HeldToken)
  | delete (held : HeldToken)
  | replace (properties : Properties) (held : HeldToken)
deriving DecidableEq

/-- A change of one row. -/
structure Operation where
  key : EntityKey
  change : Change
deriving DecidableEq

namespace Operation

def kind (op : Operation) : OperationKind :=
  match op.change with
  | .insert _ => .insert
  | .update _ _ => .update
  | .delete _ => .delete
  | .replace _ _ => .replace

def row (op : Operation) : String := op.key.row

def properties? (op : Operation) : Option Properties :=
  match op.change with
  | .insert p | .update p _ | .replace p _ => some p
  | .delete _ => none

def token? (op : Operation) : Option Token :=
  match op.change with
  | .insert _ => none
  | .update _ t | .delete t | .replace _ t => some t.token

/-- The operation of the batch that carries the change out. -/
def toBatchOp (op : Operation) : BatchOp :=
  match op.change with
  | .insert p => .insert op.key.row p
  | .update p t => .merge op.key.row p t.token
  | .delete t => .delete op.key.row t.token
  | .replace p t => .replace op.key.row p t.token

def payloadSize (op : Operation) : Nat := op.toBatchOp.payloadSize

/-- Two updates of one row merge if they show the same token. -/
def canMerge (pending next : Operation) : Bool :=
  match pending.change, next.change with
  | .update _ t, .update _ u => pending.key = next.key && t.token = u.token
  | _, _ => false

/-- An update with the properties of a later operation over its own; other operations stay. -/
def mergedWith (pending next : Operation) : Operation :=
  match pending.change, next.properties? with
  | .update p t, some q => { pending with change := .update (p.override q) t }
  | _, _ => pending

/-- Equality of operations, numeric for doubles. -/
def agrees (a b : Operation) : Bool := a.key = b.key && a.toBatchOp.agrees b.toBatchOp

end Operation

end UnitOfWork
