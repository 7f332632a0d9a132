import UnitOfWork.RowFormat.Row
import UnitOfWork.Store.Error

/-! Single operations of a batch: their size and their effect on one row. -/

namespace UnitOfWork

/-- An operation on one row; all but inserts name the token that the row must carry. -/
inductive BatchOp
  | insert (row : String) (properties : Properties)
  | merge (row : String) (properties : Properties) (ifMatch : Token)
  | replace (row : String) (properties : Properties) (ifMatch : Token)
  | delete (row : String) (ifMatch : Token)
deriving DecidableEq, Inhabited

namespace BatchOp

open RowFormat

def row : BatchOp → String
  | .insert row _ | .merge row _ _ | .replace row _ _ | .delete row _ => row

def verb : BatchOp → String
  | .insert .. => "insert"
  | .merge .. => "merge"
  | .replace .. => "replace"
  | .delete .. => "delete"

/-- Equality of operations, numeric for doubles. -/
def agrees : BatchOp → BatchOp → Bool
  | .insert r p, .insert s q => r = s && p.agrees q
  | .merge r p t, .merge s q u => r = s && p.agrees q && t = u
  | .replace r p t, .replace s q u => r = s && p.agrees q && t = u
  | .delete r t, .delete s u => r = s && t = u
  | _, _ => false

/-- The variant's number and the fields in the row format. -/
def encode : BatchOp → List UInt8
  | .insert row p => encodeNat 0 ++ encodeText row ++ Properties.encode p
  | .merge row p t => encodeNat 1 ++ encodeText row ++ Properties.encode p ++ encodeText t.text
  | .replace row p t => encodeNat 2 ++ encodeText row ++ Properties.encode p ++ encodeText t.text
  | .delete row t => encodeNat 3 ++ encodeText row ++ encodeText t.text

/-- The count of bytes `encode` takes, which limits are about. -/
def payloadSize : BatchOp → Nat
  | .insert row p => 1 + textSize row + Properties.size p
  | .merge row p t | .replace row p t => 1 + textSize row + Properties.size p + textSize t.text
  | .delete row t => 1 + textSize row + textSize t.text

/-- The row after the operation, none if it is deleted, or why the operation does not apply. -/
def apply (op : BatchOp) (existing : Option Row) (version : UInt64) :
    Except Rejection (Option Row) :=
  match op, existing with
  | .insert _ _, some _ => .error .alreadyExists
  | .insert _ p, none => .ok (some ⟨Token.ofVersion version, p⟩)
  | _, none => .error .notFound
  | .merge _ p t, some r =>
    if r.token = t then .ok (some ⟨Token.ofVersion version, r.properties.override p⟩)
    else .error .preconditionFailed
  | .replace _ p t, some r =>
    if r.token = t then .ok (some ⟨Token.ofVersion version, p⟩) else .error .preconditionFailed
  | .delete _ t, some r => if r.token = t then .ok none else .error .preconditionFailed

end BatchOp

end UnitOfWork
