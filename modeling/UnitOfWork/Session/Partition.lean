import UnitOfWork.Digest.Sha256
import UnitOfWork.Session.Error

/-! The partition that a unit of work is bound to. -/

namespace UnitOfWork

/-- A partition of a table, both well named. -/
structure Partition where
  table : String
  key : String
  table_valid : ValidTableName table
  key_valid : ValidKey key
deriving DecidableEq

namespace Partition

def create (key table : String) : Except SessionError Partition :=
  match hk : checkKey "partition key" key, ht : checkTableName table with
  | .ok (), .ok () => .ok ⟨table, key, checkTableName_eq_ok_iff.1 ht, checkKey_eq_ok_iff.1 hk⟩
  | .error fault, _ | .ok (), .error fault => .error (.invalidKey fault)

/-- The partition whose key is the digest of some content in hexadecimal. -/
def derive (content : List UInt8) (table : String) : Except SessionError Partition :=
  create (Hex.encode (Sha256.digest content)) table

def text (p : Partition) : String := p.table ++ "/" ++ p.key

end Partition

end UnitOfWork
