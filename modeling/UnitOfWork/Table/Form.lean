import UnitOfWork.Json.Form
import UnitOfWork.Table.Entity

/-! Values, tokens, rows and entities as documents. -/

namespace UnitOfWork

open Document

namespace Value

/-- An object with the value under the name of its type. -/
def write : Value → Document
  | .text s => .object [("String", .text s)]
  | .int32 n => .object [("Int32", .integer n.toInt)]
  | .int64 n => .object [("Int64", .integer n.toInt)]
  | .double d => .object [("Double", .double d)]
  | .bool b => .object [("Bool", .bool b)]
  | .binary bytes => .object [("Binary", .list (bytes.map fun b => .integer b.toNat))]

def read? : Document → Option Value
  | .object [("String", d)] => d.text?.map .text
  | .object [("Int32", d)] =>
    (d.intIn? (-0x80000000) 0x80000000).map fun n => .int32 (Int32.ofInt n)
  | .object [("Int64", d)] =>
    (d.intIn? (-0x8000000000000000) 0x8000000000000000).map fun n => .int64 (Int64.ofInt n)
  | .object [("Double", d)] => d.double?.map .double
  | .object [("Bool", d)] => d.bool?.map .bool
  | .object [("Binary", d)] => do
    let items ← d.list?
    (items.mapM byte?).map .binary
  | _ => none

instance : Documented Value := ⟨write, read?⟩

end Value

namespace Properties

def write (p : Properties) : Document := .object (p.entries.map fun (name, v) => (name, v.write))

def read? : Document → Option Properties
  | .object fields => do
    let pairs ← fields.mapM fun (name, d) => (Value.read? d).map fun v => (name, v)
    some (SortedMap.ofList pairs)
  | _ => none

end Properties

namespace Token

def write (t : Token) : Document := .text t.text

def read? (d : Document) : Option Token := d.text?.map Token.mk

instance : Documented Token := ⟨write, read?⟩

end Token

namespace EntityKey

def write (k : EntityKey) : Document :=
  .object [("partition_key", .text k.partition), ("row_key", .text k.row)]

def read? (d : Document) : Option EntityKey := do
  match ← d.record? ["partition_key", "row_key"] with
  | [partition, row] => some ⟨← required text? partition, ← required text? row⟩
  | _ => none

instance : Documented EntityKey := ⟨write, read?⟩

end EntityKey

namespace Row

def write (r : Row) : Document :=
  .object [("token", r.token.write), ("properties", Properties.write r.properties)]

def read? (d : Document) : Option Row := do
  match ← d.record? ["token", "properties"] with
  | [token, properties] =>
    some ⟨← required Token.read? token, ← required Properties.read? properties⟩
  | _ => none

instance : Documented Row := ⟨write, read?⟩

end Row

/-- A keyed property set, not yet stored. -/
structure Record where
  key : EntityKey
  properties : Properties := ∅
deriving DecidableEq, Inhabited

namespace Record

def set (r : Record) (name : String) (v : Value) : Record :=
  { r with properties := r.properties.insert name v }

def write (r : Record) : Document :=
  .object [("key", r.key.write), ("properties", Properties.write r.properties)]

def read? (d : Document) : Option Record := do
  match ← d.record? ["key", "properties"] with
  | [key, properties] =>
    some ⟨← required EntityKey.read? key, ← required Properties.read? properties⟩
  | _ => none

instance : Documented Record := ⟨write, read?⟩

end Record

end UnitOfWork
