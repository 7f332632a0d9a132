import UnitOfWork.Text.Utf8

/-!
Physical keys: the table, the partition key and the row key as one byte string, with a zero byte
after each of the first two.
-/

namespace UnitOfWork.PhysicalKey

/-- What every physical key of a partition begins with. -/
def partitionStart (table partition : String) : List UInt8 :=
  Text.utf8 table ++ 0 :: Text.utf8 partition ++ [0]

/-- The least byte string above all physical keys of a partition. -/
def partitionEnd (table partition : String) : List UInt8 :=
  Text.utf8 table ++ 0 :: Text.utf8 partition ++ [1]

def encode (table partition row : String) : List UInt8 :=
  partitionStart table partition ++ Text.utf8 row

/-- The bytes before and after the first zero byte. -/
def cut? : List UInt8 → Option (List UInt8 × List UInt8)
  | [] => none
  | b :: rest =>
    if b = 0 then some ([], rest) else (cut? rest).map fun (head, tail) => (b :: head, tail)

/-- The table, partition key and row key; only the first two zero bytes separate. -/
def decode? (key : List UInt8) : Option (String × String × String) := do
  let (table, rest) ← cut? key
  let (partition, row) ← cut? rest
  some (← Text.ofUtf8? table, ← Text.ofUtf8? partition, ← Text.ofUtf8? row)

/-- Whether a key is in the range from a partition's start up to its end, the end excluded. -/
def inPartition (table partition : String) (key : List UInt8) : Bool :=
  (compare (partitionStart table partition) key).isLE &&
    compare key (partitionEnd table partition) = .lt

end UnitOfWork.PhysicalKey
