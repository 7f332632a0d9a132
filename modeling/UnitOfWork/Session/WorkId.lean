import UnitOfWork.Session.Manager
import UnitOfWork.Text.Hex

/-! Names of units of work made from random bytes. -/

namespace UnitOfWork.WorkId

/-- The bytes in groups of four, two, two, two and six, in hexadecimal with dashes between. -/
def grouped (bytes : List UInt8) : String :=
  "-".intercalate <|
    [(0, 4), (4, 2), (6, 2), (8, 2), (10, 6)].map fun (start, count) =>
      Hex.encode ((bytes.drop start).take count)

/-- The random identifier, version 4, of sixteen random bytes. -/
def ofRandom (bytes : List UInt8) : WorkId :=
  grouped <| bytes.mapIdx fun i b =>
    if i = 6 then (b &&& 0x0f) ||| 0x40 else if i = 8 then (b &&& 0x3f) ||| 0x80 else b

end UnitOfWork.WorkId
