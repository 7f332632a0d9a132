import UnitOfWork.RowFormat.Integer
import UnitOfWork.Table.Entity
import UnitOfWork.Text.Utf8

/-!
The stored form of rows: texts, values and property sets, each written with a writer, read with a
reader that returns the bytes after it, and measured without being written.
-/

namespace UnitOfWork

open RowFormat

namespace RowFormat

/-- A byte string after its length. -/
def encodeBytes (bytes : List UInt8) : List UInt8 := encodeNat bytes.length ++ bytes

def decodeBytes (input : List UInt8) : Option (List UInt8 × List UInt8) := do
  let (length, rest) ← decodeNat 8 input
  takeBytes length rest

def bytesSize (length : Nat) : Nat := natSize length + length

/-- A text as the byte string of its UTF-8 form. -/
def encodeText (s : String) : List UInt8 := encodeBytes (Text.utf8 s)

def decodeText (input : List UInt8) : Option (String × List UInt8) := do
  let (bytes, rest) ← decodeBytes input
  let s ← Text.ofUtf8? bytes
  some (s, rest)

def textSize (s : String) : Nat := bytesSize s.utf8ByteSize

def decodeBool : List UInt8 → Option (Bool × List UInt8)
  | 0 :: rest => some (false, rest)
  | 1 :: rest => some (true, rest)
  | _ => none

end RowFormat

namespace Value

/-- The number of the variant, then its content. -/
def encode : Value → List UInt8
  | .text s => encodeNat 0 ++ encodeText s
  | .int32 n => encodeNat 1 ++ encodeNat (zigzag n.toInt)
  | .int64 n => encodeNat 2 ++ encodeNat (zigzag n.toInt)
  | .double d => encodeNat 3 ++ littleEndian 8 d.bits.toNat
  | .bool b => encodeNat 4 ++ [if b then 1 else 0]
  | .binary bytes => encodeNat 5 ++ encodeBytes bytes

def decode (input : List UInt8) : Option (Value × List UInt8) := do
  let (variant, rest) ← decodeNat 4 input
  match variant with
  | 0 => (decodeText rest).map fun (s, rest) => (.text s, rest)
  | 1 => (decodeNat 4 rest).map fun (n, rest) => (.int32 (Int32.ofInt (unzigzag n)), rest)
  | 2 => (decodeNat 8 rest).map fun (n, rest) => (.int64 (Int64.ofInt (unzigzag n)), rest)
  | 3 => (takeField 8 rest).map fun (n, rest) => (.double ⟨UInt64.ofNat n⟩, rest)
  | 4 => (decodeBool rest).map fun (b, rest) => (.bool b, rest)
  | 5 => (decodeBytes rest).map fun (bytes, rest) => (.binary bytes, rest)
  | _ => none

/-- The count of bytes `encode` takes. -/
def size : Value → Nat
  | .text s => 1 + textSize s
  | .int32 n => 1 + natSize (zigzag n.toInt)
  | .int64 n => 1 + natSize (zigzag n.toInt)
  | .double _ => 9
  | .bool _ => 2
  | .binary bytes => 1 + bytesSize bytes.length

end Value

namespace Properties

/-- The count of properties, then each name and value in name order. -/
def encode (p : Properties) : List UInt8 :=
  encodeNat p.entries.length ++
    p.entries.flatMap fun (name, value) => encodeText name ++ value.encode

/-- Adds `count` properties from the input; a name that comes again keeps its last value. -/
def decodeOnto : Nat → Properties → List UInt8 → Option (Properties × List UInt8)
  | 0, p, rest => some (p, rest)
  | count + 1, p, input => do
    let (name, rest) ← decodeText input
    let (value, rest) ← Value.decode rest
    decodeOnto count (p.insert name value) rest

def decode (input : List UInt8) : Option (Properties × List UInt8) := do
  let (count, rest) ← decodeNat 8 input
  decodeOnto count ∅ rest

/-- The count of bytes `encode` takes. -/
def size (p : Properties) : Nat :=
  natSize p.entries.length +
    (p.entries.map fun (name, value) => textSize name + value.size).foldr (· + ·) 0

end Properties

namespace Row

def encode (r : Row) : List UInt8 := encodeText r.token.text ++ Properties.encode r.properties

/-- Reads a row off the front of the input and leaves the rest. -/
def decodeFront (input : List UInt8) : Option (Row × List UInt8) := do
  let (token, rest) ← decodeText input
  let (properties, rest) ← Properties.decode rest
  some (⟨⟨token⟩, properties⟩, rest)

/-- The row at the front of the input; bytes after it are ignored. -/
def decode? (input : List UInt8) : Option Row := (decodeFront input).map (·.1)

end Row

end UnitOfWork
