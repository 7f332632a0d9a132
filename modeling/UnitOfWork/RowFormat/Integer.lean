/-!
Integers in the row format: fixed little-endian fields, unsigned numbers of one to nine bytes, and
signed numbers folded into unsigned ones.
-/

namespace UnitOfWork.RowFormat

/-- The low `count` bytes of a number, the least significant first. -/
def littleEndian : Nat → Nat → List UInt8
  | 0, _ => []
  | count + 1, n => UInt8.ofNat n :: littleEndian count (n / 256)

/-- The number whose bytes are listed, the least significant first. -/
def ofLittleEndian (bytes : List UInt8) : Nat := bytes.foldr (fun b n => b.toNat + 256 * n) 0

/-- The first `count` bytes and the rest; none if there are fewer. -/
def takeBytes (count : Nat) (input : List UInt8) : Option (List UInt8 × List UInt8) :=
  let taken := input.take count
  if taken.length = count then some (taken, input.drop count) else none

/-- Reads a field of `count` bytes. -/
def takeField (count : Nat) (input : List UInt8) : Option (Nat × List UInt8) :=
  (takeBytes count input).map fun (bytes, rest) => (ofLittleEndian bytes, rest)

/-- One byte up to 250; above, a marker byte and a field of two, four or eight bytes. -/
def encodeNat (n : Nat) : List UInt8 :=
  if n ≤ 250 then [UInt8.ofNat n]
  else if n ≤ 0xffff then 251 :: littleEndian 2 n
  else if n ≤ 0xffffffff then 252 :: littleEndian 4 n
  else 253 :: littleEndian 8 n

/-- The count of bytes `encodeNat` takes. -/
def natSize (n : Nat) : Nat :=
  if n ≤ 250 then 1 else if n ≤ 0xffff then 3 else if n ≤ 0xffffffff then 5 else 9

/--
Reads a number whose field may have up to `width` bytes. A field wider than the number needs is
accepted.
-/
def decodeNat (width : Nat) : List UInt8 → Option (Nat × List UInt8)
  | [] => none
  | marker :: rest =>
    if marker ≤ 250 then some (marker.toNat, rest)
    else if marker = 251 ∧ 2 ≤ width then takeField 2 rest
    else if marker = 252 ∧ 4 ≤ width then takeField 4 rest
    else if marker = 253 ∧ 8 ≤ width then takeField 8 rest
    else none

/-- Folds the signed numbers into the unsigned ones: 0, -1, 1, -2 become 0, 1, 2, 3. -/
def zigzag (n : Int) : Nat := if 0 ≤ n then 2 * n.toNat else 2 * (-n).toNat - 1

def unzigzag (n : Nat) : Int := if n % 2 = 0 then (n / 2 : Nat) else -((n / 2 : Nat) + 1 : Int)

end UnitOfWork.RowFormat
