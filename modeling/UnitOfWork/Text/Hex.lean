/-! Lower-case hexadecimal: of bytes, two digits each, and of numbers in a fixed width. -/

namespace UnitOfWork.Hex

/-- The digit of a number below 16; a larger number is taken modulo 16. -/
def digit (n : Nat) : Char :=
  let d := n % 16
  if d < 10 then Char.ofNat ('0'.toNat + d) else Char.ofNat ('a'.toNat + (d - 10))

def digitValue? (c : Char) : Option Nat :=
  if '0' ≤ c ∧ c ≤ '9' then some (c.toNat - '0'.toNat)
  else if 'a' ≤ c ∧ c ≤ 'f' then some (c.toNat - 'a'.toNat + 10)
  else none

/-- The last `count` digits of a number, the most significant first. -/
def digits : Nat → Nat → List Char
  | 0, _ => []
  | count + 1, n => digits count (n / 16) ++ [digit n]

def ofByte (b : UInt8) : List Char := [digit (b.toNat / 16), digit b.toNat]

/-- Two digits for each byte, the high half first. -/
def encode (bytes : List UInt8) : String := String.ofList (bytes.flatMap ofByte)

/-- Prepends the bytes that the digits spell to `done`, which lists earlier bytes last first. -/
def decodeOnto (done : List UInt8) : List Char → Option (List UInt8)
  | [] => some done.reverse
  | [_] => none
  | high :: low :: rest =>
    match digitValue? high, digitValue? low with
    | some h, some l => decodeOnto (UInt8.ofNat (16 * h + l) :: done) rest
    | _, _ => none

/-- The bytes that a text spells, if it has whole pairs of lower-case digits only. -/
def decode? (s : String) : Option (List UInt8) := decodeOnto [] s.toList

end UnitOfWork.Hex
