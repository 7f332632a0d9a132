import UnitOfWork.SortedMap

/-! Property values and the property sets of rows. -/

namespace UnitOfWork

/-- A binary64 number, kept as its bits so that every pattern is told apart. -/
structure Double where
  bits : UInt64
deriving DecidableEq, Repr, Inhabited

namespace Double

def magnitude (d : Double) : UInt64 := d.bits &&& 0x7fffffffffffffff

/-- All exponent bits are set and the fraction is not zero. -/
def isNaN (d : Double) : Bool := d.magnitude > 0x7ff0000000000000

def isZero (d : Double) : Bool := d.magnitude = 0

/-- Numeric equality: a NaN equals nothing and the two zeros are equal. -/
def agrees (a b : Double) : Bool :=
  !a.isNaN && !b.isNaN && (a.bits = b.bits || (a.isZero && b.isZero))

end Double

/-- A property value. -/
inductive Value
  | text (s : String)
  | int32 (n : Int32)
  | int64 (n : Int64)
  | double (d : Double)
  | bool (b : Bool)
  | binary (bytes : List UInt8)
deriving DecidableEq, Inhabited

/-- Equality of values, numeric for doubles. -/
def Value.agrees : Value → Value → Bool
  | .double a, .double b => a.agrees b
  | a, b => a = b

/-- The properties of a row by name. -/
abbrev Properties := SortedMap String Value

namespace Properties

/-- Equality of property sets, numeric for doubles. -/
def agrees (p q : Properties) : Bool :=
  p.entries.length = q.entries.length &&
    (p.entries.zip q.entries).all fun (a, b) => a.1 = b.1 && a.2.agrees b.2

end Properties

end UnitOfWork
