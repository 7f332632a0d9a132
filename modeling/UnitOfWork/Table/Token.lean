import UnitOfWork.Text.Blank
import UnitOfWork.Text.Hex

/-! Concurrency tokens: what a row carries to say which write stamped it last. -/

namespace UnitOfWork

/-- An opaque mark of one state of a row; two states are the same exactly if their tokens are. -/
structure Token where
  text : String
deriving DecidableEq, Repr, Inhabited

namespace Token

/-- The token of the empty text, which no stored row carries. -/
def none : Token := ⟨""⟩

/-- The token a store stamps at a version: a weak validator of sixteen hexadecimal digits. -/
def ofVersion (version : UInt64) : Token :=
  ⟨"W/\"" ++ String.ofList (Hex.digits 16 version.toNat) ++ "\""⟩

def isBlank (t : Token) : Bool := Text.isBlank t.text

end Token

end UnitOfWork
