/-! Bounds on a batch. -/

namespace UnitOfWork

/-- The most operations and the most payload bytes of one batch. -/
structure Limits where
  operations : Nat := 100
  bytes : Nat := 4 * 1024 * 1024
deriving DecidableEq, Repr, Inhabited

namespace Limits

def min (a b : Limits) : Limits := ⟨Nat.min a.operations b.operations, Nat.min a.bytes b.bytes⟩

def admits (l : Limits) (operations bytes : Nat) : Bool :=
  operations ≤ l.operations && bytes ≤ l.bytes

end Limits

end UnitOfWork
