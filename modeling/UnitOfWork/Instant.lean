import UnitOfWork.Duration

/-! Moments of the clock by which deadlines are told. -/

namespace UnitOfWork

/-- How many nanoseconds the clock can count; it keeps its seconds in 63 bits. -/
def Instant.limit : Nat := 0x8000000000000000 * Duration.nanosPerSecond

/--
A moment in nanoseconds since the start of the clock. There is a last moment, and a span may be
longer than all that is left.
-/
structure Instant where
  nanos : Nat
  isLt : nanos < Instant.limit
deriving DecidableEq, Repr

namespace Instant

def start : Instant := ⟨0, by decide⟩

/-- The moment after a span, if the clock can still tell it. -/
def after? (now : Instant) (d : Duration) : Option Instant :=
  if h : now.nanos + d.toNanos < limit then some ⟨_, h⟩ else none

end Instant

end UnitOfWork
