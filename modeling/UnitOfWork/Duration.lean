/-! Spans of time in whole nanoseconds and the text of a span. -/

namespace UnitOfWork

/-- A span of time; the nanoseconds are what exceeds the whole seconds. -/
structure Duration where
  seconds : Nat
  nanos : Nat
deriving DecidableEq, Repr, Inhabited

namespace Duration

def nanosPerSecond : Nat := 1000000000

/-- The longest span that can be asked for. -/
def longest : Duration := ⟨0xffffffffffffffff, 999999999⟩

def toNanos (d : Duration) : Nat := d.seconds * nanosPerSecond + d.nanos

def ofMillis (n : Nat) : Duration := ⟨n / 1000, n % 1000 * 1000000⟩

/-- Whole milliseconds, the rest cut off. -/
def toMillis (d : Duration) : Nat := d.seconds * 1000 + d.nanos / 1000000

/-- The digits of `n` after a point, `places` of them, without their trailing zeros. -/
def fraction (places n : Nat) : String :=
  let shown := (List.range places).reverse.map fun i => Nat.digitChar (n / Nat.pow 10 i % 10)
  let kept := (shown.reverse.dropWhile (· = '0')).reverse
  if kept.isEmpty then "" else "." ++ String.ofList kept

/-- The span in the largest unit of which it holds at least one, exact to the nanosecond. -/
def text (d : Duration) : String :=
  if d.seconds > 0 then toString d.seconds ++ fraction 9 d.nanos ++ "s"
  else if d.nanos ≥ 1000000 then
    toString (d.nanos / 1000000) ++ fraction 6 (d.nanos % 1000000) ++ "ms"
  else if d.nanos ≥ 1000 then toString (d.nanos / 1000) ++ fraction 3 (d.nanos % 1000) ++ "µs"
  else toString d.nanos ++ "ns"

end Duration

end UnitOfWork
